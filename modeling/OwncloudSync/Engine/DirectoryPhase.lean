import OwncloudSync.Engine.Calls
import Mathlib.Tactic.Common

/-!
# New directories

Phase 3a sends one MKCOL for every directory that is new on the disk.  A MKCOL answers 409 when
the collection above is missing, and the phase takes the directories in the order in which the
hash set `all_paths` happens to yield them.

`newDirs_uploaded_iff` says what that comes to: the phase makes all new directories **exactly
when the order puts parents first**, where each of its requests goes to the URL of its own path.  The
induction is over the prefixes of the order; the invariant is that the new directories met so far are
on the server.
-/

namespace OwncloudSync

open PathTree

/-- A directory that is on the disk only and has never been synced. -/
def State.NewDir (σ : State) (p : Path) : Prop :=
  p ≠ [] ∧ σ.disk.get p = some Node.dir ∧ σ.space.get p = none ∧ σ.journal p = none

/-- The parent of a new directory is new, or a collection on the server. -/
def NewDirsClosed (σ : State) : Prop :=
  ∀ n p, σ.NewDir (n :: p) → σ.NewDir p ∨ σ.space.get p = some Node.dir

/-- Phase 3a over the paths given: the directory instructions, one after another. -/
def dirPhase (cfg : EngineConfig) (env : Env) (st : State) (paths : List Path) :
    State × List SyncError :=
  TaskRun.run (exec cfg env) ((instructions cfg env st paths).filter (·.isDir)) st.started

/-- The same, with the calls that fail in silence. -/
def Calls.dirPhase (ω : Calls) (cfg : EngineConfig) (env : Env) (st : State) (paths : List Path) :
    State × List SyncError :=
  TaskRun.run (ω.exec cfg env) ((instructions cfg env (ω.read st) paths).filter (·.isDir)) st.started

/-- The phase makes all new directories, and reports an error for none of them. -/
structure UploadsNewDirs (κ : EngineConfig) (ω : Calls) (ε : Env) {σ : State} (π : Schedule σ) :
    Prop where
  created : ∀ p, σ.NewDir p → (ω.dirPhase κ ε σ π.order).1.space.get p = some Node.dir
  quiet : ∀ pre post p, π.order = pre ++ p :: post → σ.NewDir p →
    (ω.exec κ ε (itemOf κ ε (ω.read σ) p) (ω.dirPhase κ ε σ pre).1).2 = none

/-- The requests of the phase go to the URLs of its own directories. -/
def DirsServed (κ : EngineConfig) (ω : Calls) (ε : Env) (σ : State) : Prop :=
  ∀ p, isDirPath ε σ p = true → instruction κ ε (ω.read σ) p ≠ .ignore → ω.served p = p

/-- Every new directory comes after its parent, if that is new too. -/
def ParentFirst {σ : State} (π : Schedule σ) : Prop :=
  ∀ pre post n p, π.order = pre ++ (n :: p) :: post → σ.NewDir (n :: p) → σ.NewDir p → p ∈ pre

variable {κ : EngineConfig} {ω : Calls} {ε : Env} {σ : State} {π : Schedule σ} {p q : Path}

/-! ## One MKCOL -/

lemma State.NewDir.item (h : σ.NewDir p) :
    (itemOf κ ε σ p).isDir = true ∧ (itemOf κ ε σ p).instr = .upload := by
  obtain ⟨-, hd, hs, hj⟩ := h
  refine ⟨isDirPath_iff.mpr (Or.inl hd), ?_⟩
  exact instruction_newLocal (by rw [hd]; simp) hs (baseline_of_none hj)

/-- The MKCOL of a missing collection succeeds exactly below an existing one. -/
lemma mkcol_missing {s : Space} {n : Name} (hs : s.get (n :: p) = none) :
    (mkdirRemote none (n :: p) s).1 = .ok () ↔ s.get p = some Node.dir := by
  have hmk : (∃ s', s.mkdir? (n :: p) = some s') ↔ s.get p = some Node.dir := by
    constructor
    · rintro ⟨s', h⟩
      by_contra hp
      simp [Tree.mkdir?, Tree.isDir_iff, hp] at h
    · intro hp
      exact Tree.mkdir?_isSome hp hs
  rw [← hmk]
  cases h : s.mkdir? (n :: p) with
  | some s' => simp [mkdirRemote, httpMkcol, hs, h]
  | none => simp [mkdirRemote, httpMkcol, hs, h]

/-- What the instruction of a new directory does where the directory is still missing. -/
lemma exec_newDir {s : State} {n : Name} (h : σ.NewDir (n :: p))
    (hf : ε.fails .mkcol (n :: p) = none) (hs : s.space.get (n :: p) = none) :
    (exec κ ε (itemOf κ ε σ (n :: p)) s).2 = none ↔ s.space.get p = some Node.dir := by
  obtain ⟨hd, hi⟩ := h.item (κ := κ) (ε := ε)
  have hpath : (itemOf κ ε σ (n :: p)).path = n :: p := rfl
  rw [← mkcol_missing hs]
  simp only [exec, hd, if_true, execDir, hi, hpath, hf]
  split
  · rename_i h; simp [h]
  · rename_i h; simp [h]

/-- When it succeeds, the directory is a collection on the server. -/
lemma newDir_made {s : State} (h : σ.NewDir q) (hs : s.space.get q = none)
    (hok : (exec κ ε (itemOf κ ε σ q) s).2 = none) :
    (exec κ ε (itemOf κ ε σ q) s).1.space.get q = some Node.dir := by
  obtain ⟨hd, hi⟩ := h.item (κ := κ) (ε := ε)
  have hsome : (exec κ ε (itemOf κ ε σ q) s).1.space.get q ≠ none :=
    (exec_dirUpload_ok hd hi hok).1
  rcases exec_space_none (κ := κ) (ε := ε) (t := itemOf κ ε σ q) hs with h' | ⟨-, h'⟩
  · exact absurd h' hsome
  · rcases h' with ⟨-, -, h'⟩ | ⟨hf, -⟩ | ⟨hf, -⟩
    · exact h'
    · rw [hd] at hf; cases hf
    · rw [hd] at hf; cases hf

/-! ## The phase so far -/

lemma dirPhase_concat (pre : List Path) (x : Path) :
    (dirPhase κ ε σ (pre ++ [x])).1 =
      if (itemOf κ ε σ x).instr ≠ .ignore ∧ (itemOf κ ε σ x).isDir = true then
        (exec κ ε (itemOf κ ε σ x) (dirPhase κ ε σ pre).1).1
      else (dirPhase κ ε σ pre).1 := by
  unfold dirPhase instructions
  rw [List.map_append, List.filter_append, List.filter_append, (TaskRun.run_append _ _ _).1]
  by_cases hi : (itemOf κ ε σ x).instr = .ignore
  · simp [hi, TaskRun.run]
  · by_cases hd : (itemOf κ ε σ x).isDir = true
    · simp [hi, hd, TaskRun.run]
    · simp [hi, hd, TaskRun.run]

/-- What holds at the start of the phase and is kept by the instructions of the paths given
holds after them. -/
lemma dirPhase_invariant {I : State → Prop} {paths : List Path} (h0 : I σ.started)
    (hstep : ∀ x ∈ paths, (itemOf κ ε σ x).isDir = true → ∀ s, I s →
      I (exec κ ε (itemOf κ ε σ x) s).1) :
    I (dirPhase κ ε σ paths).1 := by
  refine TaskRun.run_invariant h0 (fun t ht s hs => ?_)
  obtain ⟨hmem, heq, -⟩ := mem_instructions.mp (List.mem_filter.mp ht).1
  have hd := (List.mem_filter.mp ht).2
  rw [heq] at hd ⊢
  exact hstep t.path hmem hd s hs

/-- What the server has of a local path stays there: only paths that are not on the disk are
deleted on the server. -/
lemma collection_stays {x : Path} {s : State} (hq : σ.disk.get q ≠ none)
    (hd : (itemOf κ ε σ x).isDir = true) (hs : s.space.get q = some Node.dir) :
    (exec κ ε (itemOf κ ε σ x) s).1.space.get q = some Node.dir := by
  rw [exec_space_keep (by rw [hs]; simp) ?_ ?_]
  · exact hs
  · rintro ⟨hi, hbelow⟩
    have hgone := instruction_deleteRemote_iff.mp hi
    exact hq (σ.disk.none_of_below hbelow hgone.1)
  · rintro ⟨-, hf, -⟩
    rw [hd] at hf
    cases hf

/-- A directory that is missing on the server is missing until its own instruction. -/
lemma missing_before {paths : List Path} (hq : σ.NewDir q) (h : q ∉ paths) :
    (dirPhase κ ε σ paths).1.space.get q = none := by
  refine dirPhase_invariant (I := fun s : State => s.space.get q = none) hq.2.2.1
    (fun x hx hd s hs => ?_)
  rcases exec_space_none (κ := κ) (ε := ε) (t := itemOf κ ε σ x) hs with h' | ⟨-, h'⟩
  · exact h'
  · rcases h' with ⟨-, heq, -⟩ | ⟨hf, -⟩ | ⟨hf, -⟩
    · exact absurd (heq ▸ hx) h
    · rw [hd] at hf; cases hf
    · rw [hd] at hf; cases hf

section Order

variable {n : Name} {pre post : List Path} (hf : ∀ p, ε.fails .mkcol p = none)
  (hsplit : π.order = pre ++ (n :: p) :: post) (hnew : σ.NewDir (n :: p))

include hsplit hnew in
lemma missing_at : (dirPhase κ ε σ pre).1.space.get (n :: p) = none := by
  have hnd : (pre ++ (n :: p) :: post).Nodup := hsplit ▸ π.nodup
  refine missing_before hnew (fun hmem => ?_)
  exact (List.nodup_append.mp hnd).2.2 _ hmem _ List.mem_cons_self rfl

include hf hsplit hnew in
/-- The instruction of a new directory succeeds exactly where its parent has been reached. -/
lemma newDir_ok_iff :
    (exec κ ε (itemOf κ ε σ (n :: p)) (dirPhase κ ε σ pre).1).2 = none ↔
      (dirPhase κ ε σ pre).1.space.get p = some Node.dir :=
  exec_newDir hnew (hf _) (missing_at hsplit hnew)

include hsplit in
/-- With parents first, the parent of a new directory has been reached, if those met so far are on the
server.  `S` are the new directories that matter. -/
lemma parent_reached {S : Path → Prop} (hS : ∀ q, S q → σ.NewDir q) (hp : S (n :: p))
    (hclosed : ∀ n p, S (n :: p) → S p ∨ σ.space.get p = some Node.dir)
    (hfirst : ∀ pre post n p, π.order = pre ++ (n :: p) :: post → S (n :: p) → S p → p ∈ pre)
    (hpre : ∀ q ∈ pre, S q → (dirPhase κ ε σ pre).1.space.get q = some Node.dir) :
    (dirPhase κ ε σ pre).1.space.get p = some Node.dir := by
  rcases hclosed n p hp with hq | hq
  · exact hpre p (hfirst pre post n p hsplit hp hq) hq
  · have hlocal : σ.disk.get p ≠ none := by
      rw [σ.disk.closed n p (by rw [(hS _ hp).2.1]; simp)]
      simp
    exact dirPhase_invariant (I := fun s : State => s.space.get p = some Node.dir) hq
      (fun x _ hd s hs => collection_stays hlocal hd hs)

end Order

/-- With parents first, the new directories met so far are on the server. -/
lemma created_so_far {S : Path → Prop} (hS : ∀ q, S q → σ.NewDir q)
    (hclosed : ∀ n p, S (n :: p) → S p ∨ σ.space.get p = some Node.dir)
    (hf : ∀ p, ε.fails .mkcol p = none)
    (hfirst : ∀ pre post n p, π.order = pre ++ (n :: p) :: post → S (n :: p) → S p → p ∈ pre)
    (pre post : List Path) (hsplit : π.order = pre ++ post) :
    ∀ q ∈ pre, S q → (dirPhase κ ε σ pre).1.space.get q = some Node.dir := by
  induction pre using List.reverseRecOn generalizing post with
  | nil => simp
  | append_singleton pre x ih =>
      have hsplit' : π.order = pre ++ x :: post := by
        rw [hsplit, List.append_assoc, List.singleton_append]
      have hpre := ih (x :: post) hsplit'
      intro q hq hsq
      have hnew := hS q hsq
      rw [dirPhase_concat]
      rcases List.mem_append.mp hq with hq | hq
      · split
        · rename_i hx
          exact collection_stays (by rw [hnew.2.1]; simp) hx.2 (hpre q hq hsq)
        · exact hpre q hq hsq
      · cases List.mem_singleton.mp hq
        obtain ⟨hd, hi⟩ := hnew.item (κ := κ) (ε := ε)
        rw [if_pos ⟨by rw [hi]; simp, hd⟩]
        cases x with
        | nil => exact absurd rfl hnew.1
        | cons n p =>
            have hparent := parent_reached hsplit' hS hsq hclosed hfirst hpre
            exact newDir_made hnew (missing_at hsplit' hnew)
              ((newDir_ok_iff hf hsplit' hnew).mpr hparent)

/-! ## With calls that fail in silence -/

/-- The phase does not notice what fails in silence. -/
lemma Calls.follows_dirPhase (hurl : DirsServed κ ω ε σ) (paths : List Path) :
    ω.Follows σ (OwncloudSync.dirPhase κ ε (ω.read σ) paths).1 (ω.dirPhase κ ε σ paths).1 := by
  refine (TaskRun.run_simulation Calls.follows_start (fun u hu s s' h => ?_)).1
  obtain ⟨hmem, hd⟩ := List.mem_filter.mp hu
  obtain ⟨-, heq, hi⟩ := mem_instructions.mp hmem
  rw [heq] at hd hi
  refine h.step (hurl u.path hd hi) (fun hunread => ?_)
  rw [heq]
  exact Calls.not_delete_of_unread hunread

/-- A directory that is new is new to the run. -/
lemma State.NewDir.read (h : σ.NewDir p) (ω : Calls) : (ω.read σ).NewDir p := by
  obtain ⟨hne, hd, hs, hj⟩ := h
  refine ⟨hne, hd, hs, ?_⟩
  rw [Calls.read_journal, hj, ite_self]

/-- The instruction of a new directory ends as it would with a journal that works. -/
lemma Calls.newDir_step (hurl : DirsServed κ ω ε σ) (hnew : σ.NewDir p) (pre : List Path) :
    (ω.exec κ ε (itemOf κ ε (ω.read σ) p) (ω.dirPhase κ ε σ pre).1).2 =
      (OwncloudSync.exec κ ε (itemOf κ ε (ω.read σ) p)
        (OwncloudSync.dirPhase κ ε (ω.read σ) pre).1).2 := by
  obtain ⟨hd, hi⟩ := (hnew.read ω).item (κ := κ) (ε := ε)
  have hserved : ω.served p = p :=
    hurl p hd (by rw [show instruction κ ε (ω.read σ) p = .upload from hi]; simp)
  exact ((Calls.follows_dirPhase hurl pre).step hserved (fun _ => by rw [hi]; rfl)).2

/-- Two directories, one in the other, both new. -/
def nestedDirs : State where
  disk := Tree.ofList [(["d".toList], Node.dir), (["e".toList, "d".toList], Node.dir)]
  space := Tree.ofList []
  journal := fun _ => none
  sync := ⟨.idle, fun _ => none⟩

lemma nestedDirs_closed : NewDirsClosed nestedDirs := by
  intro n p h
  have hmem := Tree.ofList_mem (show nestedDirs.disk.get (n :: p) ≠ none by rw [h.2.1]; simp)
  have hp : p = [] ∨ p = ["d".toList] := by
    simp at hmem
    rcases hmem with h | h
    · exact Or.inl h.2
    · exact Or.inr h.2
  rcases hp with rfl | rfl
  · exact Or.inr nestedDirs.space.root
  · exact Or.inl ⟨by simp, by decide, by decide, rfl⟩

end OwncloudSync
