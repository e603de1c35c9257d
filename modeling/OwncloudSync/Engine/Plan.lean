import OwncloudSync.Engine.RunSync
import Mathlib.Data.List.Dedup
import Mathlib.Tactic.Common

/-!
# The plan of a run

What phases 1 and 2 decide, in terms of the two trees and the journal.

**Instructions.**  `instruction_deleteLocal_iff` and its siblings restate `reconcile` for a path
of the state: which side holds it and whether the journal has a baseline for it.

**Tasks.**  A run executes one item for every discovered path that is not ignored, and no other:
`mem_tasks`, with `tasks_nodup` and `eq_of_path` saying that a path has one task only.

**Schedules.**  Trees are finite, so there is a schedule (`Schedule.exists`), and any path may be
among the first whose file tasks run (`Schedule.first`).

**The report.**  `errorFree_iff` says that a run which reports no errors is one whose tasks all
succeeded; `runSync_discovery` that the trees and the journal it leaves are those the tasks left.
-/

namespace OwncloudSync

open PathTree

variable {κ : EngineConfig} {ε : Env} {σ : State} {p q : Path}

/-! ## Entries -/

@[simp] lemma localEntry_eq_none : localEntry σ p = none ↔ σ.disk.get p = none := by
  unfold localEntry
  split <;> simp_all

@[simp] lemma remoteEntry_eq_none : remoteEntry ε σ p = none ↔ σ.space.get p = none := by
  unfold remoteEntry
  split <;> simp_all

lemma localEntry_file {a : LocalFile} (h : σ.disk.get p = some (Node.file a)) :
    localEntry σ p = some ⟨pathStr p, a.mtime, a.content.len, false⟩ := by
  unfold localEntry
  rw [h]

lemma localEntry_dir (h : σ.disk.get p = some Node.dir) :
    localEntry σ p = some ⟨pathStr p, 0, 0, true⟩ := by
  unfold localEntry
  rw [h]

lemma remoteEntry_file {r : RemoteFile} (h : σ.space.get p = some (Node.file r)) :
    remoteEntry ε σ p =
      some ⟨pathStr p, trimQuotes r.etag, r.content.len, ε.fileId p, false⟩ := by
  unfold remoteEntry
  rw [h]

lemma remoteEntry_dir (h : σ.space.get p = some Node.dir) :
    remoteEntry ε σ p = some ⟨pathStr p, trimQuotes (ε.dirEtag p), 0, ε.fileId p, true⟩ := by
  unfold remoteEntry
  rw [h]

/-- A path is handled as a directory when it is one locally, or remotely with nothing local. -/
lemma isDirPath_iff : isDirPath ε σ p = true ↔
    σ.disk.get p = some Node.dir ∨ (σ.disk.get p = none ∧ σ.space.get p = some Node.dir) := by
  unfold isDirPath localEntry remoteEntry
  cases σ.disk.get p with
  | none => cases σ.space.get p with
    | none => simp
    | some y => cases y <;> simp
  | some x => cases x <;> simp

lemma isDirPath_eq_false : isDirPath ε σ p = false ↔
    σ.disk.get p ≠ some Node.dir ∧ (σ.disk.get p = none → σ.space.get p ≠ some Node.dir) := by
  rw [← Bool.not_eq_true, isDirPath_iff, not_or, not_and]

/-- A local path that is handled as a file is one. -/
lemma exists_localFile (hf : isDirPath ε σ p = false) (hd : σ.disk.get p ≠ none) :
    ∃ a, σ.disk.get p = some (Node.file a) := by
  cases hx : σ.disk.get p with
  | none => exact absurd hx hd
  | some x =>
      cases x with
      | dir => exact absurd hx (isDirPath_eq_false.mp hf).1
      | file a => exact ⟨a, rfl⟩

/-! ## Instructions -/

/-- The path is on the disk only, and was synced before: its instruction is `DeleteLocal`. -/
def State.GoneRemotely (σ : State) (p : Path) : Prop :=
  σ.disk.get p ≠ none ∧ σ.space.get p = none ∧ σ.journal.baseline p ≠ none

/-- The path is on the server only, and was synced before: its instruction is
`DeleteRemote`. -/
def State.GoneLocally (σ : State) (p : Path) : Prop :=
  σ.disk.get p = none ∧ σ.space.get p ≠ none ∧ σ.journal.baseline p ≠ none

lemma instruction_deleteLocal_iff :
    instruction κ ε σ p = .deleteLocal ↔ σ.GoneRemotely p := by
  rw [instruction, reconcile_deleteLocal_iff, Ne, localEntry_eq_none, remoteEntry_eq_none]
  rfl

lemma instruction_deleteRemote_iff :
    instruction κ ε σ p = .deleteRemote ↔ σ.GoneLocally p := by
  rw [instruction, reconcile_deleteRemote_iff, localEntry_eq_none, Ne, remoteEntry_eq_none]
  rfl

lemma instruction_isDelete_iff :
    (instruction κ ε σ p).isDelete = true ↔ σ.GoneRemotely p ∨ σ.GoneLocally p := by
  rw [instruction, reconcile_isDelete_iff, Ne, Ne, Ne, localEntry_eq_none, remoteEntry_eq_none]
  unfold State.GoneRemotely State.GoneLocally
  tauto

/-- What is not deleted is transferred, in conflict or ignored. -/
lemma instruction_not_delete (h : (instruction κ ε σ p).isDelete = false) :
    instruction κ ε σ p = .upload ∨ instruction κ ε σ p = .download ∨
      instruction κ ε σ p = .conflict ∨ instruction κ ε σ p = .ignore := by
  have hrange : instruction κ ε σ p ∈
      [SyncInstruction.upload, .download, .deleteLocal, .deleteRemote, .conflict, .ignore] :=
    reconcile_range
  generalize instruction κ ε σ p = i at h hrange
  cases i <;> simp_all [SyncInstruction.isDelete]

/-- A present path that is not deleted has no baseline, or is on both sides. -/
lemma both_of_not_delete (hpres : σ.disk.get p ≠ none ∨ σ.space.get p ≠ none)
    (h : (instruction κ ε σ p).isDelete = false) (hb : σ.journal.baseline p ≠ none) :
    σ.disk.get p ≠ none ∧ σ.space.get p ≠ none := by
  have hnot : ¬ (σ.GoneRemotely p ∨ σ.GoneLocally p) := by
    rw [← instruction_isDelete_iff (κ := κ) (ε := ε), h]
    simp
  unfold State.GoneRemotely State.GoneLocally at hnot
  tauto

lemma instruction_upload (h : instruction κ ε σ p = .upload) : σ.disk.get p ≠ none := by
  rw [Ne, ← localEntry_eq_none]
  exact reconcile_upload h

lemma instruction_download (h : instruction κ ε σ p = .download) :
    σ.space.get p ≠ none := by
  rw [Ne, ← remoteEntry_eq_none (ε := ε)]
  exact reconcile_download h

lemma instruction_conflict (h : instruction κ ε σ p = .conflict) :
    σ.disk.get p ≠ none ∧ σ.space.get p ≠ none := by
  rw [Ne, Ne, ← localEntry_eq_none, ← remoteEntry_eq_none (ε := ε)]
  exact reconcile_conflict h

/-- A file that is on the disk only and has no baseline is uploaded. -/
lemma instruction_newLocal (hd : σ.disk.get p ≠ none) (hs : σ.space.get p = none)
    (hb : σ.journal.baseline p = none) : instruction κ ε σ p = .upload := by
  rw [instruction, remoteEntry_eq_none.mpr hs, hb]
  cases hl : localEntry σ p with
  | none => exact absurd (localEntry_eq_none.mp hl) hd
  | some l => rfl

lemma instruction_newRemote (hd : σ.disk.get p = none) (hs : σ.space.get p ≠ none)
    (hb : σ.journal.baseline p = none) : instruction κ ε σ p = .download := by
  rw [instruction, localEntry_eq_none.mpr hd, hb]
  cases hr : remoteEntry ε σ p with
  | none => exact absurd (remoteEntry_eq_none.mp hr) hs
  | some r => rfl

/-- On both sides without a baseline: a conflict. -/
lemma instruction_unknown (hd : σ.disk.get p ≠ none) (hs : σ.space.get p ≠ none)
    (hb : σ.journal.baseline p = none) : instruction κ ε σ p = .conflict := by
  rw [instruction, hb]
  cases hl : localEntry σ p with
  | none => exact absurd (localEntry_eq_none.mp hl) hd
  | some l =>
      cases hr : remoteEntry ε σ p with
      | none => exact absurd (remoteEntry_eq_none.mp hr) hs
      | some r => rfl

/-- Two files that agree with the baseline are ignored, and nothing else on both sides is. -/
lemma instruction_ignore_files {a : LocalFile} {r : RemoteFile}
    (hd : σ.disk.get p = some (Node.file a)) (hs : σ.space.get p = some (Node.file r)) :
    instruction κ ε σ p = .ignore ↔
      σ.journal.baseline p = some (trimQuotes r.etag, a.content.len) := by
  have hl := localEntry_file hd
  have hr := remoteEntry_file (ε := ε) hs
  rw [instruction, reconcile_ignore_iff (Or.inl (by rw [hl]; simp)), hl, hr]
  constructor
  · rintro ⟨l, r', hl', hr', hj⟩
    cases hl'
    cases hr'
    exact hj
  · intro hj
    exact ⟨_, _, rfl, rfl, hj⟩

/-- Where the server has no collection, the instruction does not depend on what the run is
told about collections. -/
lemma instruction_env (ε' : Env) (h : σ.space.get p ≠ some Node.dir) :
    instruction κ ε σ p = instruction κ ε' σ p := by
  unfold instruction
  cases hs : σ.space.get p with
  | none => rw [remoteEntry_eq_none.mpr hs, remoteEntry_eq_none.mpr hs]
  | some x =>
      cases x with
      | dir => exact absurd hs h
      | file r =>
          rw [remoteEntry_file hs, remoteEntry_file hs]
          cases localEntry σ p with
          | none => cases σ.journal.baseline p <;> rfl
          | some l => cases σ.journal.baseline p <;> rfl

/-! ## Schedules -/

/-- Trees are finite, so their paths can be enumerated. -/
theorem Schedule.exists (σ : State) : Nonempty (Schedule σ) := by
  classical
  obtain ⟨ps, hps⟩ := σ.disk.finite
  obtain ⟨qs, hqs⟩ := σ.space.finite
  let present := fun p : Path => decide (p ≠ [] ∧ (σ.disk.get p ≠ none ∨ σ.space.get p ≠ none))
  let order := ((ps ++ qs).filter present).dedup
  refine ⟨⟨order, order, List.nodup_dedup _, fun p => ?_, List.Perm.refl _⟩⟩
  rw [List.mem_dedup, List.mem_filter, List.mem_append, decide_eq_true_eq]
  constructor
  · exact fun h => h.2
  · rintro ⟨hne, h⟩
    exact ⟨h.imp (hps p) (hqs p), hne, h⟩

/-- The schedule that takes the listed paths in the order given, for trees built from lists. -/
def Schedule.ofList (σ : State) {ds : List (Path × Node LocalFile)}
    {ss : List (Path × Node RemoteFile)} (hd : σ.disk = Tree.ofList ds)
    (hs : σ.space = Tree.ofList ss) (order : List Path) (nodup : order.Nodup)
    (sound : ∀ p ∈ order, p ≠ [] ∧ (σ.disk.get p ≠ none ∨ σ.space.get p ≠ none))
    (complete : ∀ p ∈ ds.map Prod.fst ++ ss.map Prod.fst, p ∈ order) : Schedule σ where
  order := order
  finish := order
  nodup := nodup
  mem_iff p := by
    refine ⟨sound p, fun ⟨hne, h⟩ => complete p (List.mem_append.mpr ?_)⟩
    rw [hd, hs] at h
    rcases h with h | h
    · exact Or.inl ((Tree.ofList_mem h).resolve_left hne)
    · exact Or.inr ((Tree.ofList_mem h).resolve_left hne)
  perm := List.Perm.refl _

/-- Any discovered paths may be the first whose file tasks run. -/
def Schedule.first (π : Schedule σ) (ps : List Path) (hnd : ps.Nodup)
    (hps : ∀ p ∈ ps, p ∈ π.order) : Schedule σ where
  order := π.order
  finish := ps ++ π.order.filter (fun p => p ∉ ps)
  nodup := π.nodup
  mem_iff := π.mem_iff
  perm := by
    have hnd' : (ps ++ π.order.filter (fun p => p ∉ ps)).Nodup := by
      refine List.Nodup.append hnd (π.nodup.filter _) (fun p hp hf => ?_)
      rw [List.mem_filter, decide_eq_true_eq] at hf
      exact hf.2 hp
    refine (List.perm_ext_iff_of_nodup hnd' π.nodup).mpr (fun p => ?_)
    rw [List.mem_append, List.mem_filter, decide_eq_true_eq]
    constructor
    · rintro (hp | hp)
      · exact hps p hp
      · exact hp.1
    · intro hp
      by_cases hmem : p ∈ ps
      · exact Or.inl hmem
      · exact Or.inr ⟨hp, hmem⟩

/-! ## Tasks -/

variable {π : Schedule σ} {t : Item}

lemma itemOf_inj (h : itemOf κ ε σ p = itemOf κ ε σ q) : p = q :=
  congrArg Item.path h

lemma mem_instructions {paths : List Path} : t ∈ instructions κ ε σ paths ↔
    t.path ∈ paths ∧ t = itemOf κ ε σ t.path ∧ t.instr ≠ .ignore := by
  simp only [instructions, List.mem_filter, List.mem_map, decide_eq_true_eq]
  constructor
  · rintro ⟨⟨p, hp, rfl⟩, hi⟩
    exact ⟨hp, rfl, hi⟩
  · rintro ⟨hp, he, hi⟩
    exact ⟨⟨t.path, hp, he.symm⟩, hi⟩

/-- **The tasks of a run**: one for every discovered path that is not ignored. -/
lemma mem_tasks : t ∈ tasks κ ε π ↔
    (t.path ≠ [] ∧ (σ.disk.get t.path ≠ none ∨ σ.space.get t.path ≠ none)) ∧
      t = itemOf κ ε σ t.path ∧ t.instr ≠ .ignore := by
  rw [tasks, List.mem_append, List.mem_filter, List.mem_filter, mem_instructions,
    mem_instructions, π.perm.mem_iff, ← π.mem_iff]
  cases t.isDir <;> simp

lemma instructions_nodup {paths : List Path} (h : paths.Nodup) :
    (instructions κ ε σ paths).Nodup :=
  ((List.nodup_map_iff (fun _ _ => itemOf_inj)).mpr h).filter _

lemma tasks_nodup : (tasks κ ε π).Nodup := by
  refine List.Nodup.append ((instructions_nodup π.nodup).filter _)
    ((instructions_nodup (π.perm.nodup_iff.mpr π.nodup)).filter _) ?_
  intro t h₁ h₂
  rw [List.mem_filter] at h₁ h₂
  rw [h₁.2] at h₂
  cases h₂.2

/-- What a task of a run knows about its path. -/
lemma item_of_mem (h : t ∈ tasks κ ε π) :
    t.path ≠ [] ∧ t.instr = instruction κ ε σ t.path ∧
      t.isDir = isDirPath ε σ t.path ∧ t.rem = remoteEntry ε σ t.path := by
  obtain ⟨⟨hne, -⟩, he, -⟩ := mem_tasks.mp h
  refine ⟨hne, ?_, ?_, ?_⟩
  · rw [he]; rfl
  · rw [he]; rfl
  · rw [he]; rfl

/-- A path has one task only. -/
lemma eq_of_path {u : Item} (h : t ∈ tasks κ ε π) (hu : u ∈ tasks κ ε π)
    (hp : u.path = t.path) : u = t := by
  rw [(mem_tasks.mp h).2.1, (mem_tasks.mp hu).2.1, hp]

/-- The tasks before and after a task are about other paths. -/
lemma path_ne_of_split {pre post : List Item} (h : tasks κ ε π = pre ++ t :: post)
    {u : Item} (hu : u ∈ pre ∨ u ∈ post) : u.path ≠ t.path := by
  have hmem : ∀ v, v ∈ pre ++ t :: post → v ∈ tasks κ ε π := fun v hv => h ▸ hv
  have hnd : (pre ++ t :: post).Nodup := h ▸ tasks_nodup
  intro hp
  have heq := eq_of_path (hmem t (by simp)) (hmem u (by
    rcases hu with hu | hu <;> simp [hu])) hp
  subst heq
  rcases hu with hu | hu
  · exact (List.nodup_append.mp hnd).2.2 u hu u (by simp) rfl
  · exact (List.nodup_cons.mp (List.nodup_append.mp hnd).2.1).1 hu

lemma path_ne_of_before {pre post : List Item} (h : tasks κ ε π = pre ++ t :: post)
    {u : Item} (hu : u ∈ pre) : u.path ≠ t.path := path_ne_of_split h (Or.inl hu)

lemma mem_of_split {pre post : List Item} (h : tasks κ ε π = pre ++ t :: post) :
    t ∈ tasks κ ε π := by rw [h]; simp

lemma mem_of_pre {pre post : List Item} (h : tasks κ ε π = pre ++ t :: post) :
    ∀ u ∈ pre, u ∈ tasks κ ε π := by
  intro u hu
  rw [h]
  simp [hu]

lemma mem_of_concat {pre post : List Item} (h : tasks κ ε π = pre ++ t :: post) :
    ∀ u ∈ pre ++ [t], u ∈ tasks κ ε π := by
  intro u hu
  rw [h, List.append_cons]
  exact List.mem_append_left post hu

/-- All directory instructions come before the file tasks. -/
lemma isDir_of_before {pre post : List Item} (h : tasks κ ε π = pre ++ t :: post)
    (hd : t.isDir = true) : ∀ u ∈ pre, u.isDir = true := by
  have hpw : (tasks κ ε π).Pairwise (fun a b => b.isDir = true → a.isDir = true) := by
    rw [tasks, List.pairwise_append]
    refine ⟨?_, ?_, ?_⟩
    · exact List.pairwise_of_forall_mem_list (fun a ha _ _ _ => (List.mem_filter.mp ha).2)
    · refine List.pairwise_of_forall_mem_list (fun _ _ b hb hbd => ?_)
      have := (List.mem_filter.mp hb).2
      rw [hbd] at this
      cases this
    · exact fun a ha _ _ _ => (List.mem_filter.mp ha).2
  rw [h] at hpw
  intro u hu
  exact (List.pairwise_append.mp hpw).2.2 u hu t (by simp) hd

/-- The task of a discovered path. -/
lemma itemOf_mem_tasks (hne : p ≠ []) (hpres : σ.disk.get p ≠ none ∨ σ.space.get p ≠ none)
    (hi : instruction κ ε σ p ≠ .ignore) : itemOf κ ε σ p ∈ tasks κ ε π :=
  mem_tasks.mpr ⟨⟨hne, hpres⟩, rfl, hi⟩

/-- File tasks that are scheduled first run right after the directory phase, in their order. -/
lemma tasks_first {ps : List Path} (hnd : ps.Nodup) (hps : ∀ p ∈ ps, p ∈ π.order)
    (hdir : ∀ p ∈ ps, isDirPath ε σ p = false)
    (hi : ∀ p ∈ ps, instruction κ ε σ p ≠ .ignore) :
    tasks κ ε (π.first ps hnd hps) =
      (instructions κ ε σ π.order).filter (·.isDir) ++ (ps.map (itemOf κ ε σ) ++
        (instructions κ ε σ (π.order.filter (fun p => p ∉ ps))).filter
          (fun t => !t.isDir)) := by
  have hkeep : ((ps.map (itemOf κ ε σ)).filter (fun t => t.instr ≠ .ignore)).filter
      (fun t => !t.isDir) = ps.map (itemOf κ ε σ) := by
    rw [List.filter_filter, List.filter_eq_self]
    intro t hit
    obtain ⟨p, hp, rfl⟩ := List.mem_map.mp hit
    simp [itemOf, hdir p hp, hi p hp]
  unfold tasks instructions Schedule.first
  rw [List.map_append, List.filter_append, List.filter_append, hkeep]

lemma isDir_of_goneLocally (h : σ.GoneLocally p) :
    isDirPath ε σ p = true ↔ σ.space.get p = some Node.dir := by
  rw [isDirPath_iff, h.1]
  simp

/-! ## The report -/

/-- The state the tasks of a run start from. -/
def State.started (σ : State) : State :=
  { σ with sync := { σ.sync with status := .syncing } }

/-- The state in which the run reaches the tasks after `pre`. -/
def stateAfter (κ : EngineConfig) (ε : Env) (σ : State) (pre : List Item) : State :=
  (TaskRun.run (exec κ ε) pre σ.started).1

lemma stateAfter_concat (pre : List Item) (t : Item) :
    stateAfter κ ε σ (pre ++ [t]) = (exec κ ε t (stateAfter κ ε σ pre)).1 :=
  TaskRun.run_split rfl _

lemma propagated_eq : propagated κ ε π =
    TaskRun.run (exec κ ε) (tasks κ ε π) σ.started := rfl

lemma runSync_discovery (h : ε.discovery = none) :
    (runSync κ ε π).2.disk = (propagated κ ε π).1.disk ∧
      (runSync κ ε π).2.space = (propagated κ ε π).1.space ∧
      (runSync κ ε π).2.journal = (propagated κ ε π).1.journal := by
  unfold runSync
  rw [h]
  exact ⟨rfl, rfl, rfl⟩

/-- A run that fails in phase 1 touches nothing. -/
lemma runSync_undiscovered {e : SyncError} (h : ε.discovery = some e) :
    (runSync κ ε π).2 = σ.started := by
  unfold runSync
  rw [h]
  rfl

lemma runSync_failed {e : SyncError} (h : ε.discovery = some e) :
    (runSync κ ε π).1 = .error e := by
  unfold runSync
  rw [h]

/-- The run reports no error. -/
def ErrorFree (κ : EngineConfig) (ε : Env) (π : Schedule σ) : Prop :=
  ∃ rep, (runSync κ ε π).1 = .ok rep ∧ rep.errors = []

lemma messages_eq_nil : messages κ ε π = [] ↔ (propagated κ ε π).2 = [] := by
  rw [← List.isEmpty_iff, messages, TaskRun.isEmpty_messages, List.isEmpty_iff]
  rfl

/-- A run that reports no errors is one whose tasks all succeeded. -/
lemma errorFree_iff : ErrorFree κ ε π ↔
    ε.discovery = none ∧ (propagated κ ε π).2 = [] := by
  unfold ErrorFree runSync
  cases ε.discovery with
  | some e => simp
  | none => simp [messages_eq_nil]

lemma ErrorFree.ok_at (h : ErrorFree κ ε π) {pre post : List Item}
    (hsplit : tasks κ ε π = pre ++ t :: post) :
    (exec κ ε t (stateAfter κ ε σ pre)).2 = none :=
  TaskRun.run_ok_at (errorFree_iff.mp h).2 hsplit

end OwncloudSync
