import OwncloudSync.Engine.MergeRun
import OwncloudSync.Engine.TypeAgreement
import OwncloudSync.Engine.DirectoryPhase
import Mathlib.Data.List.Sort
import Mathlib.Tactic.Common

/-!
# Nothing in the way of a merge

A run whose calls all go through reports no error, whatever the two sides have changed
(`mergeProgress`).  Every task finds what it needs: the file it fetches is on the server, the file
it sets aside is on the disk, the directories above are directories, the collection of an upload
has been made.

**The order of the directory phase is the one condition**: a MKCOL below a collection that is yet
to be made is refused, so parents must come first (`ParentFirst`).

The state a task meets is the one after the tasks before it.  The first section says what can be
at a path by then; the second goes through the kinds of tasks.
-/

namespace OwncloudSync

open PathTree ThreeWay

variable {κ : EngineConfig} {ε : Env} {σ s : State} {π : Schedule σ} {B : TreeView} {p q : Path}
  {t u : Item} {pre post : List Item}

/-! ## Operations that succeed -/

/-- No file above the path: the operating system does not answer `ENOTDIR`. -/
lemma fileAbove_eq_false {d : Disk} (h : ∀ q, q <:+ p → q ≠ p → ∀ a, d.get q ≠ some (Node.file a)) :
    fileAbove d p = false := by
  induction p with
  | nil => rfl
  | cons n p ih =>
      have hp := h p (List.suffix_cons n p) (List.cons_ne_self n p).symm
      have hrest := ih (fun q hq _ => h q (hq.trans (List.suffix_cons n p))
        (fun hc => cons_not_suffix n p (hc ▸ hq)))
      unfold fileAbove
      split
      · rename_i a ha
        exact absurd ha (hp a)
      · exact hrest

lemma deleteLocal_succeeds {d : Disk} (hf : ε.fails .removeFile p = none)
    (hd : d.get p ≠ some Node.dir)
    (h : ∀ q, q <:+ p → q ≠ p → ∀ a, d.get q ≠ some (Node.file a)) :
    (deleteLocal ε p d).1 = .ok () := by
  unfold deleteLocal
  rw [hf]
  split
  · rename_i hc; cases hc
  · split
    · rfl
    · rename_i hc; exact absurd hc hd
    · rw [fileAbove_eq_false h]
      rfl

lemma deleteLocalDir_succeeds {d : Disk} (hf : ε.fails .removeDirAll p = none)
    (hd : ∀ a, d.get p ≠ some (Node.file a))
    (h : ∀ q, q <:+ p → q ≠ p → ∀ a, d.get q ≠ some (Node.file a)) :
    (deleteLocalDir ε p d).1 = .ok () := by
  unfold deleteLocalDir
  rw [hf]
  split
  · rename_i hc; cases hc
  · split
    · rfl
    · rename_i a hc; exact absurd hc (hd a)
    · rw [fileAbove_eq_false h]
      rfl

/-- A deletion that its operation carries out is reported as done. -/
lemma exec_deleteLocal_succeeds (hi : t.instr = .deleteLocal) (hf : ∀ op, ε.fails op t.path = none)
    (hfile : t.isDir = false → s.disk.get t.path ≠ some Node.dir)
    (hdir : t.isDir = true → ∀ a, s.disk.get t.path ≠ some (Node.file a))
    (h : ∀ q, q <:+ t.path → q ≠ t.path → ∀ a, s.disk.get q ≠ some (Node.file a)) :
    (exec κ ε t s).2 = none := by
  cases hd : t.isDir with
  | true =>
      have hok := deleteLocalDir_succeeds (hf _) (hdir hd) h
      simp only [exec, hd, if_true, execDir, hi]
      split
      · rfl
      · rename_i hc; rw [hc] at hok; cases hok
  | false =>
      have hok := deleteLocal_succeeds (hf _) (hfile hd) h
      simp only [exec, hd, Bool.false_eq_true, if_false, execFile, hi]
      split
      · rfl
      · rename_i hc; rw [hc] at hok; cases hok

lemma exec_deleteRemote_succeeds (hi : t.instr = .deleteRemote)
    (hf : ∀ op, ε.fails op t.path = none) : (exec κ ε t s).2 = none := by
  have hok := deleteRemote_succeeds (s := s.space) (hf .delete)
  cases hd : t.isDir with
  | true =>
      simp only [exec, hd, if_true, execDir, hi]
      split
      · rfl
      · rename_i hc; rw [hc] at hok; cases hok
  | false =>
      simp only [exec, hd, Bool.false_eq_true, if_false, execFile, hi]
      split
      · rfl
      · rename_i hc; rw [hc] at hok; cases hok

lemma exec_dirDownload_succeeds (hd : t.isDir = true) (hi : t.instr = .download)
    (hf : ∀ op, ε.fails op t.path = none)
    (h : ∀ q, q <:+ t.path → s.disk.get q = none ∨ s.disk.get q = some Node.dir) :
    (exec κ ε t s).2 = none := by
  have hok := createDirAll_succeeds h
  simp only [exec, hd, if_true, execDir, hi, hf]
  split
  · rfl
  · rename_i hc; rw [hc] at hok; cases hok

/-! ## What is at a path by now -/

section SoFar

variable (hσ : Tidy σ) (hfresh : FreshConflicts κ ε σ) (hpre : ∀ u ∈ pre, u ∈ tasks κ ε π)

include hσ hfresh hpre in
/-- A path that is handled as a directory has been no file so far. -/
lemma no_file_so_far (hdir : isDirPath ε σ p = true) (a : LocalFile) :
    (stateAfter κ ε σ pre).disk.get p ≠ some (Node.file a) := by
  have hp : σ.Present p := by
    rcases isDirPath_iff.mp hdir with hc | ⟨-, hc⟩
    · exact Or.inl (by rw [hc]; simp)
    · exact Or.inr (by rw [hc]; simp)
  have h₀ : ∀ a, σ.disk.get p ≠ some (Node.file a) := by
    rcases isDirPath_iff.mp hdir with hc | ⟨hc, -⟩
    · simp [hc]
    · simp [hc]
  refine TaskRun.run_invariant (s := σ.started)
    (I := fun s : State => ∀ a, s.disk.get p ≠ some (Node.file a)) h₀
    (fun u hu s hs a ha => ?_) a
  obtain ⟨hune, hup⟩ := present_of_mem (hpre u hu)
  obtain ⟨-, hinstr, hud, -⟩ := item_of_mem (hpre u hu)
  rcases exec_disk_file ha with hc | ⟨hf, hc | hc⟩ | ⟨hf, hi, hc⟩
  · exact hs a hc
  · rw [← hc, hdir] at hud
    exact absurd (hud.symm.trans hf.1) (by simp)
  · exact hσ.tmp_absent hup hune (hc ▸ hp)
  · exact (hfresh p ⟨u.path, hud.symm.trans hf, hinstr.symm.trans hi, hc⟩).1 hp

include hσ hfresh hpre in
/-- Above a local path there is no file. -/
lemma no_file_above (hp : σ.disk.get p ≠ none) (hq : q <:+ p) (hne : q ≠ p) (a : LocalFile) :
    (stateAfter κ ε σ pre).disk.get q ≠ some (Node.file a) :=
  no_file_so_far hσ hfresh hpre (isDirPath_iff.mpr (Or.inl (σ.disk.dir_of_below hq hne hp))) a

include hσ hfresh hpre in
/-- On the way to something the server has there are directories, or nothing yet. -/
lemma way_is_free (hs : σ.space.get q = some Node.dir) :
    (stateAfter κ ε σ pre).disk.get q = none ∨
      (stateAfter κ ε σ pre).disk.get q = some Node.dir := by
  have hdir : isDirPath ε σ q = true := by
    by_cases hd : σ.disk.get q = none
    · exact isDirPath_iff.mpr (Or.inr ⟨hd, hs⟩)
    · rcases hσ.both hd (by rw [hs]; simp) with ⟨hc, -⟩ | ⟨_, r, -, hr⟩
      · exact isDirPath_iff.mpr (Or.inl hc)
      · rw [hs] at hr; cases hr
  cases hx : (stateAfter κ ε σ pre).disk.get q with
  | none => exact Or.inl rfl
  | some x =>
      cases x with
      | dir => exact Or.inr rfl
      | file a => exact absurd hx (no_file_so_far hσ hfresh hpre hdir a)

include hσ hpre in
/-- The temp path of a task has been no directory so far. -/
lemma tmp_not_dir (ht : t ∈ tasks κ ε π) :
    (stateAfter κ ε σ pre).disk.get (tmpPath t.path) ≠ some Node.dir := by
  obtain ⟨hne, hp⟩ := present_of_mem ht
  intro hd
  refine hσ.tmp_absent hp hne ?_
  rcases disk_dir_origin hpre hd with hc | hc
  · exact Or.inl (by rw [hc]; simp)
  · exact Or.inr (by rw [hc]; simp)

end SoFar

/-! ## The two phases -/

/-- The paths of a state can be taken parents first. -/
theorem ParentFirst.exists (σ : State) : ∃ π : Schedule σ, ParentFirst π := by
  obtain ⟨π⟩ := Schedule.exists σ
  have hperm := List.perm_insertionSort (fun p q : Path => p.length ≤ q.length) π.order
  refine ⟨⟨_, π.order, hperm.nodup_iff.mpr π.nodup,
    fun p => hperm.mem_iff.trans (π.mem_iff p), hperm.symm⟩, ?_⟩
  intro pre post n p horder _ hp
  -- a parent is shorter
  have hsorted := List.pairwise_insertionSort (fun p q : Path => p.length ≤ q.length) π.order
  have hmem : p ∈ pre ++ (n :: p) :: post := by
    rw [← horder]
    exact hperm.mem_iff.mpr ((π.mem_iff p).mpr ⟨hp.1, Or.inl (by rw [hp.2.1]; simp)⟩)
  rcases List.mem_append.mp hmem with hm | hm
  · exact hm
  · rw [show List.insertionSort _ π.order = _ from horder] at hsorted
    rcases List.mem_cons.mp hm with hc | hm
    · exact absurd hc.symm (List.cons_ne_self n p)
    · have hlen := (List.pairwise_cons.mp (List.pairwise_append.mp hsorted).2.1).1 p hm
      rw [List.length_cons] at hlen
      omega

/-- The tasks of the directory phase. -/
def dirTasks (κ : EngineConfig) (ε : Env) (σ : State) (paths : List Path) : List Item :=
  (instructions κ ε σ paths).filter (·.isDir)

lemma dirTasks_append (xs ys : List Path) :
    dirTasks κ ε σ (xs ++ ys) = dirTasks κ ε σ xs ++ dirTasks κ ε σ ys := by
  unfold dirTasks instructions
  rw [List.map_append, List.filter_append, List.filter_append]

lemma dirTasks_cons (ht : t = itemOf κ ε σ p) (hi : t.instr ≠ .ignore) (hd : t.isDir = true)
    (ys : List Path) : dirTasks κ ε σ (p :: ys) = t :: dirTasks κ ε σ ys := by
  subst ht
  unfold dirTasks instructions
  rw [List.map_cons, List.filter_cons_of_pos (by simpa using hi), List.filter_cons_of_pos hd]

/-- A task of the directory phase meets the state of the phase at its place in the order. -/
lemma dirPhase_at (hsplit : tasks κ ε π = pre ++ t :: post) (hd : t.isDir = true) :
    ∃ before after, π.order = before ++ t.path :: after ∧
      stateAfter κ ε σ pre = (dirPhase κ ε σ before).1 := by
  have ht := mem_of_split hsplit
  have hmem : t.path ∈ π.order := (π.mem_iff t.path).mpr (present_of_mem ht)
  obtain ⟨before, after, horder⟩ := List.append_of_mem hmem
  refine ⟨before, after, horder, ?_⟩
  have hitem : t = itemOf κ ε σ t.path := (mem_tasks.mp ht).2.1
  have hcut : tasks κ ε π = dirTasks κ ε σ before ++ t :: (dirTasks κ ε σ after ++
      (instructions κ ε σ π.finish).filter (fun it => !it.isDir)) := by
    show dirTasks κ ε σ π.order ++ _ = _
    rw [horder, dirTasks_append, dirTasks_cons hitem (mem_tasks.mp ht).2.2 hd, List.append_assoc,
      List.cons_append]
  have hpre : t ∉ pre := fun hc => path_ne_of_before hsplit hc rfl
  have hpost : t ∉ post := fun hc => path_ne_of_split hsplit (Or.inr hc) rfl
  rw [((List.append_cons_inj_of_notMem hpre hpost).mp (hsplit.symm.trans hcut)).1]
  rfl

/-- A file task comes after the whole directory phase. -/
lemma dirPhase_before (hsplit : tasks κ ε π = pre ++ t :: post) (hd : t.isDir = false) :
    ∃ rest, pre = dirTasks κ ε σ π.order ++ rest := by
  have hcut : dirTasks κ ε σ π.order ++
      (instructions κ ε σ π.finish).filter (fun it => !it.isDir) = pre ++ t :: post := hsplit
  rcases List.append_eq_append_iff.mp hcut with ⟨rest, hc, -⟩ | ⟨rest, hc, hrest⟩
  · exact ⟨rest, hc⟩
  · cases rest with
    | nil => exact ⟨[], by rw [hc, List.append_nil, List.append_nil]⟩
    | cons u rest =>
        -- then the task would be one of the directory phase
        have hu : u ∈ dirTasks κ ε σ π.order := by rw [hc]; simp
        have hud := (List.mem_filter.mp hu).2
        rw [← (List.cons.inj hrest).1, hd] at hud
        cases hud

section Parents

variable (h : Rooted B σ) (hσ : Tidy σ) (hcalls : ∀ op p, ε.fails op p = none)
  (hfirst : ParentFirst π)

include h hσ in
/-- The collection of a new path is on the server, or is a new directory. -/
lemma Rooted.parent_new {n : Name} (hd : σ.disk.get (n :: p) ≠ none)
    (hs : σ.space.get (n :: p) = none) (hb : B (n :: p) = none) :
    σ.NewDir p ∨ σ.space.get p = some Node.dir := by
  have hdir := σ.disk.closed n p hd
  by_cases hp : σ.space.get p = none
  · left
    have hne : p ≠ [] := by
      rintro rfl
      rw [σ.space.root] at hp; cases hp
    have hbp : B p = none := by
      by_contra hc
      exact hd (h.removedThere p (n :: p) (List.suffix_cons n p) hc hp hb)
    exact ⟨hne, hdir, hp, h.baseline_none hne (Or.inl (by rw [hdir]; simp)) hbp⟩
  · right
    rcases hσ.both (by rw [hdir]; simp) hp with ⟨-, hc⟩ | ⟨a, _, ha, -⟩
    · exact hc
    · rw [hdir] at ha; cases ha

include h in
lemma Rooted.base_of_newDir (hnew : σ.NewDir p) : B p = none := by
  by_contra hc
  refine h.baseline_some hnew.1 (Or.inl (by rw [hnew.2.1]; simp)) (fun hun => ?_) hc
    (baseline_of_none hnew.2.2.2)
  have hs := hun.2.1
  rw [hnew.2.2.1] at hs
  cases hs

include h hσ in
lemma Rooted.newDirsClosed : NewDirsClosed σ :=
  fun _ _ hnew => h.parent_new hσ (by rw [hnew.2.1]; simp) hnew.2.2.1 (h.base_of_newDir hnew)

include h hσ hcalls hfirst in
/-- **The collection of a new file has been made** when its upload starts. -/
lemma Rooted.parent_ready (hsplit : tasks κ ε π = pre ++ t :: post) (hf : t.isDir = false)
    (hi : t.instr = .upload) : (stateAfter κ ε σ pre).space.get t.path.tail = some Node.dir := by
  have ht := mem_of_split hsplit
  obtain ⟨hne, hinstr, -, -⟩ := item_of_mem ht
  have hd := instruction_upload (hinstr.symm.trans hi)
  obtain ⟨habove, hane⟩ := above_of_suffix_tail hne (List.suffix_refl t.path.tail)
  have hpar := σ.disk.dir_of_below habove hane hd
  -- what is on the server by the end of the directory phase stays
  have hstay : ∀ u ∈ tasks κ ε π, ∀ s : State, s.space.get t.path.tail = some Node.dir →
      (exec κ ε u s).1.space.get t.path.tail = some Node.dir := by
    intro u hu s hs
    obtain ⟨-, hui, hud, -⟩ := item_of_mem hu
    refine (exec_space_keep (by rw [hs]; simp) ?_ ?_).trans hs
    · rintro ⟨hdel, hbelow⟩
      have hg := instruction_deleteRemote_iff.mp (hui.symm.trans hdel)
      rw [σ.disk.none_of_below hbelow hg.1] at hpar
      cases hpar
    · rintro ⟨-, huf, hc⟩
      rw [hud, ← hc] at huf
      exact (isDirPath_eq_false.mp huf).1 hpar
  obtain ⟨rest, hrest⟩ := dirPhase_before hsplit hf
  have hafter : (dirPhase κ ε σ π.order).1.space.get t.path.tail = some Node.dir →
      (stateAfter κ ε σ pre).space.get t.path.tail = some Node.dir := by
    intro h₀
    unfold stateAfter
    rw [hrest, (TaskRun.run_append _ _ _).1]
    refine TaskRun.run_invariant (I := fun s : State => s.space.get t.path.tail = some Node.dir)
      h₀ (fun u hu s hs => hstay u (mem_of_pre hsplit u ?_) s hs)
    rw [hrest]
    exact List.mem_append_right _ hu
  refine hafter ?_
  by_cases hs : σ.space.get t.path.tail = some Node.dir
  · exact dirPhase_invariant (I := fun s : State => s.space.get t.path.tail = some Node.dir) hs
      (fun x _ hx s hs => collection_stays (by rw [hpar]; simp) hx hs)
  · have hsp : σ.space.get t.path = none := by
      by_contra hc
      exact hs (σ.space.dir_of_below habove hane hc)
    have hb : B t.path = none := by
      by_contra hc
      have hg := (h.goneRemotely_iff hne).mpr ⟨hd, hsp, hc⟩
      rw [hinstr, instruction_deleteLocal_iff.mpr hg] at hi
      cases hi
    rw [← List.cons_head_tail hne] at hd hsp hb
    have hnew := (h.parent_new hσ hd hsp hb).resolve_right hs
    refine created_so_far (fun _ hq => hq) (h.newDirsClosed hσ) (hcalls _) hfirst π.order []
      (List.append_nil _).symm _ ?_ hnew
    exact (π.mem_iff _).mpr ⟨hnew.1, Or.inl (by rw [hpar]; simp)⟩

end Parents

/-! ## The kinds of tasks -/

section Kinds

variable (h : Divergent B σ) (hσ : Tidy σ) (hfresh : FreshConflicts κ ε σ)
  (hcalls : ∀ op p, ε.fails op p = none) (hfirst : ParentFirst π)

/-- Nothing above a transfer is deleted before it. -/
lemma Rooted.not_below_deletion (h : Rooted B σ) (ht : t ∈ tasks κ ε π) (htrans : t.instr.isDelete = false)
    (hu : u ∈ tasks κ ε π) (hbelow : u.path <:+ t.path) : u.instr.isDelete = false := by
  by_contra hc
  obtain ⟨hne, hinstr, -, -⟩ := item_of_mem hu
  rw [Bool.not_eq_false, hinstr] at hc
  rw [h.below_deleted ht hbelow hne hc, hc] at htrans
  cases htrans

include hσ hfresh hcalls in
lemma deletion_succeeds (hsplit : tasks κ ε π = pre ++ t :: post)
    (hdel : t.instr.isDelete = true) : (exec κ ε t (stateAfter κ ε σ pre)).2 = none := by
  have hmem := mem_of_pre hsplit
  obtain ⟨-, hinstr, hdir, -⟩ := item_of_mem (mem_of_split hsplit)
  rw [hinstr] at hdel
  rcases instruction_isDelete_iff.mp hdel with hg | hg
  · refine exec_deleteLocal_succeeds (hinstr.trans (instruction_deleteLocal_iff.mpr hg))
      (fun op => hcalls op t.path) (fun hf hd => ?_)
      (fun hd => no_file_so_far hσ hfresh hmem (hdir.symm.trans hd))
      (fun q hq hqne => no_file_above hσ hfresh hmem hg.1 hq hqne)
    rcases disk_dir_origin hmem hd with hc | hc
    · exact (isDirPath_eq_false.mp (hdir.symm.trans hf)).1 hc
    · rw [hg.2.1] at hc; cases hc
  · exact exec_deleteRemote_succeeds (hinstr.trans (instruction_deleteRemote_iff.mpr hg))
      (fun op => hcalls op t.path)

include h hσ hcalls hfirst in
/-- The MKCOL of a new directory goes through. -/
lemma Divergent.mkcol_succeeds (hsplit : tasks κ ε π = pre ++ t :: post) (hd : t.isDir = true)
    (hi : t.instr = .upload) : (exec κ ε t (stateAfter κ ε σ pre)).2 = none := by
  have ht := mem_of_split hsplit
  obtain ⟨hne, hinstr, hdir, -⟩ := item_of_mem ht
  have hpres := instruction_upload (hinstr.symm.trans hi)
  have hdd : σ.disk.get t.path = some Node.dir := by
    rcases isDirPath_iff.mp (hdir.symm.trans hd) with hc | ⟨hc, -⟩
    · exact hc
    · exact absurd hc hpres
  have hnew : σ.NewDir t.path := by
    by_cases hs : σ.space.get t.path = none
    · refine ⟨hne, hdd, hs, h.baseline_none hne (Or.inl hpres) ?_⟩
      by_contra hb
      have hg := (h.goneRemotely_iff hne).mpr ⟨hpres, hs, hb⟩
      rw [hinstr, instruction_deleteLocal_iff.mpr hg] at hi
      cases hi
    · rcases hσ.both hpres hs with ⟨-, hsd⟩ | ⟨a, _, ha, -⟩
      · exact absurd (hinstr.symm.trans hi) (h.dirs_not_uploaded hne hdd hsd)
      · rw [hdd] at ha; cases ha
  obtain ⟨before, after, horder, hstate⟩ := dirPhase_at hsplit hd
  have hitem : t = itemOf κ ε σ t.path := (mem_tasks.mp ht).2.1
  rw [hstate, hitem]
  generalize t.path = q at hne hnew horder
  cases q with
  | nil => exact absurd rfl hne
  | cons n r =>
      refine (newDir_ok_iff (hcalls _) horder hnew).mpr ?_
      exact parent_reached horder (fun _ hq => hq) hnew (h.newDirsClosed hσ) hfirst
        (created_so_far (fun _ hq => hq) (h.newDirsClosed hσ) (hcalls _) hfirst before _ horder)

include h hσ hfresh hcalls hfirst in
/-- The upload of a file: the file is there, so is the collection, and no collection is there. -/
lemma Divergent.put_succeeds (hsplit : tasks κ ε π = pre ++ t :: post) (hd : t.isDir = false)
    (hi : t.instr = .upload) : (exec κ ε t (stateAfter κ ε σ pre)).2 = none := by
  have ht := mem_of_split hsplit
  have hmem := mem_of_pre hsplit
  obtain ⟨-, hinstr, hdir, -⟩ := item_of_mem ht
  have hpres := instruction_upload (hinstr.symm.trans hi)
  have hfile := hdir.symm.trans hd
  obtain ⟨a, ha⟩ := exists_localFile hfile hpres
  have hstill : (stateAfter κ ε σ pre).disk.get t.path = some (Node.file a) := by
    refine TaskRun.run_invariant (s := σ.started)
      (I := fun s : State => s.disk.get t.path = some (Node.file a)) ha (fun u hu s hs => ?_)
    refine (frame_disk hσ hfresh (hmem u hu) (Or.inl hpres)
      (path_ne_of_before hsplit hu).symm (by rw [hs]; simp) ?_).trans hs
    rintro ⟨hui, -, hbelow⟩
    have hkeep := h.not_below_deletion ht (by rw [hi]; rfl) (hmem u hu) hbelow
    rw [hui] at hkeep
    cases hkeep
  refine exec_upload_succeeds hd hi (fun op => hcalls op t.path) hstill
    (h.parent_ready hσ hcalls hfirst hsplit hd hi) (fun hc => ?_)
  rcases space_dir_origin hmem hc with hc | hc
  · exact hσ.fileLocal t.path a ha hc
  · exact (isDirPath_eq_false.mp hfile).1 hc

include hσ hfresh hcalls in
lemma mkdir_succeeds (hsplit : tasks κ ε π = pre ++ t :: post) (hd : t.isDir = true)
    (hi : t.instr = .download) : (exec κ ε t (stateAfter κ ε σ pre)).2 = none := by
  have hmem := mem_of_pre hsplit
  obtain ⟨-, hinstr, hdir, -⟩ := item_of_mem (mem_of_split hsplit)
  have hs := instruction_download (hinstr.symm.trans hi)
  have hcoll : σ.space.get t.path = some Node.dir := by
    rcases isDirPath_iff.mp (hdir.symm.trans hd) with hc | ⟨-, hc⟩
    · rcases hσ.both (by rw [hc]; simp) hs with ⟨-, hc'⟩ | ⟨a, _, ha, -⟩
      · exact hc'
      · rw [hc] at ha; cases ha
    · exact hc
  refine exec_dirDownload_succeeds hd hi (fun op => hcalls op t.path)
    (fun q hq => way_is_free hσ hfresh hmem ?_)
  by_cases hqt : q = t.path
  · rw [hqt]
    exact hcoll
  · exact σ.space.dir_of_below hq hqt hs

include hσ hfresh in
/-- The path of a conflict copy is free until its own conflict comes. -/
lemma copy_free_so_far (hsplit : tasks κ ε π = pre ++ t :: post) (hd : t.isDir = false)
    (hi : t.instr = .conflict) :
    (stateAfter κ ε σ pre).disk.get (conflictPath t.path (ε.clock t.path)) = none := by
  obtain ⟨htne, hinstr, htd, -⟩ := item_of_mem (mem_of_split hsplit)
  have htp := (present_of_mem (mem_of_split hsplit)).2
  have hcopy : ConflictCopy κ ε σ (conflictPath t.path (ε.clock t.path)) :=
    ⟨t.path, htd.symm.trans hd, hinstr.symm.trans hi, rfl⟩
  have hgone := (hfresh _ hcopy).1
  refine TaskRun.run_invariant (s := σ.started)
    (I := fun s : State => s.disk.get (conflictPath t.path (ε.clock t.path)) = none)
    (disk_of_gone hgone) (fun u hu s hs => ?_)
  have hmem := mem_of_pre hsplit u hu
  obtain ⟨hune, hup⟩ := present_of_mem hmem
  obtain ⟨-, huinstr, -, -⟩ := item_of_mem hmem
  -- what the server has is present, with the directories above it
  have habove : σ.space.get u.path ≠ none →
      ¬ conflictPath t.path (ε.clock t.path) <:+ u.path := by
    intro hsu hbelow
    exact hgone (Or.inr (fun hn => hsu (σ.space.none_of_below hbelow hn)))
  have hfetched : u.fetches → σ.space.get u.path ≠ none := by
    rintro ⟨-, hc | hc⟩
    · exact instruction_download (huinstr.symm.trans hc)
    · exact (instruction_conflict (huinstr.symm.trans hc)).2
  rcases exec_disk_none (κ := κ) (ε := ε) (t := u) hs with hc | hc
  · exact hc
  rcases hc with ⟨hdown, -, hbelow, -⟩ | ⟨hf, hbelow, -⟩ | ⟨-, hc | hc⟩ | ⟨-, -, hc⟩
  · exact absurd hbelow (habove (instruction_download (huinstr.symm.trans hdown)))
  · exact absurd (above_of_suffix_tail hune hbelow).1 (habove (hfetched hf))
  · exact absurd (hc ▸ hup) hgone
  · exact absurd hc (hcopy.ne_tmp hσ hup hune)
  · exact absurd (conflictPath_inj hσ hup hune htp htne hc.symm) (path_ne_of_before hsplit hu)

include h hσ hfresh hcalls in
/-- A download of a file, and a conflict: the server has the file still, what is to be set aside is
there still, and the way is free. -/
lemma Divergent.fetch_succeeds (hsplit : tasks κ ε π = pre ++ t :: post) (hf : t.fetches) :
    (exec κ ε t (stateAfter κ ε σ pre)).2 = none := by
  have ht := mem_of_split hsplit
  have hmem := mem_of_pre hsplit
  obtain ⟨hne, hinstr, hdir, -⟩ := item_of_mem ht
  have htrans : t.instr.isDelete = false := by
    rcases hf.2 with hi | hi
    · rw [hi]; rfl
    · rw [hi]; rfl
  have hs : σ.space.get t.path ≠ none := by
    rcases hf.2 with hi | hi
    · exact instruction_download (hinstr.symm.trans hi)
    · exact (instruction_conflict (hinstr.symm.trans hi)).2
  have hfile := hdir.symm.trans hf.1
  have hcoll : σ.space.get t.path ≠ some Node.dir := by
    intro hc
    by_cases hdn : σ.disk.get t.path = none
    · exact (isDirPath_eq_false.mp hfile).2 hdn hc
    · obtain ⟨a, ha⟩ := exists_localFile hfile hdn
      exact hσ.fileLocal t.path a ha hc
  obtain ⟨r, hr⟩ : ∃ r, σ.space.get t.path = some (Node.file r) := by
    cases hx : σ.space.get t.path with
    | none => exact absurd hx hs
    | some x =>
        cases x with
        | dir => exact absurd hx hcoll
        | file r => exact ⟨r, rfl⟩
  have hstill : (stateAfter κ ε σ pre).space.get t.path = some (Node.file r) := by
    refine TaskRun.run_invariant (s := σ.started)
      (I := fun s : State => s.space.get t.path = some (Node.file r)) hr (fun u hu s hsr => ?_)
    refine (frame_space (hmem u hu) (Or.inr hs) (path_ne_of_before hsplit hu).symm
      (by rw [hsr]; simp) ?_).trans hsr
    rintro ⟨hui, -, hbelow⟩
    have hkeep := h.not_below_deletion ht htrans (hmem u hu) hbelow
    rw [hui] at hkeep
    cases hkeep
  refine (exec_fetch_succeeds hne hf (fun op => hcalls op t.path) hstill
    (fun q hq => ?_) (tmp_not_dir hσ hmem ht) (fun hc => ?_) (fun hi => ⟨?_, ?_⟩)).1
  · obtain ⟨hq', hqne⟩ := above_of_suffix_tail hne hq
    exact way_is_free hσ hfresh hmem (σ.space.dir_of_below hq' hqne hs)
  · rcases disk_dir_origin hmem hc with hc | hc
    · exact (isDirPath_eq_false.mp hfile).1 hc
    · exact hcoll hc
  · obtain ⟨hd, -⟩ := instruction_conflict (hinstr.symm.trans hi)
    obtain ⟨a, ha⟩ := exists_localFile hfile hd
    refine ⟨a, TaskRun.run_invariant (s := σ.started)
      (I := fun s : State => s.disk.get t.path = some (Node.file a)) ha (fun u hu s hsd => ?_)⟩
    refine (frame_disk hσ hfresh (hmem u hu) (Or.inl hd) (path_ne_of_before hsplit hu).symm
      (by rw [hsd]; simp) (fun hc => ?_)).trans hsd
    exact not_below_deleted (hmem u hu) hd hs ⟨by rw [hc.1]; rfl, hc.2.2⟩
  · exact copy_free_so_far hσ hfresh hsplit hf.1 hi

include h hσ hfresh hcalls hfirst in
/-- **Every task of the run succeeds**, where it stands in the order. -/
lemma Divergent.task_succeeds (hsplit : tasks κ ε π = pre ++ t :: post) :
    (exec κ ε t (stateAfter κ ε σ pre)).2 = none := by
  have ht := mem_of_split hsplit
  cases hdel : t.instr.isDelete with
  | true => exact deletion_succeeds hσ hfresh hcalls hsplit hdel
  | false =>
      rcases transfer_of_mem ht hdel with hi | hi | hi
      · cases hd : t.isDir with
        | true => exact h.mkcol_succeeds hσ hcalls hfirst hsplit hd hi
        | false => exact h.put_succeeds hσ hfresh hcalls hfirst hsplit hd hi
      · cases hd : t.isDir with
        | true => exact mkdir_succeeds hσ hfresh hcalls hsplit hd hi
        | false => exact h.fetch_succeeds hσ hfresh hcalls hsplit ⟨hd, Or.inl hi⟩
      · cases hd : t.isDir with
        | true => simp only [exec, hd, if_true, execDir, hi]
        | false => exact h.fetch_succeeds hσ hfresh hcalls hsplit ⟨hd, Or.inr hi⟩

include h hσ hfresh hfirst in
lemma Divergent.errorFree (hε : Faultless ε) : ErrorFree κ ε π :=
  errorFree_iff.mpr ⟨hε.1, TaskRun.run_ok_iff.mpr
    (fun _ _ _ hsplit => h.task_succeeds hσ hfresh hε.2 hfirst hsplit)⟩

/-- Nor does any task fail where no path has changed on both sides. -/
lemma Resumable.errorFree (h : Resumable B σ) (hσ : Tidy σ) (hfirst : ParentFirst π)
    (hε : Faultless ε) : ErrorFree κ ε π :=
  h.divergent.errorFree hσ (h.fresh hσ) hfirst hε

end Kinds

/-! ## The run -/

/-- **No task is in the way of another.**  If no call fails and parents come first, the run reports
no error, whatever has changed on both sides.  What the journal fails to write does not matter. -/
theorem mergeProgress (κ : EngineConfig) (ε : Env) (ω : Calls) {σ : State} (π : Schedule σ)
    (B : TreeView) (hσ : Tidy σ) (hplain : σ.Plain) (h : Divergent B σ)
    (hfresh : FreshConflicts κ ε σ) (hε : Faultless ε) (hread : ∀ p, ω.unread p = false)
    (hfirst : ParentFirst π) : ω.ErrorFree κ ε π := by
  rw [Calls.errorFree_of_plain hplain hread]
  exact h.errorFree hσ hfresh hfirst hε

/-- The theorem at `oneChangeEach`. -/
theorem mergeProgress_oneChangeEach :
    Calls.sound.ErrorFree ⟨.keepBoth, 5000000⟩ Env.calm oneChangeEachSchedule := by
  refine mergeProgress _ _ _ _ beforeChanges oneChangeEach_tidy oneChangeEach_plain
    oneChangeEach_mergeable.divergent (oneChangeEach_mergeable.fresh oneChangeEach_tidy)
    ⟨rfl, fun _ _ => rfl⟩ (fun _ => rfl) (fun _ _ n p _ hnew _ => ?_)
  -- no directory is new
  rcases oneChangeEach_cases (n :: p) with hc | hc | hc | hc
  · exact absurd hc hnew.1
  · rw [hc] at hnew
    exact absurd hnew.2.1 (by decide)
  · rw [hc] at hnew
    exact absurd hnew.2.1 (by decide)
  · rw [hnew.2.1] at hc
    cases hc.1

end OwncloudSync
