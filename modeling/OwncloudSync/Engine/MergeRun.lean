import OwncloudSync.Engine.MergePlan
import Mathlib.Tactic.Common

/-!
# A run as a three-way merge

**When every path has changed on one side at most, a run without errors leaves on both sides the
merge of the two trees over the base** (`mergeRun`), and a journal that remembers the merge: the
next run starts from there.  It also leaves alone what it need not touch: on the server what has
not changed locally, and on the disk what has not changed on the server.

A task is done with its own path (`Resumable.own_step`).  Elsewhere it does nothing, but that it
makes the directories above a transfer and takes what is below a deletion, and it is done with
these too (`Resumable.elsewhere`).  So in the course of a run every path is as it was or done
with (`Resumable.halfway`).
-/

namespace OwncloudSync

open PathTree ThreeWay

variable {κ : EngineConfig} {ε : Env} {σ s : State} {π : Schedule σ} {B V : TreeView} {p q : Path}
  {t u : Item}

/-! ## What a task leaves -/

/-- What a run is to do at a path: leave the merge, and touch neither side without need. -/
structure LeavesMerge (B : TreeView) (σ s : State) (p : Path) : Prop where
  here : s.diskView p = merged B σ p
  there : s.RemoteUnchanged (merged B σ) p
  row : p ≠ [] → s.Present p → s.journal.Records p (merged B σ p) ∨ s.Unrecorded p
  space : σ.diskView p = B p → s.space.get p = σ.space.get p
  disk : σ.RemoteUnchanged B p → s.disk.get p = σ.disk.get p

/-- The path is in the second state as it was in the first. -/
structure Untouched (s s' : State) (p : Path) : Prop where
  disk : s'.disk.get p = s.disk.get p
  space : s'.space.get p = s.space.get p
  row : s'.journal p = s.journal p

/-- Every task of the list, where it is met, succeeds or does nothing. -/
def NothingByHalves (exec : Item → State → State × Option SyncError) (ts : List Item) (s : State) :
    Prop :=
  ∀ pre t post, ts = pre ++ t :: post →
    (exec t (TaskRun.run exec pre s).1).2 = none ∨
      ∀ p, Untouched (TaskRun.run exec pre s).1 (exec t (TaskRun.run exec pre s).1).1 p

/-- A path in the course of a run: as it was, or done with. -/
def Halfway (B : TreeView) (σ s : State) (p : Path) : Prop :=
  Untouched σ s p ∨ LeavesMerge B σ s p

lemma Untouched.trans {s' : State} (h : Untouched σ s p) (h' : Untouched s s' p) :
    Untouched σ s' p :=
  ⟨h'.disk.trans h.disk, h'.space.trans h.space, h'.row.trans h.row⟩

lemma records_congr {j j' : Journal} {x : Option (Node Blob)} (h : j' p = j p) :
    j'.Records p x ↔ j.Records p x := by
  cases x with
  | none => simp only [Journal.Records, h]
  | some x => cases x <;> simp only [Journal.Records, baseline_congr h]

lemma Untouched.diskView (h : Untouched σ s p) : s.diskView p = σ.diskView p := by
  simp only [State.diskView, h.disk]

lemma Untouched.spaceView (h : Untouched σ s p) : s.spaceView p = σ.spaceView p := by
  simp only [State.spaceView, h.space]

lemma Untouched.remoteUnchanged (h : Untouched σ s p) :
    s.RemoteUnchanged V p ↔ σ.RemoteUnchanged V p := by
  simp only [State.RemoteUnchanged, h.spaceView, h.space, baseline_congr h.row]

lemma Untouched.unrecorded (h : Untouched σ s p) : s.Unrecorded p ↔ σ.Unrecorded p := by
  simp only [State.Unrecorded, h.disk, h.space, h.row]

lemma Untouched.present (h : Untouched σ s p) : s.Present p ↔ σ.Present p := by
  simp only [State.Present, h.disk, h.space]

lemma LeavesMerge.keep {s' : State} (h : LeavesMerge B σ s p) (h' : Untouched s s' p) :
    LeavesMerge B σ s' p where
  here := h'.diskView.trans h.here
  there := h'.remoteUnchanged.mpr h.there
  row hne hp := (h.row hne (h'.present.mp hp)).imp (records_congr h'.row).mpr h'.unrecorded.mpr
  space hc := h'.space.trans (h.space hc)
  disk hc := h'.disk.trans (h.disk hc)

lemma Halfway.keep {s' : State} (h : Halfway B σ s p) (h' : Untouched s s' p) :
    Halfway B σ s' p :=
  h.imp (fun hu => hu.trans h') (fun hl => hl.keep h')

lemma LeavesMerge.ofAsIn (h : AsIn (merged B σ) p s)
    (hspace : σ.diskView p = B p → s.space.get p = σ.space.get p)
    (hdisk : σ.RemoteUnchanged B p → s.disk.get p = σ.disk.get p) : LeavesMerge B σ s p :=
  ⟨h.here, h.there, fun hne _ => Or.inl (h.row hne), hspace, hdisk⟩

lemma AsIn.ofSynced (hs : Synced p s) (hV : s.diskView p = V p) : AsIn V p s := by
  obtain ⟨a, r, ha, hr, hb, hc⟩ := hs
  rw [diskView_of_file ha] at hV
  refine ⟨(diskView_of_file ha).trans hV, ⟨?_, fun r' hr' => ?_⟩, fun _ => ?_⟩
  · rw [spaceView_of_file hr, ← hc, hV]
  · rw [hr, Option.some.injEq, Node.file.injEq] at hr'
    exact ⟨_, hr' ▸ hb⟩
  · rw [← hV]
    exact ⟨_, hb⟩

lemma remoteUnchanged_of_dir (hs : s.space.get p = some Node.dir) (hV : V p = some Node.dir) :
    s.RemoteUnchanged V p := by
  refine ⟨(spaceView_of_dir hs).trans hV.symm, fun r hr => ?_⟩
  rw [hs] at hr
  cases hr

lemma remoteUnchanged_of_none (hs : s.space.get p = none) (hV : V p = none) :
    s.RemoteUnchanged V p := by
  refine ⟨(spaceView_eq_none.mpr hs).trans hV.symm, fun r hr => ?_⟩
  rw [hs] at hr
  cases hr

lemma AsIn.ofDirs (hd : s.disk.get p = some Node.dir) (hs : s.space.get p = some Node.dir)
    (hV : V p = some Node.dir) (hb : s.journal.baseline p = some ([], 0)) : AsIn V p s := by
  refine ⟨(diskView_of_dir hd).trans hV.symm, remoteUnchanged_of_dir hs hV, fun _ => ?_⟩
  rw [hV]
  exact hb

lemma LeavesMerge.ofAbsent (ha : Absent p s) (hV : merged B σ p = none)
    (hspace : σ.diskView p = B p → σ.space.get p = none)
    (hdisk : σ.RemoteUnchanged B p → σ.disk.get p = none) : LeavesMerge B σ s p where
  here := (diskView_eq_none.mpr ha.1).trans hV.symm
  there := remoteUnchanged_of_none ha.2 hV
  row _ hp := (hp.elim (fun hd => hd ha.1) (fun hs => hs ha.2)).elim
  space hc := ha.2.trans (hspace hc).symm
  disk hc := ha.1.trans (hdisk hc).symm

/-- Two directories, one of which has just been made for what is below it. -/
lemma LeavesMerge.ofMade (hd : s.disk.get p = some Node.dir) (hs : s.space.get p = some Node.dir)
    (hV : merged B σ p = some Node.dir) (hj : p ≠ [] → s.journal p = none)
    (hspace : σ.diskView p = B p → s.space.get p = σ.space.get p)
    (hdisk : σ.RemoteUnchanged B p → s.disk.get p = σ.disk.get p) : LeavesMerge B σ s p where
  here := (diskView_of_dir hd).trans hV.symm
  there := remoteUnchanged_of_dir hs hV
  row hne _ := Or.inr ⟨hd, hs, hj hne⟩
  space := hspace
  disk := hdisk

section Step

variable (h : Resumable B σ) (hσ : Tidy σ) (ht : t ∈ tasks κ ε π)
  (hok : (exec κ ε t s).2 = none)

/-- A deletion touches nothing but what is below its path. -/
lemma untouched_by_deletion (hdel : t.instr.isDelete = true) (hbelow : ¬ t.path <:+ p) :
    Untouched s (exec κ ε t s).1 p where
  disk := by
    by_cases hd : s.disk.get p = none
    · rcases exec_disk_none (κ := κ) (ε := ε) (t := t) hd with hc | hc
      · exact hc.trans hd.symm
      · rcases hc with ⟨hi, -⟩ | ⟨hf, -⟩ | ⟨hf, -⟩ | ⟨-, hi, -⟩
        · rw [hi] at hdel; cases hdel
        · rcases hf.2 with hi | hi <;> rw [hi] at hdel <;> cases hdel
        · rcases hf.2 with hi | hi <;> rw [hi] at hdel <;> cases hdel
        · rw [hi] at hdel; cases hdel
    · refine exec_disk_keep hd ?_
      rintro (⟨-, hc, -⟩ | hc)
      · exact hbelow hc
      · rcases (fetches_of_transfer hc).2 with hi | hi <;> rw [hi] at hdel <;> cases hdel
  space := by
    have hup : t.instr ≠ .upload := fun hi => by rw [hi] at hdel; cases hdel
    by_cases hs : s.space.get p = none
    · rcases exec_space_none (κ := κ) (ε := ε) (t := t) hs with hc | hc
      · exact hc.trans hs.symm
      · exact absurd hc.1 hup
    · exact exec_space_keep hs (fun hc => hbelow hc.2) (fun hc => hup hc.1)
  row := exec_journal (fun hc => hbelow (hc ▸ List.suffix_refl p))

include h ht hok in
/-- At and below its path a deletion leaves nothing. -/
lemma Resumable.deletion_step (hdel : t.instr.isDelete = true) (hhalf : Halfway B σ s p)
    (hbelow : t.path <:+ p) : LeavesMerge B σ (exec κ ε t s).1 p := by
  obtain ⟨hV, hspace, hdisk⟩ := h.below_deletion ht hdel hbelow
  obtain ⟨hne, hinstr, -, -⟩ := item_of_mem ht
  refine .ofAbsent ?_ hV hspace hdisk
  rw [hinstr] at hdel
  rcases instruction_isDelete_iff.mp hdel with hg | hg
  · have hi : t.instr = .deleteLocal := hinstr.trans (instruction_deleteLocal_iff.mpr hg)
    have hs : s.space.get p = none := by
      rcases hhalf with hu | hl
      · exact hu.space.trans (σ.space.none_of_below hbelow hg.2.1)
      · exact spaceView_eq_none.mp (hl.there.1.trans hV)
    refine ⟨Tree.none_of_below _ hbelow (exec_deleteLocal_ok hne hi hok).1, ?_⟩
    rcases exec_space_none (κ := κ) (ε := ε) (t := t) hs with hc | hc
    · exact hc
    · rw [hi] at hc; cases hc.1
  · have hi : t.instr = .deleteRemote := hinstr.trans (instruction_deleteRemote_iff.mpr hg)
    have hd : s.disk.get p = none := by
      rcases hhalf with hu | hl
      · exact hu.disk.trans (σ.disk.none_of_below hbelow hg.1)
      · exact diskView_eq_none.mp (hl.here.trans hV)
    exact ⟨exec_deleteRemote_disk hi hd,
      Tree.none_of_below _ hbelow (exec_deleteRemote_ok hne hi hok).1⟩

include h hσ ht in
/-- An upload makes the collections above it, and touches nothing else. -/
lemma Resumable.upload_elsewhere (hi : t.instr = .upload) (hhalf : Halfway B σ s p)
    (hne : p ≠ t.path) :
    Untouched s (exec κ ε t s).1 p ∨ LeavesMerge B σ (exec κ ε t s).1 p := by
  have hdisk : (exec κ ε t s).1.disk.get p = s.disk.get p := by rw [exec_upload_disk hi]
  have hrow : (exec κ ε t s).1.journal p = s.journal p := exec_journal hne
  by_cases hs : s.space.get p = none
  · rcases exec_space_none (κ := κ) (ε := ε) (t := t) hs with hc | ⟨-, hc⟩
    · exact Or.inl ⟨hdisk, hc.trans hs.symm, hrow⟩
    have hmade : p <:+ t.path ∧ (exec κ ε t s).1.space.get p = some Node.dir := by
      rcases hc with ⟨-, hp, -⟩ | ⟨-, hp, hd⟩ | ⟨-, hp, -⟩
      · exact absurd hp hne
      · exact ⟨hp.trans (List.tail_suffix t.path), hd⟩
      · exact absurd hp hne
    obtain ⟨hd, hV, hnew⟩ := h.above_upload hσ ht hi hmade.1 hne
    rcases hhalf with hu | hl
    · right
      have hb := hnew (hu.space.symm.trans hs)
      refine .ofMade (hdisk.trans (hu.disk.trans hd)) hmade.2 hV (fun hpne => ?_) (fun hc => ?_)
        (fun _ => hdisk.trans hu.disk)
      · exact (hrow.trans hu.row).trans (h.baseline_none hpne (Or.inl (by rw [hd]; simp)) hb)
      · rw [diskView_of_dir hd, hb] at hc
        cases hc
    · -- what is done with has its collections already
      have hview := hl.there.1
      rw [spaceView_eq_none.mpr hs, hV] at hview
      cases hview
  · refine Or.inl ⟨hdisk, exec_space_keep hs (fun hc => ?_) (fun hc => hne hc.2.2), hrow⟩
    rw [hi] at hc
    cases hc.1

lemma exec_download_space (hi : t.instr = .download) :
    (exec κ ε t s).1.space.get p = s.space.get p := by
  by_cases hs : s.space.get p = none
  · rcases exec_space_none (κ := κ) (ε := ε) (t := t) hs with hc | hc
    · exact hc.trans hs.symm
    · rw [hi] at hc; cases hc.1
  · refine exec_space_keep hs (fun hc => ?_) (fun hc => ?_)
    · rw [hi] at hc; cases hc.1
    · rw [hi] at hc; cases hc.1

include h hσ in
lemma Resumable.no_copy : ¬ ConflictCopy κ ε σ p := by
  rintro ⟨q, hq, hi, -⟩
  exact h.no_conflict hσ hq hi

include h hσ ht hok in
/-- A download makes the directories above it, and touches nothing else that is known. -/
lemma Resumable.download_elsewhere (hi : t.instr = .download) (hhalf : Halfway B σ s p)
    (hne : p ≠ t.path) :
    Untouched s (exec κ ε t s).1 p ∨ LeavesMerge B σ (exec κ ε t s).1 p := by
  have hspace : (exec κ ε t s).1.space.get p = s.space.get p := exec_download_space hi
  have hrow : (exec κ ε t s).1.journal p = s.journal p := exec_journal hne
  obtain ⟨htne, htp⟩ := present_of_mem ht
  by_cases hp : σ.Present p
  · by_cases hd : s.disk.get p = none
    · rcases exec_disk_none (κ := κ) (ε := ε) (t := t) hd with hc | hc
      · exact Or.inl ⟨hc.trans hd.symm, hspace, hrow⟩
      have hmade : p <:+ t.path ∧ (exec κ ε t s).1.disk.get p = some Node.dir := by
        rcases hc with ⟨-, -, hbelow, hm⟩ | ⟨-, hbelow, hm⟩ | ⟨-, hc | hc⟩ | ⟨-, hc, -⟩
        · exact ⟨hbelow, hm⟩
        · exact ⟨hbelow.trans (List.tail_suffix t.path), hm⟩
        · exact absurd hc hne
        · exact absurd (hc ▸ hp) (hσ.tmp_absent htp htne)
        · rw [hi] at hc; cases hc
      obtain ⟨hs, hV, hnew⟩ := h.above_download hσ ht hi hmade.1 hne
      rcases hhalf with hu | hl
      · right
        have hb := hnew (hu.disk.symm.trans hd)
        refine .ofMade hmade.2 (hspace.trans (hu.space.trans hs)) hV (fun hpne => ?_)
          (fun _ => hspace.trans hu.space) (fun hc => ?_)
        · exact (hrow.trans hu.row).trans (h.baseline_none hpne (Or.inr (by rw [hs]; simp)) hb)
        · have hview := hc.1
          rw [spaceView_of_dir hs, hb] at hview
          cases hview
      · have hview := hl.here
        rw [diskView_eq_none.mpr hd, hV] at hview
        cases hview
    · refine Or.inl ⟨frame_disk hσ (h.fresh hσ) ht hp hne hd (fun hc => ?_), hspace, hrow⟩
      rw [hi] at hc
      cases hc.1
  · -- nothing comes to a path that is nowhere
    have hd : s.disk.get p = none := by
      rcases hhalf with hu | hl
      · exact hu.disk.trans (disk_of_gone hp)
      · refine diskView_eq_none.mp (hl.here.trans ?_)
        exact merge_of_eq (diskView_eq_none.mpr (disk_of_gone hp))
          (spaceView_eq_none.mpr (space_of_gone hp))
    refine Or.inl ⟨Eq.trans ?_ hd.symm, hspace, hrow⟩
    exact frame_disk_none hσ ht hne (by rw [space_of_gone hp]; simp) (h.no_copy hσ)
      (fun _ => hok) hd

lemma exec_dirConflict (hd : t.isDir = true) (hi : t.instr = .conflict) :
    (exec κ ε t s).1 = s := by
  simp only [exec, hd, if_true, execDir, hi]

include h hσ ht hok in
/-- **What a task does to a path that is not its own**: nothing, or it does away with it for good. -/
theorem Resumable.elsewhere (hhalf : Halfway B σ s p) (hne : p ≠ t.path) :
    Untouched s (exec κ ε t s).1 p ∨ LeavesMerge B σ (exec κ ε t s).1 p := by
  cases hdel : t.instr.isDelete with
  | true =>
      by_cases hbelow : t.path <:+ p
      · exact Or.inr (h.deletion_step ht hok hdel hhalf hbelow)
      · exact Or.inl (untouched_by_deletion hdel hbelow)
  | false =>
      rcases transfer_of_mem ht hdel with hi | hi | hi
      · exact h.upload_elsewhere hσ ht hi hhalf hne
      · exact h.download_elsewhere hσ ht hok hi hhalf hne
      · cases hd : t.isDir with
        | true =>
            rw [exec_dirConflict hd hi]
            exact Or.inl ⟨rfl, rfl, rfl⟩
        | false =>
            obtain ⟨-, hinstr, hdir, -⟩ := item_of_mem ht
            exact absurd (hinstr.symm.trans hi) (h.no_conflict hσ (hdir.symm.trans hd))

variable (hε : Honest ε)

include h hσ ht hok hε in
/-- An upload leaves its path on both sides. -/
lemma Resumable.upload_step (hi : t.instr = .upload) (hhalf : Halfway B σ s t.path) :
    LeavesMerge B σ (exec κ ε t s).1 t.path := by
  obtain ⟨hne, hinstr, hdir, -⟩ := item_of_mem ht
  have hpres := instruction_upload (hinstr.symm.trans hi)
  obtain ⟨hV, hchanged⟩ := h.uploaded hσ hne (hinstr.symm.trans hi)
  have hdisk := exec_upload_disk (κ := κ) (ε := ε) (s := s) hi
  have hview : (exec κ ε t s).1.diskView t.path = merged B σ t.path := by
    rw [State.diskView, hdisk, ← State.diskView]
    rcases hhalf with hu | hl
    · rw [hu.diskView, hV]
    · exact hl.here
  have hkept : σ.RemoteUnchanged B t.path →
      (exec κ ε t s).1.disk.get t.path = σ.disk.get t.path := by
    intro hc
    rw [hdisk]
    rcases hhalf with hu | hl
    · exact hu.disk
    · exact hl.disk hc
  refine .ofAsIn ?_ (fun hc => absurd hc hchanged) hkept
  cases hd : t.isDir with
  | false => exact .ofSynced (synced_own hε hd (Or.inl hi) hok) hview
  | true =>
      have hdd : σ.disk.get t.path = some Node.dir := by
        rcases isDirPath_iff.mp (hdir.symm.trans hd) with hc | ⟨hc, -⟩
        · exact hc
        · exact absurd hc hpres
      have hVd := hV.trans (diskView_of_dir hdd)
      obtain ⟨hmade, hrow⟩ := exec_dirUpload_ok hd hi hok
      refine .ofDirs (diskView_dir_inv (hview.trans hVd)) ?_ hVd (baseline_dirRow hrow)
      by_cases hs : s.space.get t.path = none
      · rcases exec_space_none (κ := κ) (ε := ε) (t := t) hs with hc | ⟨-, hc⟩
        · exact absurd hc hmade
        · rcases hc with ⟨-, -, hc⟩ | ⟨hc, -⟩ | ⟨hc, -⟩
          · exact hc
          · rw [hd] at hc; cases hc
          · rw [hd] at hc; cases hc
      · have hkeep : (exec κ ε t s).1.space.get t.path = s.space.get t.path := by
          refine exec_space_keep hs (fun hc => ?_) (fun hc => ?_)
          · rw [hi] at hc; cases hc.1
          · rw [hd] at hc; cases hc.2.1
        rw [hkeep]
        rcases hhalf with hu | hl
        · rw [hu.space] at hs ⊢
          rcases hσ.both hpres hs with ⟨-, hc⟩ | ⟨a, _, ha, -⟩
          · exact hc
          · rw [hdd] at ha; cases ha
        · exact spaceView_dir_inv (hl.there.1.trans hVd)

include h hσ ht hok hε in
/-- So does a download. -/
lemma Resumable.download_step (hi : t.instr = .download) (hhalf : Halfway B σ s t.path) :
    LeavesMerge B σ (exec κ ε t s).1 t.path := by
  obtain ⟨hne, hinstr, hdir, -⟩ := item_of_mem ht
  have hpres := instruction_download (hinstr.symm.trans hi)
  obtain ⟨hV, hchanged⟩ := h.downloaded hσ hne (hinstr.symm.trans hi)
  have hspace : (exec κ ε t s).1.space.get t.path = s.space.get t.path := exec_download_space hi
  have hview : (exec κ ε t s).1.spaceView t.path = merged B σ t.path := by
    rw [State.spaceView, hspace, ← State.spaceView]
    rcases hhalf with hu | hl
    · rw [hu.spaceView, hV]
    · exact hl.there.1
  have hkept : σ.diskView t.path = B t.path →
      (exec κ ε t s).1.space.get t.path = σ.space.get t.path := by
    intro hc
    rw [hspace]
    rcases hhalf with hu | hl
    · exact hu.space
    · exact hl.space hc
  cases hd : t.isDir with
  | false =>
      have hsync := synced_own hε hd (Or.inr (Or.inl hi)) hok
      obtain ⟨a, r, ha, hr, -, hc⟩ := hsync
      refine .ofAsIn (.ofSynced (synced_own hε hd (Or.inr (Or.inl hi)) hok) ?_) hkept (fun hc => ?_)
      · rw [diskView_of_file ha, hc, ← spaceView_of_file hr, hview]
      · have hdd := hchanged hc
        rw [hdir, isDirPath_iff.mpr (Or.inl hdd)] at hd
        cases hd
  | true =>
      have hsd : σ.space.get t.path = some Node.dir := by
        rcases isDirPath_iff.mp (hdir.symm.trans hd) with hc | ⟨-, hc⟩
        · rcases hσ.both (by rw [hc]; simp) hpres with ⟨-, hs⟩ | ⟨a, _, ha, -⟩
          · exact hs
          · rw [hc] at ha; cases ha
        · exact hc
      have hVd := hV.trans (spaceView_of_dir hsd)
      obtain ⟨hmade, hrow⟩ := exec_dirDownload_ok hd hi hok
      exact .ofAsIn (.ofDirs hmade (spaceView_dir_inv (hview.trans hVd)) hVd (baseline_dirRow hrow))
        hkept (fun hc => hmade.trans (hchanged hc).symm)

include h hσ ht hok hε in
/-- **A task is done with its own path**, but for the conflict of two directories. -/
theorem Resumable.own_step (hi : t.instr ≠ .conflict) (hhalf : Halfway B σ s t.path) :
    LeavesMerge B σ (exec κ ε t s).1 t.path := by
  cases hdel : t.instr.isDelete with
  | true => exact h.deletion_step ht hok hdel hhalf (List.suffix_refl t.path)
  | false =>
      rcases transfer_of_mem ht hdel with hc | hc | hc
      · exact h.upload_step hσ ht hok hε hc hhalf
      · exact h.download_step hσ ht hok hε hc hhalf
      · exact absurd hc hi

include h hσ ht hok hε in
/-- A task leaves every path halfway. -/
lemma Resumable.halfway_step (hhalf : ∀ q, Halfway B σ s q) (p : Path) :
    Halfway B σ (exec κ ε t s).1 p := by
  by_cases hp : p = t.path
  · subst hp
    by_cases hi : t.instr = .conflict
    · obtain ⟨-, hinstr, hdir, -⟩ := item_of_mem ht
      have hd : t.isDir = true := by
        by_contra hc
        rw [Bool.not_eq_true] at hc
        exact h.no_conflict hσ (hdir.symm.trans hc) (hinstr.symm.trans hi)
      rw [exec_dirConflict hd hi]
      exact hhalf t.path
    · exact Or.inr (h.own_step hσ ht hok hε hi (hhalf t.path))
  · rcases h.elsewhere hσ ht hok (hhalf p) hp with hu | hl
    · exact (hhalf p).keep hu
    · exact Or.inr hl

end Step

/-! ## What the run leaves -/

section Run

variable (h : Resumable B σ) (hσ : Tidy σ) (hε : Honest ε)

include h hσ hε in
/-- **In the course of a run that does nothing by halves every path is as it was, or done with.** -/
theorem Resumable.halfway {pre : List Item} (hpre : ∀ u ∈ pre, u ∈ tasks κ ε π)
    (hok : NothingByHalves (exec κ ε) pre σ.started) (p : Path) :
    Halfway B σ (stateAfter κ ε σ pre) p := by
  refine TaskRun.run_invariant_at (s := σ.started) (I := fun s => ∀ q, Halfway B σ s q)
    (fun q => Or.inl ⟨rfl, rfl, rfl⟩) (fun before after t hsplit hs => ?_) p
  have ht : t ∈ tasks κ ε π := hpre t (by rw [hsplit]; simp)
  rcases hok before t after hsplit with hdone | hnot
  · exact h.halfway_step hσ ht hdone hε hs
  · exact fun q => (hs q).keep (hnot q)

variable (hrun : ErrorFree κ ε π)

include h hσ hε hrun in
lemma Resumable.leaves_of_task (ht : t ∈ tasks κ ε π) (hi : t.instr ≠ .conflict) :
    LeavesMerge B σ (stateAfter κ ε σ (tasks κ ε π)) t.path := by
  have hhalf : ∀ pre post u, tasks κ ε π = pre ++ u :: post → ∀ q,
      Halfway B σ (stateAfter κ ε σ pre) q := by
    intro pre post u hsplit q
    refine h.halfway hσ hε (mem_of_pre hsplit) (fun before v after hcut => Or.inl ?_) q
    have hwhole : tasks κ ε π = before ++ v :: (after ++ u :: post) := by
      rw [hsplit, hcut, List.append_assoc, List.cons_append]
    exact hrun.ok_at hwhole
  refine TaskRun.run_establish (Q := fun s => LeavesMerge B σ s t.path) ht
    (fun pre post hsplit => ?_) (fun pre post u hsplit htpre hQ => ?_)
  · exact h.own_step hσ ht (hrun.ok_at hsplit) hε hi (hhalf pre post t hsplit t.path)
  · rcases h.elsewhere hσ (mem_of_split hsplit) (hrun.ok_at hsplit) (Or.inr hQ)
      (path_ne_of_before hsplit htpre) with hu | hl
    · exact hQ.keep hu
    · exact hl

include h in
/-- Where the two sides agree, the merge is there already. -/
lemma Resumable.leaves_of_untouched (hu : Untouched σ s p) (hview : σ.spaceView p = σ.diskView p)
    (hetag : ∀ r, σ.space.get p = some (Node.file r) →
      ∃ n, σ.journal.baseline p = some (trimQuotes r.etag, n)) : LeavesMerge B σ s p := by
  have hV : merged B σ p = σ.diskView p := merge_of_eq rfl hview
  have hb : σ.diskView p = B p := by
    rcases h.oneSided p with hc | hc
    · exact hc
    · exact hview.symm.trans hc.1
  refine ⟨hu.diskView.trans hV.symm, hu.remoteUnchanged.mpr ⟨hview.trans hV.symm, hetag⟩,
    fun hne hp => ?_, fun _ => hu.space, fun _ => hu.disk⟩
  rw [hV, hb, records_congr hu.row, hu.unrecorded]
  exact h.rows p hne (hu.present.mp hp)

include h hσ in
/-- What the run has nothing to do for is the same on both sides. -/
lemma Resumable.agree_of_ignored (hne : p ≠ [])
    (hi : instruction κ ε σ p = .ignore ∨ instruction κ ε σ p = .conflict) :
    σ.spaceView p = σ.diskView p ∧ ∀ r, σ.space.get p = some (Node.file r) →
      ∃ n, σ.journal.baseline p = some (trimQuotes r.etag, n) := by
  have hdir : σ.disk.get p = some Node.dir → σ.space.get p = some Node.dir →
      σ.spaceView p = σ.diskView p ∧ ∀ r, σ.space.get p = some (Node.file r) →
        ∃ n, σ.journal.baseline p = some (trimQuotes r.etag, n) := by
    intro hd hs
    refine ⟨(spaceView_of_dir hs).trans (diskView_of_dir hd).symm, fun r hr => ?_⟩
    rw [hs] at hr
    cases hr
  by_cases hp : σ.Present p
  · have hboth : σ.disk.get p ≠ none ∧ σ.space.get p ≠ none := by
      rcases hi with hi | hi
      · have hpres : localEntry σ p ≠ none ∨ remoteEntry ε σ p ≠ none := by
          simpa [State.Present] using hp
        obtain ⟨l, r, hl, hr, -⟩ := (reconcile_ignore_iff hpres).mp hi
        rw [Ne, Ne, ← localEntry_eq_none, ← remoteEntry_eq_none (ε := ε), hl, hr]
        simp
      · exact instruction_conflict hi
    cases h.change hσ p with
    | absent hd => exact absurd hd hboth.1
    | newThere hd => exact absurd hd hboth.1
    | goneHere hd => exact absurd hd hboth.1
    | newHere _ hs => exact absurd hs hboth.2
    | goneThere _ hs => exact absurd hs hboth.2
    | dirs hd hs => exact hdir hd hs
    | files a r c ha hr hb =>
        have hfile : isDirPath ε σ p = false :=
          isDirPath_eq_false.mpr ⟨by rw [ha]; simp, fun hn => absurd hn hboth.1⟩
        have hrow := (instruction_ignore_files ha hr).mp
          (hi.resolve_right (h.no_conflict hσ hfile))
        obtain ⟨e, he⟩ := h.file_row hne hp hb (by rw [ha]; simp)
        rw [hrow, Option.some.injEq, Prod.mk.injEq] at he
        have hac := h.sizes p a c ha hb he.2
        have hrc := h.etags p r c hr hb (by rw [hrow, ← he.2])
        refine ⟨?_, fun r' hr' => ?_⟩
        · rw [spaceView_of_file hr, diskView_of_file ha, hac, hrc]
        · rw [hr, Option.some.injEq, Node.file.injEq] at hr'
          exact ⟨_, hr' ▸ hrow⟩
  · refine ⟨?_, fun r hr => ?_⟩
    · rw [spaceView_eq_none.mpr (space_of_gone hp), diskView_eq_none.mpr (disk_of_gone hp)]
    · rw [space_of_gone hp] at hr
      cases hr

include h hσ in
/-- What is not deleted is to stay. -/
lemma Resumable.merged_present (hne : p ≠ []) (hp : σ.Present p)
    (hdel : (instruction κ ε σ p).isDelete = false) : merged B σ p ≠ none := by
  have hagree : instruction κ ε σ p = .ignore ∨ instruction κ ε σ p = .conflict →
      merged B σ p ≠ none := by
    intro hi
    have hview := (h.agree_of_ignored hσ hne hi).1
    rw [show merged B σ p = σ.diskView p from merge_of_eq rfl hview]
    rcases hp with hd | hs
    · rwa [Ne, diskView_eq_none]
    · rwa [← hview, Ne, spaceView_eq_none]
  rcases instruction_not_delete hdel with hi | hi | hi | hi
  · rw [(h.uploaded hσ hne hi).1, Ne, diskView_eq_none]
    exact instruction_upload hi
  · rw [(h.downloaded hσ hne hi).1, Ne, spaceView_eq_none]
    exact instruction_download hi
  · exact hagree (Or.inr hi)
  · exact hagree (Or.inl hi)

include h hσ hε hrun in
/-- **The run leaves the merge at every path**, and touches neither side without need. -/
theorem Resumable.mergedAt (p : Path) : LeavesMerge B σ (runSync κ ε π).2 p := by
  have hdisc := (errorFree_iff.mp hrun).1
  suffices hend : LeavesMerge B σ (stateAfter κ ε σ (tasks κ ε π)) p by
    obtain ⟨y, hy⟩ := runSync_state (κ := κ) (π := π) hdisc
    rw [hy]
    exact hend.keep ⟨rfl, rfl, rfl⟩
  rcases h.halfway hσ hε (fun u hu => hu) (fun _ _ _ hsplit => Or.inl (hrun.ok_at hsplit)) p
    with hu | hl
  · by_cases hne : p = []
    · refine h.leaves_of_untouched hu ?_ (fun r hr => ?_)
      · rw [hne, spaceView_of_dir σ.space.root, diskView_of_dir σ.disk.root]
      · rw [hne, σ.space.root] at hr
        cases hr
    by_cases hi : instruction κ ε σ p = .ignore ∨ instruction κ ε σ p = .conflict
    · obtain ⟨hview, hetag⟩ := h.agree_of_ignored hσ hne hi
      exact h.leaves_of_untouched hu hview hetag
    rw [not_or] at hi
    by_cases hp : σ.Present p
    · exact h.leaves_of_task hσ hε hrun (itemOf_mem_tasks hne hp hi.1) hi.2
    · refine h.leaves_of_untouched hu ?_ (fun r hr => ?_)
      · rw [spaceView_eq_none.mpr (space_of_gone hp), diskView_eq_none.mpr (disk_of_gone hp)]
      · rw [space_of_gone hp] at hr
        cases hr
  · exact hl

end Run

/-- A local directory whose row has size zero is in no conflict. -/
lemma no_conflict_of_size_zero {e : Str} (hd : σ.disk.get p = some Node.dir)
    (hb : σ.journal.baseline p = some (e, 0)) : instruction κ ε σ p ≠ .conflict := by
  intro hi
  have hs := (instruction_conflict hi).2
  rw [instruction, localEntry_dir hd, hb] at hi
  cases hr : remoteEntry ε σ p with
  | none => exact hs (remoteEntry_eq_none.mp hr)
  | some r => rw [hr, reconcile_both, if_pos rfl] at hi; split at hi <;> cases hi

section Recorded

variable (h : Mergeable B σ) (hσ : Tidy σ) (hε : Honest ε) (hrun : ErrorFree κ ε π)

include h hσ in
/-- A journal of the base has rows for its directories. -/
lemma Mergeable.dirs_recorded (hne : p ≠ []) (hd : σ.disk.get p = some Node.dir)
    (hs : σ.space.get p = some Node.dir) : σ.journal.baseline p = some ([], 0) := by
  have hrow := h.records p hne
  cases h.change hσ p with
  | dirs _ _ hb =>
      rw [hb] at hrow
      exact hrow
  | absent hc => rw [hd] at hc; cases hc
  | newThere hc => rw [hd] at hc; cases hc
  | goneHere hc => rw [hd] at hc; cases hc
  | newHere _ hc => rw [hs] at hc; cases hc
  | goneThere _ hc => rw [hs] at hc; cases hc
  | files a r c ha => rw [hd] at ha; cases ha

include h hσ hrun in
/-- And what is not deleted has a row in the end. -/
lemma Mergeable.row_present (hne : p ≠ []) (hp : σ.Present p)
    (hdel : (instruction κ ε σ p).isDelete = false) : (runSync κ ε π).2.journal p ≠ none := by
  have hdisc := (errorFree_iff.mp hrun).1
  by_cases hi : instruction κ ε σ p = .ignore
  · have hkept := (kept_of_ignored (π := π) hσ (h.fresh hσ) hdisc hp hi).2.2
    rw [hkept]
    intro hnone
    have hpres : localEntry σ p ≠ none ∨ remoteEntry ε σ p ≠ none := by
      simpa [State.Present] using hp
    obtain ⟨l, r, hl, hr, -⟩ := (reconcile_ignore_iff hpres).mp hi
    rw [instruction_unknown (by rw [Ne, ← localEntry_eq_none, hl]; simp)
      (by rw [Ne, ← remoteEntry_eq_none (ε := ε), hr]; simp) (baseline_of_none hnone)] at hi
    cases hi
  · have ht := itemOf_mem_tasks (π := π) hne hp hi
    obtain ⟨pre, post, hsplit, hend⟩ := journal_of_task hdisc ht
    rw [show (itemOf κ ε σ p).path = p from rfl] at hend
    rw [hend]
    rcases own_row ht (hrun.ok_at hsplit) with ho | ⟨-, -, fid, ho⟩ | ⟨ho, hdir, -⟩ |
      ⟨-, -, etag, n, fid, ho⟩
    · rw [show (itemOf κ ε σ p).instr = instruction κ ε σ p from rfl, hdel] at ho
      cases ho.1
    · rw [show (itemOf κ ε σ p).path = p from rfl] at ho
      rw [ho]
      simp
    · -- directories of the base are not in conflict
      have hi : instruction κ ε σ p = .conflict := ho
      obtain ⟨hd, hs⟩ := instruction_conflict hi
      have hdd : σ.disk.get p = some Node.dir :=
        (isDirPath_iff.mp hdir).resolve_right (fun hc => hd hc.1)
      rcases hσ.both hd hs with ⟨-, hsd⟩ | ⟨a, _, ha, -⟩
      · exact absurd hi (no_conflict_of_size_zero hdd (h.dirs_recorded hσ hne hdd hsd))
      · rw [hdd] at ha; cases ha
    · rw [show (itemOf κ ε σ p).path = p from rfl] at ho
      rw [ho]
      simp

include h hσ hε hrun in
/-- **The journal remembers the merge.** -/
theorem Mergeable.records_merged (hne : p ≠ []) :
    (runSync κ ε π).2.journal.Records p (merged B σ p) := by
  have hleaves := h.mergedAt hσ hε hrun p
  have hdisc := (errorFree_iff.mp hrun).1
  by_cases hp : σ.Present p
  · cases hdel : (instruction κ ε σ p).isDelete with
    | true =>
        have hi : instruction κ ε σ p ≠ .ignore := fun hc => by rw [hc] at hdel; cases hdel
        have ht := itemOf_mem_tasks (π := π) hne hp hi
        rw [(h.below_deletion ht hdel (List.suffix_refl p)).1]
        obtain ⟨pre, post, hsplit, hend⟩ := journal_of_task hdisc ht
        refine hend.trans ?_
        rcases own_row ht (hrun.ok_at hsplit) with ho | ⟨ho, -⟩ | ⟨ho, -⟩ | ⟨ho, -⟩
        · exact ho.2
        · rw [show (itemOf κ ε σ p).instr = instruction κ ε σ p from rfl, hdel] at ho; cases ho
        · rw [show instruction κ ε σ p = .conflict from ho] at hdel; cases hdel
        · rw [show (itemOf κ ε σ p).instr = instruction κ ε σ p from rfl, hdel] at ho; cases ho
    | false =>
        have hV := h.merged_present hσ hne hp hdel
        have hend : (runSync κ ε π).2.Present p := by
          refine Or.inl (fun hc => hV ?_)
          rw [← hleaves.here, diskView_eq_none.mpr hc]
        refine (hleaves.row hne hend).resolve_right (fun hun => ?_)
        exact h.row_present hσ hrun hne hp hdel hun.2.2
  · have hnone : merged B σ p = none :=
      merge_of_eq (diskView_eq_none.mpr (disk_of_gone hp)) (spaceView_eq_none.mpr (space_of_gone hp))
    have hrow := h.records p hne
    rw [hnone, Journal.Records, journal_without_task hdisc (fun u hu => (ne_path_of_gone hp hu).symm)]
    cases h.change hσ p with
    | absent _ _ hb =>
        rw [hb] at hrow
        exact hrow
    | newHere hd => exact absurd (Or.inl hd) hp
    | newThere _ hs => exact absurd (Or.inr hs) hp
    | goneHere _ hs => exact absurd (Or.inr hs) hp
    | goneThere hd => exact absurd (Or.inl hd) hp
    | dirs hd => exact absurd (Or.inl (by rw [hd]; simp)) hp
    | files a r c hd => exact absurd (Or.inl (by rw [hd]; simp)) hp

end Recorded

/-- **A run without errors is a three-way merge.**  It leaves the merge of the two trees over the
base on both sides and in the journal, and touches neither side without need. -/
theorem mergeRun (κ : EngineConfig) (ε : Env) (ω : Calls) {σ : State} (π : Schedule σ)
    (B : TreeView) (hσ : Tidy σ) (hplain : σ.Plain) (hε : Honest ε) (hω : ω.Journaled)
    (h : Mergeable B σ) (hrun : ω.ErrorFree κ ε π) :
    InSync (merged B σ) (ω.runSync κ ε π).2 ∧
      (∀ p, σ.diskView p = B p → (ω.runSync κ ε π).2.space.get p = σ.space.get p) ∧
      (∀ p, σ.RemoteUnchanged B p → (ω.runSync κ ε π).2.disk.get p = σ.disk.get p) := by
  rw [Calls.errorFree_of_plain hplain hω.read] at hrun
  rw [Calls.runSync_of_plain hplain hω]
  have hleaves : ∀ p, LeavesMerge B σ (runSync κ ε π).2 p := h.mergedAt hσ hε hrun
  exact ⟨fun p => ⟨(hleaves p).here, (hleaves p).there, h.records_merged hσ hε hrun⟩,
    fun p => (hleaves p).space, fun p => (hleaves p).disk⟩

/-! ## The next run -/

/-- From where both sides agree, nothing has changed. -/
lemma InSync.mergeable (h : InSync V s) : Mergeable V s where
  rows p hne _ := Or.inl ((h p).row hne)
  records p hne := (h p).row hne
  sizes p a c ha hc _ := by
    have hview := (h p).here
    rw [diskView_of_file ha, hc, Option.some.injEq, Node.file.injEq] at hview
    exact hview
  etags p r c hr hc _ := by
    have hview := (h p).there.1
    rw [spaceView_of_file hr, hc, Option.some.injEq, Node.file.injEq] at hview
    exact hview
  oneSided p := Or.inl (h p).here
  removedHere d p _ hd hs _ := absurd ((h d).here.symm.trans (diskView_eq_none.mpr hs)) hd
  removedThere d p _ hd hs _ := absurd ((h d).there.1.symm.trans (spaceView_eq_none.mpr hs)) hd

/-! ## A run that merges -/

/-- `m.txt` has been edited here and `k.txt` removed on the server. -/
def oneChangeEach : State where
  disk := Tree.ofList [(["m.txt".toList], Node.file ⟨⟨[30, 31], by decide⟩, 9⟩),
    (["k.txt".toList], Node.file ⟨⟨[33], by decide⟩, 8⟩)]
  space := Tree.ofList [(["m.txt".toList], Node.file ⟨⟨[30], by decide⟩, "e1".toList⟩)]
  journal := Journal.upsertEntry
    (Journal.upsertEntry (fun _ => none) ["m.txt".toList]
      (fileRow ["m.txt".toList] "e1".toList 1 none))
    ["k.txt".toList] (fileRow ["k.txt".toList] "e2".toList 1 none)
  sync := ⟨.idle, fun _ => none⟩

/-- The tree before the two changes. -/
def beforeChanges : TreeView := fun p =>
  if p = [] then some Node.dir
  else if p = ["m.txt".toList] then some (Node.file ⟨[30], by decide⟩)
  else if p = ["k.txt".toList] then some (Node.file ⟨[33], by decide⟩)
  else none

/-- A file for each direction. -/
def oneChangeEachSchedule : Schedule oneChangeEach :=
  Schedule.ofList oneChangeEach rfl rfl [["m.txt".toList], ["k.txt".toList]] (by decide)
    (by decide) (by decide)

lemma oneChangeEach_cases (p : Path) :
    p = [] ∨ p = ["m.txt".toList] ∨ p = ["k.txt".toList] ∨
      (oneChangeEach.disk.get p = none ∧ oneChangeEach.space.get p = none ∧
        oneChangeEach.journal p = none ∧ beforeChanges p = none) := by
  by_cases h₀ : p = []
  · exact Or.inl h₀
  by_cases ha : p = ["m.txt".toList]
  · exact Or.inr (Or.inl ha)
  by_cases hb : p = ["k.txt".toList]
  · exact Or.inr (Or.inr (Or.inl hb))
  · refine Or.inr (Or.inr (Or.inr ⟨?_, ?_, ?_, ?_⟩))
    · by_contra hc
      have hmem := Tree.ofList_mem hc
      simp only [List.map_cons, List.map_nil, List.mem_cons, List.not_mem_nil, or_false] at hmem
      exact hmem.elim h₀ (fun hm => hm.elim ha hb)
    · by_contra hc
      have hmem := Tree.ofList_mem hc
      simp only [List.map_cons, List.map_nil, List.mem_cons, List.not_mem_nil, or_false] at hmem
      exact hmem.elim h₀ ha
    · simp only [oneChangeEach, Journal.upsertEntry, if_neg ha, if_neg hb]
    · simp only [beforeChanges, if_neg h₀, if_neg ha, if_neg hb]

lemma oneChangeEach_tidy : Tidy oneChangeEach where
  fileLocal p a ha := by
    rcases oneChangeEach_cases p with rfl | rfl | rfl | h
    · rw [oneChangeEach.disk.root] at ha; cases ha
    · decide
    · decide
    · rw [h.1] at ha; cases ha
  fileRemote p r hr := by
    rcases oneChangeEach_cases p with rfl | rfl | rfl | h
    · rw [oneChangeEach.space.root] at hr; cases hr
    · decide
    · decide
    · rw [h.2.1] at hr; cases hr
  names n p hp := by
    rcases oneChangeEach_cases (n :: p) with h | h | h | h
    · cases h
    · cases h; decide
    · cases h; decide
    · exact absurd hp (fun hc => hc.elim (fun hd => hd h.1) (fun hs => hs h.2.1))

lemma oneChangeEach_records {p : Path} (hne : p ≠ []) :
    oneChangeEach.journal.Records p (beforeChanges p) := by
  rcases oneChangeEach_cases p with rfl | rfl | rfl | h
  · exact absurd rfl hne
  · exact ⟨"e1".toList, by decide⟩
  · exact ⟨"e2".toList, by decide⟩
  · rw [h.2.2.2]
    exact h.2.2.1

lemma oneChangeEach_mergeable : Mergeable beforeChanges oneChangeEach where
  rows p hne _ := Or.inl (oneChangeEach_records hne)
  records p hne := oneChangeEach_records hne
  sizes p a c ha hc hlen := by
    rcases oneChangeEach_cases p with rfl | rfl | rfl | h
    · rw [oneChangeEach.disk.root] at ha; cases ha
    · cases ha
      cases hc
      exact absurd hlen (by decide)
    · cases ha
      cases hc
      rfl
    · rw [h.1] at ha; cases ha
  etags p r c hr hc _ := by
    rcases oneChangeEach_cases p with rfl | rfl | rfl | h
    · rw [oneChangeEach.space.root] at hr; cases hr
    · cases hr
      cases hc
      rfl
    · cases hr
    · rw [h.2.1] at hr; cases hr
  oneSided p := by
    rcases oneChangeEach_cases p with rfl | rfl | rfl | h
    · exact Or.inl (diskView_of_dir oneChangeEach.disk.root)
    · refine Or.inr ⟨rfl, fun r hr => ⟨1, ?_⟩⟩
      cases hr
      decide
    · exact Or.inl rfl
    · exact Or.inl ((diskView_eq_none.mpr h.1).trans h.2.2.2.symm)
  removedHere d p _ hd hn _ := by
    rcases oneChangeEach_cases d with rfl | rfl | rfl | h
    · rw [oneChangeEach.disk.root] at hn; cases hn
    · cases hn
    · cases hn
    · exact absurd h.2.2.2 hd
  removedThere d p hbelow _ hn hp := by
    rcases oneChangeEach_cases p with rfl | rfl | rfl | h
    · cases hp
    · cases hp
    · cases hp
    · exact h.1

lemma oneChangeEach_plain : oneChangeEach.Plain := by
  intro p hp
  rcases oneChangeEach_cases p with rfl | rfl | rfl | h
  · simp
  · decide
  · decide
  · exact absurd hp (fun hc => hc.elim (fun hd => hd h.1) (fun hs => hs h.2.1))

/-- The theorem at `oneChangeEach`: the edit is on the server, and `k.txt` is removed. -/
theorem mergeRun_oneChangeEach :
    (Calls.sound.runSync ⟨.keepBoth, 5000000⟩ Env.calm oneChangeEachSchedule).2.spaceView
      ["m.txt".toList] = some (Node.file ⟨[30, 31], by decide⟩) ∧
    (Calls.sound.runSync ⟨.keepBoth, 5000000⟩ Env.calm oneChangeEachSchedule).2.diskView
      ["k.txt".toList] = none := by
  obtain ⟨hmerge, -, -⟩ := mergeRun ⟨.keepBoth, 5000000⟩ Env.calm .sound oneChangeEachSchedule
    beforeChanges oneChangeEach_tidy oneChangeEach_plain calm_honest Calls.sound_journaled
    oneChangeEach_mergeable (Calls.sound_errorFree.mpr (errorFree_iff.mpr ⟨rfl, by decide⟩))
  refine ⟨(hmerge ["m.txt".toList]).there.1.trans ?_, (hmerge ["k.txt".toList]).here.trans ?_⟩
  · exact merged_of_remote rfl
  · exact merged_of_local rfl

end OwncloudSync
