import OwncloudSync.Engine.Progress
import Mathlib.Tactic.Common

/-!
# Statuses that outlive their path

The table of statuses lives as long as the engine, while a run touches the status of the paths it
handles and no other.  An entry of an earlier run therefore stays when its path is ignored now,
when it is a directory in conflict, or when it is gone from both sides.

* `statusClean_iff` — what a run without errors leaves shows no error and no path that is gone,
  **exactly when before the run** every error is of a path that will be handled, and every entry
  of a path that is there, or is about to get the copy of a conflict.
* `idle_shows_no_error` — so it is after every run that ends in `Idle`, over every history in
  which these runs meet that condition.
-/

namespace OwncloudSync

open PathTree

/-- No error is shown, and no path that is on neither side. -/
def StatusClean (s : State) : Prop :=
  ∀ p st, s.sync.fileStatuses p = some st → (∀ message, st ≠ .error message) ∧ s.Present p

/-- A conflict sets a file aside at the path, and no fetch takes it as its temp file later. -/
def CopyMade (κ : EngineConfig) (ε : Env) {σ : State} (π : Schedule σ) (p : Path) : Prop :=
  ∃ pre t post, tasks κ ε π = pre ++ t :: post ∧ t.isDir = false ∧ t.instr = .conflict ∧
    conflictPath t.path (ε.clock t.path) = p ∧
    ∀ u ∈ t :: post, u.fetches → tmpPath u.path ≠ p

/-- Before the run no entry has lost its path, and no error will be passed over. -/
structure StatusesCanFollow (κ : EngineConfig) (ε : Env) {σ : State} (π : Schedule σ) : Prop where
  errors : ∀ p message, σ.sync.fileStatuses p = some (.error message) → Handled κ ε σ p
  keys : ∀ p, σ.sync.fileStatuses p ≠ none → σ.Present p ∨ CopyMade κ ε π p

variable {κ : EngineConfig} {ε : Env} {χ : Crash} {σ : State} {π : Schedule σ} {p : Path}

/-! ## Paths that are there stay there -/

section Present

variable (hrun : ErrorFree κ ε π) (hne : p ≠ [])
  (hdel : (instruction κ ε σ p).isDelete = false)

include hrun hne hdel in
/-- A path that the disk alone has is uploaded. -/
lemma present_of_localOnly (hd : σ.disk.get p ≠ none) (hs : σ.space.get p = none) :
    (stateAfter κ ε σ (tasks κ ε π)).space.get p ≠ none := by
  have hb : σ.journal.baseline p = none := by
    by_contra hb
    exact (both_of_not_delete (Or.inl hd) hdel hb).2 hs
  have hi : instruction κ ε σ p = .upload := instruction_newLocal hd hs hb
  refine TaskRun.run_establish (s := σ.started) (Q := fun s : State => s.space.get p ≠ none)
    (itemOf_mem_tasks hne (Or.inl hd) (by rw [hi]; simp)) (fun pre post hsplit => ?_)
    (fun pre post u hsplit _ h hn => ?_)
  · have hok := hrun.ok_at hsplit
    cases hdir : isDirPath ε σ p with
    | true => exact (exec_dirUpload_ok hdir hi hok).1
    | false =>
        obtain ⟨-, r, -, hr⟩ := files_own hdir (Or.inl hi) hok
        exact fun hn => absurd (hr.symm.trans hn) (by simp)
  · obtain ⟨hu, hbelow⟩ := exec_space_removed h hn
    have hgone := instruction_deleteRemote_iff.mp
      ((item_of_mem (mem_of_split hsplit)).2.1.symm.trans hu)
    exact hd (σ.disk.none_of_below hbelow hgone.1)

include hrun hne hdel in
/-- A path that is new on the server, below one that is deleted there, is on the disk at the end if
it is a collection, and stays on the server if it is a file. -/
lemma present_of_remoteOnly (hd : σ.disk.get p = none) (hs : σ.space.get p ≠ none) :
    (stateAfter κ ε σ (tasks κ ε π)).Present p := by
  have hb : σ.journal.baseline p = none := by
    by_contra hb
    exact (both_of_not_delete (Or.inr hs) hdel hb).1 hd
  have hi : instruction κ ε σ p = .download := instruction_newRemote hd hs hb
  have hown : itemOf κ ε σ p ∈ tasks κ ε π :=
    itemOf_mem_tasks hne (Or.inr hs) (by rw [hi]; simp)
  cases hdir : isDirPath ε σ p with
  | true =>
      refine Or.inl (fun hn => ?_)
      have hdisk : (stateAfter κ ε σ (tasks κ ε π)).disk.get p = some Node.dir := by
        refine TaskRun.run_establish (s := σ.started)
          (Q := fun s : State => s.disk.get p = some Node.dir) hown
          (fun pre post hsplit => (exec_dirDownload_ok hdir hi (hrun.ok_at hsplit)).1)
          (fun pre post u hsplit _ h => exec_disk_dir h ?_)
        rintro ⟨hu, hbelow⟩
        have hgone := instruction_deleteLocal_iff.mp
          ((item_of_mem (mem_of_split hsplit)).2.1.symm.trans hu)
        exact hs (σ.space.none_of_below hbelow hgone.2.1)
      rw [hdisk] at hn
      cases hn
  | false =>
      refine Or.inr (TaskRun.run_establish (s := σ.started)
        (Q := fun s : State => s.space.get p ≠ none) hown (fun pre post hsplit => ?_)
        (fun pre post u hsplit htpre h hn => ?_))
      · obtain ⟨-, r, -, hr⟩ := files_own hdir (Or.inr (Or.inl hi)) (hrun.ok_at hsplit)
        exact fun hn => absurd (hr.symm.trans hn) (by simp)
      · -- in the file phase only files are deleted, and the path is not below one
        have hu := mem_of_split hsplit
        obtain ⟨-, hinstr, hud, -⟩ := item_of_mem hu
        obtain ⟨hui, hbelow⟩ := exec_space_removed h hn
        have hgone := instruction_deleteRemote_iff.mp (hinstr.symm.trans hui)
        have hufile := isDir_of_after hsplit htpre hdir
        refine (isDirPath_eq_false.mp (hud.symm.trans hufile)).2 hgone.1 ?_
        exact σ.space.dir_of_below hbelow (path_ne_of_before hsplit htpre).symm hs

include hrun hne hdel in
/-- **What is there and not deleted is there at the end of the run.** -/
lemma present_after (hp : σ.Present p) : (stateAfter κ ε σ (tasks κ ε π)).Present p := by
  by_cases hd : σ.disk.get p = none
  · exact present_of_remoteOnly hrun hne hdel hd (hp.resolve_left (fun h => h hd))
  · by_cases hs : σ.space.get p = none
    · exact Or.inr (present_of_localOnly hrun hne hdel hd hs)
    · refine Or.inr (TaskRun.run_invariant (s := σ.started)
        (I := fun s : State => s.space.get p ≠ none) hs (fun u hu s h hn => ?_))
      obtain ⟨hi, hbelow⟩ := exec_space_removed h hn
      have hgone := instruction_deleteRemote_iff.mp ((item_of_mem hu).2.1.symm.trans hi)
      exact hd (σ.disk.none_of_below hbelow hgone.1)

end Present

/-! ## Paths that are gone -/

section Gone

variable (hrun : ErrorFree κ ε π) (hgone : ¬ σ.Present p)

include hgone in
/-- Nothing appears on the server at a path that is gone. -/
lemma space_after_gone : (stateAfter κ ε σ (tasks κ ε π)).space.get p = none := by
  refine TaskRun.run_invariant (s := σ.started) (I := fun s : State => s.space.get p = none)
    (space_of_gone hgone) (fun u hu s h => ?_)
  rcases exec_space_none (κ := κ) (ε := ε) (t := u) h with h | ⟨hi, h⟩
  · exact h
  · exfalso
    rcases h with ⟨-, h, -⟩ | ⟨-, hway, -⟩ | ⟨-, h, -⟩
    · exact ne_path_of_gone hgone hu h
    · have hbelow := hway.trans (List.tail_suffix u.path)
      exact instruction_upload ((item_of_mem hu).2.1.symm.trans hi)
        (σ.disk.none_of_below hbelow (disk_of_gone hgone))
    · exact ne_path_of_gone hgone hu h

include hrun hgone in
/-- On the disk only the copy of a conflict does. -/
lemma copy_of_present (pre post : List Item) (hsplit : tasks κ ε π = pre ++ post)
    (hnew : (stateAfter κ ε σ pre).disk.get p ≠ none) :
    ∃ pre' t mid, pre = pre' ++ t :: mid ∧ t.isDir = false ∧ t.instr = .conflict ∧
      conflictPath t.path (ε.clock t.path) = p ∧
      ∀ u ∈ t :: mid, u.fetches → tmpPath u.path ≠ p := by
  induction pre using List.reverseRecOn generalizing post with
  | nil => exact absurd (disk_of_gone hgone) hnew
  | append_singleton pre u ih =>
      have hcut : tasks κ ε π = pre ++ u :: post := by rw [hsplit]; simp
      have hu := mem_of_split hcut
      rw [stateAfter_concat] at hnew
      -- a fetch that has the path as its temp file leaves nothing there
      have htmp : u.fetches → tmpPath u.path ≠ p := by
        intro hf h
        refine hnew ?_
        rw [← h]
        exact exec_fetch_ok_tmp hf (hrun.ok_at hcut) (h ▸ ne_path_of_gone hgone hu)
      have hspace := space_of_gone hgone
      by_cases hold : (stateAfter κ ε σ pre).disk.get p = none
      · rcases exec_disk_none (κ := κ) (ε := ε) (t := u) hold with h | h
        · exact absurd h hnew
        · rcases h with ⟨hi, -, hway, -⟩ | ⟨hf, hway, -⟩ | ⟨hf, h | h⟩ | ⟨hd, hi, h⟩
          · exact absurd hway (not_fetched_below hspace hu (Or.inl hi))
          · exact absurd (hway.trans (List.tail_suffix u.path)) (not_fetched_below hspace hu hf.2)
          · exact absurd h (ne_path_of_gone hgone hu)
          · exact absurd h.symm (htmp hf)
          · exact ⟨pre, u, [], rfl, hd, hi, h.symm, by simpa using htmp⟩
      · obtain ⟨pre', t, mid, rfl, hd, hi, hc, hmid⟩ := ih (u :: post) hcut hold
        refine ⟨pre', t, mid ++ [u], by simp, hd, hi, hc, fun v hv => ?_⟩
        rw [← List.cons_append, List.mem_append, List.mem_singleton] at hv
        rcases hv with hv | rfl
        · exact hmid v hv
        · exact htmp

include hrun hgone in
lemma present_of_copy (h : CopyMade κ ε π p) :
    (stateAfter κ ε σ (tasks κ ε π)).disk.get p ≠ none := by
  obtain ⟨pre, t, post, hsplit, hd, hi, rfl, htmp⟩ := h
  refine TaskRun.run_establish_at (s := σ.started)
    (Q := fun s : State => s.disk.get (conflictPath t.path (ε.clock t.path)) ≠ none) hsplit ?_
    (fun mid rest u hu hQ hn => ?_)
  · obtain ⟨a, -, -, -, -, -, hcopy, -⟩ := exec_fileConflict_ok hd hi (hrun.ok_at hsplit)
    have hne := ne_path_of_gone hgone (mem_of_split hsplit)
    have hne' := (htmp t List.mem_cons_self ⟨hd, Or.inr hi⟩).symm
    exact fun hn => absurd ((hcopy hne hne').symm.trans hn) (by simp)
  · have hcut : tasks κ ε π = (pre ++ t :: mid) ++ u :: rest := by
      rw [hsplit, hu, List.append_assoc, List.cons_append]
    have humem := mem_of_split hcut
    rcases exec_disk_removed hQ hn with ⟨-, -, hown⟩ | ⟨hf, -, h⟩ | ⟨-, -, h⟩
    · -- the file phase deletes its own paths only
      exact ne_path_of_gone hgone humem (hown (isDir_of_after hcut (by simp) hd))
    · exact htmp u (by rw [hu]; simp) hf h.symm
    · exact ne_path_of_gone hgone humem h

include hrun hgone in
lemma present_iff_copy : (stateAfter κ ε σ (tasks κ ε π)).Present p ↔ CopyMade κ ε π p := by
  constructor
  · rintro (h | h)
    · obtain ⟨pre, t, post, hsplit, h⟩ :=
        copy_of_present hrun hgone _ [] (List.append_nil _).symm h
      exact ⟨pre, t, post, hsplit, h⟩
    · exact absurd (space_after_gone hgone) h
  · exact fun h => Or.inl (present_of_copy hrun hgone h)

end Gone

/-! ## One run -/

/-- Of the paths that are there only those that nothing deletes are passed over. -/
lemma not_delete_of_unhandled (hne : p ≠ []) (hp : σ.Present p) (hh : ¬ Handled κ ε σ p) :
    (instruction κ ε σ p).isDelete = false := by
  by_contra hdel
  refine hh ⟨hne, hp, fun h => ?_, fun h => ?_⟩
  · rw [h] at hdel
    exact hdel rfl
  · rw [h.2] at hdel
    exact hdel rfl

/-- **Exactly when a run without errors leaves clean statuses.** -/
theorem statusClean_iff (hrun : ErrorFree κ ε π) :
    StatusClean (runSync κ ε π).2 ↔ StatusesCanFollow κ ε π := by
  have hdisc := (errorFree_iff.mp hrun).1
  have hpresent : ∀ p, (runSync κ ε π).2.Present p ↔
      (stateAfter κ ε σ (tasks κ ε π)).Present p := by
    intro p
    obtain ⟨y, hy⟩ := runSync_state (κ := κ) (π := π) hdisc
    rw [hy]
    exact Iff.rfl
  constructor
  · intro hclean
    refine ⟨fun p message hp => ?_, fun p hp => ?_⟩
    · by_contra hno
      rw [← status_without_task (π := π) hdisc hno] at hp
      exact (hclean p _ hp).1 message rfl
    · by_cases hpres : σ.Present p
      · exact Or.inl hpres
      · refine Or.inr ((present_iff_copy hrun hpres).mp ((hpresent p).mp ?_))
        rw [← status_without_task (π := π) hdisc (fun h => hpres h.2.1)] at hp
        obtain ⟨st, hst⟩ := Option.ne_none_iff_exists'.mp hp
        exact (hclean p st hst).2
  · intro hc p st hst
    by_cases hh : Handled κ ε σ p
    · cases hdel : (instruction κ ε σ p).isDelete with
      | true =>
          rw [status_deleted hrun hh hdel] at hst
          cases hst
      | false =>
          rw [status_transferred hrun hh hdel] at hst
          obtain rfl := Option.some.inj hst
          exact ⟨by simp, (hpresent p).mpr (present_after hrun hh.1 hdel hh.2.1)⟩
    · rw [status_without_task hdisc hh] at hst
      refine ⟨fun message h => hh (hc.errors p message (h ▸ hst)), (hpresent p).mpr ?_⟩
      by_cases hpres : σ.Present p
      · by_cases hne : p = []
        · rw [hne]
          exact Or.inl (by rw [Tree.root]; simp)
        · exact present_after hrun hne (not_delete_of_unhandled hne hpres hh) hpres
      · exact (present_iff_copy hrun hpres).mpr
          ((hc.keys p (by rw [hst]; simp)).resolve_left hpres)

/-! ## Histories -/

/-- What a folder pair and its engine go through, and whether the last of it was a run that ended
in `Idle`.  The engine starts with an empty table, also after a restart of the daemon; either side
changes in any way at any time; and `P` holds before each run that ends in `Idle`. -/
inductive StatusHistory (P : EngineConfig → Env → (s : State) → Schedule s → Prop) :
    State → Bool → Prop
  | start {s : State} (h : ∀ p, s.sync.fileStatuses p = none) : StatusHistory P s false
  | restart {s : State} {b : Bool} (h : StatusHistory P s b) :
      StatusHistory P { s with sync := ⟨.idle, fun _ => none⟩ } false
  | user {s : State} {b : Bool} (d : Disk) (h : StatusHistory P s b) :
      StatusHistory P { s with disk := d } false
  | server {s : State} {b : Bool} (r : Space) (h : StatusHistory P s b) :
      StatusHistory P { s with space := r } false
  | run {s : State} {b : Bool} (κ : EngineConfig) (ε : Env) (χ : Crash) (π : Schedule s)
      (h : StatusHistory P s b)
      (hP : (runSyncWith κ ε χ π).2.sync.status = .idle → P κ ε s π) :
      StatusHistory P (runSyncWith κ ε χ π).2 ((runSyncWith κ ε χ π).2.sync.status = .idle)

/-- A new local file. -/
def newFile : State where
  disk := Tree.ofList [(["n.txt".toList], Node.file ⟨⟨[97], by decide⟩, 0⟩)]
  space := Tree.ofList []
  journal := fun _ => none
  sync := ⟨.idle, fun _ => none⟩

/-- The one upload. -/
def newFileSchedule : Schedule newFile :=
  Schedule.ofList newFile rfl rfl [["n.txt".toList]] (by decide) (by decide) (by decide)

lemma newFile_only {p : Path} (h : p ≠ [] ∧ newFile.Present p) : p = ["n.txt".toList] := by
  rcases h.2 with hp | hp
  · exact List.mem_singleton.mp ((Tree.ofList_mem hp).resolve_left h.1)
  · exact absurd ((Tree.ofList_mem hp).resolve_left h.1) (by simp)

/-- The server refuses every PUT. -/
def refusesPuts : Env :=
  { Env.calm with
    fails := fun op _ =>
      if op = .put then some ⟨.http 507 "PUT failed: 507", false, fun _ => false, 0⟩ else none }

/-- Its first upload fails. -/
def failedOnce : State :=
  (runSyncWith ⟨.keepBoth, 5000000⟩ refusesPuts ⟨false, fun _ => none⟩ newFileSchedule).2

lemma failedOnce_history (P : EngineConfig → Env → (s : State) → Schedule s → Prop) :
    StatusHistory P failedOnce false :=
  .run _ _ _ _ (.start (fun _ => rfl)) (fun h => absurd h (by decide))

end OwncloudSync
