import OwncloudSync.Engine.Statuses
import Mathlib.Tactic.Common

/-!
# What a run shows while it works

`run_sync` shows its folder as `Syncing` first, and each Download, Upload and Conflict task does
so for its path.  `runSync` leaves these out, since a run that gets to its end replaces them.
This file puts them back, together with the ways in which a run **breaks off**:

* phase 1 fails, or `join_remote_path` refuses the space root — `run_sync` returns by `?`;
* a file task panics, and the join loop goes on with the others.

`runSyncWith_calm` says that nothing else is different.  What is left behind is
`handled_left_syncing_iff` for one path and `notLeftSyncing_iff` for the folder: **every early
return leaves the folder in `Syncing`**, and a panicking transfer leaves its path there.
-/

namespace OwncloudSync

open PathTree

/-- What a panicking file task leaves: whatever it had done by then. -/
structure Panic where
  message : String
  disk : Disk
  space : Space
  journal : Journal

/-- The ways a run can break off in the middle. -/
structure Crash where
  /-- `space_root` cannot be a base, so that `join_remote_path` fails for every path -/
  rootless : Bool
  /-- the file tasks that panic -/
  panics : Path → Option Panic

/-- The file tasks that show their path as `Syncing` before they start; the deletes do not. -/
def Item.announces (t : Item) : Bool :=
  !t.isDir && (t.instr = .upload || t.instr = .download || t.instr = .conflict)

/-- A task has shown its path as `Syncing`. -/
def State.announced (st : State) (p : Path) : State :=
  { st with sync := st.sync.setFileStatus p .syncing }

/-- One instruction, with what the join loop makes of its result.  The directory phase runs in
`run_sync` itself, so a panic there is not a return. -/
def execTask (cfg : EngineConfig) (env : Env) (panics : Path → Option Panic) (it : Item)
    (st : State) : State × Option String :=
  if it.isDir then
    ((execDir env it st).1, (execDir env it st).2.map it.message)
  else
    let st₁ := if it.announces then st.announced it.path else st
    match panics it.path with
    | some c =>
        ({ st₁ with disk := c.disk, space := c.space, journal := c.journal },
          some ("task panicked: " ++ c.message))
    | none => ((execFile cfg env it st₁).1, (execFile cfg env it st₁).2.map it.message)

/-- The report of a run that gets to its end. -/
def report (cfg : EngineConfig) (env : Env) {st : State} (sch : Schedule st)
    (errors : List String) : SyncReport :=
  let all := instructions cfg env st sch.order
  let count := fun i => (all.filter (fun it => it.instr = i)).length
  { remoteEntries := (sch.order.filter (fun p => (remoteEntry env st p).isSome)).length
    localEntries := (sch.order.filter (fun p => (localEntry st p).isSome)).length
    downloads := count .download
    uploads := count .upload
    conflicts := count .conflict
    deletesLocal := count .deleteLocal
    deletesRemote := count .deleteRemote
    ignored := (sch.order.filter (fun p => instruction cfg env st p = .ignore)).length
    errors := errors }

/-- `run_sync` with its early returns and with tasks that may panic. -/
def runSyncWith (cfg : EngineConfig) (env : Env) (crash : Crash) {st : State}
    (sch : Schedule st) : Except SyncError SyncReport × State :=
  let started := { st with sync := { st.sync with status := .syncing } }
  match env.discovery with
  | some e => (.error e, started)
  | none =>
      if crash.rootless && !(tasks cfg env sch).isEmpty then
        (.error (.parse "relative URL with a cannot-be-a-base base"), started)
      else
        let r := TaskRun.run (execTask cfg env crash.panics) (tasks cfg env sch) started
        let status : FolderStatus := if r.2.isEmpty then .idle else .error
        (.ok (report cfg env sch r.2), { r.1 with sync := { r.1.sync with status := status } })

/-- Nothing is left in `Syncing`, and a failed run is shown as failed. -/
structure NotLeftSyncing (r : Except SyncError SyncReport × State) : Prop where
  folder : r.2.sync.status ≠ .syncing
  files : ∀ p, r.2.sync.fileStatuses p ≠ some .syncing
  failed : ∀ e, r.1 = .error e → r.2.sync.status = .error

/-- Before the run: nothing breaks it off, and what an earlier run has left in `Syncing` is
handled. -/
structure GetsToItsEnd (κ : EngineConfig) (ε : Env) (χ : Crash) (σ : State) : Prop where
  discovered : ε.discovery = none
  rooted : χ.rootless = true → ∀ p, p ≠ [] → σ.Present p → instruction κ ε σ p = .ignore
  transfers : ∀ p, Handled κ ε σ p → isDirPath ε σ p = false →
    (instruction κ ε σ p).isDelete = false → χ.panics p = none
  leftovers : ∀ p, σ.sync.fileStatuses p = some .syncing →
    Handled κ ε σ p ∧ (isDirPath ε σ p = false → χ.panics p = none)

variable {κ : EngineConfig} {ε : Env} {χ : Crash} {σ s : State} {π : Schedule σ} {t : Item}
  {p q : Path}

/-! ## One task -/

lemma setFileStatus_twice (y : SyncState) (p : Path) (a b : FileStatus) :
    (y.setFileStatus p a).setFileStatus p b = y.setFileStatus p b := by
  simp only [SyncState.setFileStatus, SyncState.mk.injEq, true_and]
  funext q
  by_cases hq : q = p
  · rw [if_pos hq, if_pos hq]
  · rw [if_neg hq, if_neg hq, if_neg hq]

lemma announces_iff : t.announces = true ↔ t.isDir = false ∧
    (t.instr = .upload ∨ t.instr = .download ∨ t.instr = .conflict) := by
  simp [Item.announces, or_assoc]

lemma recorded_announced (p : Path) (e : JournalEntry) (d : Disk) (r : Space) :
    State.recorded { s.announced p with disk := d, space := r } p e =
      State.recorded { s with disk := d, space := r } p e := by
  simp only [State.recorded, State.announced, setFileStatus_twice]

lemma failed_announced (p : Path) (message : String) (d : Disk) (r : Space) :
    State.failed { s.announced p with disk := d, space := r } p message =
      State.failed { s with disk := d, space := r } p message := by
  simp only [State.failed, State.announced, setFileStatus_twice]

lemma downloadAndRecord_announced (d : Disk) :
    downloadAndRecord ε t { s.announced t.path with disk := d } =
      downloadAndRecord ε t { s with disk := d } := by
  unfold downloadAndRecord
  dsimp only [State.announced]
  split
  · exact congrArg (·, _) (recorded_announced t.path _ _ s.space)
  · exact congrArg (·, _) (failed_announced t.path _ _ s.space)

/-- A task that gets to its end replaces what it has shown. -/
lemma execFile_announced (h : t.announces = true) :
    execFile κ ε t (s.announced t.path) = execFile κ ε t s := by
  obtain ⟨-, hi | hi | hi⟩ := announces_iff.mp h
  · simp only [execFile, hi]
    dsimp only [State.announced]
    split
    · exact congrArg (·, _) (recorded_announced t.path _ s.disk _)
    · exact congrArg (·, _) (failed_announced t.path _ s.disk _)
  · simp only [execFile, hi]
    exact downloadAndRecord_announced s.disk
  · simp only [execFile, hi]
    dsimp only [State.announced]
    split
    · exact downloadAndRecord_announced _
    · exact congrArg (·, _) (failed_announced t.path _ s.disk s.space)
    · exact congrArg (·, _) (failed_announced t.path _ s.disk s.space)

lemma execTask_calm (h : t.isDir = false → χ.panics t.path = none) :
    execTask κ ε χ.panics t s =
      ((exec κ ε t s).1, (exec κ ε t s).2.map t.message) := by
  unfold execTask exec
  split
  · rfl
  · rename_i hd
    rw [h (by simpa using hd)]
    by_cases ha : t.announces = true
    · rw [if_pos ha]
      dsimp only
      rw [execFile_announced ha]
    · rw [if_neg ha]

/-- A task that panics has written its announcement, and nothing else. -/
lemma execTask_crashed (hd : t.isDir = false) (hp : χ.panics t.path ≠ none) :
    (execTask κ ε χ.panics t s).1.sync =
      if t.announces then s.sync.setFileStatus t.path .syncing else s.sync := by
  obtain ⟨c, hc⟩ := Option.ne_none_iff_exists'.mp hp
  simp only [execTask, hd, hc, Bool.false_eq_true, if_false]
  by_cases ha : t.announces = true
  · rw [if_pos ha, if_pos ha]
    rfl
  · rw [if_neg ha, if_neg ha]

lemma execTask_status_other (h : q ≠ t.path) :
    (execTask κ ε χ.panics t s).1.sync.fileStatuses q = s.sync.fileStatuses q := by
  by_cases hc : t.isDir = false → χ.panics t.path = none
  · rw [execTask_calm hc]
    exact exec_status_other h
  · push Not at hc
    rw [execTask_crashed hc.1 hc.2]
    split
    · exact if_neg h
    · rfl

/-- A task that panics leaves what it has shown. -/
lemma execTask_panicked (hd : t.isDir = false) (hp : χ.panics t.path ≠ none) :
    (execTask κ ε χ.panics t s).1.sync.fileStatuses t.path =
      if t.announces then some .syncing else s.sync.fileStatuses t.path := by
  rw [execTask_crashed hd hp]
  by_cases ha : t.announces = true
  · rw [if_pos ha, if_pos ha]
    exact if_pos rfl
  · rw [if_neg ha, if_neg ha]

/-- A task that gets to its end does not leave its path in `Syncing`. -/
lemma exec_not_syncing (h : t.moves ∨ t.instr.isDelete = true) :
    (exec κ ε t s).1.sync.fileStatuses t.path ≠ some .syncing := by
  generalize hr : exec κ ε t s = r
  cases hr ▸ exec_ends κ ε t s with
  | failed d r e message =>
      rw [show (State.failed { s with disk := d, space := r } t.path message).sync.fileStatuses
        t.path = some (.error message) from if_pos rfl]
      simp
  | forgotten d r =>
      rw [show (State.forgotten { s with disk := d, space := r } t.path).sync.fileStatuses
        t.path = none from if_pos rfl]
      simp
  | recorded d r _ row =>
      rw [show (State.recorded { s with disk := d, space := r } t.path row).sync.fileStatuses
        t.path = some .ok from if_pos rfl]
      simp
  | unhandled hm hd =>
      rcases h with h | h
      · exact absurd h hm
      · rw [h] at hd; cases hd

/-! ## A run -/

lemma runSyncWith_undiscovered {e : SyncError} (h : ε.discovery = some e) :
    runSyncWith κ ε χ π = (.error e, σ.started) := by
  unfold runSyncWith
  rw [h]
  rfl

lemma runSyncWith_rootless (h : ε.discovery = none) (hroot : χ.rootless = true)
    (ht : tasks κ ε π ≠ []) : ∃ e, runSyncWith κ ε χ π = (.error e, σ.started) := by
  refine ⟨.parse "relative URL with a cannot-be-a-base base", ?_⟩
  unfold runSyncWith
  rw [h]
  dsimp only
  rw [if_pos (by simp [hroot, ht])]
  rfl

/-- A run that gets to its end. -/
lemma runSyncWith_end (h : ε.discovery = none)
    (hroot : χ.rootless = true → tasks κ ε π = []) :
    ∃ r, r = TaskRun.run (execTask κ ε χ.panics) (tasks κ ε π) σ.started ∧
      runSyncWith κ ε χ π = (.ok (report κ ε π r.2),
        { r.1 with sync := { r.1.sync with status := if r.2.isEmpty then .idle else .error } }) := by
  refine ⟨_, rfl, ?_⟩
  unfold runSyncWith
  rw [h]
  dsimp only
  rw [if_neg]
  · rfl
  · rw [Bool.and_eq_true, Bool.not_eq_true', List.isEmpty_eq_false_iff]
    rintro ⟨hr, ht⟩
    exact ht (hroot hr)

/-- **Where nothing breaks off, this is `runSync`.** -/
theorem runSyncWith_calm (hroot : χ.rootless = true → tasks κ ε π = [])
    (hpanics : ∀ t ∈ tasks κ ε π, t.isDir = false → χ.panics t.path = none) :
    runSyncWith κ ε χ π = runSync κ ε π := by
  cases hd : ε.discovery with
  | some e =>
      rw [runSyncWith_undiscovered hd, runSync, hd]
      rfl
  | none =>
      obtain ⟨r, hr, heq⟩ := runSyncWith_end hd hroot
      rw [TaskRun.run_map Item.message (execTask κ ε χ.panics)
        (fun t ht s => execTask_calm (hpanics t ht))] at hr
      rw [heq, hr, runSync, hd, TaskRun.isEmpty_messages]
      rfl

/-- A run that breaks off leaves the folder in `Syncing`. -/
lemma reaches_end (h : (runSyncWith κ ε χ π).2.sync.status ≠ .syncing) :
    ε.discovery = none ∧ (χ.rootless = true → tasks κ ε π = []) := by
  have hdisc : ε.discovery = none := by
    by_contra hd
    obtain ⟨e, he⟩ := Option.ne_none_iff_exists'.mp hd
    exact h (by rw [runSyncWith_undiscovered he]; rfl)
  refine ⟨hdisc, fun hr => ?_⟩
  by_contra ht
  obtain ⟨e, he⟩ := runSyncWith_rootless hdisc hr ht
  exact h (by rw [he]; rfl)

/-- A run that ends in `Idle` has not broken off, and all its tasks have succeeded. -/
theorem runSyncWith_idle (h : (runSyncWith κ ε χ π).2.sync.status = .idle) :
    runSyncWith κ ε χ π = runSync κ ε π ∧ ErrorFree κ ε π := by
  obtain ⟨hdisc, hroot⟩ := reaches_end (by rw [h]; simp)
  obtain ⟨r, hr, heq⟩ := runSyncWith_end hdisc hroot
  have hnoerr : r.2 = [] := by
    rw [heq] at h
    dsimp only at h
    split at h
    · rename_i hempty
      exact List.isEmpty_iff.mp hempty
    · cases h
  have hcalm : runSyncWith κ ε χ π = runSync κ ε π := by
    refine runSyncWith_calm hroot (fun t ht hd => ?_)
    obtain ⟨pre, post, hsplit⟩ := List.append_of_mem ht
    have hok : (execTask κ ε χ.panics t _).2 = none :=
      TaskRun.run_ok_at (s := σ.started) (by rw [← hr]; exact hnoerr) hsplit
    by_contra hp
    obtain ⟨c, hc⟩ := Option.ne_none_iff_exists'.mp hp
    simp [execTask, hd, hc] at hok
  refine ⟨hcalm, report κ ε π r.2, ?_, hnoerr⟩
  rw [← hcalm, heq]

lemma status_ownedWith (κ : EngineConfig) (ε : Env) (χ : Crash) :
    TaskRun.Owned (execTask κ ε χ.panics) Item.path (fun s : State => s.sync.fileStatuses) :=
  fun _ _ _ h => execTask_status_other h

/-- The statuses the tasks leave, the folder's own apart. -/
def statusesWith (κ : EngineConfig) (ε : Env) (χ : Crash) {σ : State} (π : Schedule σ) :
    Path → Option FileStatus :=
  (TaskRun.run (execTask κ ε χ.panics) (tasks κ ε π) σ.started).1.sync.fileStatuses

/-- A path that is handled is left in `Syncing` by a panic alone. -/
lemma handled_left_syncing_iff (hp : Handled κ ε σ p) :
    statusesWith κ ε χ π p = some .syncing ↔
      isDirPath ε σ p = false ∧ χ.panics p ≠ none ∧
        ((instruction κ ε σ p).isDelete = false ∨ σ.sync.fileStatuses p = some .syncing) := by
  obtain ⟨hne, hpres, hi, -⟩ := id hp
  obtain ⟨pre, post, hsplit⟩ :=
    List.append_of_mem (itemOf_mem_tasks (κ := κ) (ε := ε) (π := π) hne hpres hi)
  have hown : statusesWith κ ε χ π p = _ :=
    TaskRun.run_owned (s := σ.started) (status_ownedWith κ ε χ) hsplit
      (fun u hu => path_ne_of_split hsplit (Or.inr hu))
  rw [hown]
  by_cases hpanic : isDirPath ε σ p = false ∧ χ.panics p ≠ none
  · have hbefore := TaskRun.run_untouched (s := σ.started) (i := p) (status_ownedWith κ ε χ)
      (fun u hu => path_ne_of_before hsplit hu)
    have hleft := execTask_panicked (κ := κ) (ε := ε) (t := itemOf κ ε σ p)
      (s := (TaskRun.run (execTask κ ε χ.panics) pre σ.started).1) hpanic.1 hpanic.2
    obtain ⟨hfile, hpan⟩ := hpanic
    rw [hleft]
    simp only [hfile, Ne, hpan, not_false_iff, true_and]
    cases hdel : (instruction κ ε σ p).isDelete with
    | false =>
        have hann : (itemOf κ ε σ p).announces = true :=
          announces_iff.mpr ⟨hfile, (hp.moves hdel).imp_right (Or.imp_right And.left)⟩
        simp [hann]
    | true =>
        have hann : (itemOf κ ε σ p).announces = false := by
          rw [Bool.eq_false_iff, Ne, announces_iff]
          rintro ⟨-, h | h | h⟩
          · rw [show instruction κ ε σ p = _ from h] at hdel; cases hdel
          · rw [show instruction κ ε σ p = _ from h] at hdel; cases hdel
          · rw [show instruction κ ε σ p = _ from h] at hdel; cases hdel
        rw [hann]
        simp only [Bool.false_eq_true, if_false, Bool.true_eq_false, false_or]
        exact iff_of_eq (congrArg (fun x => x = some FileStatus.syncing) hbefore)
  · have hcalm : (itemOf κ ε σ p).isDir = false → χ.panics (itemOf κ ε σ p).path = none := by
      intro hd
      by_contra hc
      exact hpanic ⟨hd, hc⟩
    rw [execTask_calm hcalm]
    refine iff_of_false (exec_not_syncing (t := itemOf κ ε σ p) ?_)
      (fun h => hpanic ⟨h.1, h.2.1⟩)
    cases hdel : (instruction κ ε σ p).isDelete with
    | false => exact Or.inl (hp.moves hdel)
    | true => exact Or.inr hdel

/-- A path that nothing handles keeps the status it had. -/
lemma statusesWith_unhandled (hp : ¬ Handled κ ε σ p) :
    statusesWith κ ε χ π p = σ.sync.fileStatuses p := by
  by_cases hmem : ∃ t ∈ tasks κ ε π, t.path = p
  · obtain ⟨t, ht, rfl⟩ := hmem
    obtain ⟨hd, hi⟩ := dirConflict_of_unhandled ht hp
    obtain ⟨pre, post, hsplit⟩ := List.append_of_mem ht
    have hown : statusesWith κ ε χ π t.path = _ :=
      TaskRun.run_owned (s := σ.started) (status_ownedWith κ ε χ) hsplit
        (fun u hu => path_ne_of_split hsplit (Or.inr hu))
    rw [hown]
    simp only [execTask, hd, if_true, execDir, hi]
    exact TaskRun.run_untouched (status_ownedWith κ ε χ)
      (fun u hu => path_ne_of_before hsplit hu)
  · exact TaskRun.run_untouched (status_ownedWith κ ε χ) (fun u hu hc => hmem ⟨u, hu, hc⟩)

/-- **Exactly when nothing is left in `Syncing`.** -/
theorem notLeftSyncing_iff (κ : EngineConfig) (ε : Env) (χ : Crash) {σ : State}
    (π : Schedule σ) : NotLeftSyncing (runSyncWith κ ε χ π) ↔ GetsToItsEnd κ ε χ σ := by
  constructor
  · intro h
    obtain ⟨hdisc, hroot⟩ := reaches_end h.folder
    obtain ⟨r, hr, heq⟩ := runSyncWith_end hdisc hroot
    have hfiles : ∀ p, statusesWith κ ε χ π p ≠ some .syncing := by
      intro p hp
      refine h.files p ?_
      rw [heq]
      exact (congrArg (fun r => r.1.sync.fileStatuses p) hr).trans hp
    refine ⟨hdisc, fun hr p hne hp => ?_, fun p hp hd hdel => ?_, fun p hp => ?_⟩
    · by_contra hi
      have := itemOf_mem_tasks (π := π) hne hp hi
      rw [hroot hr] at this
      cases this
    · by_contra hpanic
      exact hfiles p ((handled_left_syncing_iff hp).mpr ⟨hd, hpanic, Or.inl hdel⟩)
    · have hhandled : Handled κ ε σ p := by
        by_contra hno
        exact hfiles p ((statusesWith_unhandled hno).trans hp)
      refine ⟨hhandled, fun hd => ?_⟩
      by_contra hpanic
      exact hfiles p ((handled_left_syncing_iff hhandled).mpr ⟨hd, hpanic, Or.inr hp⟩)
  · intro h
    have hroot : χ.rootless = true → tasks κ ε π = [] := by
      intro hr
      refine List.eq_nil_iff_forall_not_mem.mpr (fun t ht => ?_)
      obtain ⟨hne, hinstr, -⟩ := item_of_mem ht
      exact (mem_tasks.mp ht).2.2 (hinstr.trans (h.rooted hr t.path hne (present_of_mem ht).2))
    obtain ⟨r, hr, heq⟩ := runSyncWith_end h.discovered hroot
    rw [heq]
    refine ⟨?_, fun p => ?_, fun e he => by cases he⟩
    · dsimp only
      split
      · simp
      · simp
    · have hp : statusesWith κ ε χ π p ≠ some .syncing := by
        by_cases hhandled : Handled κ ε σ p
        · rw [Ne, handled_left_syncing_iff hhandled]
          rintro ⟨hd, hpanic, hdel | hold⟩
          · exact hpanic (h.transfers p hhandled hd hdel)
          · exact hpanic ((h.leftovers p hold).2 hd)
        · rw [statusesWith_unhandled hhandled]
          exact fun hold => hhandled (h.leftovers p hold).1
      rw [hr]
      exact hp

/-- A folder pair with nothing in it. -/
def emptyFolder : State where
  disk := Tree.ofList []
  space := Tree.ofList []
  journal := fun _ => none
  sync := ⟨.idle, fun _ => none⟩

/-- A token that cannot be refreshed ends the run in phase 1, and the folder stays in
`Syncing`. -/
theorem expiredToken_left_syncing :
    ¬ ∀ (κ : EngineConfig) (ε : Env) (χ : Crash) (σ : State) (π : Schedule σ),
      NotLeftSyncing (runSyncWith κ ε χ π) := by
  intro h
  exact (h ⟨.keepBoth, 5000000⟩ { Env.calm with discovery := some (.auth "token expired") }
    ⟨false, fun _ => none⟩ emptyFolder
    (Schedule.ofList emptyFolder rfl rfl [] (by decide) (by decide) (by decide))).folder rfl

end OwncloudSync
