import OwncloudSync.Daemon.MainLoop
import OwncloudSync.Engine.StatusHygiene
import OwncloudSync.Lib.Keyed
import Mathlib.Tactic.Common

/-!
# What the GUI shows of a sync

The outcome of a run goes through three hands.  `run_sync` leaves it in the engine's own
`SyncState.status` and returns it; the sync task of the daemon makes a `SyncFinished` event of
what was returned (`Daemon.outcome`); the GUI shows the folder by the event's list of errors
(`handle_daemon_event`).

The three agree on a run **all of whose tasks succeed**, and on no other:

* `run_sync` returns `Ok` also when tasks have failed, with their messages in the report, and the
  sync task drops them — it broadcasts an empty list, and the GUI shows `Idle`;
* on an early return the GUI shows `Error`, but the engine has been left in `Syncing`.
-/

namespace OwncloudSync

namespace Gui

/-- `FolderStatus` of the GUI's own model. -/
inductive FolderStatus where
  | idle
  | syncing
  | error
  | paused
  deriving DecidableEq

/-- `FolderView`, a row of the list of folders. -/
structure FolderView where
  id : Uuid
  spaceId : String
  displayName : String
  localPath : String
  status : FolderStatus
  progress : Option (UInt64 × UInt64)
  errors : List String

/-- `AccountView`, an account with its folders. -/
structure AccountView where
  id : Uuid
  url : String
  displayName : String
  folders : List FolderView

/-- The part of `App` that shows folders. -/
structure App where
  accounts : List AccountView

/-- The folder `find_folder_mut` finds: the first of that id. -/
def findFolder (app : App) (folderId : Uuid) : Option FolderView :=
  Keyed.find FolderView.id folderId (app.accounts.flatMap AccountView.folders)

/-- `find_folder_mut`, then a change of what it finds. -/
def modifyFolder (folderId : Uuid) (f : FolderView → FolderView) :
    List AccountView → List AccountView
  | [] => []
  | a :: accounts =>
      if a.folders.any (fun v => v.id = folderId) then
        { a with folders := Keyed.modify FolderView.id folderId f a.folders } :: accounts
      else a :: modifyFolder folderId f accounts

/-- `handle_daemon_event`. -/
def handleDaemonEvent (app : App) : DaemonEvent → App
  | .syncStarted folderId =>
      ⟨modifyFolder folderId (fun v => { v with status := .syncing, errors := [] }) app.accounts⟩
  | .syncFinished folderId errors _ =>
      ⟨modifyFolder folderId (fun v =>
        if errors.isEmpty then { v with progress := none, status := .idle, errors := [] }
        else { v with progress := none, status := .error, errors := errors }) app.accounts⟩
  | .accountStateChanged _ _ => app

variable {f : Uuid} {g : FolderView → FolderView} {accounts : List AccountView}

/-- What is found after the change is what was found before, changed. -/
lemma findFolder_modifyFolder (hg : ∀ v, (g v).id = v.id) :
    findFolder ⟨modifyFolder f g accounts⟩ f = (findFolder ⟨accounts⟩ f).map g := by
  simp only [findFolder]
  induction accounts with
  | nil => rfl
  | cons a accounts ih =>
      have hany : a.folders.any (fun v => v.id = f) = true ↔
          (Keyed.find FolderView.id f a.folders).isSome = true := by
        rw [Keyed.find_isSome]
        simp
      rw [modifyFolder, List.flatMap_cons, Keyed.find_append]
      split
      · rename_i ha
        obtain ⟨v, hv⟩ := Option.isSome_iff_exists.mp (hany.mp ha)
        rw [List.flatMap_cons, Keyed.find_append, Keyed.find_modify_self hg, hv]
        rfl
      · rename_i ha
        rw [hany, Option.not_isSome_iff_eq_none] at ha
        rw [List.flatMap_cons, Keyed.find_append, ha]
        exact ih

end Gui

/-- The event that tells the GUI of a finished run. -/
def finishedEvent (folderId : Uuid) (result : Except SyncError SyncReport) : DaemonEvent :=
  .syncFinished folderId (Daemon.outcome result).1 (Daemon.outcome result).2

/-- The only `SyncFinished` events are those of finished tasks. -/
lemma Daemon.syncFinished_of_step {d d' : Daemon} {f : Uuid} {errors : List String}
    {rep : Option SyncReport} (hs : Step d d')
    (hd : d'.events = d.events ++ [.syncFinished f errors rep]) :
    ∃ result, (f, result) ∈ d.finished ∧ .syncFinished f errors rep = finishedEvent f result := by
  cases hs with
  | report h =>
      rename_i id result before after
      have hlast := List.append_cancel_left hd
      rw [List.cons.injEq] at hlast
      cases hlast.1
      exact ⟨result, by rw [h]; simp, rfl⟩
  | _ => simp_all

/-- The run has failed, as a whole or in part: it returned `Err`, or its report has an error. -/
def Failed : Except SyncError SyncReport → Prop
  | .ok r => r.errors ≠ []
  | .error _ => True

instance : DecidablePred Failed
  | .ok r => inferInstanceAs (Decidable (r.errors ≠ []))
  | .error _ => isTrue trivial

/-- The list of errors of an event. -/
def DaemonEvent.errors : DaemonEvent → List String
  | .syncFinished _ errors _ => errors
  | _ => []

/-- The event says that the run has failed exactly when it has, and a GUI that handles the event
shows the folder as `Error` exactly when the engine does. -/
structure ErrorsReachUser (f : Uuid) (r : Except SyncError SyncReport × State) : Prop where
  event : (finishedEvent f r.1).errors ≠ [] ↔ Failed r.1
  shown : ∀ app : Gui.App, Gui.findFolder app f ≠ none →
    ((Gui.findFolder (Gui.handleDaemonEvent app (finishedEvent f r.1)) f).map (·.status) =
      some .error ↔ r.2.sync.status = .error)

/-- The run returns early: phase 1 fails, or the space root cannot be joined to a path there is
something to do for. -/
def BreaksOff (κ : EngineConfig) (ε : Env) (χ : Crash) (σ : State) : Prop :=
  ε.discovery ≠ none ∨
    χ.rootless = true ∧ ∃ p, p ≠ [] ∧ σ.Present p ∧ instruction κ ε σ p ≠ .ignore

/-- Every task, in the state the tasks before it leave, succeeds. -/
def TasksSucceed (κ : EngineConfig) (ε : Env) (χ : Crash) {σ : State} (π : Schedule σ) : Prop :=
  ∀ pre t post, tasks κ ε π = pre ++ t :: post →
    (execTask κ ε χ.panics t (TaskRun.run (execTask κ ε χ.panics) pre σ.started).1).2 = none

variable {κ : EngineConfig} {ε : Env} {χ : Crash} {σ : State} {π : Schedule σ} {f : Uuid}

/-! ## From the event to the GUI -/

/-- The GUI goes by the list of errors alone. -/
lemma shown_error_iff {app : Gui.App} (result : Except SyncError SyncReport)
    (h : Gui.findFolder app f ≠ none) :
    (Gui.findFolder (Gui.handleDaemonEvent app (finishedEvent f result)) f).map (·.status) =
      some .error ↔ (finishedEvent f result).errors ≠ [] := by
  obtain ⟨v, hv⟩ := Option.ne_none_iff_exists'.mp h
  simp only [Gui.handleDaemonEvent, finishedEvent, DaemonEvent.errors]
  rw [Gui.findFolder_modifyFolder (fun v => by split <;> rfl), hv]
  cases (Daemon.outcome result).1 with
  | nil => simp
  | cons e es => simp

/-- There is a GUI that shows the folder. -/
lemma exists_showing (f : Uuid) : ∃ app, Gui.findFolder app f ≠ none :=
  ⟨⟨[⟨0, "", "", [⟨f, "", "", "", .idle, none, []⟩]⟩]⟩, by simp [Gui.findFolder, Keyed.find]⟩

/-- So what a GUI shows is a matter of the event and the engine. -/
lemma errorsReachUser_iff {r : Except SyncError SyncReport × State} :
    ErrorsReachUser f r ↔ ((finishedEvent f r.1).errors ≠ [] ↔ Failed r.1) ∧
      ((finishedEvent f r.1).errors ≠ [] ↔ r.2.sync.status = .error) := by
  constructor
  · intro h
    obtain ⟨app, happ⟩ := exists_showing f
    exact ⟨h.event, (shown_error_iff r.1 happ).symm.trans (h.shown app happ)⟩
  · rintro ⟨hevent, hstatus⟩
    exact ⟨hevent, fun app happ => (shown_error_iff r.1 happ).trans hstatus⟩

/-- The event of a run that returned `Ok` has no errors. -/
lemma errors_of_ok (rep : SyncReport) : (finishedEvent f (.ok rep)).errors = [] := rfl

lemma errors_of_error (e : SyncError) : (finishedEvent f (.error e)).errors = [e.display] := rfl

/-! ## From the engine to the event -/

lemma not_breaksOff_iff : ¬ BreaksOff κ ε χ σ ↔
    ε.discovery = none ∧ (χ.rootless = true → tasks κ ε π = []) := by
  unfold BreaksOff
  push Not
  refine and_congr_right (fun _ => ⟨fun h hr => ?_, fun h hr p hne hp => ?_⟩)
  · refine List.eq_nil_iff_forall_not_mem.mpr (fun t ht => ?_)
    obtain ⟨hne, hinstr, -⟩ := item_of_mem ht
    exact (mem_tasks.mp ht).2.2 (hinstr.trans (h hr t.path hne (present_of_mem ht).2))
  · by_contra hi
    have hmem := itemOf_mem_tasks (κ := κ) (ε := ε) (π := π) hne hp hi
    rw [h hr] at hmem
    cases hmem

/-- A run that breaks off returns an error and is left in `Syncing`. -/
lemma runSyncWith_breaksOff (h : BreaksOff κ ε χ σ) :
    ∃ e, runSyncWith κ ε χ π = (.error e, σ.started) := by
  cases hd : ε.discovery with
  | some e => exact ⟨e, runSyncWith_undiscovered hd⟩
  | none =>
      have hno : ¬ (χ.rootless = true → tasks κ ε π = []) :=
        fun hroot => not_breaksOff_iff.mpr ⟨hd, hroot⟩ h
      push Not at hno
      exact runSyncWith_rootless hd hno.1 hno.2

/-- A run that gets to its end returns a report, which has an error unless the tasks succeed. -/
lemma runSyncWith_ended (h : ¬ BreaksOff κ ε χ σ) : ∃ rep s, runSyncWith κ ε χ π = (.ok rep, s) ∧
    (rep.errors = [] ↔ TasksSucceed κ ε χ π) ∧
    (s.sync.status = .error ↔ ¬ TasksSucceed κ ε χ π) := by
  obtain ⟨hdisc, hroot⟩ := not_breaksOff_iff.mp h
  obtain ⟨r, hr, heq⟩ := runSyncWith_end hdisc hroot
  have hok : r.2 = [] ↔ TasksSucceed κ ε χ π := by
    rw [hr]
    exact TaskRun.run_ok_iff
  refine ⟨_, _, heq, hok, ?_⟩
  rw [← hok]
  cases r.2 with
  | nil => simp
  | cons e es => simp

lemma event_tells_iff (κ : EngineConfig) (ε : Env) (χ : Crash) (π : Schedule σ) (f : Uuid) :
    ((finishedEvent f (runSyncWith κ ε χ π).1).errors ≠ [] ↔ Failed (runSyncWith κ ε χ π).1) ↔
      (BreaksOff κ ε χ σ ∨ TasksSucceed κ ε χ π) := by
  by_cases hb : BreaksOff κ ε χ σ
  · obtain ⟨e, he⟩ := runSyncWith_breaksOff (π := π) hb
    rw [he, errors_of_error]
    simp [Failed, hb]
  · obtain ⟨rep, s, heq, hrep, -⟩ := runSyncWith_ended (π := π) hb
    rw [heq, errors_of_ok]
    simp [Failed, hb, hrep]

/-- **Exactly when the outcome of a run reaches the user.**  Every `SyncFinished` the daemon
broadcasts is the event of a run's result.  It tells of a failure unless the run gets to its end
and a task of it fails; event, GUI and engine agree exactly when the run gets to its end and all
its tasks succeed. -/
theorem errorsReachUser_iff_succeed (κ : EngineConfig) (ε : Env) (χ : Crash) {σ : State}
    (π : Schedule σ) (f : Uuid) :
    (∀ (d d' : Daemon) errors rep, Daemon.Step d d' →
      d'.events = d.events ++ [.syncFinished f errors rep] →
      ∃ result, (f, result) ∈ d.finished ∧ .syncFinished f errors rep = finishedEvent f result) ∧
    (((finishedEvent f (runSyncWith κ ε χ π).1).errors ≠ [] ↔
      Failed (runSyncWith κ ε χ π).1) ↔ (BreaksOff κ ε χ σ ∨ TasksSucceed κ ε χ π)) ∧
    (ErrorsReachUser f (runSyncWith κ ε χ π) ↔
      ¬ BreaksOff κ ε χ σ ∧ TasksSucceed κ ε χ π) := by
  refine ⟨fun d d' errors rep hs hd => Daemon.syncFinished_of_step hs hd,
    event_tells_iff κ ε χ π f, ?_⟩
  rw [errorsReachUser_iff, event_tells_iff]
  by_cases hb : BreaksOff κ ε χ σ
  · obtain ⟨e, he⟩ := runSyncWith_breaksOff (π := π) hb
    rw [he, errors_of_error]
    simp [hb, State.started]
  · obtain ⟨rep, s, heq, -, hstatus⟩ := runSyncWith_ended (π := π) hb
    rw [heq, errors_of_ok]
    simp [hb, hstatus]

/-- The upload of a new file is refused.  The report says so and the engine shows `Error`; the
event has no errors, and the GUI shows `Idle`. -/
theorem refusedUpload_shown_idle :
    Failed (runSyncWith ⟨.keepBoth, 5000000⟩ refusesPuts ⟨false, fun _ => none⟩
      newFileSchedule).1 ∧
    (runSyncWith ⟨.keepBoth, 5000000⟩ refusesPuts ⟨false, fun _ => none⟩
      newFileSchedule).2.sync.status = .error ∧
    (finishedEvent 7 (runSyncWith ⟨.keepBoth, 5000000⟩ refusesPuts ⟨false, fun _ => none⟩
      newFileSchedule).1).errors = [] ∧
    ¬ ErrorsReachUser 7 (runSyncWith ⟨.keepBoth, 5000000⟩ refusesPuts ⟨false, fun _ => none⟩
      newFileSchedule) := by
  have hfailed : Failed (runSyncWith ⟨.keepBoth, 5000000⟩ refusesPuts ⟨false, fun _ => none⟩
      newFileSchedule).1 := by decide
  have herrors : (finishedEvent 7 (runSyncWith ⟨.keepBoth, 5000000⟩ refusesPuts
      ⟨false, fun _ => none⟩ newFileSchedule).1).errors = [] := by decide
  exact ⟨hfailed, by decide, herrors, fun h => h.event.mpr hfailed herrors⟩

end OwncloudSync
