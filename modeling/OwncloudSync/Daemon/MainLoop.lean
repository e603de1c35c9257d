import OwncloudSync.Daemon.Scheduler
import OwncloudSync.Engine.RunSync
import Mathlib.Logic.Relation
import Mathlib.Tactic.Common

/-!
# The main loop of the daemon

The daemon is one loop (`main.rs`) and the tasks it has spawned.  The loop takes a GUI command, a
poll request, a watcher event or a tick of the scheduler, and works it off before it takes the
next; the sync tasks and the poller run beside it.  So a state says **where in its body the loop
stands** (`Loop`), and a step of a task may come between any two steps of the loop:

* a tick calls `start_sync` for what is ready while it holds the lock, and spawns the tasks after
  that, one by one; then it drains the debounce map;
* a folder is added to the `FolderManager` first, and made known to the scheduler afterwards;
* a sync task ends with `finish_sync` and tells the GUI after that — unless `run_sync` panics, or
  there was no engine.

What the loop cannot decide itself is free in a step: which command arrives, what `Uuid::new_v4`
draws, whether `add_folder` succeeds, the order in which a `HashMap` is iterated, how `run_sync`
ends.  Left out are the configuration and the accounts, which no step here reads.
-/

namespace OwncloudSync

/-- The events of the GUI that tell of syncs. -/
inductive DaemonEvent where
  | syncStarted (folderId : Uuid)
  | syncFinished (folderId : Uuid) (errors : List String) (report : Option SyncReport)
  | accountStateChanged (accountId : Uuid) (state : String)

/-- Where the main loop stands. -/
inductive Loop where
  /-- at `select!` -/
  | select
  /-- in `SetAccountFolders` or `AddAccountSpace`, with so many spaces to go -/
  | adding (spaces : ℕ)
  /-- after `FolderManager::add_folder`, before the scheduler knows the folder -/
  | registered (id : Uuid) (spaces : ℕ)
  /-- in a tick: started, and still to be spawned -/
  | spawning (ready : List Uuid)
  /-- in a tick: debounce entries that are due -/
  | draining (due : List Uuid)
  /-- after `Quit` -/
  | stopped

/-- What the main loop works on, and what it has sent. -/
structure Daemon where
  scheduler : SyncScheduler
  /-- the folders of the `FolderManager`, each with its engine -/
  engines : Uuid → Bool
  liveFolderIds : List Uuid
  /-- the rest of a poll tick -/
  polling : List Uuid
  pollRx : List Uuid
  debounceMap : Uuid → Option ℕ
  now : ℕ
  loop : Loop
  /-- the spawned tasks that have an engine and have not called `finish_sync` -/
  tasks : List Uuid
  /-- the tasks that have called it and have not told the GUI -/
  finished : List (Uuid × Except SyncError SyncReport)
  /-- the tasks whose `run_sync` has panicked -/
  panicked : List Uuid
  events : List DaemonEvent

namespace Daemon

/-- The daemon after start-up: the scheduler is made from the folders of the `FolderManager`. -/
def init (folderIds : List Uuid) : Daemon where
  scheduler := SyncScheduler.new folderIds
  engines id := folderIds.contains id
  liveFolderIds := folderIds
  polling := []
  pollRx := []
  debounceMap _ := none
  now := 0
  loop := .select
  tasks := []
  finished := []
  panicked := []
  events := []

/-- What a sync task reports of its run. -/
def outcome : Except SyncError SyncReport → List String × Option SyncReport
  | .ok r => ([], some r)
  | .error e => ([e.display], some ⟨0, 0, 0, 0, 0, 0, 0, 0, [e.display]⟩)

/-- The list enumerates exactly the folders with the property, in some order. -/
def Enumerates (ids : List Uuid) (P : Uuid → Prop) : Prop := ids.Nodup ∧ ∀ id, id ∈ ids ↔ P id

/-- One step of the main loop, or of a sync task. -/
inductive Step : Daemon → Daemon → Prop
  -- GUI commands
  | triggerSync {d : Daemon} (id : Uuid) (h : d.loop = .select) :
      Step d { d with scheduler := d.scheduler.forceRequestSync id
                      events := d.events ++ [.syncStarted id] }
  | pauseFolder {d : Daemon} (id : Uuid) (h : d.loop = .select) :
      Step d { d with scheduler := d.scheduler.pause id
                      events := d.events ++ [.accountStateChanged id "paused"] }
  | resumeFolder {d : Daemon} (id : Uuid) (h : d.loop = .select) :
      Step d { d with scheduler := d.scheduler.resume id
                      events := d.events ++ [.accountStateChanged id "active"] }
  | addFolders {d : Daemon} (spaces : ℕ) (h : d.loop = .select) :
      Step d { d with loop := .adding spaces }
  | removeAccount {d : Daemon} (accountId : Uuid) (h : d.loop = .select) :
      Step d { d with events := d.events ++ [.accountStateChanged accountId "removed"] }
  | quit {d : Daemon} (h : d.loop = .select) : Step d { d with loop := .stopped }
  -- one space of `SetAccountFolders` or `AddAccountSpace`
  | refuse {d : Daemon} {spaces : ℕ} (h : d.loop = .adding (spaces + 1)) :
      Step d { d with loop := .adding spaces }
  | register {d : Daemon} {spaces : ℕ} (id : Uuid) (h : d.loop = .adding (spaces + 1)) :
      Step d { d with engines := fun x => decide (x = id) || d.engines x
                      loop := .registered id spaces }
  | schedule {d : Daemon} {id : Uuid} {spaces : ℕ} (h : d.loop = .registered id spaces) :
      Step d { d with scheduler := (d.scheduler.addFolder id).requestSync id
                      liveFolderIds := d.liveFolderIds ++ [id]
                      loop := .adding spaces }
  | added {d : Daemon} (h : d.loop = .adding 0) : Step d { d with loop := .select }
  -- the poller and the watchers
  | pollTick {d : Daemon} (h : d.polling = []) : Step d { d with polling := d.liveFolderIds }
  | pollSend {d : Daemon} {id : Uuid} {rest : List Uuid} (h : d.polling = id :: rest) :
      Step d { d with polling := rest, pollRx := d.pollRx ++ [id] }
  | pollRecv {d : Daemon} {id : Uuid} {rest : List Uuid} (h : d.loop = .select)
      (hrx : d.pollRx = id :: rest) :
      Step d { d with scheduler := d.scheduler.requestSync id, pollRx := rest }
  | watcher {d : Daemon} (id : Uuid) (h : d.loop = .select) (hid : d.engines id = true) :
      Step d { d with debounceMap := fun x => if x = id then some (d.now + 500)
                                              else d.debounceMap x }
  | pass {d : Daemon} (ms : ℕ) : Step d { d with now := d.now + ms }
  -- a tick of the scheduler
  | tick {d : Daemon} {ready : List Uuid} (h : d.loop = .select)
      (hready : Enumerates ready (fun id => d.scheduler.isReady id = true)) :
      Step d { d with scheduler := d.scheduler.startAll ready, loop := .spawning ready }
  | spawn {d : Daemon} {id : Uuid} {rest : List Uuid} (h : d.loop = .spawning (id :: rest)) :
      Step d { d with tasks := if d.engines id then id :: d.tasks else d.tasks
                      loop := .spawning rest
                      events := d.events ++ [.syncStarted id] }
  | due {d : Daemon} {due : List Uuid} (h : d.loop = .spawning [])
      (hdue : Enumerates due (fun id => ∃ t, d.debounceMap id = some t ∧ t ≤ d.now)) :
      Step d { d with loop := .draining due }
  | drain {d : Daemon} {id : Uuid} {rest : List Uuid} (h : d.loop = .draining (id :: rest)) :
      Step d { d with debounceMap := fun x => if x = id then none else d.debounceMap x
                      scheduler := d.scheduler.requestSync id
                      loop := .draining rest }
  | drained {d : Daemon} (h : d.loop = .draining []) : Step d { d with loop := .select }
  -- the sync tasks
  | finish {d : Daemon} {id : Uuid} (result : Except SyncError SyncReport) (h : id ∈ d.tasks) :
      Step d { d with scheduler := d.scheduler.finishSync id
                      tasks := d.tasks.erase id
                      finished := d.finished ++ [(id, result)] }
  | report {d : Daemon} {id : Uuid} {result : Except SyncError SyncReport}
      {before after : List (Uuid × Except SyncError SyncReport)}
      (h : d.finished = before ++ (id, result) :: after) :
      Step d { d with finished := before ++ after
                      events := d.events ++
                        [.syncFinished id (outcome result).1 (outcome result).2] }
  | panic {d : Daemon} {id : Uuid} (h : id ∈ d.tasks) :
      Step d { d with tasks := d.tasks.erase id, panicked := id :: d.panicked }

/-- The states of a daemon. -/
def Reachable (d : Daemon) : Prop := ∃ ids, Relation.ReflTransGen Step (init ids) d

/-- The invariant rule. -/
lemma Reachable.invariant {I : Daemon → Prop} (h0 : ∀ ids, I (init ids))
    (hstep : ∀ d d', I d → Step d d' → I d') {d : Daemon} (h : Reachable d) : I d := by
  obtain ⟨ids, hrun⟩ := h
  induction hrun with
  | refl => exact h0 ids
  | tail _ hs ih => exact hstep _ _ ih hs

end Daemon

end OwncloudSync
