import OwncloudSync.Engine.Reconcile
import OwncloudSync.Engine.Propagate
import OwncloudSync.Lib.TaskRun
import Mathlib.Tactic.Common

/-!
# `SyncEngine::run_sync`

One run: discovery, reconciliation path by path, the directory phase, the file phase, the
report.  The order in which the paths are taken is not the engine's choice — `all_paths` is a
hash set and the file tasks run in parallel — so it is a `Schedule`: an enumeration of the
discovered paths for the first two phases and a permutation of it for the file tasks, which run
one after another here.

Discovery is what it reports about the two trees: `localEntry` is what `walk_dir` yields for a
path, `remoteEntry` what the PROPFIND of its parent does.  A failure of phase 1 ends the run
before anything is touched.
-/

namespace OwncloudSync

open PathTree

/-- What a run reads and writes: both trees, the journal, and the status it shows. -/
structure State where
  disk : Disk
  space : Space
  journal : Journal
  sync : SyncState

/-! ## Discovery and reconciliation -/

/-- What `walk_dir` reports for a path: directories have size zero. -/
def localEntry (st : State) (p : Path) : Option LocalEntry :=
  match st.disk.get p with
  | none => none
  | some Node.dir => some { path := pathStr p, mtime := 0, size := 0, isDir := true }
  | some (Node.file a) =>
      some { path := pathStr p, mtime := a.mtime, size := a.content.len, isDir := false }

/-- What `discover_remote` reports for a path. -/
def remoteEntry (env : Env) (st : State) (p : Path) : Option RemoteEntry :=
  match st.space.get p with
  | none => none
  | some Node.dir =>
      some { path := pathStr p, etag := trimQuotes (env.dirEtag p), size := 0,
             fileId := env.fileId p, isDir := true }
  | some (Node.file r) =>
      some { path := pathStr p, etag := trimQuotes r.etag, size := r.content.len,
             fileId := env.fileId p, isDir := false }

/-- Is the path handled as a directory?  The local type decides, if there is one. -/
def isDirPath (env : Env) (st : State) (p : Path) : Bool :=
  match localEntry st p with
  | some e => e.isDir
  | none =>
      match remoteEntry env st p with
      | some e => e.isDir
      | none => false

/-- The instruction phase 2 computes for a path. -/
def instruction (cfg : EngineConfig) (env : Env) (st : State) (p : Path) : SyncInstruction :=
  reconcile (localEntry st p) (remoteEntry env st p) (st.journal.baseline p)
    cfg.conflictStrategy

/-- An entry of `instructions`. -/
structure Item where
  path : Path
  instr : SyncInstruction
  rem : Option RemoteEntry
  isDir : Bool
  deriving DecidableEq

/-- The task of a path. -/
def itemOf (cfg : EngineConfig) (env : Env) (st : State) (p : Path) : Item where
  path := p
  instr := instruction cfg env st p
  rem := remoteEntry env st p
  isDir := isDirPath env st p

/-- Phase 2 over the paths in the order given: everything that is not ignored. -/
def instructions (cfg : EngineConfig) (env : Env) (st : State) (paths : List Path) : List Item :=
  (paths.map (itemOf cfg env st)).filter (fun it => it.instr ≠ .ignore)

/-- The order of a run: `order` is the iteration order of `all_paths`, `finish` the order in
which the file tasks run. -/
structure Schedule (st : State) where
  order : List Path
  finish : List Path
  nodup : order.Nodup
  mem_iff : ∀ p, p ∈ order ↔ p ≠ [] ∧ (st.disk.get p ≠ none ∨ st.space.get p ≠ none)
  perm : finish.Perm order

/-! ## Directory operations and file tasks -/

/-- A task succeeded: the row is written and the path shown as in sync. -/
def State.recorded (st : State) (p : Path) (e : JournalEntry) : State :=
  { st with journal := st.journal.upsertEntry p e, sync := st.sync.setFileStatus p .ok }

/-- A delete succeeded: the row and the status go. -/
def State.forgotten (st : State) (p : Path) : State :=
  { st with journal := st.journal.deleteEntry p, sync := st.sync.clearFileStatus p }

/-- A task failed: only its status is set. -/
def State.failed (st : State) (p : Path) (message : String) : State :=
  { st with sync := st.sync.setFileStatus p (.error message) }

/-- One directory instruction of phase 3a. -/
def execDir (env : Env) (it : Item) (st : State) (url : Path := it.path) :
    State × Option SyncError :=
  match it.instr with
  | .upload =>
      match mkdirRemote (env.fails .mkcol it.path) url st.space with
      | (.ok (), s) => (State.recorded { st with space := s } it.path (dirRow it.path none), none)
      | (.error e, s) => (State.failed { st with space := s } it.path e.display, some e)
  | .download =>
      match createDirAll (env.fails .createDirAll it.path) it.path st.disk with
      | (.ok (), d) =>
          (State.recorded { st with disk := d } it.path
            (dirRow it.path (it.rem.map (·.fileId))), none)
      | (.error e, d) => (State.failed { st with disk := d } it.path e.bare, some e)
  | .deleteRemote =>
      match deleteRemote env it.path st.space url with
      | (.ok (), s) => (State.forgotten { st with space := s } it.path, none)
      | (.error e, s) => (State.failed { st with space := s } it.path e.display, some e)
  | .deleteLocal =>
      match deleteLocalDir env it.path st.disk with
      | (.ok (), d) => (State.forgotten { st with disk := d } it.path, none)
      | (.error e, d) => (State.failed { st with disk := d } it.path e.display, some e)
  | _ => (st, none)

/-- The end of a Download or Conflict task: download, then record the new baseline. -/
def downloadAndRecord (env : Env) (it : Item) (st : State) (url : Path := it.path) :
    State × Option SyncError :=
  match propagateDownload env it.path st.space st.disk url with
  | (.ok etag, d) =>
      (State.recorded { st with disk := d } it.path
        (fileRow it.path etag (metadataLen env it.path d) (it.rem.map (·.fileId))), none)
  | (.error e, d) => (State.failed { st with disk := d } it.path e.display, some e)

/-- One file task of phase 3b. -/
def execFile (cfg : EngineConfig) (env : Env) (it : Item) (st : State) (url : Path := it.path) :
    State × Option SyncError :=
  match it.instr with
  | .download => downloadAndRecord env it st url
  | .upload =>
      let size := metadataLen env it.path st.disk
      match propagateUpload cfg env it.path size st.disk st.space url with
      | (.ok etag, s) =>
          (State.recorded { st with space := s } it.path (fileRow it.path etag size none), none)
      | (.error e, s) => (State.failed { st with space := s } it.path e.display, some e)
  | .conflict =>
      match env.fails .setAside it.path,
          st.disk.rename? it.path (conflictPath it.path (env.clock it.path)) with
      | none, some d => downloadAndRecord env it { st with disk := d } url
      | some f, _ => (st.failed it.path ("conflict rename: " ++ f.error.bare), some f.error)
      | none, none =>
          (st.failed it.path ("conflict rename: " ++ ioNotFound.bare), some ioNotFound)
  | .deleteLocal =>
      match deleteLocal env it.path st.disk with
      | (.ok (), d) => (State.forgotten { st with disk := d } it.path, none)
      | (.error e, d) => (State.failed { st with disk := d } it.path e.display, some e)
  | .deleteRemote =>
      match deleteRemote env it.path st.space url with
      | (.ok (), s) => (State.forgotten { st with space := s } it.path, none)
      | (.error e, s) => (State.failed { st with space := s } it.path e.display, some e)
  | _ => (st, none)

/-- A task is that of a directory or of a file. -/
def exec (cfg : EngineConfig) (env : Env) (it : Item) (st : State) : State × Option SyncError :=
  if it.isDir then execDir env it st else execFile cfg env it st

/-- How the report spells the error of an instruction: that of `create_dir_all` is no
`SyncError` yet. -/
def Item.message (it : Item) (e : SyncError) : String :=
  if it.isDir && it.instr = .download then e.bare else e.display

/-! ## The run -/

/-- `SyncReport`. -/
structure SyncReport where
  remoteEntries : ℕ
  localEntries : ℕ
  downloads : ℕ
  uploads : ℕ
  conflicts : ℕ
  deletesLocal : ℕ
  deletesRemote : ℕ
  ignored : ℕ
  errors : List String

/-- The tasks of a run in the order they are executed: the directory instructions as phase 2
found them, then the file tasks. -/
def tasks (cfg : EngineConfig) (env : Env) {st : State} (sch : Schedule st) : List Item :=
  (instructions cfg env st sch.order).filter (·.isDir) ++
    (instructions cfg env st sch.finish).filter (fun it => !it.isDir)

/-- The instructions executed in order, from a state in which discovery has succeeded. -/
def propagated (cfg : EngineConfig) (env : Env) {st : State} (sch : Schedule st) :
    State × List SyncError :=
  TaskRun.run (exec cfg env) (tasks cfg env sch)
    { st with sync := { st.sync with status := .syncing } }

/-- The error texts of the tasks, in the order in which they are executed. -/
def messages (cfg : EngineConfig) (env : Env) {st : State} (sch : Schedule st) : List String :=
  (TaskRun.trace (exec cfg env) (tasks cfg env sch)
    { st with sync := { st.sync with status := .syncing } }).filterMap
      (fun x => x.2.map x.1.message)

/-- `run_sync`. -/
def runSync (cfg : EngineConfig) (env : Env) {st : State} (sch : Schedule st) :
    Except SyncError SyncReport × State :=
  match env.discovery with
  | some e => (.error e, { st with sync := { st.sync with status := .syncing } })
  | none =>
      let all := instructions cfg env st sch.order
      let count := fun i => (all.filter (fun it => it.instr = i)).length
      let r := propagated cfg env sch
      let status : FolderStatus := if r.2.isEmpty then .idle else .error
      (.ok {
          remoteEntries := (sch.order.filter (fun p => (remoteEntry env st p).isSome)).length
          localEntries := (sch.order.filter (fun p => (localEntry st p).isSome)).length
          downloads := count .download
          uploads := count .upload
          conflicts := count .conflict
          deletesLocal := count .deleteLocal
          deletesRemote := count .deleteRemote
          ignored := (sch.order.filter (fun p => instruction cfg env st p = .ignore)).length
          errors := messages cfg env sch },
        { r.1 with sync := { r.1.sync with status := status } })

end OwncloudSync
