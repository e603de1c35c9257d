import OwncloudSync.Engine.Types
import Mathlib.Tactic.Common

/-!
# What surrounds a sync run

Everything a run of the engine does not decide itself: what the server reports and assigns, the
clock, and which calls fail.  One value of `Env` is one such choice for one run, so a statement
about every run quantifies over it.

A failing call is a `Failure`.  It carries the error the code sees and **how much of the call
had already happened**: a request may have been carried out although its answer was lost, a
recursive delete may stop half way, a write may leave a prefix behind.

The second half is the WebDAV server the engine talks to, at the level of its tree: the status
codes are the ones the code branches on.
-/

namespace OwncloudSync

open PathTree

/-- The fallible calls of a directory operation or a file task, each made at most once for a
path in a run. -/
inductive Op where
  | mkcol
  | createDirAll
  | delete
  | removeDirAll
  | removeFile
  | get
  | parentDirs
  | body
  | createTmp
  | writeTmp
  | renameTmp
  | removeTmp
  | setAside
  | metadata
  | read
  | put
  | mkcolParent (dir : Path)
  | putRetry
  | tusCreate
  | tusPatch
  deriving DecidableEq

/-- A failed call: the error it returns and what it had done before it failed. -/
structure Failure where
  error : SyncError
  /-- the request was carried out and only its answer was lost -/
  performed : Bool
  /-- the subtrees a failed recursive delete had already removed -/
  removed : Path → Bool
  /-- bytes written, or directory levels still missing -/
  progress : ℕ

/-- What a run meets: the server's answers, the faults, and the clock. -/
structure Env where
  /-- how phase 1 failed, if it did: token, local walk or PROPFIND -/
  discovery : Option SyncError
  /-- `getetag` of the collections, as PROPFIND reports it in this run -/
  dirEtag : Path → Str
  /-- `fileid`, as PROPFIND reports it -/
  fileId : Path → Str
  /-- the `ETag` header of a GET -/
  getEtag : Path → RemoteFile → Str
  /-- the `ETag` header that answers the PUT or PATCH of a path -/
  putEtag : Path → Str
  /-- the entity tag the server assigns to what the PUT or PATCH stored -/
  storedEtag : Path → Str
  /-- the seconds `make_conflict_path` reads -/
  clock : Path → ℕ
  /-- the modification time a file gets when the run writes it -/
  mtime : Path → ℕ
  fails : Op → Path → Option Failure

/-- Nothing fails, the server answers with empty tags and the clock stands at zero. -/
def Env.calm : Env where
  discovery := none
  dirEtag _ := []
  fileId _ := []
  getEtag _ r := r.etag
  putEtag _ := []
  storedEtag _ := []
  clock _ := 0
  mtime _ := 0
  fails _ _ := none

/-- The part of `EngineConfig` the engine's decisions depend on. -/
structure EngineConfig where
  conflictStrategy : ConflictStrategy
  tusThreshold : UInt64

/-! ## Derived names -/

/-- The name of the temp file of a download: `with_extension("tmp")`. -/
def tmpName (n : Name) : Name := FileName.withExtension n "tmp".toList

/-- `make_conflict_path`, on the file name. -/
def conflictName (n : Name) (ts : ℕ) : Name :=
  match FileName.extension n with
  | some e => FileName.fileStem n ++ "_conflict_".toList ++ Nat.toDigits 10 ts ++ '.' :: e
  | none => FileName.fileStem n ++ "_conflict_".toList ++ Nat.toDigits 10 ts

/-- The file that a download is written to first. -/
def tmpPath : Path → Path
  | [] => []
  | n :: p => tmpName n :: p

/-- `conflict_dest`, the copy that a conflict leaves. -/
def conflictPath (p : Path) (ts : ℕ) : Path :=
  match p with
  | [] => []
  | n :: p => conflictName n ts :: p

/-! ## The WebDAV server

MKCOL and PUT below a missing parent answer 409, MKCOL on something that exists 405, PUT and GET
on a collection 405, GET and DELETE of nothing 404.  DELETE removes the whole subtree. -/

/-- MKCOL, its status and the space after it. -/
def httpMkcol (s : Space) (p : Path) : ℕ × Space :=
  match s.get p with
  | some _ => (405, s)
  | none =>
      match s.mkdir? p with
      | some s' => (201, s')
      | none => (409, s)

/-- PUT, its status and the space after it. -/
def httpPut (s : Space) (p : Path) (f : RemoteFile) : ℕ × Space :=
  match s.get p with
  | some Node.dir => (405, s)
  | some (Node.file _) =>
      match s.write? p f with
      | some s' => (204, s')
      | none => (409, s)
  | none =>
      match s.write? p f with
      | some s' => (201, s')
      | none => (409, s)

/-- GET, its status and what it delivers. -/
def httpGet (s : Space) (p : Path) : ℕ × Option RemoteFile :=
  match s.get p with
  | some (Node.file f) => (200, some f)
  | some Node.dir => (405, none)
  | none => (404, none)

/-- DELETE, its status and the space after it. -/
def httpDelete (s : Space) (p : Path) : ℕ × Space :=
  match s.get p with
  | some _ => (204, s.erase p)
  | none => (404, s)

/-- The TUS creation POST is refused where a PUT would be. -/
def httpTusCreate (s : Space) (p : Path) : ℕ :=
  match s.get p with
  | some Node.dir => 405
  | some (Node.file _) => 201
  | none =>
      match p with
      | [] => 409
      | _ :: q => if s.isDir q then 201 else 409

/-- The TUS PATCH stores the whole file. -/
def httpPatch (s : Space) (p : Path) (f : RemoteFile) : ℕ × Space :=
  match s.write? p f with
  | some s' => (204, s')
  | none => (409, s)

/-- The reason phrases of the statuses above, as `StatusCode` displays them. -/
def statusText : ℕ → String
  | 404 => "404 Not Found"
  | 405 => "405 Method Not Allowed"
  | 409 => "409 Conflict"
  | n => toString n

/-! ## The errors of the file system -/

/-- ENOENT. -/
def ioNotFound : SyncError := .io "No such file or directory (os error 2)"

/-- ENOTDIR. -/
def ioNotADirectory : SyncError := .io "Not a directory (os error 20)"

/-- EISDIR. -/
def ioIsADirectory : SyncError := .io "Is a directory (os error 21)"

/-- EEXIST. -/
def ioFileExists : SyncError := .io "File exists (os error 17)"

/-- Is one of the names above the path a file?  Then the operating system answers `ENOTDIR`
rather than `ENOENT`. -/
def fileAbove (d : Disk) : Path → Bool
  | [] => false
  | _ :: p =>
      match d.get p with
      | some (Node.file _) => true
      | _ => fileAbove d p

end OwncloudSync
