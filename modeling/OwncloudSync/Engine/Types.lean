import OwncloudSync.Lib.PathTree
import OwncloudSync.Lib.FileName
import Mathlib.Algebra.Group.Nat.Defs
import Mathlib.Tactic.Common

/-!
# The data of the sync engine

The types of `types.rs`, `error.rs`, `state.rs` and of the journal rows of `sync-db`, and the
two trees a sync run works on: the folder on disk and the space on the server.

A relative path is the list of its names, innermost first (`Lib/PathTree.lean`); `pathStr`
renders it the way `Utf8PathBuf` spells it.  File sizes are `u64` and journal sizes `i64`, as in
the source, so the casts between them are the wrapping ones.

Left out are the fields no function of the engine reads: the inode and `is_virtual` of a
`LocalEntry`, the constant `mtime` and `permissions` of a `RemoteEntry`.
-/

namespace OwncloudSync

open PathTree

/-- A string of the program. -/
abbrev Str := List Char

/-- A file name. -/
abbrev Name := List Char

/-- A path below the sync root, innermost name first. -/
abbrev Path := List Name

/-- The path as `Utf8PathBuf` spells it: outermost name first, separated by `/`. -/
def pathStr (p : Path) : Str := List.intercalate ['/'] p.reverse

/-! ## File contents -/

/-- The bytes of a file.  A length that does not fit in `u64` cannot be built. -/
structure Blob where
  bytes : List UInt8
  fits : bytes.length < 2 ^ 64
  deriving DecidableEq

/-- `Metadata::len`. -/
def Blob.len (b : Blob) : UInt64 := UInt64.ofNat b.bytes.length

/-- The first `n` bytes. -/
def Blob.take (b : Blob) (n : ℕ) : Blob where
  bytes := b.bytes.take n
  fits := lt_of_le_of_lt (List.length_take_le' n b.bytes) b.fits

lemma Blob.len_toNat (b : Blob) : b.len.toNat = b.bytes.length := by
  rw [Blob.len, UInt64.toNat_ofNat', Nat.mod_eq_of_lt b.fits]

@[simp] lemma Blob.take_len (b : Blob) : b.take b.len.toNat = b := by
  cases b with
  | mk bytes fits => simp [Blob.take, Blob.len_toNat]

/-- A file on disk: its content and its modification time. -/
structure LocalFile where
  content : Blob
  mtime : ℕ
  deriving DecidableEq

/-- A file on the server: its content and its entity tag. -/
structure RemoteFile where
  content : Blob
  etag : Str
  deriving DecidableEq

/-- The folder below `local_root`. -/
abbrev Disk := Tree Name LocalFile

/-- The collection below `space_root`. -/
abbrev Space := Tree Name RemoteFile

/-! ## Entries, instructions, errors -/

/-- `LocalEntry`, what the walk of the folder finds. -/
structure LocalEntry where
  path : Str
  mtime : ℕ
  size : UInt64
  isDir : Bool
  deriving DecidableEq

/-- `RemoteEntry`, what PROPFIND lists. -/
structure RemoteEntry where
  path : Str
  etag : Str
  size : UInt64
  fileId : Str
  isDir : Bool
  deriving DecidableEq

/-- `SyncInstruction`. -/
inductive SyncInstruction where
  | upload
  | download
  | deleteLocal
  | deleteRemote
  | renameLocal (target : Str)
  | renameRemote (target : Str)
  | conflict
  | updateMetadata
  | ignore
  deriving DecidableEq

/-- Does the instruction delete the path on one of the sides? -/
def SyncInstruction.isDelete : SyncInstruction → Bool
  | deleteLocal => true
  | deleteRemote => true
  | _ => false

/-- `ConflictStrategy`. -/
inductive ConflictStrategy where
  | keepBoth
  | keepRemote
  | keepLocal
  deriving DecidableEq

/-- `SyncError`, with the texts that it is shown by. -/
inductive SyncError where
  | http (status : ℕ) (message : String)
  | io (message : String)
  | db (message : String)
  | vfs (message : String)
  | parse (message : String)
  | conflict (path : Str)
  | cancelled
  | auth (message : String)
  deriving DecidableEq

/-- The `Display` texts of `SyncError`. -/
def SyncError.display : SyncError → String
  | http status message => "HTTP " ++ toString status ++ ": " ++ message
  | io message => "I/O error: " ++ message
  | db message => "Database error: " ++ message
  | vfs message => "VFS error: " ++ message
  | parse message => "Parse error: " ++ message
  | conflict path => "Conflict at path: " ++ String.ofList path
  | cancelled => "Sync cancelled"
  | auth message => "Auth error: " ++ message

/-- The text of the `io::Error` inside. -/
def SyncError.bare : SyncError → String
  | io message => message
  | e => e.display

/-- The baseline of a path: the etag and the size recorded after its last sync. -/
abbrev JournalBaseline := Str × UInt64

/-- A row of the `metadata` table. -/
structure JournalEntry where
  path : Str
  etag : Option Str
  mtime : Option Int64
  size : Option Int64
  inode : Option Int64
  fileId : Option Str
  checksum : Option Str
  isVirtual : Int64
  deriving DecidableEq

/-- `trim_matches('"')`. -/
def trimQuotes (s : Str) : Str :=
  ((s.dropWhile (· == '"')).reverse.dropWhile (· == '"')).reverse

/-! ## The status the engine shows -/

/-- `FolderStatus`. -/
inductive FolderStatus where
  | idle
  | syncing
  | error
  deriving DecidableEq

/-- `FileStatus`. -/
inductive FileStatus where
  | ok
  | syncing
  | error (message : String)
  | excluded
  deriving DecidableEq

/-- `SyncState`. -/
structure SyncState where
  status : FolderStatus
  fileStatuses : Path → Option FileStatus

/-- `set_file_status`. -/
def SyncState.setFileStatus (s : SyncState) (p : Path) (fs : FileStatus) : SyncState :=
  { s with fileStatuses := fun q => if q = p then some fs else s.fileStatuses q }

/-- `clear_file_status`. -/
def SyncState.clearFileStatus (s : SyncState) (p : Path) : SyncState :=
  { s with fileStatuses := fun q => if q = p then none else s.fileStatuses q }

/-! ## The journal -/

/-- The `metadata` table, by path. -/
abbrev Journal := Path → Option JournalEntry

/-- `upsert_entry`. -/
def Journal.upsertEntry (j : Journal) (p : Path) (e : JournalEntry) : Journal :=
  fun q => if q = p then some e else j q

/-- `delete_entry`. -/
def Journal.deleteEntry (j : Journal) (p : Path) : Journal :=
  fun q => if q = p then none else j q

/-- The baseline `run_sync` reads: a row counts only if it has both an etag and a size. -/
def Journal.baseline (j : Journal) (p : Path) : Option JournalBaseline :=
  match j p with
  | some e =>
      match e.etag, e.size with
      | some etag, some size => some (etag, size.toUInt64)
      | _, _ => none
  | none => none

/-- The row the directory phase writes: an empty etag and size zero. -/
def dirRow (p : Path) (fileId : Option Str) : JournalEntry where
  path := pathStr p
  etag := some []
  mtime := none
  size := some 0
  inode := none
  fileId := fileId
  checksum := none
  isVirtual := 0

/-- The row a transfer task writes: the etag without its quotes, and the size. -/
def fileRow (p : Path) (etag : Str) (size : UInt64) (fileId : Option Str) : JournalEntry where
  path := pathStr p
  etag := some (trimQuotes etag)
  mtime := none
  size := some size.toInt64
  inode := none
  fileId := fileId
  checksum := none
  isVirtual := 0

@[simp] lemma upsertEntry_self (j : Journal) (p : Path) (e : JournalEntry) :
    j.upsertEntry p e p = some e := if_pos rfl

lemma upsertEntry_ne {j : Journal} {p q : Path} {e : JournalEntry} (h : q ≠ p) :
    j.upsertEntry p e q = j q := if_neg h

@[simp] lemma deleteEntry_self (j : Journal) (p : Path) : j.deleteEntry p p = none := if_pos rfl

lemma deleteEntry_ne {j : Journal} {p q : Path} (h : q ≠ p) : j.deleteEntry p q = j q :=
  if_neg h

/-- The baseline of a path is read from its own row alone. -/
lemma baseline_congr {j j' : Journal} {p : Path} (h : j p = j' p) :
    j.baseline p = j'.baseline p := by
  rw [Journal.baseline, Journal.baseline, h]

lemma baseline_of_none {j : Journal} {p : Path} (h : j p = none) : j.baseline p = none := by
  rw [Journal.baseline, h]

lemma baseline_dirRow {j : Journal} {p : Path} {fid : Option Str}
    (h : j p = some (dirRow p fid)) : j.baseline p = some ([], 0) := by
  rw [Journal.baseline, h]
  rfl

/-- What a transfer task records is read back exactly, whatever the size. -/
lemma baseline_fileRow {j : Journal} {p : Path} {etag : Str} {size : UInt64} {fid : Option Str}
    (h : j p = some (fileRow p etag size fid)) : j.baseline p = some (trimQuotes etag, size) := by
  rw [Journal.baseline, h]
  simp [fileRow]

end OwncloudSync
