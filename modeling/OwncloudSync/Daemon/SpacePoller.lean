import OwncloudSync.Daemon.AppConfig
import Mathlib.Tactic.Common

/-!
# Polling the spaces of an account

`SpacePoller::poll_once` (`space_poller.rs`) in the three pieces between its lock acquisitions:
it copies the folders and the dismissed spaces of its account, asks the server for the spaces, and
takes the folders whose space is gone out of the configuration **as it is by then**.  The folders
to take out are known by their ids; whether they are still there is looked up under the lock.

Left out are the path the GUI is told to suggest for a new space and the URL of the request.
-/

namespace OwncloudSync

/-- A space, as `list_spaces` returns it. -/
structure RemoteSpace where
  id : Str
  name : Str
  deriving DecidableEq

/-- The events of the GUI that tell of accounts and their folders. -/
inductive AccountEvent where
  | spaceDiscovered (accountId : Uuid) (spaceId spaceName : Str)
  | spaceRemoved (accountId folderId : Uuid) (spaceName localPath : Str)
  | accountFolderAdded (accountId folderId : Uuid) (spaceId localPath displayName : Str)
  | accountAddCompleted (accountId : Uuid) (userId displayName url : Str)
  | accountAddFailed (accountId : Uuid) (reason : String)
  deriving DecidableEq

namespace SpacePoller

/-- The spaces that are neither synced nor dismissed are told once: `emitted` are the ones that
have been told. -/
def discover (accountId : Uuid) (localIds dismissed : List Str) :
    List RemoteSpace → List Str → List Str × List AccountEvent
  | [], emitted => (emitted, [])
  | s :: rest, emitted =>
      if !localIds.contains s.id && !dismissed.contains s.id && !emitted.contains s.id then
        let r := discover accountId localIds dismissed rest (s.id :: emitted)
        (r.1, .spaceDiscovered accountId s.id s.name :: r.2)
      else discover accountId localIds dismissed rest emitted

/-- `removed_folder_ids`: of the copied folders, those whose space the server does not list. -/
def removedFolderIds (existing : List FolderConfig) (remote : List RemoteSpace) : List Uuid :=
  (existing.filter (fun f => !(remote.map RemoteSpace.id).contains f.spaceId)).map FolderConfig.id

/-- `to_remove`, looked up under the lock. -/
def toRemove (cfg : AppConfig) (accountId : Uuid) (ids : List Uuid) : List FolderConfig :=
  match cfg.findAccount accountId with
  | none => []
  | some a => a.folder.filter (fun f => ids.contains f.id)

/-- The configuration without them. -/
def remove (cfg : AppConfig) (accountId : Uuid) (ids : List Uuid) : AppConfig :=
  cfg.retainFolders accountId (fun f => !ids.contains f.id)

/-- A `SpaceRemoved` for each folder of a space that is gone. -/
def removedEvents (accountId : Uuid) (removed : List FolderConfig) : List AccountEvent :=
  removed.map (fun f => .spaceRemoved accountId f.id f.displayName f.localPath)

lemma mem_removedFolderIds {existing : List FolderConfig} {remote : List RemoteSpace} {id : Uuid} :
    id ∈ removedFolderIds existing remote ↔
      ∃ f ∈ existing, f.spaceId ∉ remote.map RemoteSpace.id ∧ f.id = id := by
  simp only [removedFolderIds, List.mem_map (l := existing.filter _), List.mem_filter,
    Bool.not_eq_true', List.contains_eq_mem, decide_eq_false_iff_not, and_assoc]

/-- No `SpaceRemoved` is among what is told of new spaces. -/
lemma discover_not_removed {accountId a f : Uuid} {localIds dismissed : List Str}
    {remote : List RemoteSpace} {emitted : List Str} {n p : Str} :
    .spaceRemoved a f n p ∉ (discover accountId localIds dismissed remote emitted).2 := by
  induction remote generalizing emitted with
  | nil => exact List.not_mem_nil
  | cons s rest ih =>
      rw [discover]
      split
      · rw [List.mem_cons, not_or]
        exact ⟨by simp, ih⟩
      · exact ih

end SpacePoller

end OwncloudSync
