import OwncloudSync.Engine.Types
import OwncloudSync.Daemon.Protocol
import OwncloudSync.Lib.Keyed
import OwncloudSync.Lib.LexicalPath
import OwncloudSync.Shell.Protocol
import Mathlib.Tactic.Common

/-!
# The server of the socket API

`StatusResolver` looks a path up in two tables it shares with the `FolderManager`: the roots of the
folders, and the file statuses by folder.  `SocketApiServer` answers the commands, line by line: a
line that cannot be parsed gets **no answer at all**.

The keys of `file_statuses` are compared as paths, by their components, and so are the roots with
the path they are to cover.
-/

namespace OwncloudSync

open LexicalPath

namespace Shell

/-- `file_statuses` of a `SyncState`, as its entries in the order of the hash map. -/
abbrev FileStatuses := List (Str × FileStatus)

/-- `FileStatus` as the resolver shows it. -/
def tagOf : FileStatus → Tag
  | .ok => .ok
  | .syncing => .sync
  | .error _ => .error
  | .excluded => .excluded

/-- `Path::starts_with`. -/
def startsWith (path root : Str) : Bool := (components root).isPrefixOf (components path)

/-- `str::len`, in bytes. -/
def strLen : Str → ℕ
  | [] => 0
  | c :: s => c.utf8Size + strLen s

/-- `StatusResolver`. -/
structure StatusResolver where
  syncStates : Uuid → Option FileStatuses
  folderRoots : List (Str × Uuid)

namespace StatusResolver

/-- `find_folder_for_path`. -/
def findFolderForPath (r : StatusResolver) (path : Str) : Option Uuid :=
  (Keyed.lastMax (fun root => strLen root.1)
    (r.folderRoots.filter (fun root => startsWith path root.1))).map Prod.snd

/-- `resolve_file`. -/
def resolveFile (r : StatusResolver) (path : Str) : Tag :=
  match r.findFolderForPath path with
  | none => .none
  | some id =>
      match r.syncStates id with
      | none => .none
      | some statuses =>
          match statuses.find? (fun e => components e.1 = components path) with
          | none => .ok
          | some e => tagOf e.2

/-- `priority` of `worse_status`. -/
def priority : Tag → ℕ
  | .error => 3
  | .sync => 2
  | .excluded => 1
  | _ => 0

/-- `worse_status`. -/
def worseStatus (a b : Tag) : Tag := if priority a < priority b then b else a

/-- `resolve_folder`. -/
def resolveFolder (r : StatusResolver) (path : Str) : Tag :=
  match r.findFolderForPath path with
  | none => .none
  | some id =>
      match r.syncStates id with
      | none => .none
      | some statuses =>
          statuses.foldl
            (fun worst e => if startsWith e.1 path then worseStatus worst (tagOf e.2) else worst)
            .ok

end StatusResolver

/-! ## Commands -/

/-- The server, which paths its VFS can hydrate and dehydrate, and what `serde_json` reads as the `id`
of a body. -/
structure SocketApiServer where
  resolver : StatusResolver
  hydrates : Str → Bool
  dehydrates : Str → Bool
  bodyId : Str → Option Str := fun _ => none

/-- `handle_get_strings`. -/
def handleGetStrings : Str :=
  "GET_STRINGS:".toList ++ List.intercalate [fieldSep]
    ["SHARE_MENU_TITLE:Share".toList, "COPY_LINK:Copy link".toList,
      "MAKE_AVAILABLE:Make available locally".toList, "MAKE_ONLINE_ONLY:Make online only".toList,
      "OPEN_PRIVATE_LINK:Open in browser".toList] ++ ['\n']

/-- The items of the context menu. -/
def menuItems : List Str :=
  ["Share:SHARE:enabled".toList, "Copy link:COPY_PRIVATE_LINK:enabled".toList,
    "Make available locally:MAKE_AVAILABLE_LOCALLY:enabled".toList,
    "Make online only:MAKE_ONLINE_ONLY:enabled".toList]

/-- The items a path gets: none outside of all roots. -/
def menuItemsFor (r : StatusResolver) (path : Str) : List Str :=
  if (r.findFolderForPath path).isNone then [] else menuItems

/-- `handle_get_menu_items`. -/
def handleGetMenuItems (path : Str) (r : StatusResolver) : Str :=
  "GET_MENU_ITEMS:".toList ++ path ++ (menuItemsFor r path).flatMap (fun i => fieldSep :: i) ++
    ['\n']

/-- `handle_retrieve_file_status`. -/
def handleRetrieveFileStatus (path : Str) (r : StatusResolver) : Str :=
  formatResponse "STATUS".toList [(r.resolveFile path).text, path]

/-- `handle_retrieve_folder_status`. -/
def handleRetrieveFolderStatus (path : Str) (r : StatusResolver) : Str :=
  formatResponse "STATUS".toList [(r.resolveFolder path).text, path]

/-- `handle_make_available_locally` and `handle_make_online_only`: each path is tried, and every
connection is told how it went. -/
def handleVfs (cmd : Str) (succeeds : Str → Bool) (paths : List Str) : Str × List Broadcast :=
  (cmd ++ (if paths.all succeeds then ":OK\n".toList else ":ERROR\n".toList),
    paths.map (fun path => .statusChanged (if succeeds path then .ok else .error) path))

/-- `PLACEHOLDER_ICON_BASE64`. -/
def placeholderIconBase64 : Str :=
  ("iVBORw0KGgoAAAANSUhEUgAAAAEAAAABCAYAAAAfFcSJAAAADUlEQVR42mNk+M9QDwADhgGAWjR9" ++
    "awAAAABJRU5ErkJggg==").toList

/-- The response to `V2/GET_CLIENT_ICON`. -/
def iconResponse (id : Str) : Str :=
  "V2/GET_CLIENT_ICON\n".toList ++
    Protocol.jsonObj [("id", Protocol.jsonStr id),
      ("result", Protocol.jsonObj [("icon", Protocol.jsonStr placeholderIconBase64)])] ++
    ['\n']

/-- `handle_v2_get_client_icon`. -/
def handleV2GetClientIcon (idOf : Str → Option Str) (body : Str) : Str :=
  iconResponse ((idOf body).getD "unknown".toList)

namespace SocketApiServer

/-- `dispatch_line`: the answer, and what every connection is told. -/
def dispatchLine (s : SocketApiServer) (line : Str) : Option Str × List Broadcast :=
  match parseCommand line with
  | .error _ => (none, [])
  | .ok .version => (some "VERSION:1.1\n".toList, [])
  | .ok .getStrings => (some handleGetStrings, [])
  | .ok (.getMenuItems path) => (some (handleGetMenuItems path s.resolver), [])
  | .ok (.retrieveFileStatus path) => (some (handleRetrieveFileStatus path s.resolver), [])
  | .ok (.retrieveFolderStatus path) => (some (handleRetrieveFolderStatus path s.resolver), [])
  | .ok (.share path) => (some ("SHARE:OK:".toList ++ path ++ ['\n']), [])
  | .ok (.copyPrivateLink path) => (some ("COPY_PRIVATE_LINK:OK:".toList ++ path ++ ['\n']), [])
  | .ok (.makeAvailableLocally paths) =>
      let r := handleVfs "MAKE_AVAILABLE_LOCALLY".toList s.hydrates paths
      (some r.1, r.2)
  | .ok (.makeOnlineOnly paths) =>
      let r := handleVfs "MAKE_ONLINE_ONLY".toList s.dehydrates paths
      (some r.1, r.2)
  | .ok (.v2 name body) =>
      if name = "GET_CLIENT_ICON".toList then (some (handleV2GetClientIcon s.bodyId body), [])
      else (none, [])

/-- One line of `handle_connection`, without its line feed. -/
def handleLine (s : SocketApiServer) (line : Str) : Option Str × List Broadcast :=
  let trimmed := line.rdropWhile (· = '\r')
  if trimmed = [] then (none, []) else s.dispatchLine trimmed

/-- The answer to the first line that is sent, once its line feed is there. -/
def answer (s : SocketApiServer) (sent : Str) : Option Str :=
  match Text.splitOnce '\n' sent with
  | none => none
  | some (line, _) => (s.handleLine line).1

end SocketApiServer

/-- A path as the server reads it: up to a line feed, and without carriage returns at its end. -/
def asRead (path : Str) : Str := (path.takeWhile (· ≠ '\n')).rdropWhile (· = '\r')

variable {r : StatusResolver} {s : SocketApiServer} {path : Str}

/-! ## What is found -/

lemma startsWith_iff {path root : Str} :
    startsWith path root = true ↔ components root <+: components path :=
  List.isPrefixOf_iff_prefix

/-- Some root covers the path. -/
def StatusResolver.Covers (r : StatusResolver) (path : Str) : Prop :=
  ∃ root ∈ r.folderRoots, startsWith path root.1 = true

instance (r : StatusResolver) (path : Str) : Decidable (r.Covers path) :=
  inferInstanceAs (Decidable (∃ root ∈ _, _))

lemma findFolderForPath_eq_none : r.findFolderForPath path = none ↔ ¬ r.Covers path := by
  simp [StatusResolver.findFolderForPath, Keyed.lastMax_eq_none, StatusResolver.Covers]

/-- What is found is the folder of one of the roots. -/
lemma root_of_findFolderForPath {id : Uuid} (h : r.findFolderForPath path = some id) :
    ∃ root ∈ r.folderRoots, root.2 = id := by
  obtain ⟨root, hroot, rfl⟩ := Option.map_eq_some_iff.mp h
  exact ⟨root, List.mem_of_mem_filter (Keyed.lastMax_mem hroot), rfl⟩

/-- A resolver whose folders have no file statuses shows what it covers as `OK`. -/
lemma resolveFile_of_empty (h : ∀ root ∈ r.folderRoots, r.syncStates root.2 = some []) :
    r.resolveFile path = if r.Covers path then .ok else .none := by
  cases hfind : r.findFolderForPath path with
  | none =>
      rw [if_neg (findFolderForPath_eq_none.mp hfind), StatusResolver.resolveFile, hfind]
  | some id =>
      obtain ⟨root, hroot, rfl⟩ := root_of_findFolderForPath hfind
      have hcovers : r.Covers path := by
        by_contra hnot
        rw [findFolderForPath_eq_none.mpr hnot] at hfind
        cases hfind
      rw [if_pos hcovers, StatusResolver.resolveFile, hfind]
      dsimp only
      rw [h root hroot]
      rfl

/-- A path without items is sent back as it came. -/
lemma handleGetMenuItems_of_nil (h : menuItemsFor r path = []) :
    handleGetMenuItems path r = "GET_MENU_ITEMS:".toList ++ path ++ ['\n'] := by
  unfold handleGetMenuItems
  rw [h, List.flatMap_nil, List.append_nil]

/-! ## The answer to a request -/

/-- The line of a request, as the server takes it off the connection and trims it. -/
lemma line_of_request {cmd : Str} (path : Str) (hlf : '\n' ∉ cmd) : ∃ line rest,
    Text.splitOnce '\n' (request cmd path) = some (line, rest) ∧
      line.rdropWhile (· = '\r') = cmd ++ ':' :: asRead path := by
  obtain ⟨rest, hrest⟩ := Text.splitOnce_takeWhile '\n' (cmd ++ ':' :: path) []
  have hline : (cmd ++ ':' :: path).takeWhile (· ≠ '\n') =
      cmd ++ ':' :: path.takeWhile (· ≠ '\n') := by
    rw [List.takeWhile_append_of_pos, List.takeWhile_cons_of_pos (by decide)]
    intro c hc
    have hne : c ≠ '\n' := fun h => hlf (by rw [← h]; exact hc)
    simpa using hne
  rw [hline] at hrest
  exact ⟨_, rest, hrest, Text.rdropWhile_append_cons (by decide)⟩

/-- A request with its argument, as the server answers it. -/
lemma answer_request {cmd : Str} (hlf : '\n' ∉ cmd) :
    s.answer (request cmd path) = (s.dispatchLine (cmd ++ ':' :: asRead path)).1 := by
  obtain ⟨line, rest, hcut, htrim⟩ := line_of_request path hlf
  rw [SocketApiServer.answer, hcut]
  dsimp only
  rw [SocketApiServer.handleLine, htrim, if_neg (by simp)]

/-- The answer to `RETRIEVE_FILE_STATUS`. -/
lemma answer_fileStatus : s.answer (request "RETRIEVE_FILE_STATUS".toList path) =
    if asRead path = [] then none
    else some ("STATUS:".toList ++ (s.resolver.resolveFile (asRead path)).text ++
      ':' :: asRead path ++ ['\n']) := by
  rw [answer_request (by decide), SocketApiServer.dispatchLine]
  by_cases hpath : asRead path = []
  · rw [if_pos hpath, hpath, parseCommand_fileStatus_nil]
  · rw [if_neg hpath, parseCommand_fileStatus hpath]
    dsimp only
    rw [handleRetrieveFileStatus, formatResponse, if_neg (by simp)]
    simp [List.intercalate]

/-- The answer to `GET_MENU_ITEMS`. -/
lemma answer_menuItems : s.answer (request "GET_MENU_ITEMS".toList path) =
    if asRead path = [] then none else some (handleGetMenuItems (asRead path) s.resolver) := by
  rw [answer_request (by decide), SocketApiServer.dispatchLine]
  by_cases hpath : asRead path = []
  · rw [if_pos hpath, hpath, parseCommand_menuItems_nil]
  · rw [if_neg hpath, parseCommand_menuItems hpath]

end Shell

end OwncloudSync
