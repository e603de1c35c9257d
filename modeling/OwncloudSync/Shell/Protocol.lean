import OwncloudSync.Discovery.Propfind
import OwncloudSync.Lib.Text
import Mathlib.Tactic.Common

/-!
# The lines of the socket API

File managers talk to the daemon in lines: a command with its arguments behind a colon, and as
answers and notices a word, a colon and the rest (`protocol.rs`, `broadcast.rs`).  Several paths in
one command are separated by the record separator `\x1e`.

A path is the rest of its line, so it may hold colons: `parseCommand` cuts at the first one only.
What it cannot hold is a line feed.
-/

namespace OwncloudSync

namespace Shell

/-- `FIELD_SEP`. -/
def fieldSep : Char := '\x1e'

/-- `Command`. -/
inductive Command where
  | version
  | getStrings
  | getMenuItems (path : Str)
  | retrieveFileStatus (path : Str)
  | retrieveFolderStatus (path : Str)
  | share (path : Str)
  | makeAvailableLocally (paths : List Str)
  | makeOnlineOnly (paths : List Str)
  | copyPrivateLink (path : Str)
  | v2 (name body : Str)
  deriving DecidableEq

/-- `SocketApiError::Protocol`.  The name of an unknown command is kept as it is; the source puts
it into the message in quotes. -/
inductive ProtocolError where
  | message (text : String)
  | unknownCommand (name : Str)
  deriving DecidableEq

/-- A command that needs an argument. -/
def withArgument (args : Str) (missing : String) (cmd : Command) : Except ProtocolError Command :=
  if args = [] then .error (.message missing) else .ok cmd

/-- The command with the given word. -/
def commandOf (cmd args : Str) : Except ProtocolError Command :=
  if cmd = "VERSION".toList then .ok .version
  else if cmd = "GET_STRINGS".toList then .ok .getStrings
  else if cmd = "GET_MENU_ITEMS".toList then
    withArgument args "GET_MENU_ITEMS requires a non-empty path argument" (.getMenuItems args)
  else if cmd = "RETRIEVE_FILE_STATUS".toList then
    withArgument args "RETRIEVE_FILE_STATUS requires a path argument" (.retrieveFileStatus args)
  else if cmd = "RETRIEVE_FOLDER_STATUS".toList then
    withArgument args "RETRIEVE_FOLDER_STATUS requires a path argument"
      (.retrieveFolderStatus args)
  else if cmd = "SHARE".toList then
    withArgument args "SHARE requires a path argument" (.share args)
  else if cmd = "MAKE_AVAILABLE_LOCALLY".toList then
    withArgument args "MAKE_AVAILABLE_LOCALLY requires at least one path argument"
      (.makeAvailableLocally (args.splitOn fieldSep))
  else if cmd = "MAKE_ONLINE_ONLY".toList then
    withArgument args "MAKE_ONLINE_ONLY requires at least one path argument"
      (.makeOnlineOnly (args.splitOn fieldSep))
  else if cmd = "COPY_PRIVATE_LINK".toList then
    withArgument args "COPY_PRIVATE_LINK requires a path argument" (.copyPrivateLink args)
  else .error (.unknownCommand cmd)

/-- `parse_command`. -/
def parseCommand (line : Str) : Except ProtocolError Command :=
  if line = [] then .error (.message "empty command line")
  else
    match stripPrefix "V2/".toList line with
    | some rest => .ok (.v2 rest [])
    | none =>
        match Text.splitOnce ':' line with
        | some (cmd, args) => commandOf cmd args
        | none => commandOf line []

/-- `format_response`. -/
def formatResponse (cmd : Str) (parts : List Str) : Str :=
  if parts = [] then cmd ++ ['\n'] else cmd ++ ':' :: List.intercalate [':'] parts ++ ['\n']

/-! ## What is shown for a path -/

/-- The tags of `status_resolver.rs`. -/
inductive Tag where
  | none
  | ok
  | sync
  | error
  | excluded
  deriving DecidableEq

/-- The word of a tag. -/
def Tag.text : Tag → Str
  | none => "NONE".toList
  | ok => "OK".toList
  | sync => "SYNC".toList
  | error => "ERROR".toList
  | excluded => "EXCLUDED".toList

lemma Tag.colon_not_mem_text (tag : Tag) : ':' ∉ tag.text := by
  cases tag <;> decide

lemma Tag.text_injective {t u : Tag} (h : t.text = u.text) : t = u := by
  revert h
  cases t <;> cases u <;> decide

/-- What the daemon tells every connection (`BroadcastSender`). -/
inductive Broadcast where
  | registerPath (path : Str)
  | unregisterPath (path : Str)
  | statusChanged (tag : Tag) (path : Str)
  | updateView (path : Str)
  deriving DecidableEq

namespace Broadcast

/-- The line, up to the path. -/
def head : Broadcast → Str
  | registerPath _ => "REGISTER_PATH:".toList
  | unregisterPath _ => "UNREGISTER_PATH:".toList
  | statusChanged tag _ => "STATUS:".toList ++ tag.text ++ [':']
  | updateView _ => "UPDATE_VIEW:".toList

lemma head_statusChanged (tag : Tag) (path : Str) :
    (statusChanged tag path).head = "STATUS:".toList ++ tag.text ++ [':'] := rfl

/-- The path of a broadcast. -/
def path : Broadcast → Str
  | registerPath path => path
  | unregisterPath path => path
  | statusChanged _ path => path
  | updateView path => path

/-- The text that is sent. -/
def line (b : Broadcast) : Str := b.head ++ b.path ++ ['\n']

end Broadcast

/-! ## Requests -/

/-- The request a client writes for a path. -/
def request (cmd path : Str) : Str := cmd ++ ':' :: path ++ ['\n']

variable {cmd args path : Str} {tag : Tag}

lemma withArgument_eq_ok {missing : String} {com com' : Command}
    (h : withArgument args missing com' = .ok com) : com' = com ∧ args ≠ [] := by
  rw [withArgument] at h
  split at h
  · cases h
  · rename_i hargs
    exact ⟨Except.ok.inj h, hargs⟩

/-- What the commands with a word are: two stand alone, and the others have an argument. -/
lemma commandOf_eq_ok {com : Command} (h : commandOf cmd args = .ok com) :
    com = .version ∨ com = .getStrings ∨ args ≠ [] ∧ (com = .getMenuItems args ∨
      com = .retrieveFileStatus args ∨ com = .retrieveFolderStatus args ∨ com = .share args ∨
      com = .makeAvailableLocally (args.splitOn fieldSep) ∨
      com = .makeOnlineOnly (args.splitOn fieldSep) ∨ com = .copyPrivateLink args) := by
  unfold commandOf at h
  repeat' split at h
  all_goals first
    | (obtain rfl := Except.ok.inj h; simp)
    | (obtain ⟨rfl, hargs⟩ := withArgument_eq_ok h; simp [hargs])
    | cases h

/-- A command without a colon in it is cut off its argument. -/
lemma parseCommand_cons {c : Char} (hc : c ≠ 'V') (h : ':' ∉ c :: cmd) :
    parseCommand (c :: cmd ++ ':' :: args) = commandOf (c :: cmd) args := by
  have hv2 : stripPrefix "V2/".toList (c :: cmd ++ ':' :: args) = none := if_neg (Ne.symm hc)
  rw [parseCommand, if_neg (by simp), hv2, Text.splitOnce_append h]

lemma parseCommand_fileStatus (h : path ≠ []) :
    parseCommand ("RETRIEVE_FILE_STATUS".toList ++ ':' :: path) =
      .ok (.retrieveFileStatus path) := by
  refine (parseCommand_cons (c := 'R') (by decide) (by decide)).trans ?_
  exact if_neg h

lemma parseCommand_fileStatus_nil :
    parseCommand ("RETRIEVE_FILE_STATUS".toList ++ [':']) =
      .error (.message "RETRIEVE_FILE_STATUS requires a path argument") := by
  decide

lemma parseCommand_menuItems (h : path ≠ []) :
    parseCommand ("GET_MENU_ITEMS".toList ++ ':' :: path) = .ok (.getMenuItems path) := by
  refine (parseCommand_cons (c := 'G') (by decide) (by decide)).trans ?_
  exact if_neg h

lemma parseCommand_menuItems_nil :
    parseCommand ("GET_MENU_ITEMS".toList ++ [':']) =
      .error (.message "GET_MENU_ITEMS requires a non-empty path argument") := by
  decide

end Shell

end OwncloudSync
