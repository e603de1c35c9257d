import OwncloudSync.Shell.SocketClient
import Mathlib.Tactic.Common

/-!
# Lines between the D-Bus service and the daemon

The two ends of a line are in different workspaces: the daemon writes a status
(`commands/status.rs`, `broadcast.rs`) that `parse_status_line` of the D-Bus service reads, and the
service writes the menu commands (`execute_command`) that `parse_command` of the daemon reads.

* A status comes back as it was written exactly when its path **does not end with white space**: the
  reader trims the line (`statusLine_iff`).
* The service puts the record separator between the paths of every command, and the daemon takes
  `SHARE` and `COPY_PRIVATE_LINK` with one path: several selected files arrive as **one** path that does
  not exist (`delivered_iff`).
-/

namespace OwncloudSync

namespace Shell

/-! ## Status lines -/

/-- The lines the daemon writes for a path, with the tag they are about. -/
inductive StatusLine (path : Str) : Tag → Str → Prop
  | file (r : StatusResolver) :
      StatusLine path (r.resolveFile path) (handleRetrieveFileStatus path r)
  | folder (r : StatusResolver) :
      StatusLine path (r.resolveFolder path) (handleRetrieveFolderStatus path r)
  | changed (tag : Tag) : StatusLine path tag (Broadcast.statusChanged tag path).line

/-- The path does not end with white space. -/
def EndsVisibly (path : Str) : Prop := ∀ c, path.getLast? = some c → isWhiteSpace c = false

variable {path line : Str} {tag : Tag}

lemma formatResponse_status : formatResponse "STATUS".toList [tag.text, path] =
    "STATUS:".toList ++ tag.text ++ ':' :: (path ++ ['\n']) := by
  rw [formatResponse, if_neg (by simp)]
  simp [List.intercalate]

/-- All of them have the same form. -/
lemma StatusLine.eq (h : StatusLine path tag line) :
    line = "STATUS:".toList ++ tag.text ++ ':' :: (path ++ ['\n']) := by
  cases h with
  | file r => exact formatResponse_status
  | folder r => exact formatResponse_status
  | changed => rw [Broadcast.line, Broadcast.head_statusChanged, append_colon, Broadcast.path]

lemma rdropWhile_concat_lf : (path ++ ['\n']).rdropWhile isWhiteSpace =
    path.rdropWhile isWhiteSpace :=
  List.rdropWhile_concat_pos _ _ _ (by decide)

lemma rdropWhile_eq_self : path.rdropWhile isWhiteSpace = path ↔ EndsVisibly path := by
  rw [List.rdropWhile_eq_self_iff, EndsVisibly]
  constructor
  · intro h c hc
    have hne : path ≠ [] := by
      rintro rfl
      cases hc
    rw [List.getLast?_eq_some_getLast hne, Option.some.injEq] at hc
    simpa [hc] using h hne
  · intro h hne
    simp [h _ (List.getLast?_eq_some_getLast hne)]

/-- What is read: the tag, and the path up to the white space at its end. -/
lemma parseStatusLine_eq (h : StatusLine path tag line) :
    parseStatusLine line = some (tag.text, path.rdropWhile isWhiteSpace) := by
  have htrim : trim line = "STATUS:".toList ++ tag.text ++ ':' :: path.rdropWhile isWhiteSpace := by
    rw [h.eq, ← rdropWhile_concat_lf]
    exact trim_line (by decide)
  rw [parseStatusLine, htrim, List.append_assoc, stripPrefix_append]
  exact Text.splitOnce_append tag.colon_not_mem_text

/-- **A status is read as it was written exactly when its path does not end with white space.** -/
theorem statusLine_iff (h : StatusLine path tag line) :
    parseStatusLine line = some (tag.text, path) ↔ EndsVisibly path := by
  rw [parseStatusLine_eq h, ← rdropWhile_eq_self, Option.some.injEq, Prod.mk.injEq]
  exact and_iff_right rfl

/-- Colons, and white space at the beginning, do no harm. -/
theorem colon_read : parseStatusLine (Broadcast.statusChanged .sync " /a: b".toList).line =
    some ("SYNC".toList, " /a: b".toList) :=
  (statusLine_iff (.changed .sync)).mpr (fun c hc => by cases hc; decide)

/-- **The space at the end of a name is lost.** -/
theorem space_lost : ¬ ∀ path tag line, '\n' ∉ path → StatusLine path tag line →
    parseStatusLine line = some (tag.text, path) := by
  intro h
  have hread := h "/a ".toList .ok _ (by decide) (.changed .ok)
  revert hread
  decide

/-! ## Menu commands -/

/-- What `SocketClient::execute_command` writes. -/
def executeCommand (command : Str) (paths : List Str) : Str :=
  request command ([fieldSep].intercalate paths)

/-- What `handle_connection` makes of the first line that is sent; an empty one is passed over. -/
def firstCommand (sent : Str) : Option (Except ProtocolError Command) :=
  match Text.splitOnce '\n' sent with
  | none => none
  | some (line, _) =>
      let trimmed := line.rdropWhile (· = '\r')
      if trimmed = [] then none else some (parseCommand trimmed)

/-- The word of a menu command, and the paths it is about. -/
def Command.selection : Command → Option (Str × List Str)
  | .share path => some ("SHARE".toList, [path])
  | .copyPrivateLink path => some ("COPY_PRIVATE_LINK".toList, [path])
  | .makeAvailableLocally paths => some ("MAKE_AVAILABLE_LOCALLY".toList, paths)
  | .makeOnlineOnly paths => some ("MAKE_ONLINE_ONLY".toList, paths)
  | _ => none

/-- The commands of the menu items. -/
def menuWords : List Str := (menuItems.filterMap menuItem).map (fun item => item.2.1)

/-- The commands whose argument the daemon takes as a list. -/
def takesList (word : Str) : Bool :=
  word = "MAKE_AVAILABLE_LOCALLY".toList || word = "MAKE_ONLINE_ONLY".toList

/-- The files a user has selected: some, with names that fit into a line. -/
structure Selection where
  paths : List Str
  some_path : paths ≠ []
  path_ne_nil : [] ∉ paths
  path_line : ∀ p ∈ paths, '\n' ∉ p ∧ '\r' ∉ p ∧ fieldSep ∉ p

/-- The daemon gets the command for just these paths, in this order. -/
def Delivered (word : Str) (sel : Selection) : Prop :=
  ∃ com, firstCommand (executeCommand word sel.paths) = some (.ok com) ∧
    com.selection = some (word, sel.paths)

variable {word args : Str} {sel : Selection}

lemma mem_menuWords : word ∈ menuWords ↔ word = "SHARE".toList ∨ word = "COPY_PRIVATE_LINK".toList ∨
    word = "MAKE_AVAILABLE_LOCALLY".toList ∨ word = "MAKE_ONLINE_ONLY".toList := by
  have hwords : menuWords = ["SHARE".toList, "COPY_PRIVATE_LINK".toList,
      "MAKE_AVAILABLE_LOCALLY".toList, "MAKE_ONLINE_ONLY".toList] := by decide
  rw [hwords, List.mem_cons, List.mem_cons, List.mem_cons, List.mem_singleton]

namespace Selection

/-- What stands behind the colon. -/
def joined (sel : Selection) : Str := [fieldSep].intercalate sel.paths

lemma not_mem_joined {c : Char} (hsep : c ≠ fieldSep) (h : ∀ p ∈ sel.paths, c ∉ p) :
    c ∉ sel.joined := by
  intro hc
  rcases Text.mem_of_mem_intercalate hc with rfl | ⟨p, hp, hcp⟩
  · exact hsep rfl
  · exact h p hp hcp

lemma joined_ne_nil : sel.joined ≠ [] := by
  have hsplit := List.splitOn_intercalate fieldSep (fun p hp => (sel.path_line p hp).2.2) sel.some_path
  intro hnil
  rw [joined] at hnil
  rw [hnil] at hsplit
  exact sel.path_ne_nil (by rw [← hsplit]; exact List.mem_cons_self)

lemma splitOn_joined : sel.joined.splitOn fieldSep = sel.paths :=
  List.splitOn_intercalate fieldSep (fun p hp => (sel.path_line p hp).2.2) sel.some_path

lemma asRead_joined : asRead sel.joined = sel.joined := by
  have hlf : sel.joined.takeWhile (· ≠ '\n') = sel.joined := by
    rw [List.takeWhile_eq_self_iff]
    intro c hc
    have hne : c ≠ '\n' := by
      rintro rfl
      exact not_mem_joined (by decide) (fun p hp => (sel.path_line p hp).1) hc
    simpa using hne
  rw [asRead, hlf, List.rdropWhile_eq_self_iff]
  intro hne
  have hlast : sel.joined.getLast hne ≠ '\r' := by
    intro hcr
    refine not_mem_joined (c := '\r') (by decide) (fun p hp => (sel.path_line p hp).2.1) ?_
    rw [← hcr]
    exact List.getLast_mem hne
  simpa using hlast

end Selection

lemma firstCommand_request (hlf : '\n' ∉ word) :
    firstCommand (request word args) = some (parseCommand (word ++ ':' :: asRead args)) := by
  obtain ⟨line, rest, hcut, htrim⟩ := line_of_request args hlf
  rw [firstCommand, hcut]
  dsimp only
  rw [htrim, if_neg (by simp)]

/-- What the daemon is told to do, whatever the argument. -/
lemma selection_of_word (h : word ∈ menuWords) (hargs : args ≠ []) :
    ∃ com, parseCommand (word ++ ':' :: args) = .ok com ∧ com.selection =
      some (word, if takesList word = true then args.splitOn fieldSep else [args]) := by
  rcases mem_menuWords.mp h with rfl | rfl | rfl | rfl
  · refine ⟨.share args, (parseCommand_cons (c := 'S') (by decide) (by decide)).trans ?_, rfl⟩
    exact if_neg hargs
  · refine ⟨.copyPrivateLink args, (parseCommand_cons (c := 'C') (by decide) (by decide)).trans ?_, rfl⟩
    exact if_neg hargs
  · refine ⟨.makeAvailableLocally (args.splitOn fieldSep),
      (parseCommand_cons (c := 'M') (by decide) (by decide)).trans ?_, rfl⟩
    exact if_neg hargs
  · refine ⟨.makeOnlineOnly (args.splitOn fieldSep),
      (parseCommand_cons (c := 'M') (by decide) (by decide)).trans ?_, rfl⟩
    exact if_neg hargs

/-- **A menu command reaches just the selected files exactly when it takes a list, or one file is
selected.** -/
theorem delivered_iff (h : word ∈ menuWords) (sel : Selection) :
    Delivered word sel ↔ takesList word = true ∨ sel.paths.length = 1 := by
  have hlf : '\n' ∉ word := by
    rcases mem_menuWords.mp h with rfl | rfl | rfl | rfl <;> decide
  obtain ⟨com, hparse, hsel⟩ := selection_of_word h sel.joined_ne_nil
  have hfirst : firstCommand (executeCommand word sel.paths) = some (.ok com) := by
    rw [executeCommand, firstCommand_request hlf, ← Selection.joined, sel.asRead_joined, hparse]
  rw [sel.splitOn_joined] at hsel
  have hiff : Delivered word sel ↔
      (if takesList word = true then sel.paths else [sel.joined]) = sel.paths := by
    rw [Delivered, hfirst]
    simp [hsel]
  rw [hiff]
  split
  · rename_i hlist
    simp [hlist]
  · rename_i hlist
    rw [or_iff_right hlist, List.length_eq_one_iff]
    constructor
    · intro hone
      exact ⟨sel.joined, hone.symm⟩
    · rintro ⟨p, hp⟩
      rw [Selection.joined, hp, List.intercalate_singleton]

/-- One file, with a colon in its name. -/
def oneFile : Selection where
  paths := ["/a: b".toList]
  some_path := List.cons_ne_nil _ _
  path_ne_nil := by decide
  path_line := by decide

/-- Two files that are selected together. -/
def twoFiles : Selection where
  paths := ["/a".toList, "/b".toList]
  some_path := List.cons_ne_nil _ _
  path_ne_nil := by decide
  path_line := by decide

/-- The theorem at a command that takes one path, and at one that takes a list. -/
theorem oneFile_delivered : Delivered "SHARE".toList oneFile ∧
    Delivered "MAKE_AVAILABLE_LOCALLY".toList twoFiles :=
  ⟨(delivered_iff (by decide) oneFile).mpr (.inr rfl),
    (delivered_iff (by decide) twoFiles).mpr (.inl rfl)⟩

/-- **Two files are shared as one path.** -/
theorem twoFiles_not_delivered : ¬ ∀ word ∈ menuWords, ∀ sel, Delivered word sel := by
  intro h
  obtain ⟨com, hcom, hsel⟩ := h "SHARE".toList (by decide) twoFiles
  have hshare : firstCommand (executeCommand "SHARE".toList twoFiles.paths) =
      some (.ok (.share ("/a".toList ++ fieldSep :: "/b".toList))) := by decide
  rw [hshare, Option.some.injEq, Except.ok.injEq] at hcom
  rw [← hcom] at hsel
  revert hsel
  decide

end Shell

end OwncloudSync
