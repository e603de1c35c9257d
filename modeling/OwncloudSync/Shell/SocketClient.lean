import OwncloudSync.Daemon.Accounts
import OwncloudSync.Shell.Server
import Mathlib.Tactic.Common

/-!
# The client of the socket API

The D-Bus service of the Linux file managers connects, writes one request and takes **the next
line** as the answer (`socket_client.rs`).  On the other side `handle_connection` writes a
`REGISTER_PATH` line for every root first, then the answers and the broadcasts in whatever order they
come.  Nothing in an answer says which request it belongs to.

A run of a connection is a list of events: a broadcast is written, or the request is served.  The
first line on the wire is the one the client takes (`run_wire`), so

* with a root registered it is a `REGISTER_PATH` line, and **every** `get_file_status` fails
  (`getFileStatus_of_root`), which the D-Bus service shows as `NONE`;
* with a broadcast ahead of the answer it is the broadcast, and a foreign `STATUS` line is taken as
  the answer;
* otherwise it is the answer, if there is one: an empty path gets none, and the client waits.

`matched_iff` is the exact condition for both requests together.
-/

namespace OwncloudSync

namespace Shell

/-! ## What the client reads -/

/-- The error of a line that cannot be read. -/
inductive SocketError where
  | parse (message : Str)
  deriving DecidableEq

/-- `parse_status_line`. -/
def parseStatusLine (line : Str) : Option (Str × Str) :=
  match stripPrefix "STATUS:".toList (trim line) with
  | none => none
  | some rest => Text.splitOnce ':' rest

/-- One part of the answer to `GET_MENU_ITEMS`: name, command and state. -/
def menuItem (part : Str) : Option (Str × Str × Bool) :=
  match Text.splitN ':' 3 part with
  | [name, cmd, state] => some (name, cmd, decide (state = "enabled".toList))
  | _ => none

/-- `parse_menu_items_line`. -/
def parseMenuItemsLine (line : Str) : List (Str × Str × Bool) :=
  ((trim line).splitOn fieldSep).tail.filterMap menuItem

/-- The end of `get_file_status`. -/
def statusOfLine (line : Str) : Except SocketError Str :=
  match parseStatusLine line with
  | some (tag, _) => .ok tag
  | none => .error (.parse ("unexpected status response: ".toList ++ line))

/-- `read_line`: nothing as long as there is no line feed, since the connection stays open. -/
def readLine (wire : Str) : Option Str :=
  (Text.splitOnce '\n' wire).map (fun (line, _) => line ++ ['\n'])

/-! ## The connection -/

/-- The two directions of a connection. -/
structure Connection where
  /-- what the client has sent and the server has not read -/
  inbox : Str
  /-- what the server has written -/
  wire : Str

/-- What the server does. -/
inductive Event where
  | notice (b : Broadcast)
  | serve
  deriving DecidableEq

/-- A new connection on which the client has written.  A request that is still on its way is one that
has not been served. -/
def connect (s : SocketApiServer) (sent : Str) : Connection where
  inbox := sent
  wire := s.resolver.folderRoots.flatMap (fun root => (Broadcast.registerPath root.1).line)

/-- What an event does to the connection. -/
def Connection.step (s : SocketApiServer) (c : Connection) : Event → Connection
  | .notice b => { c with wire := c.wire ++ b.line }
  | .serve =>
      match Text.splitOnce '\n' c.inbox with
      | none => c
      | some (line, rest) =>
          { inbox := rest, wire := c.wire ++ (s.handleLine line).1.getD [] }

/-- The events, one after the other. -/
def Connection.run (s : SocketApiServer) (c : Connection) (es : List Event) : Connection :=
  es.foldl (Connection.step s) c

/-- `SocketClient::get_file_status` on a new connection; nothing while it waits. -/
def getFileStatus (s : SocketApiServer) (path : Str) (es : List Event) :
    Option (Except SocketError Str) :=
  (readLine ((connect s (request "RETRIEVE_FILE_STATUS".toList path)).run s es).wire).map
    statusOfLine

/-- `SocketClient::get_menu_items` on a new connection. -/
def getMenuItems (s : SocketApiServer) (path : Str) (es : List Event) :
    Option (List (Str × Str × Bool)) :=
  (readLine ((connect s (request "GET_MENU_ITEMS".toList path)).run s es).wire).map
    parseMenuItemsLine

/-- The items the daemon offers for a path. -/
def offered (r : StatusResolver) (path : Str) : List (Str × Str × Bool) :=
  (menuItemsFor r path).filterMap menuItem

/-! ## The condition -/

/-- The broadcasts of a run. -/
def notices (es : List Event) : List Broadcast :=
  es.filterMap (fun
    | .notice b => some b
    | .serve => none)

/-- The broadcasts the client gets before the answer: all of them if the path is empty as the server
reads it, since there is no answer then. -/
def ahead (path : Str) (es : List Event) : List Broadcast :=
  if asRead path = [] then notices es else notices (es.takeWhile (· ≠ .serve))

/-- No part of the text behind a record separator has the three fields of a menu item. -/
def Plain (s : Str) : Prop := ∀ n ∈ (Text.partCounts fieldSep ':' s).tail, n < 2

instance (s : Str) : Decidable (Plain s) := inferInstanceAs (Decidable (∀ n ∈ _, n < 2))

/-- The first line is the answer, or says `NONE` by chance. -/
def StatusFirst (path : Str) (es : List Event) : Prop :=
  match ahead path es with
  | [] => asRead path ≠ []
  | b :: _ => ∃ other, b = .statusChanged .none other

/-- There is a first line, and its path does not look like menu items. -/
def MenuFirst (path : Str) (es : List Event) : Prop :=
  match ahead path es with
  | [] => asRead path ≠ [] ∧ Plain (asRead path)
  | b :: _ => Plain (b.path.takeWhile (· ≠ '\n'))

variable {s : SocketApiServer} {path : Str} {es : List Event} {b : Broadcast}

/-! ## Lines -/

/-- A line that begins with a letter loses white space at its end only, and none before its last
colon. -/
lemma trim_line {c : Char} {l r : Str} (hc : isWhiteSpace c = false) :
    trim (c :: l ++ ':' :: r) = c :: l ++ ':' :: r.rdropWhile isWhiteSpace := by
  have hstart : (c :: l ++ ':' :: r).dropWhile isWhiteSpace = c :: l ++ ':' :: r :=
    List.dropWhile_cons_of_neg (by simp [hc])
  have hend : (c :: l ++ ':' :: r).rdropWhile isWhiteSpace =
      c :: l ++ ':' :: r.rdropWhile isWhiteSpace := Text.rdropWhile_append_cons (by decide)
  rw [trim, hstart]
  exact hend

/-- The first line of a wire. -/
lemma readLine_line {l r rest : Str} (h : '\n' ∉ l) :
    readLine (l ++ r ++ '\n' :: rest) = some (l ++ r.takeWhile (· ≠ '\n') ++ ['\n']) := by
  obtain ⟨rest', hcut⟩ := Text.splitOnce_takeWhile '\n' (l ++ r) rest
  rw [readLine, hcut, List.takeWhile_append_of_pos]
  · rfl
  · intro c hc
    have hne : c ≠ '\n' := fun hlf => h (by rw [← hlf]; exact hc)
    simpa using hne

lemma parseStatusLine_status (tag : Tag) (r : Str) :
    ∃ p, parseStatusLine ("STATUS:".toList ++ tag.text ++ ':' :: r) = some (tag.text, p) := by
  refine ⟨r.rdropWhile isWhiteSpace, ?_⟩
  have htrim : trim ("STATUS:".toList ++ tag.text ++ ':' :: r) =
      "STATUS:".toList ++ tag.text ++ ':' :: r.rdropWhile isWhiteSpace :=
    trim_line (by decide)
  rw [parseStatusLine, htrim, List.append_assoc, stripPrefix_append]
  exact Text.splitOnce_append tag.colon_not_mem_text

/-- A line that does not begin with an `S` is no status line. -/
lemma parseStatusLine_other {c : Char} {l r : Str} (hc : isWhiteSpace c = false) (hs : c ≠ 'S') :
    parseStatusLine (c :: l ++ ':' :: r) = none := by
  have hstrip : stripPrefix "STATUS:".toList (c :: l ++ ':' :: r.rdropWhile isWhiteSpace) = none :=
    if_neg (Ne.symm hs)
  rw [parseStatusLine, trim_line hc, hstrip]

/-- Three fields are two colons. -/
lemma menuItem_eq_none {part : Str} : menuItem part = none ↔ part.count ':' < 2 := by
  unfold menuItem
  rw [Text.splitN]
  cases hfirst : Text.splitOnce ':' part with
  | none =>
      have hcount := List.count_eq_zero.mpr (Text.splitOnce_eq_none.mp hfirst)
      simp [hcount]
  | some cut =>
      obtain ⟨name, rest⟩ := cut
      obtain ⟨rfl, hname⟩ := Text.eq_of_splitOnce hfirst
      dsimp only
      rw [Text.splitN, List.count_append, List.count_cons_self, List.count_eq_zero.mpr hname]
      cases hsecond : Text.splitOnce ':' rest with
      | none =>
          have hcount := List.count_eq_zero.mpr (Text.splitOnce_eq_none.mp hsecond)
          simp [hcount]
      | some cut =>
          obtain ⟨cmd, state⟩ := cut
          obtain ⟨rfl, hcmd⟩ := Text.eq_of_splitOnce hsecond
          rw [List.count_append, List.count_cons_self]
          refine iff_of_false (by simp [Text.splitN]) ?_
          omega

/-- A line has no items exactly if its path looks like none. -/
lemma parseMenuItemsLine_eq_nil {c : Char} {l r : Str} (hc : isWhiteSpace c = false)
    (hsep : fieldSep ∉ c :: l ++ [':']) :
    parseMenuItemsLine (c :: l ++ ':' :: (r ++ ['\n'])) = [] ↔ Plain r := by
  have hcounts : (Text.partCounts fieldSep ':'
      (c :: l ++ ':' :: (r ++ ['\n']).rdropWhile isWhiteSpace)).tail =
        (Text.partCounts fieldSep ':' r).tail := by
    rw [List.append_cons, Text.tail_partCounts_append hsep,
      Text.partCounts_rdropWhile (by decide) (by decide),
      Text.partCounts_concat (by decide) (by decide)]
  rw [parseMenuItemsLine, trim_line hc, List.filterMap_eq_nil_iff, Plain, ← hcounts,
    Text.partCounts, ← List.map_tail, List.forall_mem_map]
  exact forall₂_congr (fun part _ => menuItem_eq_none)

/-! ## The lines of the broadcasts -/

/-- The line of a broadcast begins with a word and a colon; only the one about a status begins with
an `S`. -/
lemma head_shape (b : Broadcast) : ∃ c l, b.head = c :: l ++ [':'] ∧ isWhiteSpace c = false ∧
    '\n' ∉ c :: l ++ [':'] ∧ fieldSep ∉ c :: l ++ [':'] ∧
    (c = 'S' → ∃ tag other, b = .statusChanged tag other) := by
  cases b with
  | registerPath =>
      exact ⟨'R', "EGISTER_PATH".toList, rfl, by decide, by decide, by decide,
        fun h => absurd h (by decide)⟩
  | unregisterPath =>
      exact ⟨'U', "NREGISTER_PATH".toList, rfl, by decide, by decide, by decide,
        fun h => absurd h (by decide)⟩
  | statusChanged tag other =>
      refine ⟨'S', "TATUS:".toList ++ tag.text, rfl, by decide, ?_, ?_, fun _ => ⟨tag, other, rfl⟩⟩
      · cases tag <;> decide
      · cases tag <;> decide
  | updateView =>
      exact ⟨'U', "PDATE_VIEW".toList, rfl, by decide, by decide, by decide,
        fun h => absurd h (by decide)⟩

/-- The colon behind the first words of a line. -/
lemma append_colon (l r : Str) : l ++ [':'] ++ r ++ ['\n'] = l ++ ':' :: (r ++ ['\n']) := by
  simp

/-- The first line of a wire that begins with a broadcast. -/
lemma readLine_broadcast (b : Broadcast) (rest : Str) :
    readLine (b.line ++ rest) = some (b.head ++ b.path.takeWhile (· ≠ '\n') ++ ['\n']) := by
  obtain ⟨c, l, hhead, -, hlf, -, -⟩ := head_shape b
  rw [Broadcast.line, List.append_assoc _ ['\n'], hhead]
  exact readLine_line hlf

/-- A broadcast is taken as the answer if it is about a status. -/
lemma statusOfLine_broadcast {r : Str} : statusOfLine (b.head ++ r ++ ['\n']) =
    .ok Tag.none.text ↔ ∃ other, b = .statusChanged .none other := by
  unfold statusOfLine
  by_cases hstatus : ∃ tag other, b = .statusChanged tag other
  · obtain ⟨tag, other, rfl⟩ := hstatus
    obtain ⟨p, hp⟩ := parseStatusLine_status tag (r ++ ['\n'])
    rw [Broadcast.head_statusChanged, append_colon, hp]
    constructor
    · intro h
      rw [Tag.text_injective (Except.ok.inj h)]
      exact ⟨other, rfl⟩
    · rintro ⟨other', h⟩
      rw [(Broadcast.statusChanged.inj h).1]
  · obtain ⟨c, l, hhead, hc, -, -, hS⟩ := head_shape b
    rw [hhead, append_colon, parseStatusLine_other hc (fun h => hstatus (hS h))]
    exact iff_of_false (fun h => nomatch h) (fun ⟨other, hb⟩ => hstatus ⟨_, other, hb⟩)

lemma parseMenuItemsLine_broadcast {r : Str} :
    parseMenuItemsLine (b.head ++ r ++ ['\n']) = [] ↔ Plain r := by
  obtain ⟨c, l, hhead, hc, -, hsep, -⟩ := head_shape b
  rw [hhead, append_colon]
  exact parseMenuItemsLine_eq_nil hc hsep

/-! ## The run of a connection -/

/-- The text of some broadcasts. -/
def lines (bs : List Broadcast) : Str := bs.flatMap Broadcast.line

lemma notices_split (es : List Event) : notices es =
    notices (es.takeWhile (· ≠ .serve)) ++ notices (es.dropWhile (· ≠ .serve)) := by
  rw [notices, notices, notices, ← List.filterMap_append, List.takeWhile_append_dropWhile]

/-- When the request is served, only broadcasts are written. -/
lemma run_served (w : Str) (es : List Event) :
    (Connection.run s ⟨[], w⟩ es).wire = w ++ lines (notices es) := by
  induction es generalizing w with
  | nil => simp [Connection.run, notices, lines]
  | cons e es ih =>
      cases e with
      | notice b =>
          refine (ih (w ++ b.line)).trans ?_
          simp [notices, lines]
      | serve => exact ih w

/-- **What is on the wire**: what was there, the broadcasts before the answer, the answer, and the
other broadcasts. -/
lemma run_wire {line : Str} (hlf : '\n' ∉ line) (w : Str) (h : Event.serve ∈ es) :
    (Connection.run s ⟨line ++ ['\n'], w⟩ es).wire =
      w ++ lines (notices (es.takeWhile (· ≠ .serve))) ++ (s.handleLine line).1.getD [] ++
        lines (notices (es.dropWhile (· ≠ .serve))) := by
  induction es generalizing w with
  | nil => cases h
  | cons e es ih =>
      cases e with
      | notice b =>
          have hserve : Event.serve ∈ es := by simpa using h
          refine (ih (w ++ b.line) hserve).trans ?_
          simp [notices, lines]
      | serve =>
          have hstep : Connection.step s ⟨line ++ ['\n'], w⟩ .serve =
              ⟨[], w ++ (s.handleLine line).1.getD []⟩ := by
            rw [Connection.step, Text.splitOnce_append hlf]
          refine ((congrArg (fun c => (Connection.run s c es).wire) hstep).trans
            (run_served _ es)).trans ?_
          simp [notices, lines]

/-- The wire of a new connection on which a request has been served. -/
lemma connect_wire {cmd : Str} (hcmd : '\n' ∉ cmd) (hlf : '\n' ∉ path) (h : Event.serve ∈ es) :
    ((connect s (request cmd path)).run s es).wire =
      (connect s (request cmd path)).wire ++ lines (notices (es.takeWhile (· ≠ .serve))) ++
        (s.answer (request cmd path)).getD [] ++ lines (notices (es.dropWhile (· ≠ .serve))) := by
  have hline : '\n' ∉ cmd ++ ':' :: path := by simp [hcmd, hlf]
  have hanswer : s.answer (request cmd path) = (s.handleLine (cmd ++ ':' :: path)).1 := by
    rw [SocketApiServer.answer, request, Text.splitOnce_append hline]
  rw [hanswer]
  exact run_wire hline _ h

/-- With a root, the first line registers it. -/
lemma readLine_of_root {cmd : Str} {root : Str × Uuid} {roots : List (Str × Uuid)}
    (hroots : s.resolver.folderRoots = root :: roots) (hcmd : '\n' ∉ cmd) (hlf : '\n' ∉ path)
    (h : Event.serve ∈ es) : readLine ((connect s (request cmd path)).run s es).wire =
      some ((Broadcast.registerPath root.1).head ++ root.1.takeWhile (· ≠ '\n') ++ ['\n']) := by
  rw [connect_wire hcmd hlf h, connect, hroots, List.flatMap_cons, List.append_assoc,
    List.append_assoc, List.append_assoc]
  exact readLine_broadcast (.registerPath root.1) _

section NoRoots

variable {cmd : Str} (hroots : s.resolver.folderRoots = []) (hcmd : '\n' ∉ cmd)
  (hlf : '\n' ∉ path) (h : Event.serve ∈ es)
  (hans : asRead path = [] → s.answer (request cmd path) = none)
include hroots hcmd hlf h hans

/-- Without a root the wire begins with what is ahead of the answer. -/
lemma wire_of_no_roots : ∃ rest, ((connect s (request cmd path)).run s es).wire =
    lines (ahead path es) ++
      if asRead path = [] then [] else (s.answer (request cmd path)).getD [] ++ rest := by
  refine ⟨lines (notices (es.dropWhile (· ≠ .serve))), ?_⟩
  rw [connect_wire hcmd hlf h, connect, hroots, List.flatMap_nil, List.nil_append, ahead]
  by_cases hpath : asRead path = []
  · rw [if_pos hpath, if_pos hpath, hans hpath, notices_split es]
    simp [lines]
  · rw [if_neg hpath, if_neg hpath, List.append_assoc]

/-- A broadcast ahead of the answer is the first line. -/
lemma readLine_of_ahead {bs : List Broadcast} (hahead : ahead path es = b :: bs) :
    readLine ((connect s (request cmd path)).run s es).wire =
      some (b.head ++ b.path.takeWhile (· ≠ '\n') ++ ['\n']) := by
  obtain ⟨rest, hwire⟩ := wire_of_no_roots hroots hcmd hlf h hans
  rw [hwire, hahead, lines, List.flatMap_cons, List.append_assoc]
  exact readLine_broadcast b _

/-- An empty path is not answered. -/
lemma readLine_of_empty (hahead : ahead path es = []) (hpath : asRead path = []) :
    readLine ((connect s (request cmd path)).run s es).wire = none := by
  obtain ⟨rest, hwire⟩ := wire_of_no_roots hroots hcmd hlf h hans
  rw [hwire, hahead, if_pos hpath]
  rfl

/-- Otherwise the first line is the answer. -/
lemma readLine_of_answer {line : Str} (hahead : ahead path es = []) (hpath : asRead path ≠ [])
    (hline : '\n' ∉ line) (hanswer : s.answer (request cmd path) = some (line ++ ['\n'])) :
    readLine ((connect s (request cmd path)).run s es).wire = some (line ++ ['\n']) := by
  obtain ⟨rest, hwire⟩ := wire_of_no_roots hroots hcmd hlf h hans
  have hread : readLine (line ++ '\n' :: rest) = some (line ++ ['\n']) := by
    rw [readLine, Text.splitOnce_append hline]
    rfl
  rw [hwire, hahead, if_neg hpath, hanswer]
  simpa [lines] using hread

end NoRoots

lemma lf_not_mem_asRead (path : Str) : '\n' ∉ asRead path := by
  intro hmem
  have htake := (List.rdropWhile_prefix _ _).subset hmem
  simpa using List.mem_takeWhile_imp htake

/-! ## The two requests -/

/-- **With a root registered, no status is ever read.** -/
theorem getFileStatus_of_root (hroots : s.resolver.folderRoots ≠ []) (hlf : '\n' ∉ path)
    (h : Event.serve ∈ es) : ∃ e, getFileStatus s path es = some (.error e) := by
  obtain ⟨root, roots, hcons⟩ := List.exists_cons_of_ne_nil hroots
  obtain ⟨c, l, hhead, hc, -, -, hS⟩ := head_shape (.registerPath root.1)
  have hother : c ≠ 'S' := fun hcS => by
    obtain ⟨_, _, hb⟩ := hS hcS
    cases hb
  rw [getFileStatus, readLine_of_root hcons (by decide) hlf h, Option.map_some, hhead,
    append_colon, statusOfLine, parseStatusLine_other hc hother]
  exact ⟨_, rfl⟩

lemma not_covers_of_no_roots (hroots : s.resolver.folderRoots = []) :
    ¬ s.resolver.Covers path := by
  rintro ⟨root, hroot, -⟩
  rw [hroots] at hroot
  cases hroot

lemma resolveFile_of_no_roots (hroots : s.resolver.folderRoots = []) :
    s.resolver.resolveFile path = .none := by
  rw [StatusResolver.resolveFile,
    findFolderForPath_eq_none.mpr (not_covers_of_no_roots hroots)]

lemma menuItemsFor_of_no_roots (hroots : s.resolver.folderRoots = []) :
    menuItemsFor s.resolver path = [] := by
  rw [menuItemsFor, findFolderForPath_eq_none.mpr (not_covers_of_no_roots hroots)]
  rfl

/-- Without roots `get_file_status` gets `NONE` exactly if the first line says so. -/
lemma getFileStatus_iff (hroots : s.resolver.folderRoots = []) (hlf : '\n' ∉ path)
    (h : Event.serve ∈ es) :
    getFileStatus s path es = some (.ok Tag.none.text) ↔ StatusFirst path es := by
  have hcmd : '\n' ∉ "RETRIEVE_FILE_STATUS".toList := by decide
  have hans : asRead path = [] →
      s.answer (request "RETRIEVE_FILE_STATUS".toList path) = none := fun hpath => by
    rw [answer_fileStatus, if_pos hpath]
  unfold getFileStatus StatusFirst
  cases hahead : ahead path es with
  | cons b bs =>
      rw [readLine_of_ahead hroots hcmd hlf h hans hahead, Option.map_some, Option.some.injEq]
      exact statusOfLine_broadcast
  | nil =>
      by_cases hpath : asRead path = []
      · rw [readLine_of_empty hroots hcmd hlf h hans hahead hpath]
        exact iff_of_false (fun h => nomatch h) (fun hne => hne hpath)
      · have hanswer : s.answer (request "RETRIEVE_FILE_STATUS".toList path) =
            some ("STATUS:".toList ++ Tag.none.text ++ ':' :: asRead path ++ ['\n']) := by
          rw [answer_fileStatus, if_neg hpath, resolveFile_of_no_roots hroots]
        have hline : '\n' ∉ "STATUS:".toList ++ Tag.none.text ++ ':' :: asRead path := by
          rw [List.mem_append, List.mem_cons, not_or, not_or]
          exact ⟨by decide, by decide, lf_not_mem_asRead path⟩
        obtain ⟨p, hp⟩ := parseStatusLine_status .none (asRead path ++ ['\n'])
        rw [readLine_of_answer hroots hcmd hlf h hans hahead hpath hline hanswer, Option.map_some,
          statusOfLine, List.append_assoc, List.cons_append, hp]
        exact iff_of_true rfl hpath

/-- Without roots `get_menu_items` gets nothing exactly if the first line has no items. -/
lemma getMenuItems_iff (hroots : s.resolver.folderRoots = []) (hlf : '\n' ∉ path)
    (h : Event.serve ∈ es) : getMenuItems s path es = some [] ↔ MenuFirst path es := by
  have hcmd : '\n' ∉ "GET_MENU_ITEMS".toList := by decide
  have hans : asRead path = [] → s.answer (request "GET_MENU_ITEMS".toList path) = none :=
    fun hpath => by rw [answer_menuItems, if_pos hpath]
  unfold getMenuItems MenuFirst
  cases hahead : ahead path es with
  | cons b bs =>
      rw [readLine_of_ahead hroots hcmd hlf h hans hahead, Option.map_some, Option.some.injEq]
      exact parseMenuItemsLine_broadcast
  | nil =>
      by_cases hpath : asRead path = []
      · rw [readLine_of_empty hroots hcmd hlf h hans hahead hpath]
        exact iff_of_false (fun h => nomatch h) (fun hne => hne.1 hpath)
      · have hanswer : s.answer (request "GET_MENU_ITEMS".toList path) =
            some ("GET_MENU_ITEMS:".toList ++ asRead path ++ ['\n']) := by
          rw [answer_menuItems, if_neg hpath,
            handleGetMenuItems_of_nil (menuItemsFor_of_no_roots hroots)]
        have hline : '\n' ∉ "GET_MENU_ITEMS:".toList ++ asRead path := by
          rw [List.mem_append, not_or]
          exact ⟨by decide, lf_not_mem_asRead path⟩
        have hitems : parseMenuItemsLine ("GET_MENU_ITEMS".toList ++ [':'] ++ asRead path ++
            ['\n']) = [] ↔ Plain (asRead path) := by
          rw [append_colon]
          exact parseMenuItemsLine_eq_nil (by decide) (by decide)
        rw [readLine_of_answer hroots hcmd hlf h hans hahead hpath hline hanswer, Option.map_some,
          Option.some.injEq, and_iff_right hpath]
        exact hitems

/-- **Both requests get the answer of the daemon exactly if no root is registered and what comes
first on each connection is that answer, or cannot be told from it.** -/
theorem matched_iff {es₁ es₂ : List Event} (hlf : '\n' ∉ path) (h₁ : Event.serve ∈ es₁)
    (h₂ : Event.serve ∈ es₂) :
    (getFileStatus s path es₁ = some (.ok (s.resolver.resolveFile path).text) ∧
      getMenuItems s path es₂ = some (offered s.resolver path)) ↔
    s.resolver.folderRoots = [] ∧ StatusFirst path es₁ ∧ MenuFirst path es₂ := by
  by_cases hroots : s.resolver.folderRoots = []
  · rw [resolveFile_of_no_roots hroots, offered, menuItemsFor_of_no_roots hroots,
      List.filterMap_nil, getFileStatus_iff hroots hlf h₁, getMenuItems_iff hroots hlf h₂,
      and_iff_right hroots]
  · obtain ⟨e, he⟩ := getFileStatus_of_root hroots hlf h₁
    refine iff_of_false (fun hboth => ?_) (fun hcond => hroots hcond.1)
    rw [he] at hboth
    cases hboth.1

/-- A daemon without folders. -/
def bareServer : SocketApiServer where
  resolver := { syncStates := fun _ => none, folderRoots := [] }
  hydrates _ := true
  dehydrates _ := true

/-- The theorem for a daemon without folders and a connection without broadcasts. -/
theorem bare_matched :
    getFileStatus bareServer "/tmp/x".toList [.serve] = some (.ok "NONE".toList) ∧
      getMenuItems bareServer "/tmp/x".toList [.serve] = some [] := by
  have hahead : ahead "/tmp/x".toList [.serve] = [] := by decide
  have hread : asRead "/tmp/x".toList ≠ [] ∧ Plain (asRead "/tmp/x".toList) := by decide
  refine (matched_iff (by decide) List.mem_cons_self List.mem_cons_self).mpr ⟨rfl, ?_, ?_⟩
  · unfold StatusFirst
    rw [hahead]
    exact hread.1
  · unfold MenuFirst
    rw [hahead]
    exact hread

/-- A daemon with the folder `/home/alice/A`. -/
def folderServer : SocketApiServer where
  resolver :=
    { syncStates := fun id => if id = 21 then some [] else none
      folderRoots := [("/home/alice/A".toList, 21)] }
  hydrates _ := true
  dehydrates _ := true

/-- With a folder its own registration is taken as the answer, and without one the status of another
path. -/
theorem foreign_line_taken :
    (folderServer.resolver.resolveFile "/home/alice/A/x".toList = .ok ∧
      getFileStatus folderServer "/home/alice/A/x".toList [.serve] =
        some (.error (.parse
          "unexpected status response: REGISTER_PATH:/home/alice/A\n".toList)) ∧
      (offered folderServer.resolver "/home/alice/A/x".toList).length = 4 ∧
      getMenuItems folderServer "/home/alice/A/x".toList [.serve] = some []) ∧
    (bareServer.resolver.resolveFile "/tmp/x".toList = .none ∧
      getFileStatus bareServer "/tmp/x".toList
        [.notice (.statusChanged .error "/tmp/y".toList), .serve] =
        some (.ok "ERROR".toList)) := by
  refine ⟨⟨?_, ?_, ?_, ?_⟩, ?_, ?_⟩ <;> decide

end Shell

end OwncloudSync
