import OwncloudSync.Shell.Server
import OwncloudSync.Lib.Runs
import Mathlib.Tactic.Common

/-!
# The client of the Finder extension

The macOS extension keeps **one** connection to the daemon for all it asks
(`FinderSync/SocketClient.swift`).  `sendCommand` puts its completion at the end of a queue;
`sendAndForget` (and the `GET_STRINGS` sent when the connection is ready) puts nothing there.  A line
that begins like a broadcast is handed to a callback, and every other line to the completion **at the
head of the queue**, whatever it is the answer to.

A run interleaves the calls, the daemon, which serves one line after the other and writes broadcasts
in between, and what the connection delivers.  Each line on its way is kept with the call it answers,
if that has a completion (`Link.underway`); the client does not see this.

* `Matched` — what the queue is for: a completion gets the reply to its own command, and each reply
  that has been read has reached its completion;
* `Orderly` — what every step of a run has to meet for this: a `sendCommand` gets exactly one line,
  which does not look like a broadcast (`STATUS` replies do); and while a completion waits, no line
  comes that is for nobody.

The text is in characters: the daemon writes whole messages, so where the connection cuts a character
in two makes no difference to the lines.
-/

namespace OwncloudSync

namespace Finder

open Shell Text

/-! ## The client -/

/-- The callbacks the extension sets, with their arguments. -/
inductive Callback where
  | onStatusBroadcast (tag path : Str)
  | onRegisterPath (path : Str)
  | onUpdateView (path : Str)
  deriving DecidableEq

/-- `SocketClient`.  A completion is the number of its call; `completed` says with what each was
called, and `callbacks` which callbacks were. -/
structure SocketClient where
  receiveBuffer : Str
  pendingCompletions : List ℕ
  completed : List (ℕ × Option Str)
  callbacks : List Callback
  deriving DecidableEq

/-- `trimmingCharacters(in:)` with the carriage return. -/
def trimReturns (s : Str) : Str := (s.dropWhile (· = '\r')).rdropWhile (· = '\r')

/-- `extractLines`: the lines, and what stays in the buffer. -/
def extractLines (buffer : Str) : List Str × Str :=
  (((cutLines buffer).1.map trimReturns).filter (· ≠ []), (cutLines buffer).2)

namespace SocketClient

/-- The end of `dispatch`: the first completion is called with the line. -/
def complete (c : SocketClient) (line : Option Str) : SocketClient :=
  match c.pendingCompletions with
  | [] => c
  | id :: ids =>
      { c with pendingCompletions := ids, completed := c.completed ++ [(id, line)] }

/-- `dispatch`. -/
def dispatch (c : SocketClient) (line : Str) : SocketClient :=
  if "STATUS:".toList.isPrefixOf line then
    match line.splitOn ':' with
    | _ :: tag :: part :: parts =>
        { c with callbacks := c.callbacks ++
            [.onStatusBroadcast tag (List.intercalate [':'] (part :: parts))] }
    | _ => c
  else if "REGISTER_PATH:".toList.isPrefixOf line then
    { c with callbacks := c.callbacks ++ [.onRegisterPath (line.drop 14)] }
  else if "UPDATE_VIEW:".toList.isPrefixOf line then
    { c with callbacks := c.callbacks ++ [.onUpdateView (line.drop 12)] }
  else c.complete (some line)

/-- `drainPendingCompletions`. -/
def drainPendingCompletions (c : SocketClient) : SocketClient :=
  { c with
    pendingCompletions := []
    completed := c.completed ++ c.pendingCompletions.map (fun id => (id, none)) }

end SocketClient

/-! ## The connection -/

/-- What has become of the connection: it is `deaf` when the receive loop has ended and the connection
itself has not. -/
inductive Phase where
  | setup
  | ready
  | deaf
  | closed
  deriving DecidableEq

/-- The client and its connection, with the numbers of its commands. -/
structure Link where
  client : SocketClient
  phase : Phase
  /-- the number of the next `sendCommand` -/
  nextId : ℕ
  /-- the `sendCommand`s whose text never got out -/
  lost : List ℕ
  /-- the lines the daemon has not served, with the `sendCommand` they are from -/
  inbox : List (Option ℕ × Str)
  /-- the replies to `sendCommand`s -/
  answers : List (ℕ × Str)
  /-- what the daemon has written and the client has not read -/
  wire : Str
  /-- the lines the client has not come to the end of, with the `sendCommand` they answer -/
  underway : List (Option ℕ × Str)

/-- What happens to the link. -/
inductive Event where
  /-- the connection is ready; `sent` says whether the text gets out, here and below -/
  | becomeReady (sent : Bool)
  | sendCommand (cmd : Str) (sent : Bool)
  | sendAndForget (cmd : Str) (sent : Bool)
  /-- the daemon serves a line, with what its tables hold just then -/
  | serve (server : SocketApiServer)
  | notice (b : Broadcast)
  | receive (n : ℕ)
  /-- the error of a `send` is handled -/
  | sendError
  | receiveError
  /-- the daemon has closed its side -/
  | receiveEnd
  /-- the connection fails or is cancelled, or `disconnect` -/
  | close

namespace Link

/-- Before the connection is ready. -/
def start : Link where
  client := ⟨[], [], [], []⟩
  phase := .setup
  nextId := 0
  lost := []
  inbox := []
  answers := []
  wire := []
  underway := []

/-- A command and its line feed are given to the connection. -/
def send (s : Link) (call : Option ℕ) (cmd : Str) : Link :=
  { s with inbox := s.inbox ++ (cutLines (cmd ++ ['\n'])).1.map (fun line => (call, line)) }

/-- The daemon writes a message. -/
def write (s : Link) (call : Option ℕ) (text : Str) : Link :=
  { s with
    wire := s.wire ++ text
    underway := s.underway ++ (cutLines text).1.map (fun line => (call, line)) }

/-- `sendAndForget`. -/
def sendAndForget (s : Link) (cmd : Str) (sent : Bool) : Link :=
  if (s.phase = .ready ∨ s.phase = .deaf) ∧ sent = true then s.send none cmd else s

/-- `sendCommand`. -/
def sendCommand (s : Link) (cmd : Str) (sent : Bool) : Link :=
  let s' := { s with nextId := s.nextId + 1 }
  if s.phase = .ready ∨ s.phase = .deaf then
    let s'' := { s' with
      client.pendingCompletions := s.client.pendingCompletions ++ [s.nextId] }
    if sent = true then s''.send (some s.nextId) cmd
    else { s'' with lost := s.lost ++ [s.nextId] }
  else { s' with client.completed := s.client.completed ++ [(s.nextId, none)] }

/-- `handle_connection` serves the next line. -/
def serve (s : Link) (server : SocketApiServer) : Link :=
  match s.inbox with
  | [] => s
  | (call, line) :: rest =>
      match (server.handleLine line).1 with
      | none => { s with inbox := rest }
      | some reply =>
          { s with
            inbox := rest
            answers := s.answers ++ call.toList.map (fun id => (id, reply)) }.write call reply

/-- How many lines come to their end with the next `n` characters. -/
def finished (s : Link) (n : ℕ) : ℕ :=
  (cutLines (s.client.receiveBuffer ++ s.wire.take n)).1.length

/-- The receive loop gets the next `n` characters. -/
def receive (s : Link) (n : ℕ) : Link :=
  let r := extractLines (s.client.receiveBuffer ++ s.wire.take n)
  { s with
    client := r.1.foldl SocketClient.dispatch { s.client with receiveBuffer := r.2 }
    wire := s.wire.drop n
    underway := s.underway.drop (s.finished n) }

/-- What the client makes of an event. -/
def step (s : Link) : Event → Link
  | .becomeReady sent =>
      if s.phase = .setup then { s with phase := .ready }.sendAndForget "GET_STRINGS".toList sent
      else s
  | .sendCommand cmd sent => s.sendCommand cmd sent
  | .sendAndForget cmd sent => s.sendAndForget cmd sent
  | .serve server => s.serve server
  | .notice b => s.write none b.line
  | .receive n => if s.phase = .ready then s.receive n else s
  | .sendError => { s with client := s.client.complete none }
  | .receiveError =>
      if s.phase = .ready then
        { s with client := s.client.drainPendingCompletions, phase := .deaf }
      else s
  | .receiveEnd => if s.phase = .ready then { s with phase := .deaf } else s
  | .close => { s with client := s.client.drainPendingCompletions, phase := .closed }

/-- The events, one after the other. -/
def run (s : Link) (es : List Event) : Link := es.foldl step s

end Link

/-! ## The condition -/

/-- Does the daemon answer the line? -/
def served (line : Str) : Bool :=
  match parseCommand (line.rdropWhile (· = '\r')) with
  | .error _ => false
  | .ok (.v2 name _) => decide (name = "GET_CLIENT_ICON".toList)
  | .ok _ => true

/-- Is the answer a line of its own that does not begin like a broadcast?  The answers to the two
`RETRIEVE` commands begin with `STATUS:`, and the answer to a V2 command has two lines. -/
def plain (line : Str) : Bool :=
  match parseCommand (line.rdropWhile (· = '\r')) with
  | .error _ => false
  | .ok (.v2 _ _) => false
  | .ok (.retrieveFileStatus _) => false
  | .ok (.retrieveFolderStatus _) => false
  | .ok _ => true

/-- Exactly one line of the command is answered, and plainly. -/
def oneReply (cmd : Str) : Bool :=
  match (cutLines (cmd ++ ['\n'])).1.filter served with
  | [line] => plain line
  | _ => false

/-- The words `dispatch` knows broadcasts by. -/
def broadcastWords : List Str := ["STATUS:".toList, "REGISTER_PATH:".toList, "UPDATE_VIEW:".toList]

/-- Is the line one for a completion, as `extractLines` and `dispatch` see it? -/
def taken (line : Str) : Bool :=
  decide (trimReturns line ≠ []) && !broadcastWords.any (·.isPrefixOf (trimReturns line))

/-- The lines come while the queue is as it should be: one that answers no `sendCommand` while it is
empty, and one that does while the `sendCommand` at its head is not a lost one. -/
def calm (lost : List ℕ) : List ℕ → List (Option ℕ × Str) → Bool
  | _, [] => true
  | pending, (call, line) :: rest =>
      if taken line then
        match call with
        | none => decide (pending = []) && calm lost pending rest
        | some _ => (pending.head?.all (fun id => decide (id ∉ lost))) && calm lost pending.tail rest
      else calm lost pending rest

/-- What a step has to meet. -/
def OrderlyStep (s : Link) : Event → Prop
  | .sendCommand cmd sent => s.phase = .ready → sent = true → oneReply cmd = true
  | .receive n =>
      s.phase = .ready →
        calm s.lost s.client.pendingCompletions (s.underway.take (s.finished n)) = true
  | .sendError => s.phase = .ready → ∀ id ∈ s.client.pendingCompletions.head?, id ∈ s.lost
  | _ => True

instance (s : Link) (e : Event) : Decidable (OrderlyStep s e) :=
  match e with
  | .sendCommand _ _ => inferInstanceAs (Decidable (_ → _ → _))
  | .receive _ => inferInstanceAs (Decidable (_ → _))
  | .sendError => inferInstanceAs (Decidable (_ → ∀ id ∈ _, _))
  | .becomeReady _ | .sendAndForget _ _ | .serve _ | .notice _ | .receiveError | .receiveEnd
  | .close => inferInstanceAs (Decidable True)

/-- Every step of the run meets it. -/
def Orderly : Link → List Event → Prop
  | _, [] => True
  | s, e :: es => OrderlyStep s e ∧ Orderly (s.step e) es

instance decidableOrderly : (s : Link) → (es : List Event) → Decidable (Orderly s es)
  | _, [] => inferInstanceAs (Decidable True)
  | s, e :: es =>
      haveI := decidableOrderly (s.step e) es
      inferInstanceAs (Decidable (OrderlyStep s e ∧ Orderly (s.step e) es))

/-- What the queue is for. -/
structure Matched (s : Link) : Prop where
  /-- a completion gets the reply to its own command -/
  own : ∀ id line, (id, some line) ∈ s.client.completed → (id, line ++ ['\n']) ∈ s.answers
  /-- a reply is on its way, or its completion has it -/
  delivered : ∀ id reply, (id, reply) ∈ s.answers →
    (∃ line, (some id, line) ∈ s.underway) ∨
      ∃ line, reply = line ++ ['\n'] ∧ (id, some line) ∈ s.client.completed

/-! ## The client's part -/

variable {s : Link} {c : SocketClient} {line : Str} {lost pending : List ℕ}

namespace SocketClient

@[simp]
lemma complete_nil {l : Option Str} (h : c.pendingCompletions = []) : c.complete l = c := by
  rw [complete, h]

lemma complete_cons {l : Option Str} {id : ℕ} {ids : List ℕ}
    (h : c.pendingCompletions = id :: ids) :
    c.complete l = { c with pendingCompletions := ids, completed := c.completed ++ [(id, l)] } := by
  rw [complete, h]

/-- A completion that is called with nothing gets nothing. -/
lemma mem_completed_complete {id : ℕ} :
    (id, some line) ∈ (c.complete none).completed ↔ (id, some line) ∈ c.completed := by
  cases h : c.pendingCompletions with
  | nil => rw [complete_nil h]
  | cons i ids => simp [complete_cons h]

lemma mem_completed_drain {id : ℕ} :
    (id, some line) ∈ c.drainPendingCompletions.completed ↔ (id, some line) ∈ c.completed := by
  simp [drainPendingCompletions]

/-- A line that begins like a broadcast leaves the queue alone. -/
lemma dispatch_of_broadcast (h : broadcastWords.any (·.isPrefixOf line) = true) :
    (c.dispatch line).pendingCompletions = c.pendingCompletions ∧
      (c.dispatch line).completed = c.completed := by
  unfold dispatch
  split
  · split <;> exact ⟨rfl, rfl⟩
  · rename_i hstatus
    split
    · exact ⟨rfl, rfl⟩
    · rename_i hregister
      split
      · exact ⟨rfl, rfl⟩
      · rename_i hupdate
        simp only [broadcastWords, List.any_cons, List.any_nil, Bool.or_false, hstatus, hregister,
          hupdate] at h
        exact absurd h Bool.false_ne_true

/-- Every other line is for the queue. -/
lemma dispatch_of_not_broadcast (h : broadcastWords.any (·.isPrefixOf line) = false) :
    c.dispatch line = c.complete (some line) := by
  simp only [broadcastWords, List.any_cons, List.any_nil, Bool.or_false, Bool.or_eq_false_iff] at h
  obtain ⟨hstatus, hregister, hupdate⟩ := h
  rw [dispatch, if_neg (Bool.not_eq_true _ ▸ hstatus), if_neg (Bool.not_eq_true _ ▸ hregister),
    if_neg (Bool.not_eq_true _ ▸ hupdate)]

/-- What becomes of one line that is cut off the buffer. -/
def offer (c : SocketClient) (line : Str) : SocketClient :=
  if trimReturns line = [] then c else c.dispatch (trimReturns line)

lemma foldl_dispatch (lines : List Str) :
    ((lines.map trimReturns).filter (· ≠ [])).foldl dispatch c = lines.foldl offer c := by
  induction lines generalizing c with
  | nil => rfl
  | cons l lines ih =>
      by_cases h : trimReturns l = []
      · rw [List.map_cons, List.filter_cons_of_neg (by simp [h]), ih, List.foldl_cons, offer,
          if_pos h]
      · rw [List.map_cons, List.filter_cons_of_pos (by simp [h]), List.foldl_cons, ih,
          List.foldl_cons, offer, if_neg h]

lemma offer_of_not_taken (h : taken line = false) :
    (c.offer line).pendingCompletions = c.pendingCompletions ∧
      (c.offer line).completed = c.completed := by
  by_cases hnil : trimReturns line = []
  · rw [offer, if_pos hnil]
    exact ⟨rfl, rfl⟩
  · rw [offer, if_neg hnil]
    refine dispatch_of_broadcast ?_
    simpa [taken, hnil] using h

lemma offer_of_taken (h : taken line = true) :
    c.offer line = c.complete (some (trimReturns line)) := by
  simp only [taken, Bool.and_eq_true, decide_eq_true_eq, Bool.not_eq_true'] at h
  rw [offer, if_neg h.1, dispatch_of_not_broadcast h.2]

lemma offer_receiveBuffer : (c.offer line).receiveBuffer = c.receiveBuffer := by
  unfold offer dispatch
  repeat' split
  all_goals try rfl
  cases h : c.pendingCompletions with
  | nil => rw [complete_nil h]
  | cons id ids => rw [complete_cons h]

lemma foldl_offer_receiveBuffer (lines : List Str) :
    (lines.foldl offer c).receiveBuffer = c.receiveBuffer := by
  induction lines generalizing c with
  | nil => rfl
  | cons l lines ih => rw [List.foldl_cons, ih, offer_receiveBuffer]

end SocketClient

/-! ## The daemon's part -/

/-- The path of a command that has one path. -/
def onePath : Command → Option Str
  | .getMenuItems path => some path
  | .share path => some path
  | .copyPrivateLink path => some path
  | _ => none

lemma commandOf_onePath {cmd args path : Str} {com : Command} (h : commandOf cmd args = .ok com)
    (hpath : onePath com = some path) : path = args ∧ args ≠ [] := by
  rcases commandOf_eq_ok h with rfl | rfl | ⟨hargs, rfl | rfl | rfl | rfl | rfl | rfl | rfl⟩
  all_goals cases hpath
  all_goals exact ⟨rfl, hargs⟩

/-- The path is the end of the line. -/
lemma parseCommand_onePath {path : Str} {com : Command} (h : parseCommand line = .ok com)
    (hpath : onePath com = some path) : ∃ pre, line = pre ++ ':' :: path := by
  rw [parseCommand] at h
  split at h
  · cases h
  · split at h
    · cases h
      cases hpath
    · split at h
      · rename_i cmd args hsplit
        obtain ⟨rfl, -⟩ := commandOf_onePath h hpath
        exact ⟨cmd, (eq_of_splitOnce hsplit).1⟩
      · exact absurd rfl (commandOf_onePath h hpath).2

/-- A line as the client keeps it for a completion. -/
structure Plain (l : Str) : Prop where
  line : '\n' ∉ l
  trimmed : trimReturns l = l
  taken : taken l = true

/-- A text is plain if it begins with a word of the daemon's and does not end in a return. -/
lemma plain_append {b : Char} {word rest : Str} (hb : b ≠ '\r') (hword : '\n' ∉ b :: word)
    (hrest : '\n' ∉ rest) (htrim : rest.rdropWhile (· = '\r') = rest)
    (htaken : broadcastWords.any (·.isPrefixOf (b :: word ++ ':' :: rest)) = false) :
    Plain (b :: word ++ ':' :: rest) := by
  have htrimmed : trimReturns (b :: word ++ ':' :: rest) = b :: word ++ ':' :: rest := by
    rw [trimReturns, List.cons_append, List.dropWhile_cons_of_neg (by simpa using hb),
      ← List.cons_append, rdropWhile_append_cons (by decide), htrim]
  refine ⟨?_, htrimmed, ?_⟩
  · intro hmem
    rcases List.mem_append.mp hmem with h | h
    · exact hword h
    · exact hrest (List.mem_of_ne_of_mem (by decide) h)
  · rw [taken, htrimmed, htaken]
    simp

/-- A line the daemon answers is answered. -/
lemma isSome_handleLine (server : SocketApiServer) (line : Str) :
    (server.handleLine line).1.isSome = served line := by
  rw [SocketApiServer.handleLine, served]
  split
  · rename_i hnil
    rw [hnil]
    rfl
  · unfold SocketApiServer.dispatchLine
    cases parseCommand (line.rdropWhile (· = '\r')) with
    | error e => rfl
    | ok com =>
        cases com with
        | v2 name body =>
            dsimp only
            split
            · rename_i h
              exact (decide_eq_true h).symm
            · rename_i h
              exact (decide_eq_false h).symm
        | _ => exact Option.isSome_some

/-- Everything the daemon answers ends with a line feed. -/
lemma handleLine_ends {server : SocketApiServer} {reply : Str}
    (h : (server.handleLine line).1 = some reply) : ∃ l, reply = l ++ ['\n'] := by
  have hvfs : ∀ (cmd : Str) (succeeds : Str → Bool) (paths : List Str),
      ∃ l, (handleVfs cmd succeeds paths).1 = l ++ ['\n'] := by
    intro cmd succeeds paths
    by_cases hall : paths.all succeeds = true
    · exact ⟨cmd ++ ":OK".toList, by rw [handleVfs, if_pos hall, List.append_assoc]; rfl⟩
    · exact ⟨cmd ++ ":ERROR".toList, by rw [handleVfs, if_neg hall, List.append_assoc]; rfl⟩
  rw [SocketApiServer.handleLine] at h
  split at h
  · cases h
  · rw [SocketApiServer.dispatchLine] at h
    split at h
    · cases h
    · obtain rfl := Option.some.inj h
      exact ⟨"VERSION:1.1".toList, rfl⟩
    · obtain rfl := Option.some.inj h
      exact ⟨_, rfl⟩
    · obtain rfl := Option.some.inj h
      exact ⟨_, rfl⟩
    · obtain rfl := Option.some.inj h
      rw [handleRetrieveFileStatus, formatResponse, if_neg (by simp)]
      exact ⟨_, rfl⟩
    · obtain rfl := Option.some.inj h
      rw [handleRetrieveFolderStatus, formatResponse, if_neg (by simp)]
      exact ⟨_, rfl⟩
    · obtain rfl := Option.some.inj h
      exact ⟨_, rfl⟩
    · obtain rfl := Option.some.inj h
      exact ⟨_, rfl⟩
    · obtain rfl := Option.some.inj h
      exact hvfs _ _ _
    · obtain rfl := Option.some.inj h
      exact hvfs _ _ _
    · split at h
      · obtain rfl := Option.some.inj h
        exact ⟨_, rfl⟩
      · cases h

lemma reply_version : ∃ l, some "VERSION:1.1\n".toList = some (l ++ ['\n']) ∧ Plain l :=
  ⟨"VERSION:1.1".toList, congrArg some (by decide), by decide, by decide, by decide⟩

lemma reply_strings : ∃ l, some handleGetStrings = some (l ++ ['\n']) ∧ Plain l := by
  obtain ⟨strings, htext, hline, htrim⟩ : ∃ strings,
      handleGetStrings = "GET_STRINGS".toList ++ ':' :: strings ++ ['\n'] ∧ '\n' ∉ strings ∧
        strings.rdropWhile (· = '\r') = strings :=
    ⟨(handleGetStrings.drop 12).dropLast, by decide +kernel⟩
  exact ⟨_, congrArg some htext, plain_append (by decide) (by decide) hline htrim rfl⟩

lemma reply_menuItems {r : StatusResolver} {path : Str} (hpath : '\n' ∉ path)
    (hend : path.rdropWhile (· = '\r') = path) :
    ∃ l, some (handleGetMenuItems path r) = some (l ++ ['\n']) ∧ Plain l := by
  refine ⟨"GET_MENU_ITEMS".toList ++
    ':' :: (path ++ (menuItemsFor r path).flatMap (fun i => fieldSep :: i)), ?_, ?_⟩
  · unfold handleGetMenuItems
    have hword : "GET_MENU_ITEMS:".toList = "GET_MENU_ITEMS".toList ++ [':'] := by decide
    rw [hword]
    simp only [List.append_assoc, List.cons_append, List.nil_append]
  · obtain ⟨items, hitems, hlast⟩ : ∃ items, '\n' ∉ items ++ ['d'] ∧
        menuItems.flatMap (fun i => fieldSep :: i) = items ++ ['d'] :=
      ⟨(menuItems.flatMap (fun i => fieldSep :: i)).dropLast, by decide, by decide⟩
    unfold menuItemsFor
    split
    · rw [List.flatMap_nil, List.append_nil]
      exact plain_append (by decide) (by decide) hpath hend rfl
    · rw [hlast]
      refine plain_append (by decide) (by decide) ?_ ?_ rfl
      · rw [List.mem_append, not_or]
        exact ⟨hpath, hitems⟩
      · rw [← List.append_assoc, List.rdropWhile_concat_neg _ _ _ (by decide)]

lemma reply_vfs {cmd : Str} {succeeds : Str → Bool} {paths : List Str}
    (hok : Plain (cmd ++ ":OK".toList)) (herror : Plain (cmd ++ ":ERROR".toList)) :
    ∃ l, some (handleVfs cmd succeeds paths).1 = some (l ++ ['\n']) ∧ Plain l := by
  rw [handleVfs]
  by_cases h : paths.all succeeds = true
  · exact ⟨_, by rw [if_pos h, List.append_assoc]; rfl, hok⟩
  · exact ⟨_, by rw [if_neg h, List.append_assoc]; rfl, herror⟩

/-- The answer to `SHARE` and to `COPY_PRIVATE_LINK`. -/
lemma reply_path {word text path : Str} (htext : text = word ++ [':'])
    (hplain : Plain (word ++ ':' :: path)) :
    ∃ l, some (text ++ path ++ ['\n']) = some (l ++ ['\n']) ∧ Plain l := by
  refine ⟨word ++ ':' :: path, ?_, hplain⟩
  rw [htext]
  simp

/-- **What the daemon answers to a plain line**: one line, as the client keeps it. -/
lemma reply_of_plain (server : SocketApiServer) (hlf : '\n' ∉ line) (h : plain line = true) :
    ∃ l, (server.handleLine line).1 = some (l ++ ['\n']) ∧ Plain l := by
  rw [plain] at h
  rw [SocketApiServer.handleLine]
  have htrimmed : '\n' ∉ line.rdropWhile (· = '\r') := fun hmem =>
    hlf ((List.rdropWhile_prefix _ _).subset hmem)
  generalize ht : line.rdropWhile (· = '\r') = t at h htrimmed ⊢
  cases hparse : parseCommand t with
  | error e => rw [hparse] at h; cases h
  | ok com =>
      have hne : t ≠ [] := by
        rintro rfl
        cases hparse
      rw [if_neg hne, SocketApiServer.dispatchLine, hparse]
      have hpath : ∀ path, onePath com = some path →
          '\n' ∉ path ∧ path.rdropWhile (· = '\r') = path := by
        intro path hone
        obtain ⟨pre, rfl⟩ := parseCommand_onePath hparse hone
        refine ⟨fun hmem => htrimmed (by simp [hmem]), ?_⟩
        have hidem := congrArg (List.rdropWhile (· = '\r')) ht
        rw [List.rdropWhile_idempotent, ht, rdropWhile_append_cons (by decide)] at hidem
        simpa using hidem.symm
      cases com with
      | version => exact reply_version
      | getStrings => exact reply_strings
      | getMenuItems path =>
          obtain ⟨hpath, hend⟩ := hpath path rfl
          exact reply_menuItems hpath hend
      | share path =>
          obtain ⟨hpath, hend⟩ := hpath path rfl
          exact @reply_path "SHARE:OK".toList _ path (by decide)
            (plain_append (by decide) (by decide) hpath hend rfl)
      | copyPrivateLink path =>
          obtain ⟨hpath, hend⟩ := hpath path rfl
          exact @reply_path "COPY_PRIVATE_LINK:OK".toList _ path (by decide)
            (plain_append (by decide) (by decide) hpath hend rfl)
      | makeAvailableLocally paths =>
          exact reply_vfs ⟨by decide, by decide, by decide⟩ ⟨by decide, by decide, by decide⟩
      | makeOnlineOnly paths =>
          exact reply_vfs ⟨by decide, by decide, by decide⟩ ⟨by decide, by decide, by decide⟩
      | retrieveFileStatus path => rw [hparse] at h; cases h
      | retrieveFolderStatus path => rw [hparse] at h; cases h
      | v2 name body => rw [hparse] at h; cases h

/-! ## Every step keeps the order -/

/-- The connection lasts and its receive loop runs, or has not begun. -/
def Link.Live (s : Link) : Prop := s.phase = .setup ∨ s.phase = .ready

/-- What holds as long as it does. -/
structure Synced (s : Link) : Prop where
  /-- what is in the buffer and on the wire are the lines underway -/
  text : s.client.receiveBuffer ++ s.wire = unlines (s.underway.map Prod.snd)
  inboxLines : ∀ e ∈ s.inbox, '\n' ∉ e.2
  lines : ∀ e ∈ s.underway, '\n' ∉ e.2
  asked : ∀ id line, (some id, line) ∈ s.inbox → served line = true → plain line = true
  replies : ∀ id line, (some id, line) ∈ s.underway → Plain line
  /-- the queue is what is still to come, in this order -/
  queue : s.client.pendingCompletions.filter (· ∉ s.lost) =
    s.underway.filterMap Prod.fst ++ (s.inbox.filter (fun e => served e.2)).filterMap Prod.fst
  fresh : ∀ id, id ∈ s.client.pendingCompletions ∨ id ∈ s.lost → id < s.nextId
  idle : s.phase = .setup → s.client.pendingCompletions = []
  /-- each reply, with the line that is on its way or has come -/
  answered : ∀ id reply, (id, reply) ∈ s.answers ↔ ∃ line, reply = line ++ ['\n'] ∧
    ((some id, line) ∈ s.underway ∨ (id, some line) ∈ s.client.completed)

lemma Synced.matched (h : Synced s) : Matched s where
  own id line hmem := (h.answered id _).mpr ⟨line, rfl, .inr hmem⟩
  delivered id reply hmem := by
    obtain ⟨line, hline, hunderway | hcompleted⟩ := (h.answered id reply).mp hmem
    · exact .inl ⟨line, hunderway⟩
    · exact .inr ⟨line, hline, hcompleted⟩

lemma synced_start : Synced .start where
  text := rfl
  inboxLines := by simp [Link.start]
  lines := by simp [Link.start]
  asked := by simp [Link.start]
  replies := by simp [Link.start]
  queue := rfl
  fresh := by simp [Link.start]
  idle _ := rfl
  answered := by simp [Link.start]

/-- **Lines that come while the queue is calm**: each reply goes to its own completion, and nobody
else gets anything. -/
lemma offer_calm {ls : List (Option ℕ × Str)} {rest : List ℕ}
    (hplain : ∀ id line, (some id, line) ∈ ls → Plain line)
    (hcalm : calm lost c.pendingCompletions ls = true)
    (hqueue : c.pendingCompletions.filter (· ∉ lost) = ls.filterMap Prod.fst ++ rest) :
    ((ls.map Prod.snd).foldl SocketClient.offer c).pendingCompletions.filter (· ∉ lost) = rest ∧
      ((ls.map Prod.snd).foldl SocketClient.offer c).pendingCompletions ⊆ c.pendingCompletions ∧
      ∀ id line, (id, some line) ∈ ((ls.map Prod.snd).foldl SocketClient.offer c).completed ↔
        (some id, line) ∈ ls ∨ (id, some line) ∈ c.completed := by
  induction ls generalizing c with
  | nil => exact ⟨hqueue, List.Subset.refl _, by simp⟩
  | cons e ls ih =>
      obtain ⟨call, line⟩ := e
      have hplain' : ∀ id line, (some id, line) ∈ ls → Plain line :=
        fun id line hmem => hplain id line (List.mem_cons_of_mem _ hmem)
      unfold calm at hcalm
      rw [List.map_cons, List.foldl_cons]
      by_cases htaken : taken line = true
      · rw [if_pos htaken] at hcalm
        cases call with
        | none =>
            -- nobody waits, so nobody gets it
            obtain ⟨hnil, hcalm⟩ := Bool.and_eq_true_iff.mp hcalm
            have hoffer : c.offer line = c := by
              rw [SocketClient.offer_of_taken htaken,
                SocketClient.complete_nil (of_decide_eq_true hnil)]
            rw [hoffer]
            simpa using ih hplain' hcalm hqueue
        | some id =>
            -- the head of the queue is the completion that waits for it
            obtain ⟨hhead, hcalm⟩ := Bool.and_eq_true_iff.mp hcalm
            have htrim : trimReturns line = line := (hplain id line List.mem_cons_self).trimmed
            obtain ⟨ids, hpending⟩ : ∃ ids, c.pendingCompletions = id :: ids := by
              cases hp : c.pendingCompletions with
              | nil => rw [hp] at hqueue; simp at hqueue
              | cons p ps =>
                  rw [hp] at hhead hqueue
                  have hp' : p ∉ lost := by simpa using hhead
                  rw [List.filter_cons_of_pos (by simpa using hp')] at hqueue
                  exact ⟨ps, by rw [(List.cons.inj hqueue).1]⟩
            have hlost : id ∉ lost := by rw [hpending] at hhead; simpa using hhead
            rw [hpending, List.filter_cons_of_pos (by simpa using hlost)] at hqueue
            rw [hpending, List.tail_cons] at hcalm
            rw [SocketClient.offer_of_taken htaken, htrim, SocketClient.complete_cons hpending]
            obtain ⟨hrest, hsub, hmem⟩ := ih (c := { c with
              pendingCompletions := ids, completed := c.completed ++ [(id, some line)] })
              hplain' hcalm (List.cons.inj hqueue).2
            refine ⟨hrest, fun x hx => ?_, fun i l => ?_⟩
            · rw [hpending]
              exact List.mem_cons_of_mem _ (hsub hx)
            · rw [hmem]
              simp only [List.mem_append, List.mem_cons, Prod.mk.injEq, Option.some.injEq,
                List.not_mem_nil, or_false]
              tauto
      · -- a broadcast, or nothing at all
        rw [if_neg htaken] at hcalm
        cases call with
        | none =>
            obtain ⟨hp, hc⟩ := SocketClient.offer_of_not_taken (c := c) (by simpa using htaken)
            rw [← hp] at hcalm hqueue
            obtain ⟨hrest, hsub, hmem⟩ := ih hplain' hcalm hqueue
            rw [hp] at hsub
            exact ⟨hrest, hsub, fun i l => by rw [hmem, hc]; simp⟩
        | some id => exact absurd (hplain id line List.mem_cons_self).taken htaken

/-- Whole lines go on the wire, and are underway then. -/
lemma Synced.write_text (h : Synced s) (call : Option ℕ) (l : Str) :
    (s.write call (l ++ ['\n'])).client.receiveBuffer ++ (s.write call (l ++ ['\n'])).wire =
      unlines ((s.write call (l ++ ['\n'])).underway.map Prod.snd) := by
  obtain ⟨-, -, htext⟩ := cutLines_spec (l ++ ['\n'])
  rw [cutLines_concat, List.append_nil] at htext
  have hnew : ((cutLines (l ++ ['\n'])).1.map (fun line => (call, line))).map Prod.snd =
      (cutLines (l ++ ['\n'])).1 := by simp [Function.comp_def]
  rw [Link.write, List.map_append, unlines, List.flatMap_append, ← unlines, ← h.text,
    List.append_assoc, hnew, ← unlines, htext]

lemma Synced.write_lines (h : Synced s) (call : Option ℕ) (text : Str) :
    ∀ e ∈ (s.write call text).underway, '\n' ∉ e.2 := by
  intro e he
  rcases List.mem_append.mp he with he | he
  · exact h.lines e he
  · obtain ⟨line, hline, rfl⟩ := List.mem_map.mp he
    exact (cutLines_spec _).1 line hline

/-- A message for nobody's completion. -/
lemma Synced.write_none (h : Synced s) {text : Str} (hends : ∃ l, text = l ++ ['\n']) :
    Synced (s.write none text) := by
  obtain ⟨l, rfl⟩ := hends
  refine { h with
    text := h.write_text none l, lines := h.write_lines none _
    replies := ?_, queue := ?_, answered := ?_ }
  · intro id line hmem
    exact h.replies id line (by simpa [Link.write] using hmem)
  · rw [Link.write, List.filterMap_append]
    simpa [Function.comp_def] using h.queue
  · intro id reply
    simpa [Link.write] using h.answered id reply

lemma Synced.send_inboxLines (h : Synced s) (call : Option ℕ) (cmd : Str) :
    ∀ e ∈ (s.send call cmd).inbox, '\n' ∉ e.2 := by
  intro e he
  rcases List.mem_append.mp he with he | he
  · exact h.inboxLines e he
  · obtain ⟨line, hline, rfl⟩ := List.mem_map.mp he
    exact (cutLines_spec _).1 line hline

/-- A command without a completion. -/
lemma Synced.send_none (h : Synced s) (cmd : Str) : Synced (s.send none cmd) := by
  refine { h with inboxLines := h.send_inboxLines none cmd, asked := ?_, queue := ?_ }
  · intro id line hmem
    exact h.asked id line (by simpa [Link.send] using hmem)
  · rw [Link.send, List.filter_append, List.filterMap_append]
    have hnone : List.filterMap Prod.fst (((cutLines (cmd ++ ['\n'])).1.map
        (fun line => ((none : Option ℕ), line))).filter (fun e => served e.2)) = [] := by
      simp [List.filterMap_eq_nil_iff]
    rw [hnone, List.append_nil]
    exact h.queue

lemma Synced.sendAndForget (h : Synced s) (cmd : Str) (sent : Bool) :
    Synced (s.sendAndForget cmd sent) := by
  rw [Link.sendAndForget]
  split
  · exact h.send_none cmd
  · exact h

/-- A command whose text does not get out is in the queue for nothing. -/
lemma Synced.sendCommand_lost (h : Synced s) (hready : s.phase = .ready) :
    Synced { s with
      nextId := s.nextId + 1
      client.pendingCompletions := s.client.pendingCompletions ++ [s.nextId]
      lost := s.lost ++ [s.nextId] } := by
  refine { h with queue := ?_, fresh := fun id hid => ?_, idle := fun hsetup => ?_ }
  · rw [← h.queue]
    dsimp only
    rw [List.filter_append, List.filter_cons_of_neg (by simp), List.filter_nil, List.append_nil]
    refine List.filter_congr (fun id hid => ?_)
    have hne : id ≠ s.nextId := (h.fresh id (.inl hid)).ne
    simp [hne]
  · simp only [List.mem_append, List.mem_singleton] at hid
    rcases hid with (hid | rfl) | (hid | rfl)
    · exact Nat.lt_succ_of_lt (h.fresh _ (.inl hid))
    · exact Nat.lt_succ_self _
    · exact Nat.lt_succ_of_lt (h.fresh _ (.inr hid))
    · exact Nat.lt_succ_self _
  · exact absurd (hready.symm.trans hsetup) (by decide)

lemma oneReply_eq_true {cmd : Str} (h : oneReply cmd = true) :
    ∃ line, (cutLines (cmd ++ ['\n'])).1.filter served = [line] ∧ plain line = true := by
  unfold oneReply at h
  split at h
  · exact ⟨_, ‹_›, h⟩
  · cases h

/-- A command that is answered once is the last the queue waits for. -/
lemma Synced.sendCommand_sent (h : Synced s) (hready : s.phase = .ready) {cmd : Str}
    (hone : oneReply cmd = true) :
    Synced ({ s with
      nextId := s.nextId + 1
      client.pendingCompletions := s.client.pendingCompletions ++ [s.nextId] }.send
        (some s.nextId) cmd) := by
  obtain ⟨line, hserved, hplain⟩ := oneReply_eq_true hone
  have hnew : s.nextId ∉ s.lost := fun hmem => (h.fresh _ (.inr hmem)).false
  refine { h with
    inboxLines := h.send_inboxLines (some s.nextId) cmd
    asked := fun id l hmem hl => ?_, queue := ?_, fresh := fun id hid => ?_
    idle := fun hsetup => ?_ }
  · rcases List.mem_append.mp hmem with hmem | hmem
    · exact h.asked id l hmem hl
    · obtain ⟨l', hl', heq⟩ := List.mem_map.mp hmem
      obtain rfl : l' = l := (Prod.mk.inj heq).2
      have hmem' : l' ∈ [line] := hserved ▸ List.mem_filter.mpr ⟨hl', hl⟩
      rw [List.mem_singleton.mp hmem']
      exact hplain
  · rw [Link.send]
    dsimp only
    rw [List.filter_append, List.filter_append, List.filterMap_append, h.queue,
      List.append_assoc, List.filter_cons_of_pos (by simpa using hnew), List.filter_nil]
    have hlast : List.filterMap Prod.fst (((cutLines (cmd ++ ['\n'])).1.map
        (fun line => (some s.nextId, line))).filter (fun e => served e.2)) = [s.nextId] := by
      rw [List.filter_map]
      simp only [Function.comp_def]
      rw [hserved]
      rfl
    rw [hlast]
  · simp only [Link.send, List.mem_append, List.mem_singleton] at hid
    rcases hid with (hid | rfl) | hid
    · exact Nat.lt_succ_of_lt (h.fresh _ (.inl hid))
    · exact Nat.lt_succ_self _
    · exact Nat.lt_succ_of_lt (h.fresh _ (.inr hid))
  · exact absurd (hready.symm.trans hsetup) (by decide)

/-- A command with a completion. -/
lemma Synced.sendCommand (h : Synced s) (hphase : s.Live)
    {cmd : Str} {sent : Bool} (ho : OrderlyStep s (.sendCommand cmd sent)) :
    Synced (s.sendCommand cmd sent) := by
  rw [Link.sendCommand]
  rcases hphase with hsetup | hready
  · -- there is no connection yet: the completion gets nothing at once
    rw [if_neg (by simp [hsetup])]
    refine { h with
      fresh := fun id hid => Nat.lt_succ_of_lt (h.fresh _ hid)
      answered := fun id reply => ?_ }
    rw [h.answered id reply]
    simp
  · rw [if_pos (.inl hready)]
    cases sent with
    | false =>
        rw [if_neg Bool.false_ne_true]
        exact h.sendCommand_lost hready
    | true =>
        rw [if_pos rfl]
        exact h.sendCommand_sent hready (ho hready rfl)

/-- The daemon takes a line off the inbox that it has no answer for. -/
lemma Synced.skip (h : Synced s) {e : Option ℕ × Str} {rest : List (Option ℕ × Str)}
    (hinbox : s.inbox = e :: rest) (hskip : e.1 = none ∨ served e.2 = false) :
    Synced { s with inbox := rest } := by
  have hsub : ∀ {e'}, e' ∈ rest → e' ∈ s.inbox := fun he => hinbox ▸ List.mem_cons_of_mem _ he
  refine { h with
    inboxLines := fun e he => h.inboxLines e (hsub he)
    asked := fun id line hmem => h.asked id line (hsub hmem)
    queue := ?_ }
  rw [h.queue, hinbox]
  rcases hskip with hnone | hserved
  · by_cases hserved : served e.2 = true
    · rw [List.filter_cons, if_pos hserved, List.filterMap_cons_none hnone]
    · rw [List.filter_cons, if_neg hserved]
  · rw [List.filter_cons, if_neg (by simp [hserved])]

/-- The reply to a `sendCommand` is a line, and its completion moves on with it. -/
lemma Synced.answer (h : Synced s) {id : ℕ} {line l : Str} {rest : List (Option ℕ × Str)}
    (hinbox : s.inbox = (some id, line) :: rest) (hserved : served line = true) (hl : Plain l) :
    Synced ({ s with inbox := rest, answers := s.answers ++ [(id, l ++ ['\n'])] }.write (some id)
      (l ++ ['\n'])) := by
  have hsub : ∀ {e'}, e' ∈ rest → e' ∈ s.inbox := fun he => hinbox ▸ List.mem_cons_of_mem _ he
  have hcut : cutLines (l ++ ['\n']) = ([l], []) := cutLines_line hl.line
  have hqueue := h.queue
  rw [hinbox, List.filter_cons, if_pos hserved,
    List.filterMap_cons_some (show Prod.fst (some id, line) = some id from rfl)] at hqueue
  refine { h with
    text := h.write_text (some id) l, lines := h.write_lines (some id) _
    inboxLines := fun e he => h.inboxLines e (hsub he)
    asked := fun id line hmem => h.asked id line (hsub hmem)
    replies := ?_, queue := ?_, answered := ?_ }
  · intro i l' he
    rw [Link.write, hcut] at he
    rcases List.mem_append.mp he with he | he
    · exact h.replies i l' he
    · obtain ⟨-, rfl⟩ := Prod.mk.inj (List.mem_singleton.mp he)
      exact hl
  · rw [Link.write, hcut, List.filterMap_append, hqueue, List.append_assoc]
    rfl
  · intro i reply
    rw [Link.write, hcut]
    simp only [List.mem_append, h.answered, List.map_cons, List.map_nil, List.mem_singleton,
      Prod.mk.injEq, Option.some.injEq]
    constructor
    · rintro (⟨l', rfl, hl'⟩ | ⟨rfl, rfl⟩)
      · exact ⟨l', rfl, hl'.imp .inl (fun hmem => hmem)⟩
      · exact ⟨l, rfl, .inl (.inr ⟨rfl, rfl⟩)⟩
    · rintro ⟨l', rfl, (hl' | ⟨rfl, rfl⟩) | hl'⟩
      · exact .inl ⟨l', rfl, .inl hl'⟩
      · exact .inr ⟨rfl, rfl⟩
      · exact .inl ⟨l', rfl, .inr hl'⟩

lemma Synced.serve (h : Synced s) (server : SocketApiServer) : Synced (s.serve server) := by
  rw [Link.serve]
  split
  · exact h
  · rename_i call line rest hinbox
    have hsome := isSome_handleLine server line
    split
    · rename_i hreply
      rw [hreply] at hsome
      exact h.skip hinbox (.inr hsome.symm)
    · rename_i reply hreply
      rw [hreply] at hsome
      cases call with
      | none =>
          have hskip := h.skip hinbox (.inl rfl)
          simpa using hskip.write_none (handleLine_ends hreply)
      | some id =>
          have hmem : (some id, line) ∈ s.inbox := hinbox ▸ List.mem_cons_self
          obtain ⟨l, hl, hplain⟩ := reply_of_plain server (h.inboxLines _ hmem)
            (h.asked id line hmem hsome.symm)
          dsimp only at hl
          obtain rfl : reply = l ++ ['\n'] := Option.some.inj (hreply.symm.trans hl)
          exact h.answer hinbox hsome.symm hplain

lemma Synced.receive (h : Synced s) (hphase : s.phase = .ready) {n : ℕ}
    (ho : OrderlyStep s (.receive n)) : Synced (s.receive n) := by
  have hall : (s.client.receiveBuffer ++ s.wire.take n) ++ s.wire.drop n =
      unlines (s.underway.map Prod.snd) := by
    rw [List.append_assoc, List.take_append_drop, h.text]
  have hlines : ∀ l ∈ s.underway.map Prod.snd, '\n' ∉ l := by
    intro l hl
    obtain ⟨e, he, rfl⟩ := List.mem_map.mp hl
    exact h.lines e he
  obtain ⟨hcut, hrest⟩ := cutLines_prefix hlines hall
  have htake : (cutLines (s.client.receiveBuffer ++ s.wire.take n)).1 =
      (s.underway.take (s.finished n)).map Prod.snd := by
    rw [hcut, List.map_take]
    rfl
  have hsplit : s.underway.take (s.finished n) ++ s.underway.drop (s.finished n) = s.underway :=
    List.take_append_drop _ _
  have hqueue := h.queue
  rw [← hsplit, List.filterMap_append, List.append_assoc] at hqueue
  obtain ⟨hpending, hsub, hcompleted⟩ := offer_calm
    (c := { s.client with
      receiveBuffer := (cutLines (s.client.receiveBuffer ++ s.wire.take n)).2 })
    (fun id line hmem => h.replies id line (List.mem_of_mem_take hmem)) (ho hphase) hqueue
  have hclient : (s.receive n).client = ((s.underway.take (s.finished n)).map Prod.snd).foldl
      SocketClient.offer { s.client with
        receiveBuffer := (cutLines (s.client.receiveBuffer ++ s.wire.take n)).2 } := by
    rw [← htake]
    exact SocketClient.foldl_dispatch _
  refine
    { inboxLines := h.inboxLines
      asked := h.asked
      text := ?_
      lines := fun e he => h.lines e (List.mem_of_mem_drop he)
      replies := fun id line hmem => h.replies id line (List.mem_of_mem_drop hmem)
      queue := ?_
      fresh := fun id hid => ?_
      idle := fun hsetup => ?_
      answered := fun id reply => ?_ }
  · rw [hclient, SocketClient.foldl_offer_receiveBuffer]
    rw [← List.map_drop] at hrest
    exact hrest
  · rw [hclient]
    exact hpending
  · rw [hclient] at hid
    exact h.fresh id (hid.imp (fun hmem => hsub hmem) (fun hmem => hmem))
  · exact absurd (hphase.symm.trans hsetup) (by decide)
  · rw [hclient]
    simp only [hcompleted]
    refine (h.answered id reply).trans (exists_congr (fun line => and_congr_right (fun _ => ?_)))
    rw [← or_assoc]
    refine or_congr_left ?_
    have hunderway : (s.receive n).underway = s.underway.drop (s.finished n) := rfl
    rw [or_comm, ← List.mem_append, hunderway, hsplit]

/-- The head of the queue is told that its text was lost, and it was. -/
lemma Synced.sendError (h : Synced s) (hphase : s.Live)
    (ho : OrderlyStep s .sendError) : Synced { s with client := s.client.complete none } := by
  cases hpending : s.client.pendingCompletions with
  | nil =>
      rw [SocketClient.complete_nil hpending]
      exact h
  | cons id ids =>
      have hready : s.phase = .ready := by
        rcases hphase with hsetup | hready
        · rw [h.idle hsetup] at hpending
          cases hpending
        · exact hready
      have hlost : id ∈ s.lost := ho hready id (by simp [hpending])
      rw [SocketClient.complete_cons hpending]
      refine { h with
        queue := ?_, fresh := fun i hi => ?_, idle := fun hsetup => ?_
        answered := fun i reply => ?_ }
      · rw [← h.queue, hpending, List.filter_cons_of_neg (by simpa using hlost)]
      · exact h.fresh i (hi.imp (fun hmem => hpending ▸ List.mem_cons_of_mem _ hmem)
          (fun hmem => hmem))
      · exact absurd (hready.symm.trans hsetup) (by decide)
      · rw [h.answered i reply]
        simp

lemma Link.phase_sendAndForget (cmd : Str) (sent : Bool) :
    (s.sendAndForget cmd sent).phase = s.phase := by
  rw [Link.sendAndForget]
  split <;> rfl

lemma Link.phase_sendCommand (cmd : Str) (sent : Bool) :
    (s.sendCommand cmd sent).phase = s.phase := by
  rw [Link.sendCommand]
  split
  · split <;> rfl
  · rfl

lemma Link.phase_serve (server : SocketApiServer) : (s.serve server).phase = s.phase := by
  rw [Link.serve]
  split
  · rfl
  · split <;> rfl

/-- What has ended does not begin again. -/
lemma live_of_step {e : Event} (h : (s.step e).Live) : s.Live := by
  cases e with
  | becomeReady sent =>
      rw [Link.step] at h
      split at h
      · rename_i hsetup
        exact .inl hsetup
      · exact h
  | sendCommand cmd sent =>
      rw [Link.step, Link.Live, Link.phase_sendCommand] at h
      exact h
  | sendAndForget cmd sent =>
      rw [Link.step, Link.Live, Link.phase_sendAndForget] at h
      exact h
  | serve server =>
      rw [Link.step, Link.Live, Link.phase_serve] at h
      exact h
  | notice b => exact h
  | receive n =>
      rw [Link.step] at h
      split at h <;> exact h
  | sendError => exact h
  | receiveError =>
      rw [Link.step] at h
      split at h
      · rename_i hready
        exact .inr hready
      · exact h
  | receiveEnd =>
      rw [Link.step] at h
      split at h
      · rename_i hready
        exact .inr hready
      · exact h
  | close => exact absurd h (by rintro (h | h) <;> cases h)

lemma Synced.step (h : Synced s) {e : Event} (ho : OrderlyStep s e) (hlive : (s.step e).Live) :
    Synced (s.step e) := by
  have hphase := live_of_step hlive
  cases e with
  | becomeReady sent =>
      rw [Link.step]
      split
      · rename_i hsetup
        have hready : Synced { s with phase := .ready } :=
          { h with idle := fun hcontra => by cases hcontra }
        exact hready.sendAndForget _ sent
      · exact h
  | sendCommand cmd sent => exact h.sendCommand hphase ho
  | sendAndForget cmd sent => exact h.sendAndForget cmd sent
  | serve server => exact h.serve server
  | notice b => exact h.write_none ⟨_, rfl⟩
  | receive n =>
      rw [Link.step]
      split
      · rename_i hready
        exact h.receive hready ho
      · exact h
  | sendError => exact h.sendError hphase ho
  | receiveError =>
      rw [Link.step] at hlive ⊢
      split at hlive
      · exact absurd hlive (by rintro (h | h) <;> cases h)
      · rename_i hready
        rw [if_neg hready]
        exact h
  | receiveEnd =>
      rw [Link.step] at hlive ⊢
      split at hlive
      · exact absurd hlive (by rintro (h | h) <;> cases h)
      · rename_i hready
        rw [if_neg hready]
        exact h
  | close => exact absurd hlive (by rintro (h | h) <;> cases h)

/-- What `Matched` depends on. -/
lemma Matched.frame {s' : Link} (h : Matched s) (hanswers : s'.answers = s.answers)
    (hunderway : s.underway ⊆ s'.underway)
    (hcompleted : ∀ id line,
      (id, some line) ∈ s'.client.completed ↔ (id, some line) ∈ s.client.completed) :
    Matched s' where
  own id line hmem := hanswers ▸ h.own id line ((hcompleted id line).mp hmem)
  delivered id reply hmem := by
    rcases h.delivered id reply (hanswers ▸ hmem) with ⟨line, hline⟩ | ⟨line, hreply, hline⟩
    · exact .inl ⟨line, hunderway hline⟩
    · exact .inr ⟨line, hreply, (hcompleted id line).mpr hline⟩

lemma Matched.sendAndForget (h : Matched s) (cmd : Str) (sent : Bool) :
    Matched (s.sendAndForget cmd sent) := by
  rw [Link.sendAndForget]
  split
  · exact ⟨h.own, h.delivered⟩
  · exact h

lemma Matched.serve (h : Matched s) (server : SocketApiServer) : Matched (s.serve server) := by
  rw [Link.serve]
  split
  · exact h
  · rename_i call line rest hinbox
    split
    · exact ⟨h.own, h.delivered⟩
    · rename_i reply hreply
      refine ⟨fun id line hmem => List.mem_append_left _ (h.own id line hmem),
        fun id reply' hmem => ?_⟩
      rcases List.mem_append.mp hmem with hmem | hmem
      · rcases h.delivered id reply' hmem with ⟨l, hl⟩ | hcompleted
        · exact .inl ⟨l, List.mem_append_left _ hl⟩
        · exact .inr hcompleted
      · -- the new reply has a line, and it is on its way
        obtain ⟨i, hi, heq⟩ := List.mem_map.mp hmem
        obtain ⟨rfl, rfl⟩ := Prod.mk.inj heq
        obtain rfl : call = some i := Option.mem_toList.mp hi
        obtain ⟨l, rfl⟩ := handleLine_ends hreply
        obtain ⟨line', hline'⟩ := List.exists_mem_of_ne_nil _
          (cutLines_ne_nil (s := l ++ ['\n']) (by simp))
        exact .inl ⟨line', List.mem_append_right _ (List.mem_map_of_mem hline')⟩

/-- Where nothing is received, nothing goes to the wrong completion. -/
lemma Matched.step (h : Matched s) {e : Event} (he : ¬ (s.step e).Live) : Matched (s.step e) := by
  cases e with
  | becomeReady sent =>
      rw [Link.step]
      split
      · exact Matched.sendAndForget (s := { s with phase := .ready }) ⟨h.own, h.delivered⟩ _ sent
      · exact h
  | sendCommand cmd sent =>
      rw [Link.step, Link.sendCommand]
      split
      · split <;> exact h.frame rfl (List.Subset.refl _) (fun id line => Iff.rfl)
      · exact h.frame rfl (List.Subset.refl _) (fun id line => by simp)
  | sendAndForget cmd sent => exact h.sendAndForget cmd sent
  | serve server => exact h.serve server
  | notice b => exact h.frame rfl (List.subset_append_left _ _) (fun id line => Iff.rfl)
  | receive n =>
      rw [Link.step] at he ⊢
      split at he
      · rename_i hready
        exact absurd (.inr hready) he
      · rename_i hready
        rw [if_neg hready]
        exact h
  | sendError =>
      exact h.frame rfl (List.Subset.refl _) (fun id line => SocketClient.mem_completed_complete)
  | receiveError =>
      rw [Link.step]
      split
      · exact h.frame rfl (List.Subset.refl _) (fun id line => SocketClient.mem_completed_drain)
      · exact h
  | receiveEnd =>
      rw [Link.step]
      split
      · exact h.frame rfl (List.Subset.refl _) (fun id line => Iff.rfl)
      · exact h
  | close => exact h.frame rfl (List.Subset.refl _) (fun id line => SocketClient.mem_completed_drain)

/-! ## Every orderly run -/

lemma matched_run {es : List Event} (ho : Orderly s es) (hmatched : Matched s)
    (hsynced : s.Live → Synced s) {pre : List Event} (hpre : pre <+: es) : Matched (s.run pre) := by
  induction es generalizing s pre with
  | nil =>
      obtain rfl := List.prefix_nil.mp hpre
      exact hmatched
  | cons e es ih =>
      cases pre with
      | nil => exact hmatched
      | cons e' pre =>
          obtain ⟨rfl, hrest⟩ := List.cons_prefix_cons.mp hpre
          have hsynced' : (s.step e').Live → Synced (s.step e') := fun hlive =>
            (hsynced (live_of_step hlive)).step ho.1 hlive
          refine ih ho.2 ?_ hsynced' hrest
          by_cases hlive : (s.step e').Live
          · exact (hsynced' hlive).matched
          · exact hmatched.step hlive

/-- **In every run whose steps are orderly, at every point of it**: a completion that was called with a
line got the reply to its own command, and every reply that has been read is with its completion. -/
theorem completions_matched {es pre : List Event} (h : Orderly .start es) (hpre : pre <+: es) :
    Matched (Link.start.run pre) :=
  matched_run h synced_start.matched (fun _ => synced_start) hpre

/-- A daemon with one folder, in which nothing has a status. -/
def quiet : SocketApiServer where
  resolver := ⟨fun _ => some [], [("/home".toList, 0)]⟩
  hydrates _ := true
  dehydrates _ := true

/-- The strings are read before anything is asked, and a broadcast comes between the question and its
answer. -/
def patient : List Event :=
  [.becomeReady true, .serve quiet, .receive 500, .sendCommand "VERSION".toList true,
    .notice (.updateView "/home/a".toList), .serve quiet, .receive 20, .receive 500]

/-- One command at a time, and each has its own reply. -/
theorem patient_matched : Orderly .start patient ∧ Matched (Link.start.run patient) ∧
    (0, some "VERSION:1.1".toList) ∈ (Link.start.run patient).client.completed :=
  ⟨by decide +kernel, @completions_matched patient patient (by decide +kernel) (List.prefix_rfl),
    by decide +kernel⟩

/-- The first question is asked before the strings are there. -/
def hasty : List Event :=
  [.becomeReady true, .sendCommand "VERSION".toList true, .serve quiet, .serve quiet, .receive 500]

/-- The status of a file is asked for. -/
def badge : List Event :=
  [.becomeReady true, .serve quiet, .receive 500,
    .sendCommand "RETRIEVE_FILE_STATUS:/home/a".toList true, .serve quiet, .receive 500]

/-- The strings go to the completion of the first question, and a `STATUS` reply goes to nobody. -/
theorem hasty_badge_not_matched :
    ¬ Matched (Link.start.run hasty) ∧ ¬ Matched (Link.start.run badge) := by
  constructor
  · intro h
    have hstrings : (0, some handleGetStrings.dropLast) ∈
        (Link.start.run hasty).client.completed := by decide +kernel
    have hno : (0, handleGetStrings.dropLast ++ ['\n']) ∉ (Link.start.run hasty).answers := by
      decide
    exact hno (h.own _ _ hstrings)
  · intro h
    have hreply : (0, "STATUS:OK:/home/a\n".toList) ∈ (Link.start.run badge).answers := by
      decide
    have hread : (Link.start.run badge).underway = [] := by decide +kernel
    have hnobody : (Link.start.run badge).client.completed = [] := by decide +kernel
    rcases h.delivered _ _ hreply with ⟨line, hline⟩ | ⟨line, -, hline⟩
    · rw [hread] at hline
      cases hline
    · rw [hnobody] at hline
      cases hline

end Finder

end OwncloudSync
