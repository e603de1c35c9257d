import OwncloudSync.Shell.Server
import Mathlib.Tactic.Common

/-!
# Requests of the second version

A V2 request is documented as **two lines**: `V2/GET_CLIENT_ICON`, and a JSON object with the `id` the
response is to carry.  `handle_connection` takes the connection line by line, `parse_command` gives a
V2 command an empty body, and the line with the object comes next, as a command of its own.  So

* the response is sent with the id `unknown`, which stands for a body that cannot be read;
* the object is refused as an unknown command (`parseCommand_brace`), whatever is in it: it is
  never taken for a V1 command.

`v2Answered_iff` says what is left of the documented exchange, over any sequence of requests on a
connection.

What `serde_json` reads as the `id` of a body is the parameter `idOf`.  All that is used of it is
that the empty text is no JSON.
-/

namespace OwncloudSync

namespace Shell

open Text Protocol

section

variable (idOf : Str → Option Str)

/-- The replies on a connection, when the `i`th line is served with the tables of `servers i`. -/
def serveLines (servers : ℕ → SocketApiServer) (sent : Str) : List Str :=
  (cutLines sent).1.zipIdx.filterMap
    (fun e => (({ servers e.2 with bodyId := idOf } : SocketApiServer).handleLine e.1).1)

/-! ## What is sent -/

/-- A V2 request in the documented form. -/
structure V2Request where
  id : Str
  body : Str
  brace : body.head? = some '\x7b'
  line : '\n' ∉ body
  read : idOf body = some id

/-- Any other line. -/
structure V1Command where
  text : Str
  version : "V2/".toList.isPrefixOf text = false
  line : '\n' ∉ text

/-- A message of a V1 or a V2 client. -/
inductive Message where
  | v1 (command : V1Command)
  | v2 (request : V2Request idOf)

variable {idOf}

/-- The lines that it is sent as. -/
def Message.lines : Message idOf → List Str
  | .v1 command => [command.text]
  | .v2 request => ["V2/GET_CLIENT_ICON".toList, request.body]

/-- What the client writes. -/
def sentText (ms : List (Message idOf)) : Str := unlines (ms.flatMap Message.lines)

/-- The V2 requests of a sequence, in order. -/
def requestsV2 (ms : List (Message idOf)) : List (V2Request idOf) :=
  ms.filterMap (fun
    | .v1 _ => none
    | .v2 request => some request)

/-- Is the reply a V2 response? -/
def isV2Response (reply : Str) : Bool := "V2/".toList.isPrefixOf reply

/-- **What is documented**: each request gets its response, with its id, and its body is no command. -/
structure V2Answered (servers : ℕ → SocketApiServer) (ms : List (Message idOf)) : Prop where
  responses : (serveLines idOf servers (sentText ms)).filter isV2Response =
    (requestsV2 ms).map (fun request => iconResponse request.id)
  bodies : ∀ request ∈ requestsV2 ms,
    ∃ e, parseCommand (request.body.rdropWhile (· = '\r')) = .error e

/-! ## What the server makes of the lines -/

variable {s : SocketApiServer} {line : Str}

/-- A line that begins with a brace is no command. -/
lemma parseCommand_brace (h : line.head? = some '\x7b') : ∃ e, parseCommand line = .error e := by
  obtain ⟨rest, rfl⟩ : ∃ rest, line = '\x7b' :: rest := List.head?_eq_some_iff.mp h
  have hword : ∀ word args : Str, ∃ e, commandOf ('\x7b' :: word) args = .error e := by
    intro word args
    exact ⟨.unknownCommand ('\x7b' :: word), by simp [commandOf]⟩
  have hv2 : stripPrefix "V2/".toList ('\x7b' :: rest) = none := if_neg (by decide)
  rw [parseCommand, if_neg (by simp), hv2]
  dsimp only
  cases hsplit : splitOnce ':' ('\x7b' :: rest) with
  | none => exact hword _ _
  | some r =>
      obtain ⟨cmd, args⟩ := r
      obtain ⟨hline, -⟩ := eq_of_splitOnce hsplit
      cases cmd with
      | nil => exact absurd (List.cons.inj hline).1 (by decide)
      | cons c cmd =>
          obtain rfl := (List.cons.inj hline).1
          exact hword _ _

/-- The end of a line may be cut, its beginning stays. -/
lemma head?_rdropWhile {p : Char → Bool} {b : Char} {text : Str} (h : text.head? = some b)
    (hb : p b = false) : (text.rdropWhile p).head? = some b := by
  obtain ⟨rest, rfl⟩ : ∃ rest, text = b :: rest := List.head?_eq_some_iff.mp h
  have htext := rdropWhile_append_cons (l := []) (r := rest) hb
  rw [List.nil_append, List.nil_append] at htext
  rw [htext]
  rfl

/-- The response to a line: it says `unknown`, for the body is always empty. -/
def responseV2 (line : Str) : Option Str :=
  if line.rdropWhile (· = '\r') = "V2/GET_CLIENT_ICON".toList then
    some (iconResponse "unknown".toList)
  else none

lemma commandOf_ne_v2 {cmd args name body : Str} : commandOf cmd args ≠ .ok (.v2 name body) := by
  intro h
  rcases commandOf_eq_ok h with h | h | ⟨-, h | h | h | h | h | h | h⟩
  all_goals cases h

/-- A V2 command never comes with a body. -/
lemma parseCommand_v2 {name body : Str} :
    parseCommand line = .ok (.v2 name body) ↔ line = "V2/".toList ++ name ∧ body = [] := by
  constructor
  · intro h
    rw [parseCommand] at h
    split at h
    · cases h
    · split at h
      · rename_i rest hrest
        cases h
        exact ⟨eq_append_of_stripPrefix hrest, rfl⟩
      · split at h <;> exact absurd h commandOf_ne_v2
  · rintro ⟨rfl, rfl⟩
    rw [parseCommand, if_neg (by simp), stripPrefix_append]

lemma not_isV2Response_dispatchLine {reply : Str} (h : (s.dispatchLine line).1 = some reply)
    (hv2 : ∀ name body, parseCommand line ≠ .ok (.v2 name body)) : isV2Response reply = false := by
  unfold SocketApiServer.dispatchLine at h
  cases hparse : parseCommand line with
  | error e =>
      rw [hparse] at h
      cases h
  | ok com =>
      rw [hparse] at h
      cases com with
      | v2 name body => exact absurd hparse (hv2 name body)
      | retrieveFileStatus path =>
          obtain rfl := Option.some.inj h
          rw [handleRetrieveFileStatus, formatResponse, if_neg (by simp)]
          rfl
      | retrieveFolderStatus path =>
          obtain rfl := Option.some.inj h
          rw [handleRetrieveFolderStatus, formatResponse, if_neg (by simp)]
          rfl
      | _ =>
          obtain rfl := Option.some.inj h
          rfl

/-- **What a line gets as a V2 response**, whatever the tables hold. -/
lemma filter_handleLine (hempty : s.bodyId [] = none) :
    (s.handleLine line).1.filter isV2Response = responseV2 line := by
  rw [SocketApiServer.handleLine, responseV2]
  generalize line.rdropWhile (· = '\r') = trimmed
  by_cases hv2 : ∃ name body, parseCommand trimmed = .ok (.v2 name body)
  · obtain ⟨name, body, hparse⟩ := hv2
    obtain ⟨rfl, rfl⟩ := parseCommand_v2.mp hparse
    have hword : "V2/GET_CLIENT_ICON".toList = "V2/".toList ++ "GET_CLIENT_ICON".toList := by decide
    have hname : "V2/".toList ++ name = "V2/GET_CLIENT_ICON".toList ↔
        name = "GET_CLIENT_ICON".toList := by
      rw [hword]
      exact List.append_right_inj _
    rw [if_neg (by simp), SocketApiServer.dispatchLine, hparse]
    dsimp only
    rw [handleV2GetClientIcon, hempty, Option.getD_none]
    by_cases hicon : name = "GET_CLIENT_ICON".toList
    · rw [if_pos hicon, if_pos (hname.mpr hicon)]
      rfl
    · rw [if_neg hicon, if_neg (fun h => hicon (hname.mp h))]
      rfl
  · have hno : trimmed ≠ "V2/GET_CLIENT_ICON".toList := by
      rintro rfl
      exact hv2 ⟨"GET_CLIENT_ICON".toList, [], by decide⟩
    rw [if_neg hno]
    split
    · rfl
    · rw [Option.filter_eq_none_iff]
      intro reply hreply
      rw [not_isV2Response_dispatchLine hreply (fun name body h => hv2 ⟨name, body, h⟩)]
      exact Bool.false_ne_true

/-! ## All lines of a connection -/

lemma lf_not_mem_lines (m : Message idOf) : ∀ l ∈ m.lines, '\n' ∉ l := by
  cases m with
  | v1 command => simpa [Message.lines] using command.line
  | v2 request =>
      intro l hl
      rcases List.mem_cons.mp hl with rfl | hl
      · decide
      · rw [List.mem_singleton.mp hl]
        exact request.line

/-- A line gets the response that goes with it, wherever it stands. -/
lemma filter_serveLines (hempty : idOf [] = none) (servers : ℕ → SocketApiServer)
    (ms : List (Message idOf)) : (serveLines idOf servers (sentText ms)).filter isV2Response =
      (ms.flatMap Message.lines).filterMap responseV2 := by
  have hlines : ∀ l ∈ ms.flatMap Message.lines, '\n' ∉ l := by
    intro l hl
    obtain ⟨m, -, hm⟩ := List.mem_flatMap.mp hl
    exact lf_not_mem_lines m l hm
  have hzip : ∀ ls : List Str, ls.zipIdx.filterMap (fun e => responseV2 e.1) =
      ls.filterMap responseV2 := by
    intro ls
    have hmap := List.filterMap_map (f := Prod.fst) (g := responseV2) (l := ls.zipIdx)
    rw [List.zipIdx_map_fst] at hmap
    exact hmap.symm
  rw [serveLines, sentText, cutLines_unlines hlines, List.filter_filterMap]
  have hreply : ∀ e : Str × ℕ,
      (({ servers e.2 with bodyId := idOf } : SocketApiServer).handleLine e.1).1.filter
        isV2Response = responseV2 e.1 := fun e => filter_handleLine hempty
  simp only [hreply, hzip]

lemma responseV2_v1 (command : V1Command) : responseV2 command.text = none := by
  refine if_neg (fun h => ?_)
  have htrimmed := List.rdropWhile_prefix (· = '\r') command.text
  rw [h] at htrimmed
  have hprefix : "V2/".toList <+: command.text := List.IsPrefix.trans (by decide) htrimmed
  have htrue := List.isPrefixOf_iff_prefix.mpr hprefix
  rw [command.version] at htrue
  exact Bool.false_ne_true htrue

lemma responseV2_body (request : V2Request idOf) : responseV2 request.body = none := by
  refine if_neg (fun h => ?_)
  have hhead := head?_rdropWhile (p := (· = '\r')) request.brace (by decide)
  rw [h] at hhead
  exact absurd hhead (by decide)

/-- A command gets none, and a request one. -/
lemma filterMap_lines (m : Message idOf) : m.lines.filterMap responseV2 =
    (requestsV2 [m]).map (fun _ => iconResponse "unknown".toList) := by
  cases m with
  | v1 command => exact List.filterMap_cons_none (responseV2_v1 command)
  | v2 request =>
      have hheader : responseV2 "V2/GET_CLIENT_ICON".toList = some (iconResponse "unknown".toList) :=
        if_pos (by decide)
      rw [Message.lines, List.filterMap_cons_some hheader,
        List.filterMap_cons_none (responseV2_body request)]
      rfl

lemma responses_eq (ms : List (Message idOf)) : (ms.flatMap Message.lines).filterMap responseV2 =
    (requestsV2 ms).map (fun _ => iconResponse "unknown".toList) := by
  induction ms with
  | nil => rfl
  | cons m ms ih =>
      have hcons : requestsV2 (m :: ms) = requestsV2 [m] ++ requestsV2 ms := by
        rw [requestsV2, ← List.singleton_append, List.filterMap_append]
        rfl
      rw [List.flatMap_cons, List.filterMap_append, ih, filterMap_lines, hcons, List.map_append]

/-- Where the id stands in a response. -/
lemma jsonObj_id (id result : Str) : jsonObj [("id", jsonStr id), ("result", result)] =
    "\x7b\"id\":\"".toList ++
      (id.flatMap escapeChar ++ ("\",\"result\":".toList ++ (result ++ ['\x7d']))) := by
  have hid : jsonStr "id".toList = "\"id\"".toList := by decide
  have hresult : jsonStr "result".toList = "\"result\"".toList := by decide
  rw [jsonObj, List.map_cons, List.map_cons, List.map_nil, hid, hresult, jsonStr]
  simp [List.intercalate]

lemma iconResponse_split :
    ∃ pre post : Str, ∀ id, iconResponse id = pre ++ (id.flatMap escapeChar ++ post) := by
  refine ⟨"V2/GET_CLIENT_ICON\n".toList ++ "\x7b\"id\":\"".toList, "\",\"result\":".toList ++
      (jsonObj [("icon", jsonStr placeholderIconBase64)] ++ ['\x7d']) ++ ['\n'], fun id => ?_⟩
  unfold iconResponse
  rw [jsonObj_id]
  simp only [List.append_assoc]

/-- A character stands for itself, or an escape with a backslash does. -/
lemma escapeChar_cases (c : Char) : escapeChar c = [c] ∨ '\\' ∈ escapeChar c := by
  unfold escapeChar
  split_ifs
  all_goals simp

/-- A text without a backslash is not escaped. -/
lemma flatMap_escapeChar {t : Str} (h : '\\' ∉ t.flatMap escapeChar) :
    t.flatMap escapeChar = t := by
  induction t with
  | nil => rfl
  | cons c t ih =>
      rw [List.flatMap_cons, List.mem_append, not_or] at h
      have hc := (escapeChar_cases c).resolve_right h.1
      rw [List.flatMap_cons, hc, ih h.2, List.singleton_append]

/-- The response tells whether the id is `unknown`. -/
lemma iconResponse_eq_unknown {id : Str} :
    iconResponse id = iconResponse "unknown".toList ↔ id = "unknown".toList := by
  refine ⟨fun h => ?_, fun h => by rw [h]⟩
  obtain ⟨pre, post, hsplit⟩ := iconResponse_split
  rw [hsplit, hsplit, List.append_right_inj, List.append_left_inj] at h
  have hplain : "unknown".toList.flatMap escapeChar = "unknown".toList := by decide
  rw [hplain] at h
  have hback : '\\' ∉ id.flatMap escapeChar := by
    rw [h]
    decide
  rw [← flatMap_escapeChar hback, h]

/-- Whatever the ids of the requests are, the responses have `unknown`. -/
lemma responses_unknown (hempty : idOf [] = none) (servers : ℕ → SocketApiServer)
    (ms : List (Message idOf)) : (serveLines idOf servers (sentText ms)).filter isV2Response =
      (requestsV2 ms).map (fun _ => iconResponse "unknown".toList) := by
  rw [filter_serveLines hempty, responses_eq]

/-- **The documented exchange takes place exactly when every request has the id `unknown`.** -/
theorem v2Answered_iff (hempty : idOf [] = none) (servers : ℕ → SocketApiServer)
    (ms : List (Message idOf)) :
    V2Answered servers ms ↔ ∀ request ∈ requestsV2 ms, request.id = "unknown".toList := by
  have hresponses := responses_unknown hempty servers ms
  constructor
  · intro h request hrequest
    have heq := hresponses.symm.trans h.responses
    exact iconResponse_eq_unknown.mp (List.map_inj_left.mp heq request hrequest).symm
  · intro h
    refine ⟨?_, fun request _ => ?_⟩
    · rw [hresponses]
      refine List.map_congr_left (fun request hrequest => ?_)
      rw [h request hrequest]
    · exact parseCommand_brace (head?_rdropWhile request.brace (by decide))

end

/-- The `id` of a body in the documented form, when it comes first and needs no escape. -/
def firstId (body : Str) : Option Str :=
  (stripPrefix "\x7b\"id\":\"".toList body).map (·.takeWhile (· ≠ '"'))

/-- A request with the given id and no arguments. -/
def seventh : V2Request firstId where
  id := "7".toList
  body := "\x7b\"id\":\"7\",\"arguments\":\x7b\x7d\x7d".toList
  brace := by decide
  line := by decide
  read := by decide

/-- A request whose id is "unknown". -/
def anonymous : V2Request firstId where
  id := "unknown".toList
  body := "\x7b\"id\":\"unknown\",\"arguments\":\x7b\x7d\x7d".toList
  brace := by decide
  line := by decide
  read := by decide

/-- `VERSION`. -/
def version : V1Command where
  text := "VERSION".toList
  version := by decide
  line := by decide

/-- A server without folders. -/
def bare : SocketApiServer where
  resolver := ⟨fun _ => none, []⟩
  hydrates _ := false
  dehydrates _ := false

/-- An id of "unknown" is answered with that word. -/
theorem anonymous_answered : V2Answered (fun _ => bare) [.v1 version, .v2 anonymous] :=
  (v2Answered_iff (by decide) _ _).mpr (fun request hrequest => by
    rw [show requestsV2 [.v1 version, .v2 anonymous] = [anonymous] from rfl] at hrequest
    rw [List.mem_singleton.mp hrequest]
    rfl)

/-- The request with the id `7` gets a response with another id. -/
theorem seventh_not_answered : ¬ V2Answered (fun _ => bare) [.v1 version, .v2 seventh] := by
  intro h
  have hresponses := responses_unknown (by decide) (fun _ => bare) [.v1 version, .v2 seventh]
  have heq := List.map_inj_left.mp (hresponses.symm.trans h.responses) seventh List.mem_cons_self
  exact absurd (iconResponse_eq_unknown.mp heq.symm) (by decide)

end Shell

end OwncloudSync
