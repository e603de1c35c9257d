import OwncloudSync.Daemon.Scheduler
import OwncloudSync.Lib.Framing
import Mathlib.Tactic.Common

/-!
# The protocol between daemon and GUI

The messages of `gui_ipc/protocol.rs` and their framing.  A message is written as JSON behind its
length; the text is the one `serde_json` renders: compact, fields in the order of the source, enums
with their name in the field `type`.  Parsing is left to the crate, and what is used of it is that
it returns what has been rendered, and nothing for a text that breaks off.

**The two ends do not agree on the length.**  The writers take any length and cast it to `u32`; the
readers refuse more than 4 MiB.  `framing_exact` is what holds for messages within the limit, and
`received_iff` says that these are the only ones.
-/

namespace OwncloudSync

open Framing

namespace Protocol

/-! ## The texts of `serde_json` -/

/-- One character of a string. -/
def escapeChar (c : Char) : Str :=
  if c = '"' then ['\\', '"']
  else if c = '\\' then ['\\', '\\']
  else if c = '\x08' then ['\\', 'b']
  else if c = '\x0c' then ['\\', 'f']
  else if c = '\n' then ['\\', 'n']
  else if c = '\r' then ['\\', 'r']
  else if c = '\t' then ['\\', 't']
  else if c.toNat < 32 then
    ['\\', 'u', '0', '0', Nat.digitChar (c.toNat / 16), Nat.digitChar (c.toNat % 16)]
  else [c]

/-- A string. -/
def jsonStr (s : Str) : Str := '"' :: (s.flatMap escapeChar ++ ['"'])

/-- A number. -/
def jsonNum (n : ℕ) : Str := Nat.toDigits 10 n

/-- An array, from the texts of its items. -/
def jsonArr (items : List Str) : Str := '[' :: (List.intercalate [','] items ++ [']'])

/-- An object, from its fields and the texts of their values. -/
def jsonObj (fields : List (String × Str)) : Str :=
  '\x7b' :: (List.intercalate [','] (fields.map (fun f => jsonStr f.1.toList ++ ':' :: f.2)) ++
    ['\x7d'])

/-- A `Uuid`, in lower case and hyphenated. -/
def jsonUuid (id : Uuid) : Str :=
  let digits := Nat.toDigits 16 id.toNat
  let hex := List.replicate (32 - digits.length) '0' ++ digits
  jsonStr (hex.take 8 ++ '-' :: (hex.drop 8).take 4 ++ '-' :: (hex.drop 12).take 4 ++
    '-' :: (hex.drop 16).take 4 ++ '-' :: hex.drop 20)

/-- A variant of an enum with `tag = "type"`. -/
def jsonTagged (variant : String) (fields : List (String × Str)) : Str :=
  jsonObj (("type", jsonStr variant.toList) :: fields)

/-- `serde_json::to_vec`: the text as UTF-8. -/
def toVec (text : Str) : List UInt8 := text.flatMap String.utf8EncodeChar

/-! ## The messages -/

/-- `SpaceSelection`. -/
structure SpaceSelection where
  spaceId : Str
  displayName : Str
  deriving DecidableEq

/-- Its text. -/
def SpaceSelection.toJson (s : SpaceSelection) : Str :=
  jsonObj [("space_id", jsonStr s.spaceId), ("display_name", jsonStr s.displayName)]

/-- `DaemonCommand`, what a GUI asks for. -/
inductive DaemonCommand where
  | subscribe
  | triggerSync (folderId : Uuid)
  | pauseFolder (folderId : Uuid)
  | resumeFolder (folderId : Uuid)
  | addAccount (url : Str)
  | removeAccount (accountId : Uuid)
  | listSpaces (accountId : Uuid)
  | setAccountFolders (accountId : Uuid) (rootPath : Str) (spaces : List SpaceSelection)
  | addAccountSpace (accountId : Uuid) (spaceId localPath : Str)
  | dismissSpace (accountId : Uuid) (spaceId : Str)
  | quit
  deriving DecidableEq

/-- The text of a command. -/
def DaemonCommand.toJson : DaemonCommand → Str
  | subscribe => jsonTagged "Subscribe" []
  | triggerSync f => jsonTagged "TriggerSync" [("folder_id", jsonUuid f)]
  | pauseFolder f => jsonTagged "PauseFolder" [("folder_id", jsonUuid f)]
  | resumeFolder f => jsonTagged "ResumeFolder" [("folder_id", jsonUuid f)]
  | addAccount url => jsonTagged "AddAccount" [("url", jsonStr url)]
  | removeAccount a => jsonTagged "RemoveAccount" [("account_id", jsonUuid a)]
  | listSpaces a => jsonTagged "ListSpaces" [("account_id", jsonUuid a)]
  | setAccountFolders a root spaces =>
      jsonTagged "SetAccountFolders" [("account_id", jsonUuid a), ("root_path", jsonStr root),
        ("spaces", jsonArr (spaces.map SpaceSelection.toJson))]
  | addAccountSpace a space path =>
      jsonTagged "AddAccountSpace" [("account_id", jsonUuid a), ("space_id", jsonStr space),
        ("local_path", jsonStr path)]
  | dismissSpace a space =>
      jsonTagged "DismissSpace" [("account_id", jsonUuid a), ("space_id", jsonStr space)]
  | quit => jsonTagged "Quit" []

/-- One request of a sync. -/
structure HttpEvent where
  method : Str
  url : Str
  status : UInt16
  durationMs : UInt64
  bytes : UInt64
  deriving DecidableEq

/-- Its text. -/
def HttpEvent.toJson (e : HttpEvent) : Str :=
  jsonObj [("method", jsonStr e.method), ("url", jsonStr e.url), ("status", jsonNum e.status.toNat),
    ("duration_ms", jsonNum e.durationMs.toNat), ("bytes", jsonNum e.bytes.toNat)]

/-- `SyncReport`, with all its fields; `usize` is taken as 64 bits. -/
structure SyncReport where
  folderId : Uuid
  remoteEntries : UInt64
  localEntries : UInt64
  downloads : UInt64
  uploads : UInt64
  conflicts : UInt64
  deletesLocal : UInt64
  deletesRemote : UInt64
  ignored : UInt64
  errors : List Str
  httpEvents : List HttpEvent
  durationMs : UInt64
  deriving DecidableEq

/-- Its text. -/
def SyncReport.toJson (r : SyncReport) : Str :=
  jsonObj [("folder_id", jsonUuid r.folderId), ("remote_entries", jsonNum r.remoteEntries.toNat),
    ("local_entries", jsonNum r.localEntries.toNat), ("downloads", jsonNum r.downloads.toNat),
    ("uploads", jsonNum r.uploads.toNat), ("conflicts", jsonNum r.conflicts.toNat),
    ("deletes_local", jsonNum r.deletesLocal.toNat),
    ("deletes_remote", jsonNum r.deletesRemote.toNat), ("ignored", jsonNum r.ignored.toNat),
    ("errors", jsonArr (r.errors.map jsonStr)),
    ("http_events", jsonArr (r.httpEvents.map HttpEvent.toJson)),
    ("duration_ms", jsonNum r.durationMs.toNat)]

/-- `FolderSnapshot`. -/
structure FolderSnapshot where
  folderId : Uuid
  spaceId : Str
  displayName : Str
  localPath : Str
  status : Str
  deriving DecidableEq

/-- Its text. -/
def FolderSnapshot.toJson (f : FolderSnapshot) : Str :=
  jsonObj [("folder_id", jsonUuid f.folderId), ("space_id", jsonStr f.spaceId),
    ("display_name", jsonStr f.displayName), ("local_path", jsonStr f.localPath),
    ("status", jsonStr f.status)]

/-- `AccountSnapshot`. -/
structure AccountSnapshot where
  accountId : Uuid
  url : Str
  displayName : Str
  folders : List FolderSnapshot
  deriving DecidableEq

/-- Its text. -/
def AccountSnapshot.toJson (a : AccountSnapshot) : Str :=
  jsonObj [("account_id", jsonUuid a.accountId), ("url", jsonStr a.url),
    ("display_name", jsonStr a.displayName),
    ("folders", jsonArr (a.folders.map FolderSnapshot.toJson))]

/-- `SpaceInfo`. -/
structure SpaceInfo where
  id : Str
  name : Str
  driveType : Str
  deriving DecidableEq

/-- Its text. -/
def SpaceInfo.toJson (s : SpaceInfo) : Str :=
  jsonObj [("id", jsonStr s.id), ("name", jsonStr s.name), ("drive_type", jsonStr s.driveType)]

/-- `DaemonEvent`, what the daemon tells the GUIs. -/
inductive DaemonEvent where
  | ready
  | syncStarted (folderId : Uuid)
  | syncProgress (folderId : Uuid) (done total : UInt64)
  | syncFinished (folderId : Uuid) (errors : List Str) (report : Option SyncReport)
  | fileStatusChanged (path status : Str)
  | accountStateChanged (accountId : Uuid) (state : Str)
  | accountAddStarted (accountId : Uuid)
  | accountAddFailed (accountId : Uuid) (reason : Str)
  | accountAddCompleted (accountId : Uuid) (userId displayName url : Str)
  | accountFolderAdded (accountId folderId : Uuid) (spaceId localPath displayName : Str)
  | accountSpaceFailed (accountId : Uuid) (reason : Str)
  | spacesListed (accountId : Uuid) (spaces : List SpaceInfo)
  | spaceDiscovered (accountId : Uuid) (spaceId spaceName suggestedPath : Str)
  | spaceRemoved (accountId folderId : Uuid) (spaceName localPath : Str)
  | accountSnapshot (accounts : List AccountSnapshot)
  deriving DecidableEq

/-- The text of an event. -/
def DaemonEvent.toJson : DaemonEvent → Str
  | ready => jsonTagged "Ready" []
  | syncStarted f => jsonTagged "SyncStarted" [("folder_id", jsonUuid f)]
  | syncProgress f done total =>
      jsonTagged "SyncProgress" [("folder_id", jsonUuid f), ("done", jsonNum done.toNat),
        ("total", jsonNum total.toNat)]
  | syncFinished f errors report =>
      jsonTagged "SyncFinished" [("folder_id", jsonUuid f),
        ("errors", jsonArr (errors.map jsonStr)),
        ("report", (report.map SyncReport.toJson).getD "null".toList)]
  | fileStatusChanged path status =>
      jsonTagged "FileStatusChanged" [("path", jsonStr path), ("status", jsonStr status)]
  | accountStateChanged a state =>
      jsonTagged "AccountStateChanged" [("account_id", jsonUuid a), ("state", jsonStr state)]
  | accountAddStarted a => jsonTagged "AccountAddStarted" [("account_id", jsonUuid a)]
  | accountAddFailed a reason =>
      jsonTagged "AccountAddFailed" [("account_id", jsonUuid a), ("reason", jsonStr reason)]
  | accountAddCompleted a user name url =>
      jsonTagged "AccountAddCompleted" [("account_id", jsonUuid a), ("user_id", jsonStr user),
        ("display_name", jsonStr name), ("url", jsonStr url)]
  | accountFolderAdded a f space path name =>
      jsonTagged "AccountFolderAdded" [("account_id", jsonUuid a), ("folder_id", jsonUuid f),
        ("space_id", jsonStr space), ("local_path", jsonStr path), ("display_name", jsonStr name)]
  | accountSpaceFailed a reason =>
      jsonTagged "AccountSpaceFailed" [("account_id", jsonUuid a), ("reason", jsonStr reason)]
  | spacesListed a spaces =>
      jsonTagged "SpacesListed" [("account_id", jsonUuid a),
        ("spaces", jsonArr (spaces.map SpaceInfo.toJson))]
  | spaceDiscovered a space name path =>
      jsonTagged "SpaceDiscovered" [("account_id", jsonUuid a), ("space_id", jsonStr space),
        ("space_name", jsonStr name), ("suggested_path", jsonStr path)]
  | spaceRemoved a f name path =>
      jsonTagged "SpaceRemoved" [("account_id", jsonUuid a), ("folder_id", jsonUuid f),
        ("space_name", jsonStr name), ("local_path", jsonStr path)]
  | accountSnapshot accounts =>
      jsonTagged "AccountSnapshot" [("accounts", jsonArr (accounts.map AccountSnapshot.toJson))]

/-! ## Writers and readers -/

/-- The limit of the readers. -/
def maxLen : ℕ := 4 * 1024 * 1024

/-- `write_message`. -/
def writeMessage (event : DaemonEvent) : List UInt8 := frame (toVec event.toJson)

/-- `read_message`, over a parser. -/
def readMessage (fromSlice : List UInt8 → Option DaemonCommand) :
    List (List UInt8) → Except ReadError (DaemonCommand × List (List UInt8)) :=
  readFrame maxLen (fun len => "incoming message too large: " ++ toString len ++ " bytes") fromSlice

/-- `write_command`. -/
def writeCommand (cmd : DaemonCommand) : List UInt8 := frame (toVec cmd.toJson)

/-- `read_event`, over a parser. -/
def readEvent (fromSlice : List UInt8 → Option DaemonEvent) :
    List (List UInt8) → Except ReadError (DaemonEvent × List (List UInt8)) :=
  readFrame maxLen (fun len => "incoming event too large: " ++ toString len ++ " bytes") fromSlice

/-- Reading what was written of a list of messages, cut into any chunks, returns the list and then
the end of the stream; and if the stream breaks off anywhere, the messages that are complete. -/
structure ReadsExactly {α : Type} (write : α → List UInt8)
    (read : List (List UInt8) → Except ReadError (α × List (List UInt8))) (l : List α) : Prop where
  whole : ∀ chunks, chunks.flatten = l.flatMap write → Yields read chunks l .unexpectedEof
  truncated : ∀ chunks, chunks.flatten <+: l.flatMap write → ∃ l', l' <+: l ∧
    l'.flatMap write <+: chunks.flatten ∧ Yields read chunks l' .unexpectedEof

lemma maxLen_lt : maxLen < 2 ^ 32 := by decide

/-- **The framing is exact** for the messages within the limit, in both directions. -/
theorem framing_exact (fromSlice : List UInt8 → Option DaemonCommand)
    (fromSlice' : List UInt8 → Option DaemonEvent) (cmds : List DaemonCommand)
    (events : List DaemonEvent)
    (hcmds : ∀ c ∈ cmds, fromSlice (toVec c.toJson) = some c)
    (hevents : ∀ e ∈ events, fromSlice' (toVec e.toJson) = some e)
    (hlen : ∀ c ∈ cmds, (toVec c.toJson).length ≤ maxLen)
    (hlen' : ∀ e ∈ events, (toVec e.toJson).length ≤ maxLen) :
    ReadsExactly writeCommand (readMessage fromSlice) cmds ∧
      ReadsExactly writeMessage (readEvent fromSlice') events where
  left :=
    { whole := fun _ h => yields_frames maxLen_lt hlen hcmds h
      truncated := fun _ h => yields_of_prefix maxLen_lt hlen hcmds h }
  right :=
    { whole := fun _ h => yields_frames maxLen_lt hlen' hevents h
      truncated := fun _ h => yields_of_prefix maxLen_lt hlen' hevents h }

/-- A parser that knows two texts. -/
def quitOnly (text : List UInt8) : Option DaemonCommand :=
  if text = toVec DaemonCommand.subscribe.toJson then some .subscribe
  else if text = toVec DaemonCommand.quit.toJson then some .quit
  else none

/-- A parser that knows one text. -/
def parseOnly (event : DaemonEvent) (text : List UInt8) : Option DaemonEvent :=
  if text = toVec event.toJson then some event else none

/-- A client that subscribes and quits, and a daemon that is ready. -/
theorem subscribe_quit_read :
    ReadsExactly writeCommand (readMessage quitOnly) [.subscribe, .quit] ∧
      ReadsExactly writeMessage (readEvent (parseOnly .ready)) [.ready] :=
  framing_exact quitOnly (parseOnly .ready) _ _ (by decide) (by decide) (by decide) (by decide)

/-! ## What is too large -/

/-- What the GUI makes of an event, and of what follows it. -/
def Received (fromSlice : List UInt8 → Option DaemonEvent) (event : DaemonEvent) : Prop :=
  ∀ chunks rest, chunks.flatten = writeMessage event ++ rest → ∃ chunks',
    readEvent fromSlice chunks = .ok (event, chunks') ∧ chunks'.flatten = rest

/-- What is used of `serde_json::from_slice`: it returns what was rendered, and fails on a text
that breaks off. -/
structure Parses {α : Type} (fromSlice : List UInt8 → Option α) (text : List UInt8) (a : α) :
    Prop where
  roundTrip : fromSlice text = some a
  brokenOff : ∀ n < text.length, fromSlice (text.take n) = none

lemma parses_parseOnly (event : DaemonEvent) :
    Parses (parseOnly event) (toVec event.toJson) event where
  roundTrip := if_pos rfl
  brokenOff n hn := by
    refine if_neg (fun h => ?_)
    have hlen := congrArg List.length h
    rw [List.length_take] at hlen
    omega

/-- A text beyond the limit is refused, or, beyond `u32`, read as if it ended early. -/
lemma not_received_of_large {fromSlice : List UInt8 → Option DaemonEvent} {event : DaemonEvent}
    (h : Parses fromSlice (toVec event.toJson) event)
    (hlarge : maxLen < (toVec event.toJson).length) : ¬ Received fromSlice event := by
  intro hreceived
  obtain ⟨chunks', hread, -⟩ := hreceived [writeMessage event] [] (by simp)
  have hwhole : [writeMessage event].flatten = frame (toVec event.toJson) ++ [] := by
    simp [writeMessage]
  obtain ⟨chunks, hflat, hread'⟩ := readFrame_header maxLen
    (fun len => "incoming event too large: " ++ toString len ++ " bytes") fromSlice hwhole
  rw [readEvent, hread'] at hread
  split at hread
  · cases hread
  · rw [List.append_nil] at hflat
    have hshort : (toVec event.toJson).length % 2 ^ 32 < (toVec event.toJson).length := by omega
    have hthere : (toVec event.toJson).length % 2 ^ 32 ≤ chunks.flatten.length := by
      rw [hflat]
      omega
    obtain ⟨chunks'', hbody, -⟩ := readExact_of_le hthere
    rw [hbody, hflat] at hread
    dsimp only at hread
    rw [h.brokenOff _ hshort] at hread
    cases hread

/-- **An event is received exactly when its text is within the limit.** -/
theorem received_iff (fromSlice : List UInt8 → Option DaemonEvent) (event : DaemonEvent)
    (h : Parses fromSlice (toVec event.toJson) event) :
    Received fromSlice event ↔ (toVec event.toJson).length ≤ maxLen := by
  constructor
  · intro hreceived
    by_contra hlarge
    exact not_received_of_large h (Nat.lt_of_not_le hlarge) hreceived
  · intro hlen chunks rest hflat
    exact readFrame_frame _ maxLen_lt hlen h.roundTrip hflat

/-- The upload of one small photo. -/
def photoRequest : HttpEvent where
  method := "PUT".toList
  url := "https://ocis.example.com/dav/spaces/f4a1c2/Photos/IMG_0001.jpg".toList
  status := 201
  durationMs := 42
  bytes := 1048576

/-- The first sync of a folder with so many photos. -/
def photosSynced (n : ℕ) : DaemonEvent :=
  .syncFinished 21 [] (some {
    folderId := 21
    remoteEntries := 0
    localEntries := UInt64.ofNat (n + 1)
    downloads := 0
    uploads := UInt64.ofNat n
    conflicts := 0
    deletesLocal := 0
    deletesRemote := 0
    ignored := 0
    errors := []
    httpEvents := List.replicate n photoRequest
    durationMs := UInt64.ofNat (42 * n) })

/-- The report of a few photos is received. -/
theorem photos_received : Received (parseOnly (photosSynced 3)) (photosSynced 3) :=
  (received_iff _ _ (parses_parseOnly _)).mpr (by decide +kernel)

/-! ## A large folder -/

lemma length_le_toVec (text : Str) : text.length ≤ (toVec text).length := by
  induction text with
  | nil => simp
  | cons c text ih =>
      have hc := List.length_pos_iff.mpr (String.utf8EncodeChar_ne_nil (c := c))
      rw [toVec, List.flatMap_cons, List.length_append, List.length_cons]
      have hrest : (List.flatMap String.utf8EncodeChar text).length = (toVec text).length := rfl
      omega

lemma length_le_intercalate {item : Str} {items : List Str} (h : item ∈ items) :
    item.length ≤ (List.intercalate [','] items).length := by
  induction items with
  | nil => cases h
  | cons i items ih =>
      cases items with
      | nil =>
          rw [List.mem_singleton.mp h]
          simp
      | cons j items =>
          rw [List.intercalate_cons_cons, List.length_append, List.length_append]
          rcases List.mem_cons.mp h with rfl | h
          · omega
          · have := ih h
            omega

lemma length_replicate_le_intercalate (n : ℕ) (item : Str) :
    n * item.length ≤ (List.intercalate [','] (List.replicate n item)).length := by
  induction n with
  | zero => simp
  | succ n ih =>
      cases n with
      | zero => simp
      | succ n =>
          rw [List.replicate_succ, List.replicate_succ, List.intercalate_cons_cons,
            ← List.replicate_succ, List.length_append, List.length_append, Nat.add_mul]
          omega

/-- An object is longer than the value of any of its fields. -/
lemma length_le_jsonObj {fields : List (String × Str)} {f : String × Str} (h : f ∈ fields) :
    f.2.length ≤ (jsonObj fields).length := by
  have hfield := length_le_intercalate (List.mem_map_of_mem
    (f := fun f : String × Str => jsonStr f.1.toList ++ ':' :: f.2) h)
  simp only [List.length_append, List.length_cons] at hfield
  rw [jsonObj, List.length_cons, List.length_append]
  omega

/-- A report with so many requests of one kind. -/
lemma length_of_requests (n : ℕ) (request : HttpEvent) {event : DaemonEvent} {f : Uuid}
    {errors : List Str} {report : SyncReport} (hreport : report.httpEvents = List.replicate n request)
    (hevent : event = .syncFinished f errors (some report)) :
    n * request.toJson.length ≤ (toVec event.toJson).length := by
  have hrequests : n * request.toJson.length ≤
      (jsonArr (report.httpEvents.map HttpEvent.toJson)).length := by
    rw [hreport, List.map_replicate, jsonArr, List.length_cons, List.length_append]
    have := length_replicate_le_intercalate n request.toJson
    omega
  have hjson : (jsonArr (report.httpEvents.map HttpEvent.toJson)).length ≤ report.toJson.length :=
    length_le_jsonObj (f := ("http_events", jsonArr (report.httpEvents.map HttpEvent.toJson)))
      (by simp)
  have hwhole : report.toJson.length ≤ event.toJson.length := by
    subst hevent
    exact length_le_jsonObj (f := ("report", report.toJson)) (by simp)
  have htext := length_le_toVec event.toJson
  omega

/-- **The report of a large folder ends the connection.** -/
theorem photos_not_received :
    ¬ Received (parseOnly (photosSynced 40000)) (photosSynced 40000) := by
  have hone : photoRequest.toJson.length = 133 := by decide +kernel
  have hlen : 40000 * photoRequest.toJson.length ≤ (toVec (photosSynced 40000).toJson).length :=
    length_of_requests 40000 photoRequest rfl rfl
  rw [hone] at hlen
  refine not_received_of_large (parses_parseOnly _) ?_
  unfold maxLen
  omega

end Protocol

end OwncloudSync
