import OwncloudSync.Engine.Types
import Mathlib.Tactic.Common

/-!
# Remote discovery

`discover_remote` and `parse_propfind` (`discovery/remote.rs`) and `join_remote_path`
(`lib.rs`): a PROPFIND for every collection, breadth first, and a state machine over the XML of
each answer.

The XML reader is not part of the engine; an answer is the list of events it yields, with the
local names of elements and the decoded text.  A URL is its path, and `enc` is the encoding of
one segment that the URL library applies.

**The order of two steps matters** in `relPath`: the prefix and the leading slashes of an `href`
are taken away first, and what is left is percent-decoded after that.
-/

namespace OwncloudSync

/-! ## Text -/

/-- `trim_end_matches('/')`. -/
def trimEndSlash (s : Str) : Str := (s.reverse.dropWhile (· == '/')).reverse

/-- `trim_start_matches('/')`. -/
def trimStartSlash (s : Str) : Str := s.dropWhile (· == '/')

/-- `str::strip_prefix`. -/
def stripPrefix : Str → Str → Option Str
  | [], s => some s
  | _ :: _, [] => none
  | p :: ps, c :: cs => if p = c then stripPrefix ps cs else none

lemma stripPrefix_append (p s : Str) : stripPrefix p (p ++ s) = some s := by
  induction p with
  | nil => cases s <;> rfl
  | cons c p ih => rw [List.cons_append, stripPrefix, if_pos rfl, ih]

lemma eq_append_of_stripPrefix {p s r : Str} (h : stripPrefix p s = some r) : s = p ++ r := by
  induction p generalizing s with
  | nil =>
      cases s <;> exact Option.some.inj h
  | cons c p ih =>
      cases s with
      | nil => cases h
      | cons b s =>
          rw [stripPrefix] at h
          split at h
          · rename_i hcb
            rw [ih h, hcb, List.cons_append]
          · cases h

/-- `str::parse::<u64>`: an optional plus sign and digits, within range. -/
def parseU64 (s : Str) : Option UInt64 :=
  let digits := match s with
    | '+' :: rest => rest
    | _ => s
  if digits ≠ [] ∧ digits.all Char.isDigit then
    let n := digits.foldl (fun acc c => 10 * acc + (c.toNat - '0'.toNat)) 0
    if n < 2 ^ 64 then some (UInt64.ofNat n) else none
  else none

/-- The value of a hexadecimal digit. -/
def hexValue (b : UInt8) : Option UInt8 :=
  if 0x30 ≤ b ∧ b ≤ 0x39 then some (b - 0x30)
  else if 0x41 ≤ b ∧ b ≤ 0x46 then some (b - 0x41 + 10)
  else if 0x61 ≤ b ∧ b ≤ 0x66 then some (b - 0x61 + 10)
  else none

/-- `percent_decode`: `%` and two hex digits are a byte, any other `%` stands for itself. -/
def percentDecode : List UInt8 → List UInt8
  | [] => []
  | b :: rest =>
      if b = 0x25 then
        match rest with
        | h :: l :: rest' =>
            match hexValue h, hexValue l with
            | some x, some y => (16 * x + y) :: percentDecode rest'
            | _, _ => b :: percentDecode (h :: l :: rest')
        | [h] => b :: percentDecode [h]
        | [] => [b]
      else b :: percentDecode rest

/-- The bytes that may follow the first byte of a character of two to four bytes. -/
def secondByte (b₀ b₁ : UInt8) : Bool :=
  if b₀ = 0xE0 then 0xA0 ≤ b₁ ∧ b₁ ≤ 0xBF
  else if b₀ = 0xED then 0x80 ≤ b₁ ∧ b₁ ≤ 0x9F
  else if b₀ = 0xF0 then 0x90 ≤ b₁ ∧ b₁ ≤ 0xBF
  else if b₀ = 0xF4 then 0x80 ≤ b₁ ∧ b₁ ≤ 0x8F
  else 0x80 ≤ b₁ ∧ b₁ ≤ 0xBF

/-- A byte that continues a character of UTF-8. -/
def tailByte (b : UInt8) : Bool := 0x80 ≤ b ∧ b ≤ 0xBF

/-- `from_utf8_lossy`: each maximal part that is no character becomes one replacement
character. -/
def decodeUtf8Lossy : List UInt8 → Str
  | [] => []
  | b₀ :: rest =>
      if b₀ < 0x80 then Char.ofNat b₀.toNat :: decodeUtf8Lossy rest
      else if b₀ < 0xC2 ∨ 0xF4 < b₀ then '\uFFFD' :: decodeUtf8Lossy rest
      else
        match rest with
        | [] => ['\uFFFD']
        | b₁ :: rest₁ =>
            if secondByte b₀ b₁ = false then '\uFFFD' :: decodeUtf8Lossy (b₁ :: rest₁)
            else if b₀ < 0xE0 then
              Char.ofNat (b₀.toNat % 32 * 64 + b₁.toNat % 64) :: decodeUtf8Lossy rest₁
            else
              match rest₁ with
              | [] => ['\uFFFD']
              | b₂ :: rest₂ =>
                  if tailByte b₂ = false then '\uFFFD' :: decodeUtf8Lossy (b₂ :: rest₂)
                  else if b₀ < 0xF0 then
                    Char.ofNat (b₀.toNat % 16 * 4096 + b₁.toNat % 64 * 64 + b₂.toNat % 64) ::
                      decodeUtf8Lossy rest₂
                  else
                    match rest₂ with
                    | [] => ['\uFFFD']
                    | b₃ :: rest₃ =>
                        if tailByte b₃ = false then '\uFFFD' :: decodeUtf8Lossy (b₃ :: rest₃)
                        else
                          Char.ofNat (b₀.toNat % 8 * 262144 + b₁.toNat % 64 * 4096 +
                            b₂.toNat % 64 * 64 + b₃.toNat % 64) :: decodeUtf8Lossy rest₃

/-- `decode_href_path`. -/
def decodeHrefPath (s : Str) : Str :=
  decodeUtf8Lossy (percentDecode (s.flatMap String.utf8EncodeChar))

/-! ## URLs -/

/-- The parts between slashes that are not empty. -/
def segments (s : Str) : List Str := (s.splitOn '/').filter (· ≠ [])

/-- `Url::path`: the segments, each with a slash before it. -/
def pathText (segs : List Str) : Str := segs.flatMap (fun s => '/' :: s)

/-- `Url::path_segments`. -/
def pathSegments (path : Str) : List Str := (path.splitOn '/').tail

/-- `PathSegmentsMut::pop_if_empty`. -/
def popIfEmpty (segs : List Str) : List Str :=
  if 2 ≤ segs.length ∧ segs.getLast? = some [] then segs.dropLast else segs

/-- The characters the crate takes out of whatever it parses. -/
def isTabOrNewline (c : Char) : Bool := c = '\t' || c = '\n' || c = '\r'

/-- A segment without them. -/
def cleaned (s : Str) : Str := s.filter (fun c => !isTabOrNewline c)

/-- A segment comes behind the last one, or in its place if the path was nothing but a slash. -/
def appendSegment (segs : List Str) (text : Str) : List Str :=
  if segs = [[]] then [text] else segs ++ [text]

/-- `PathSegmentsMut::push`. -/
def pushSegment (enc : Str → Str) (segs : List Str) (s : Str) : List Str :=
  if s = ['.'] ∨ s = ['.', '.'] then segs
  else if cleaned s = ['.'] then appendSegment segs []
  else if cleaned s = ['.', '.'] then segs.dropLast ++ [[]]
  else appendSegment segs (enc (cleaned s))

/-- The segments that `join_remote_path` makes of those of the space. -/
def joinSegments (enc : Str → Str) (segs : List Str) (rel : Str) : List Str :=
  let pushed := (segments rel).foldl (pushSegment enc) (popIfEmpty segs)
  if rel.getLast? = some '/' then pushSegment enc pushed [] else pushed

/-- `join_remote_path`, on the path of the URL. -/
def joinRemotePath (enc : Str → Str) (spaceRoot rel : Str) : Str :=
  pathText (joinSegments enc (pathSegments spaceRoot) rel)

/-! ## One answer -/

/-- What the XML reader yields. -/
inductive XmlEvent where
  | start (name : Str)
  | empty (name : Str)
  | text (text : Str)
  | close (name : Str)
  | other
  | malformed (message : String)

/-- The local variables of `parse_propfind`. -/
structure ParseState where
  files : List RemoteEntry := []
  dirs : List Str := []
  href : Str := []
  etag : Str := []
  fileId : Str := []
  size : UInt64 := 0
  isCollection : Bool := false
  inHref : Bool := false
  inEtag : Bool := false
  inLength : Bool := false
  inFileid : Bool := false
  inResponse : Bool := false

/-- The opening tag of an element. -/
def ParseState.opened (st : ParseState) (name : Str) : ParseState :=
  if name = "response".toList then
    { st with inResponse := true, href := [], etag := [], fileId := [], size := 0,
              isCollection := false }
  else if name = "href".toList ∧ st.inResponse then { st with inHref := true }
  else if name = "getetag".toList then { st with inEtag := true }
  else if name = "getcontentlength".toList then { st with inLength := true }
  else if name = "fileid".toList then { st with inFileid := true }
  else if name = "collection".toList then { st with isCollection := true }
  else st

/-- The text of an element goes to the field that was opened last, and closes all of them. -/
def ParseState.textRead (st : ParseState) (text : Str) : ParseState :=
  { st with
    href := if st.inHref then text else st.href
    etag := if st.inEtag then trimQuotes text else st.etag
    size := if st.inLength then (parseU64 text).getD 0 else st.size
    fileId := if st.inFileid then text else st.fileId
    inHref := false
    inEtag := false
    inLength := false
    inFileid := false }

/-- The path of an `href` below the space, unless the entry is the space or the collection that
was asked for. -/
def relPath (spaceRoot currentUrl href : Str) : Option Str :=
  let rootPath := trimEndSlash spaceRoot
  let rel := decodeHrefPath (trimStartSlash ((stripPrefix rootPath href).getD href))
  if rel = [] ∨ trimEndSlash href = rootPath ∨ trimEndSlash href = trimEndSlash currentUrl then
    none
  else some rel

/-- The end of a `response`: one entry, and for a collection one more URL to ask for. -/
def ParseState.closed (enc : Str → Str) (spaceRoot currentUrl : Str) (st : ParseState)
    (name : Str) : ParseState :=
  if name = "response".toList ∧ st.inResponse then
    if st.href = [] then { st with inResponse := false }
    else
      match relPath spaceRoot currentUrl st.href with
      | none => { st with inResponse := false }
      | some rel =>
          if st.isCollection then
            let subUrl := joinRemotePath enc spaceRoot (trimEndSlash rel)
            { st with
              inResponse := false
              dirs := st.dirs ++
                [if subUrl.getLast? = some '/' then subUrl else subUrl ++ ['/']]
              files := st.files ++ [{ path := trimEndSlash rel, etag := st.etag, size := 0,
                                      fileId := st.fileId, isDir := true }] }
          else
            { st with
              inResponse := false
              files := st.files ++ [{ path := rel, etag := st.etag, size := st.size,
                                      fileId := st.fileId, isDir := false }] }
  else st

/-- The events of an answer, up to the first that is no XML. -/
def parseEvents (enc : Str → Str) (spaceRoot currentUrl : Str) :
    List XmlEvent → ParseState → Except SyncError ParseState
  | [], st => .ok st
  | .start name :: es, st => parseEvents enc spaceRoot currentUrl es (st.opened name)
  | .empty name :: es, st =>
      parseEvents enc spaceRoot currentUrl es
        (if name = "collection".toList then { st with isCollection := true } else st)
  | .text text :: es, st => parseEvents enc spaceRoot currentUrl es (st.textRead text)
  | .close name :: es, st =>
      parseEvents enc spaceRoot currentUrl es (st.closed enc spaceRoot currentUrl name)
  | .other :: es, st => parseEvents enc spaceRoot currentUrl es st
  | .malformed message :: _, _ => .error (.parse message)

/-- `parse_propfind`. -/
def parsePropfind (enc : Str → Str) (spaceRoot currentUrl : Str) (es : List XmlEvent) :
    Except SyncError (List RemoteEntry × List Str) :=
  match parseEvents enc spaceRoot currentUrl es {} with
  | .ok st => .ok (st.files, st.dirs)
  | .error e => .error e

/-! ## All answers -/

/-- A response that the HTTP client does not return: it goes on to the URL in the `Location`, named by
its path. -/
structure Hop where
  status : ℕ
  location : Str

/-- What becomes of a request.  The client of `build_http_client` follows redirects (301, 302, 303, 307
and 308), and the caller sees only what it meets in the end. -/
structure Followed (α : Type) where
  hops : List Hop
  last : α

/-- How a PROPFIND comes back. -/
inductive Reply where
  | answer (status : ℕ) (events : List XmlEvent)
  | lost (message : String)

/-- The entries that were not seen before, by the text of their path. -/
def pushNew : List RemoteEntry → List Str → List RemoteEntry → List Str × List RemoteEntry
  | [], seen, result => (seen, result)
  | e :: es, seen, result =>
      if e.path ∈ seen then pushNew es seen result
      else pushNew es (e.path :: seen) (result ++ [e])

/-- The collections that were not asked for before. -/
def enqueueNew : List Str → List Str → List Str → List Str × List Str
  | [], visited, queue => (visited, queue)
  | u :: us, visited, queue =>
      if trimEndSlash u ∈ visited then enqueueNew us visited queue
      else enqueueNew us (trimEndSlash u :: visited) (queue ++ [u])

/-- The loop of `discover_remote`: the server answers the requests one by one, and a server that
answers no more leaves the run with an error. -/
def discoverLoop (enc : Str → Str) (spaceRoot : Str) :
    List Reply → List Str → List Str → List Str → List RemoteEntry →
      Except SyncError (List RemoteEntry)
  | _, [], _, _, result => .ok result
  | [], _ :: _, _, _, _ => .error (.http 0 "connection closed")
  | .lost message :: _, _ :: _, _, _, _ => .error (.http 0 message)
  | .answer status events :: replies, url :: queue, visited, seen, result =>
      if status ≠ 207 then .error (.http status "PROPFIND failed")
      else
        match parsePropfind enc spaceRoot url events with
        | .error e => .error e
        | .ok (files, dirs) =>
            let (seen', result') := pushNew files seen result
            let (visited', queue') := enqueueNew dirs visited queue
            discoverLoop enc spaceRoot replies queue' visited' seen' result'

/-- `discover_remote`. -/
def discoverRemote (enc : Str → Str) (spaceRoot : Str) (replies : List Reply) :
    Except SyncError (List RemoteEntry) :=
  discoverLoop enc spaceRoot replies [spaceRoot] [trimEndSlash spaceRoot] [] []

end OwncloudSync
