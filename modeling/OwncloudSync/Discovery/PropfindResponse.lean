import OwncloudSync.Discovery.Propfind
import OwncloudSync.Lib.Text
import Mathlib.Tactic.Common

/-!
# `parse_propfind_response`

The parser of the client library (`webdav/propfind.rs`).  Unlike that of the engine it knows namespaces,
and **an end tag of any element ends what is collected**.  The status of a propstat is looked at when its
`status` ends, which in the order of the protocol is when its properties have been stored.

An end tag is compared by its local name only.  The reader takes the blanks off a text; as the parser
trims it again, a text stands here as it is in the document.  What a date is, is a parameter.
-/

namespace OwncloudSync

namespace PropfindResponse

/-! ## The parser -/

/-- `DAV:`, the namespace of ownCloud, or any other. -/
inductive Namespace where
  | dav
  | oc
  | other
  deriving DecidableEq

/-- An event of `NsReader`, as the loop of `parse_propfind_response` tells them apart. -/
inductive NsEvent where
  | start (ns : Namespace) (name : Str)
  | empty (ns : Namespace) (name : Str)
  | close (name : Str)
  | text (raw : Str)
  /-- a CDATA section or a reference, and what it stands for -/
  | data (text : Str)
  | other
  | malformed (message : String)

/-- `ResourceType`. -/
inductive ResourceType where
  | file
  | directory
  deriving DecidableEq

/-- `DavEntry`; δ stands for the dates. -/
structure DavEntry (δ : Type) where
  href : Str
  etag : Option Str
  lastModified : Option δ
  contentLength : Option UInt64
  resourceType : ResourceType
  fileId : Option Str

/-- `Collecting`: the property whose text comes next. -/
inductive Collecting where
  | none
  | href
  | etag
  | lastModified
  | contentLength
  | fileId
  | status
  deriving DecidableEq

/-- The entry of the response that is open, with the property it collects. -/
structure CurrentEntry (δ : Type) where
  href : Option Str := none
  etag : Option Str := none
  lastModified : Option δ := none
  contentLength : Option UInt64 := none
  resourceType : ResourceType := .file
  fileId : Option Str := none
  collecting : Collecting := .none
  propstatStatus : Str := []

/-- The error of a document that is not well-formed. -/
inductive OcisError where
  | parse (message : String)

/-- The local variables of `parse_propfind_response`. -/
structure ReadState (δ : Type) where
  entries : List (DavEntry δ) := []
  current : Option (CurrentEntry δ) := none
  inResponse : Bool := false
  propstatOk : Bool := true

/-- `char::is_whitespace`. -/
def isWhitespace (c : Char) : Bool :=
  let n := c.toNat
  0x09 ≤ n && n ≤ 0x0D || 0x2000 ≤ n && n ≤ 0x200A ||
    n ∈ [0x20, 0x85, 0xA0, 0x1680, 0x2028, 0x2029, 0x202F, 0x205F, 0x3000]

/-- `str::trim`. -/
def trim (s : Str) : Str := (s.dropWhile isWhitespace).rdropWhile isWhitespace

/-- `str::parse::<u16>`. -/
def parseU16 (s : Str) : Option ℕ := ((parseU64 s).map UInt64.toNat).filter (· < 2 ^ 16)

/-- The status line has a code from 200 to 299. -/
def isSuccess (line : Str) : Bool :=
  (((Text.words isWhitespace line)[1]?.bind parseU16).map (fun code => 200 ≤ code && code < 300)).getD
    false

/-- What is collected after a start tag. -/
def collectingOf (ns : Namespace) (name : Str) : Option Collecting :=
  if ns = .dav ∧ name = "href".toList then some .href
  else if ns = .dav ∧ name = "getetag".toList then some .etag
  else if ns = .dav ∧ name = "getlastmodified".toList then some .lastModified
  else if ns = .dav ∧ name = "getcontentlength".toList then some .contentLength
  else if ns = .oc ∧ name = "fileid".toList then some .fileId
  else if ns = .dav ∧ name = "status".toList then some .status
  else none

variable {δ : Type}

/-- `Event::Start`. -/
def ReadState.opened (st : ReadState δ) (ns : Namespace) (name : Str) : ReadState δ :=
  if ns = .dav ∧ name = "response".toList then
    { st with inResponse := true, current := some {}, propstatOk := true }
  else if st.inResponse = false then st
  else
    match st.current with
    | none => st
    | some c =>
        match collectingOf ns name with
        | some .status => { st with current := some { c with collecting := .status, propstatStatus := [] } }
        | some k => { st with current := some { c with collecting := k } }
        | none =>
            if ns = .dav ∧ name = "collection".toList then
              { st with current := some { c with resourceType := .directory } }
            else if ns = .dav ∧ name = "propstat".toList then { st with propstatOk := true }
            else st

/-- `Event::Empty`. -/
def ReadState.selfClosed (st : ReadState δ) (ns : Namespace) (name : Str) : ReadState δ :=
  if st.inResponse = true ∧ ns = .dav ∧ name = "collection".toList then
    { st with current := st.current.map (fun c => { c with resourceType := .directory }) }
  else st

/-- The entry of a response with an `href`. -/
def CurrentEntry.entry (c : CurrentEntry δ) : Option (DavEntry δ) :=
  c.href.map fun href =>
    { href := href, etag := c.etag, lastModified := c.lastModified, contentLength := c.contentLength,
      resourceType := c.resourceType, fileId := c.fileId }

/-- `Event::End`. -/
def ReadState.closed (st : ReadState δ) (name : Str) : ReadState δ :=
  if name = "response".toList then
    { st with
      entries := st.entries ++ (st.current.bind CurrentEntry.entry).toList
      current := none
      inResponse := false }
  else if st.inResponse = false then st
  else
    { st with
      propstatOk :=
        match st.current with
        | some c => if name = "status".toList then isSuccess c.propstatStatus else st.propstatOk
        | none => st.propstatOk
      current := st.current.map (fun c => { c with collecting := .none }) }

/-- A text, by what is collected. -/
def CurrentEntry.textRead (parseDate : Str → Option δ) (ok : Bool) (c : CurrentEntry δ) (text : Str) :
    CurrentEntry δ :=
  match c.collecting with
  | .href => { c with href := some text }
  | .etag => if ok then { c with etag := some (trimQuotes text) } else c
  | .lastModified =>
      if ok then { c with lastModified := (parseDate text).or c.lastModified } else c
  | .contentLength =>
      if ok then { c with contentLength := (parseU64 text).or c.contentLength } else c
  | .fileId => if ok then { c with fileId := some text } else c
  | .status => { c with propstatStatus := text }
  | .none => c

/-- `Event::Text`, trimmed and not empty. -/
def ReadState.textRead (parseDate : Str → Option δ) (st : ReadState δ) (raw : Str) : ReadState δ :=
  if st.inResponse = false ∨ trim raw = [] then st
  else { st with current := st.current.map (fun c => c.textRead parseDate st.propstatOk (trim raw)) }

/-- One turn of the loop. -/
def ReadState.step (parseDate : Str → Option δ) (st : ReadState δ) : NsEvent → ReadState δ
  | .start ns name => st.opened ns name
  | .empty ns name => st.selfClosed ns name
  | .close name => st.closed name
  | .text raw => st.textRead parseDate raw
  | .data _ | .other | .malformed _ => st

/-- The loop: it ends with the document, or with an error where the document is not well-formed. -/
def readEvents (parseDate : Str → Option δ) :
    List NsEvent → ReadState δ → Except OcisError (List (DavEntry δ))
  | [], st => .ok st.entries
  | .malformed message :: _, _ => .error (.parse ("XML parse error: " ++ message))
  | event :: events, st => readEvents parseDate events (st.step parseDate event)

/-- `parse_propfind_response`. -/
def parsePropfindResponse (parseDate : Str → Option δ) (events : List NsEvent) :
    Except OcisError (List (DavEntry δ)) :=
  readEvents parseDate events {}

/-! ## Properties -/

/-- The properties that the reader takes from a propstat. -/
inductive Property where
  | etag
  | lastModified
  | contentLength
  | fileId
  deriving DecidableEq

/-- The namespace of a property. -/
def Property.ns : Property → Namespace
  | fileId => .oc
  | _ => .dav

/-- Its local name. -/
def Property.name : Property → Str
  | etag => "getetag".toList
  | lastModified => "getlastmodified".toList
  | contentLength => "getcontentlength".toList
  | fileId => "fileid".toList

/-- What is collected for it. -/
def Property.collecting : Property → Collecting
  | etag => .etag
  | lastModified => .lastModified
  | contentLength => .contentLength
  | fileId => .fileId

/-- The value of a property. -/
inductive Value (δ : Type) where
  | text (text : Str)
  | date (date : δ)
  | number (n : UInt64)

/-- The value that a text is for a property, if it is one. -/
def Property.read (parseDate : Str → Option δ) : Property → Str → Option (Value δ)
  | etag, text => some (.text (trimQuotes text))
  | lastModified, text => (parseDate text).map .date
  | contentLength, text => (parseU64 text).map .number
  | fileId, text => some (.text text)

/-- What the open entry holds of a property. -/
def CurrentEntry.value (c : CurrentEntry δ) : Property → Option (Value δ)
  | .etag => c.etag.map .text
  | .lastModified => c.lastModified.map .date
  | .contentLength => c.contentLength.map .number
  | .fileId => c.fileId.map .text

/-- What a finished entry holds of it. -/
def DavEntry.value (e : DavEntry δ) : Property → Option (Value δ)
  | .etag => e.etag.map .text
  | .lastModified => e.lastModified.map .date
  | .contentLength => e.contentLength.map .number
  | .fileId => e.fileId.map .text

/-! ## Looking back

The events before a place, the last one first. -/

/-- It opens an element of the name in `DAV:`. -/
def NsEvent.opens (name : Str) : NsEvent → Bool
  | .start ns n => ns = .dav && n = name
  | _ => false

/-- It closes one of the name, in any namespace. -/
def NsEvent.closes (name : Str) : NsEvent → Bool
  | .close n => n = name
  | _ => false

/-- It says that the resource is a collection. -/
def NsEvent.isCollection : NsEvent → Bool
  | .start ns n | .empty ns n => ns = .dav && n = "collection".toList
  | _ => false

/-- The last response that was opened is not closed; the latest event stands first. -/
def withinResponse : List NsEvent → Bool
  | [] => false
  | t :: earlier => t.opens "response".toList || !t.closes "response".toList && withinResponse earlier

/-- What the last tag asks for: a start tag of no interest is passed over. -/
def collecting : List NsEvent → Collecting
  | [] => .none
  | .start ns name :: earlier =>
      if ns = .dav ∧ name = "response".toList then .none
      else (collectingOf ns name).getD (collecting earlier)
  | .close _ :: _ => .none
  | _ :: earlier => collecting earlier

/-- The text of the last `status` of the response. -/
def statusLine : List NsEvent → Str
  | [] => []
  | .start ns name :: earlier =>
      if ns = .dav ∧ (name = "response".toList ∨ name = "status".toList) then []
      else statusLine earlier
  | .text raw :: earlier =>
      if collecting earlier = .status ∧ trim raw ≠ [] then trim raw else statusLine earlier
  | _ :: earlier => statusLine earlier

/-- No `status` has ended since the last propstat began, or the last one was of success. -/
def statusOk : List NsEvent → Bool
  | [] => true
  | .start ns name :: earlier =>
      if ns = .dav ∧ (name = "response".toList ∨ name = "propstat".toList) then true
      else statusOk earlier
  | .close name :: earlier =>
      if name = "status".toList then isSuccess (statusLine earlier) else statusOk earlier
  | _ :: earlier => statusOk earlier

/-- The value of a text, if it is heard: it directly follows a start tag of the property. -/
def heard (parseDate : Str → Option δ) (f : Property) (back : List NsEvent) (raw : Str) :
    Option (Value δ) :=
  if trim raw ≠ [] ∧ collecting back = f.collecting ∧ statusOk back = true then
    f.read parseDate (trim raw)
  else none

/-- The last value of the response that is heard. -/
def held (parseDate : Str → Option δ) (f : Property) : List NsEvent → Option (Value δ)
  | [] => none
  | .start ns name :: earlier =>
      if ns = .dav ∧ name = "response".toList then none else held parseDate f earlier
  | .text raw :: earlier => (heard parseDate f earlier raw).or (held parseDate f earlier)
  | _ :: earlier => held parseDate f earlier

/-- The href that the reader holds after the events, the latest first. -/
def heldHref : List NsEvent → Option Str
  | [] => none
  | .start ns name :: earlier =>
      if ns = .dav ∧ name = "response".toList then none else heldHref earlier
  | .text raw :: earlier =>
      if trim raw ≠ [] ∧ collecting earlier = .href then some (trim raw) else heldHref earlier
  | _ :: earlier => heldHref earlier

/-- The open response has said that it is a collection. -/
def hasCollection : List NsEvent → Bool
  | [] => false
  | t :: earlier => !t.opens "response".toList && (t.isCollection || hasCollection earlier)

variable {parseDate : Str → Option δ} {st : ReadState δ} {c : CurrentEntry δ} {e : DavEntry δ}
  {ts pre p q back : List NsEvent} {s t : NsEvent} {f : Property} {ns : Namespace} {name raw : Str}

/-- The current entry is what can be seen by looking back. -/
structure Shows (parseDate : Str → Option δ) (back : List NsEvent) (st : ReadState δ)
    (c : CurrentEntry δ) : Prop where
  ok : st.propstatOk = statusOk back
  collecting : c.collecting = collecting back
  status : c.propstatStatus = statusLine back
  href : c.href = heldHref back
  value : ∀ f, c.value f = held parseDate f back
  directory : c.resourceType = .directory ↔ hasCollection back = true

/-- There is one exactly within a response. -/
structure Tracks (parseDate : Str → Option δ) (back : List NsEvent) (st : ReadState δ) : Prop where
  inResponse : st.inResponse = withinResponse back
  inside : withinResponse back = true → ∃ c, st.current = some c ∧ Shows parseDate back st c
  outside : withinResponse back = false → st.current = none

lemma collectingOf_status : collectingOf ns name = some .status ↔
    ns = .dav ∧ name = "status".toList := by
  constructor
  · intro h
    rw [collectingOf] at h
    split at h
    · cases h
    split at h
    · cases h
    split at h
    · cases h
    split at h
    · cases h
    split at h
    · cases h
    split at h
    · assumption
    · cases h
  · rintro ⟨rfl, rfl⟩
    decide

/-- The names that nothing is collected for. -/
lemma collectingOf_eq_none (h : name = "collection".toList ∨ name = "propstat".toList) :
    collectingOf ns name = none := by
  rcases h with rfl | rfl <;> cases ns <;> decide

/-- What a start tag adds to what can be seen. -/
lemma lookBack_start (parseDate : Str → Option δ) (back : List NsEvent)
    (hname : ¬ (ns = .dav ∧ name = "response".toList)) :
    let back' := NsEvent.start ns name :: back
    withinResponse back' = withinResponse back ∧
      collecting back' = (collectingOf ns name).getD (collecting back) ∧
      statusLine back' = (if ns = .dav ∧ name = "status".toList then [] else statusLine back) ∧
      statusOk back' = (if ns = .dav ∧ name = "propstat".toList then true else statusOk back) ∧
      (∀ f, held parseDate f back' = held parseDate f back) ∧ heldHref back' = heldHref back ∧
      hasCollection back' = (decide (ns = .dav ∧ name = "collection".toList) || hasCollection back) := by
  intro back'
  have hopens : (NsEvent.start ns name).opens "response".toList = false := by
    rw [NsEvent.opens, ← Bool.decide_and]
    exact decide_eq_false hname
  have hor : ∀ word, (ns = .dav ∧ (name = "response".toList ∨ name = word)) ↔
      ns = .dav ∧ name = word := by tauto
  refine ⟨?_, if_neg hname, ?_, ?_, fun f => if_neg hname, if_neg hname, ?_⟩
  · rw [withinResponse, hopens]
    rfl
  · rw [statusLine]
    exact if_congr (hor _) rfl rfl
  · rw [statusOk]
    exact if_congr (hor _) rfl rfl
  · rw [hasCollection, hopens, NsEvent.isCollection, ← Bool.decide_and]
    rfl

/-- A start tag within a response. -/
lemma Shows.opened (h : Shows parseDate back st c) (hin : st.inResponse = true)
    (hcurrent : st.current = some c) (hname : ¬ (ns = .dav ∧ name = "response".toList)) :
    ∃ c', (st.opened ns name).current = some c' ∧
      Shows parseDate (.start ns name :: back) (st.opened ns name) c' := by
  obtain ⟨-, hcollecting, hline, hok, hheld, hhref, hcollection⟩ :=
    lookBack_start parseDate back hname
  have hinto : ¬ st.inResponse = false := by rw [hin]; exact Bool.noConfusion
  rw [ReadState.opened, if_neg hname, if_neg hinto, hcurrent]
  dsimp only
  split
  · -- a status
    rename_i hof
    obtain ⟨rfl, rfl⟩ := collectingOf_status.mp hof
    refine ⟨_, rfl, h.ok.trans (hok.trans (if_neg (by decide))).symm, ?_, ?_,
      h.href.trans hhref.symm, fun f => ?_, ?_⟩
    · rw [hcollecting, hof]
      rfl
    · rw [hline, if_pos ⟨rfl, rfl⟩]
    · rw [hheld, ← h.value]
      cases f <;> rfl
    · rw [hcollection]
      exact h.directory
  · rename_i k hne hof
    have hstatus : ¬ (ns = .dav ∧ name = "status".toList) := by
      intro hstatus
      rw [collectingOf_status.mpr hstatus] at hof
      exact hne (Option.some.inj hof).symm
    have hother : ∀ {word}, name = word → (word = "collection".toList ∨ word = "propstat".toList) →
        False := by
      rintro word rfl hword
      rw [collectingOf_eq_none hword] at hof
      cases hof
    refine ⟨_, rfl, h.ok.trans (hok.trans (if_neg fun hp => hother hp.2 (.inr rfl))).symm, ?_, ?_,
      h.href.trans hhref.symm, fun f => ?_, ?_⟩
    · rw [hcollecting, hof]
      rfl
    · rw [hline, if_neg hstatus]
      exact h.status
    · rw [hheld, ← h.value]
      cases f <;> rfl
    · rw [hcollection, decide_eq_false (fun hc => hother hc.2 (.inl rfl))]
      exact h.directory
  · rename_i hof
    have hstatus : ¬ (ns = .dav ∧ name = "status".toList) := by
      intro hstatus
      rw [collectingOf_status.mpr hstatus] at hof
      cases hof
    rw [hof] at hcollecting
    rw [if_neg hstatus] at hline
    by_cases hcoll : ns = .dav ∧ name = "collection".toList
    · rw [if_pos hcoll]
      have hpropstat : ¬ (ns = .dav ∧ name = "propstat".toList) := by
        rintro ⟨-, hp⟩
        exact absurd (hcoll.2.symm.trans hp) (by decide)
      refine ⟨_, rfl, h.ok.trans (hok.trans (if_neg hpropstat)).symm, h.collecting.trans hcollecting.symm,
        h.status.trans hline.symm, h.href.trans hhref.symm, fun f => ?_, ?_⟩
      · rw [hheld, ← h.value]
        cases f <;> rfl
      · rw [hcollection, decide_eq_true hcoll]
        exact iff_of_true rfl rfl
    · rw [if_neg hcoll]
      rw [decide_eq_false hcoll, Bool.false_or] at hcollection
      by_cases hpropstat : ns = .dav ∧ name = "propstat".toList
      · rw [if_pos hpropstat]
        refine ⟨c, rfl, (hok.trans (if_pos hpropstat)).symm, h.collecting.trans hcollecting.symm,
          h.status.trans hline.symm, h.href.trans hhref.symm, fun f => (h.value f).trans (hheld f).symm,
          ?_⟩
        rw [hcollection]
        exact h.directory
      · rw [if_neg hpropstat]
        rw [if_neg hpropstat] at hok
        refine ⟨c, hcurrent, h.ok.trans hok.symm, h.collecting.trans hcollecting.symm,
          h.status.trans hline.symm, h.href.trans hhref.symm, fun f => (h.value f).trans (hheld f).symm,
          ?_⟩
        rw [hcollection]
        exact h.directory

/-- What a text does to a property. -/
lemma value_textRead (parseDate : Str → Option δ) (ok : Bool) (c : CurrentEntry δ) (text : Str)
    (f : Property) : (c.textRead parseDate ok text).value f =
      (if c.collecting = f.collecting ∧ ok = true then f.read parseDate text else none).or
        (c.value f) := by
  rw [CurrentEntry.textRead]
  cases hk : c.collecting <;> cases ok <;> cases f <;>
    simp [Property.collecting, Property.read, CurrentEntry.value, Option.map_or]

lemma textRead_spec (parseDate : Str → Option δ) (ok : Bool) (c : CurrentEntry δ) (text : Str) :
    (c.textRead parseDate ok text).collecting = c.collecting ∧
      (c.textRead parseDate ok text).propstatStatus =
        (if c.collecting = .status then text else c.propstatStatus) ∧
      (c.textRead parseDate ok text).href = (if c.collecting = .href then some text else c.href) ∧
      (c.textRead parseDate ok text).resourceType = c.resourceType := by
  rw [CurrentEntry.textRead]
  cases hk : c.collecting <;> cases ok <;> simp [hk]

/-- A text within a response. -/
lemma Shows.textRead (h : Shows parseDate back st c) (htrim : trim raw ≠ []) :
    Shows parseDate (.text raw :: back)
      { st with current := some (c.textRead parseDate st.propstatOk (trim raw)) }
      (c.textRead parseDate st.propstatOk (trim raw)) := by
  obtain ⟨hcollecting, hstatus, hhref, htype⟩ :=
    textRead_spec parseDate st.propstatOk c (trim raw)
  refine ⟨h.ok, hcollecting.trans h.collecting, ?_, ?_, fun f => ?_, ?_⟩
  · rw [hstatus, statusLine, h.collecting, h.status]
    exact if_congr (and_iff_left htrim).symm rfl rfl
  · rw [hhref, heldHref, h.collecting, h.href]
    exact if_congr (and_iff_right htrim).symm rfl rfl
  · rw [value_textRead, held, heard, h.collecting, h.ok, h.value]
    congr 1
    exact if_congr (and_iff_right htrim).symm rfl rfl
  · rw [htype]
    exact h.directory

/-- What changes neither the state nor what can be seen. -/
lemma Tracks.skip (h : Tracks parseDate back st) (hwithin : withinResponse (t :: back) = withinResponse back)
    (hshows : withinResponse back = true → ∀ c, Shows parseDate back st c →
      Shows parseDate (t :: back) st c) : Tracks parseDate (t :: back) st where
  inResponse := h.inResponse.trans hwithin.symm
  inside := by
    intro hin
    rw [hwithin] at hin
    obtain ⟨c, hc, hs⟩ := h.inside hin
    exact ⟨c, hc, hshows hin c hs⟩
  outside := fun hout => h.outside (hwithin.symm.trans hout)

lemma opened_inResponse (st : ReadState δ) (hname : ¬ (ns = .dav ∧ name = "response".toList)) :
    (st.opened ns name).inResponse = st.inResponse := by
  rw [ReadState.opened, if_neg hname]
  split
  · rfl
  split
  · rfl
  split
  · rfl
  · rfl
  split
  · rfl
  split <;> rfl

lemma Tracks.opened (h : Tracks parseDate back st) (ns : Namespace) (name : Str) :
    Tracks parseDate (.start ns name :: back) (st.opened ns name) := by
  by_cases hname : ns = .dav ∧ name = "response".toList
  · have hopens : (NsEvent.start ns name).opens "response".toList = true := by
      rw [NsEvent.opens, ← Bool.decide_and]
      exact decide_eq_true hname
    have hwithin : withinResponse (.start ns name :: back) = true := by
      rw [withinResponse, hopens, Bool.true_or]
    rw [ReadState.opened, if_pos hname]
    refine ⟨hwithin.symm, fun _ => ⟨_, rfl, ?_⟩, fun hout => absurd (hwithin.symm.trans hout) nofun⟩
    have hor : ns = .dav ∧ ∀ word, name = "response".toList ∨ name = word :=
      ⟨hname.1, fun _ => .inl hname.2⟩
    refine ⟨(if_pos ⟨hor.1, hor.2 _⟩).symm, (if_pos hname).symm, (if_pos ⟨hor.1, hor.2 _⟩).symm,
      (if_pos hname).symm, fun f => ?_, ?_⟩
    · rw [held, if_pos hname]
      cases f <;> rfl
    · rw [hasCollection, hopens]
      exact iff_of_false nofun nofun
  · have hwithin := (lookBack_start parseDate back hname).1
    have hin := opened_inResponse st hname
    refine ⟨hin.trans (h.inResponse.trans hwithin.symm), fun hback => ?_, fun hback => ?_⟩
    · rw [hwithin] at hback
      obtain ⟨c, hc, hs⟩ := h.inside hback
      exact hs.opened (h.inResponse.trans hback) hc hname
    · rw [hwithin] at hback
      rw [ReadState.opened, if_neg hname, if_pos (h.inResponse.trans hback)]
      exact h.outside hback

lemma Tracks.selfClosed (h : Tracks parseDate back st) (ns : Namespace) (name : Str) :
    Tracks parseDate (.empty ns name :: back) (st.selfClosed ns name) := by
  have hwithin : withinResponse (.empty ns name :: back) = withinResponse back := rfl
  have hcollection : hasCollection (.empty ns name :: back) =
      (decide (ns = .dav ∧ name = "collection".toList) || hasCollection back) := by
    rw [hasCollection, NsEvent.isCollection, ← Bool.decide_and]
    rfl
  rw [ReadState.selfClosed]
  split
  · rename_i hname
    refine ⟨h.inResponse, fun hback => ?_, fun hback => ?_⟩
    · obtain ⟨c, hc, hs⟩ := h.inside hback
      refine ⟨{ c with resourceType := .directory }, by rw [hc]; rfl, hs.ok, hs.collecting, hs.status,
        hs.href, fun f => ?_, ?_⟩
      · refine Eq.trans ?_ (hs.value f)
        cases f <;> rfl
      · rw [hcollection, decide_eq_true hname.2]
        exact iff_of_true rfl rfl
    · exact absurd (hname.1.symm.trans (h.inResponse.trans hback)) nofun
  · rename_i hname
    refine h.skip hwithin (fun hin c hs => ?_)
    refine ⟨hs.ok, hs.collecting, hs.status, hs.href, hs.value, ?_⟩
    rw [hcollection, decide_eq_false (fun hc => hname ⟨h.inResponse.trans hin, hc⟩)]
    exact hs.directory

lemma Tracks.closed (h : Tracks parseDate back st) (name : Str) :
    Tracks parseDate (.close name :: back) (st.closed name) := by
  rw [ReadState.closed]
  split
  · rename_i hname
    have hwithin : withinResponse (.close name :: back) = false := by
      rw [withinResponse, NsEvent.closes, decide_eq_true hname]
      rfl
    exact ⟨hwithin.symm, fun hin => absurd (hwithin.symm.trans hin) nofun, fun _ => rfl⟩
  · rename_i hname
    have hwithin : withinResponse (.close name :: back) = withinResponse back := by
      rw [withinResponse, NsEvent.closes, decide_eq_false hname]
      rfl
    split
    · rename_i hout
      have hout' : withinResponse back = false := h.inResponse.symm.trans hout
      exact h.skip hwithin (fun hin => absurd (hout'.symm.trans hin) nofun)
    · refine ⟨h.inResponse.trans hwithin.symm, fun hback => ?_, fun hback => ?_⟩
      · rw [hwithin] at hback
        obtain ⟨c, hc, hs⟩ := h.inside hback
        rw [hc]
        refine ⟨_, rfl, ?_, rfl, hs.status, hs.href, fun f => ?_, hs.directory⟩
        · rw [statusOk, ← hs.ok, ← hs.status]
        · refine Eq.trans ?_ (hs.value f)
          cases f <;> rfl
      · rw [hwithin] at hback
        rw [h.outside hback]
        rfl

lemma Tracks.textRead (h : Tracks parseDate back st) (raw : Str) :
    Tracks parseDate (.text raw :: back) (st.textRead parseDate raw) := by
  rw [ReadState.textRead]
  split
  · rename_i hskip
    refine h.skip rfl (fun hin c hs => ?_)
    have hblank : trim raw = [] :=
      hskip.resolve_left (fun hout => absurd (hout.symm.trans (h.inResponse.trans hin)) nofun)
    have hheard : ∀ f, heard parseDate f back raw = none :=
      fun f => if_neg (fun hc => hc.1 hblank)
    refine ⟨hs.ok, hs.collecting, ?_, ?_, fun f => ?_, hs.directory⟩
    · rw [statusLine, if_neg (fun hc => hc.2 hblank)]
      exact hs.status
    · rw [heldHref, if_neg (fun hc => hc.1 hblank)]
      exact hs.href
    · rw [held, hheard, Option.none_or]
      exact hs.value f
  · rename_i hread
    rw [not_or] at hread
    refine ⟨h.inResponse, fun hback => ?_, fun hback => absurd (h.inResponse.trans hback) hread.1⟩
    obtain ⟨c, hc, hs⟩ := h.inside hback
    rw [hc]
    exact ⟨_, rfl, hs.textRead hread.2⟩

/-- **What one event does.** -/
lemma Tracks.step (h : Tracks parseDate back st) (t : NsEvent) :
    Tracks parseDate (t :: back) (st.step parseDate t) := by
  cases t with
  | start ns name => exact h.opened ns name
  | empty ns name => exact h.selfClosed ns name
  | close name => exact h.closed name
  | text raw => exact h.textRead raw
  | data | other | malformed =>
      exact h.skip rfl
        (fun _ c hs => ⟨hs.ok, hs.collecting, hs.status, hs.href, hs.value, hs.directory⟩)

/-- The parser's state after the first events. -/
def readTo (parseDate : Str → Option δ) (ts : List NsEvent) : ReadState δ :=
  ts.foldl (ReadState.step parseDate) {}

lemma readTo_concat (ts : List NsEvent) (t : NsEvent) :
    readTo parseDate (ts ++ [t]) = (readTo parseDate ts).step parseDate t := by
  rw [readTo, List.foldl_append]
  rfl

/-- **What the parser knows is what can be seen by looking back.** -/
lemma readTo_tracks (parseDate : Str → Option δ) (ts : List NsEvent) :
    Tracks parseDate ts.reverse (readTo parseDate ts) := by
  induction ts using List.reverseRecOn with
  | nil => exact ⟨rfl, nofun, fun _ => rfl⟩
  | append_singleton ts t ih =>
      rw [readTo_concat, List.reverse_concat]
      exact ih.step t

end PropfindResponse

end OwncloudSync
