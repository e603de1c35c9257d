import OwncloudSync.Discovery.HrefSpelling
import OwncloudSync.Discovery.RemoteUrl
import OwncloudSync.Discovery.Truncation
import Mathlib.Data.Nat.Digits.Defs
import Mathlib.Tactic.Common

/-!
# The listing of an honest server

What a server says of the resources it has, and what `parse_propfind` makes of it.  An honest server
may escape in an href what it likes (`PercentEncoded`), put the elements of a response in any order
and say anything besides; it may leave an element out, or empty.  The listing of a collection has one
response for the collection itself and one for each member.

The reader takes the blanks off both ends of a text (`textEvents`), and a text of blanks is none.  So
what is said here is said of texts that **neither begin nor end with a blank** (`Unpadded`).

`parse_listing` is what is left of a listing: every member, and nothing but members and the collection
itself.
-/

namespace OwncloudSync

namespace Dav

/-! ## Resources -/

/-- What the server knows of a resource, as far as it says it. -/
structure Resource where
  isDir : Bool
  etag : Option Str
  size : Option UInt64
  fileId : Option Str
  deriving DecidableEq

/-- A finite tree: the space itself and the resources below it, by the names that lead there. -/
structure Tree where
  root : Resource
  resources : List (List Str × Resource)
  root_isDir : root.isDir = true
  nodup : (resources.map Prod.fst).Nodup
  ne_nil : ∀ x ∈ resources, x.1 ≠ []
  named : ∀ x ∈ resources, ∀ c ∈ x.1, EntryName c ∧ TabFree c
  parent : ∀ x ∈ resources, x.1.dropLast ≠ [] → ∃ y ∈ resources, y.1 = x.1.dropLast ∧ y.2.isDir = true

/-- The names of a path, joined by slashes. -/
def pathOf (names : List Str) : Str := List.intercalate ['/'] names

/-- The entry of a resource. -/
def entry (x : List Str × Resource) : RemoteEntry where
  path := pathOf x.1
  etag := trimQuotes (x.2.etag.getD [])
  size := if x.2.isDir then 0 else x.2.size.getD 0
  fileId := x.2.fileId.getD []
  isDir := x.2.isDir

/-- The path is that of a collection. -/
def Tree.IsCollection (tree : Tree) (p : List Str) : Prop :=
  p = [] ∨ ∃ ρ, (p, ρ) ∈ tree.resources ∧ ρ.isDir = true

/-- The collection itself and its members. -/
def Tree.listed (tree : Tree) (p : List Str) : List (List Str × Resource) :=
  (([], tree.root) :: tree.resources).filter (fun x => x.1 = p ∨ x.1 ≠ [] ∧ x.1.dropLast = p)

/-! ## Hrefs -/

/-- The bytes of a percent-encoding: each byte as it is, or as an escape; `%` as an escape only. -/
inductive PercentEncoded : List UInt8 → List UInt8 → Prop
  | nil : PercentEncoded [] []
  | plain {b : UInt8} {bs ts : List UInt8} : b ≠ 0x25 → PercentEncoded bs ts →
      PercentEncoded (b :: bs) (b :: ts)
  | escaped {h l x y : UInt8} {bs ts : List UInt8} : hexValue h = some x → hexValue l = some y →
      PercentEncoded bs ts → PercentEncoded ((16 * x + y) :: bs) (0x25 :: h :: l :: ts)

/-- A text that encodes a name. -/
def Encodes (name text : Str) : Prop :=
  PercentEncoded (name.flatMap String.utf8EncodeChar) (text.flatMap String.utf8EncodeChar)

/-- The href of a resource: the path of the space, a slash or more, and the names, encoded one by
one; at the end of a collection there is a slash. -/
def IsHref (spaceRoot : Str) (path : List Str) (isDir : Bool) (href : Str) : Prop :=
  ∃ k ts, k ≠ 0 ∧ List.Forall₂ Encodes path ts ∧
    href = trimEndSlash spaceRoot ++ (List.replicate k '/' ++ (List.intercalate ['/'] ts ++
      if isDir = true ∧ path ≠ [] then ['/'] else []))

/-! ## Responses -/

/-- The elements that carry a text. -/
inductive Element where
  | href
  | getetag
  | getcontentlength
  | fileid
  deriving DecidableEq

/-- Its local name. -/
def Element.name : Element → Str
  | href => "href".toList
  | getetag => "getetag".toList
  | getcontentlength => "getcontentlength".toList
  | fileid => "fileid".toList

/-- A part of a response. -/
inductive Part where
  | withText (element : Element) (text : Str)
  | selfClosed (element : Element)
  | collection (selfClosed : Bool)
  | other (event : XmlEvent)

/-- The texts of one element, as they stand in the document. -/
def Part.textOf (element : Element) : Part → Option Str
  | .withText element' text => if element' = element then some text else none
  | _ => none

/-- The part that marks a collection. -/
def Part.isCollection : Part → Bool
  | .collection _ => true
  | _ => false

/-- What the reader yields for it. -/
def Part.events : Part → List XmlEvent
  | .withText element text => .start element.name :: (textEvents text ++ [.close element.name])
  | .selfClosed element => [.empty element.name]
  | .collection true => [.empty "collection".toList]
  | .collection false => [.start "collection".toList, .close "collection".toList]
  | .other event => [event]

/-- The names `parse_propfind` looks for. -/
def knownNames : List Str :=
  ["response".toList, "href".toList, "getetag".toList, "getcontentlength".toList,
    "fileid".toList, "collection".toList]

/-- An event that is none of these. -/
def IsOther : XmlEvent → Prop
  | .start name | .empty name | .close name => name ∉ knownNames
  | .text _ | .other => True
  | .malformed _ => False

/-- A part as it may be: an element with a text is not empty. -/
def Part.Proper : Part → Prop
  | .withText _ text => text ≠ []
  | .other event => IsOther event
  | _ => True

/-- A text without blanks around it. -/
def Part.Unpadded : Part → Prop
  | .withText _ text => trimBlanks text = text
  | _ => True

/-- The texts of an element in a response. -/
def textsOf (element : Element) (parts : List Part) : List Str := parts.filterMap (·.textOf element)

/-- A numeral for a number. -/
def IsNumeral (text : Str) (n : ℕ) : Prop :=
  text ≠ [] ∧ (∀ c ∈ text, c.isDigit = true) ∧
    Nat.ofDigits 10 (text.reverse.map (fun c => c.toNat - '0'.toNat)) = n

/-- What a response says of a resource. -/
structure Describes (spaceRoot : Str) (x : List Str × Resource) (parts : List Part) : Prop where
  proper : ∀ part ∈ parts, part.Proper
  href : ∃ href, IsHref spaceRoot x.1 x.2.isDir href ∧ textsOf .href parts = [href]
  etag : textsOf .getetag parts = x.2.etag.toList
  size : x.2.isDir = false → List.Forall₂ (fun text size => IsNumeral text size.toNat)
    (textsOf .getcontentlength parts) x.2.size.toList
  fileId : textsOf .fileid parts = x.2.fileId.toList
  collection : parts.any Part.isCollection = x.2.isDir

/-- A part of a listing. -/
inductive Item where
  | response (parts : List Part)
  | other (event : XmlEvent)

/-- The events of an item. -/
def Item.events : Item → List XmlEvent
  | .response parts =>
      .start "response".toList :: (parts.flatMap Part.events ++ [.close "response".toList])
  | .other event => [event]

/-- The parts of a response. -/
def Item.parts? : Item → Option (List Part)
  | .response parts => some parts
  | .other _ => none

/-- **The listing of a collection**: one response for itself and one for each member, in any order. -/
structure Lists (spaceRoot : Str) (tree : Tree) (p : List Str) (items : List Item) : Prop where
  other : ∀ event, .other event ∈ items → IsOther event
  responses : ∃ shown, shown.Perm (tree.listed p) ∧
    List.Forall₂ (Describes spaceRoot) shown (items.filterMap Item.parts?)

/-- No text of the document has blanks at its ends. -/
def Unpadded (items : List Item) : Prop :=
  ∀ parts, .response parts ∈ items → ∀ part ∈ parts, part.Unpadded

variable {spaceRoot current href : Str} {path : List Str} {isDir : Bool} {st : ParseState}

/-! ## What an href decodes to -/

lemma PercentEncoded.decode {bs ts : List UInt8} (h : PercentEncoded bs ts) :
    percentDecode ts = bs := by
  induction h with
  | nil => rw [percentDecode.eq_def]
  | plain hb _ ih => rw [percentDecode_cons hb, ih]
  | escaped hh hl _ ih =>
      rw [percentDecode.eq_def]
      dsimp only
      rw [if_pos rfl, hh, hl]
      dsimp only
      rw [ih]

lemma Encodes.decode {name text : Str} (h : Encodes name text) : decodeHrefPath text = name := by
  rw [decodeHrefPath, PercentEncoded.decode h, decodeUtf8Lossy_flatMap]

/-- An encoded name is not empty and has no slash. -/
lemma Encodes.segment {name text : Str} (h : Encodes name text) (hname : EntryName name) :
    text ≠ [] ∧ '/' ∉ text := by
  constructor
  · rintro rfl
    exact hname.ne_nil (h.decode.symm.trans decodeHrefPath_nil)
  · intro hmem
    obtain ⟨a, b, rfl⟩ := List.append_of_mem hmem
    have hdecode := h.decode
    rw [decodeHrefPath_slash] at hdecode
    exact hname.slash (hdecode ▸ List.mem_append_right _ List.mem_cons_self)

lemma map_decodeHrefPath {ts : List Str} (h : List.Forall₂ Encodes path ts) :
    ts.map decodeHrefPath = path := by
  induction h with
  | nil => rfl
  | cons hhead _ ih => rw [List.map_cons, hhead.decode, ih]

lemma encoded_segments {ts : List Str} (h : List.Forall₂ Encodes path ts)
    (hnames : ∀ c ∈ path, EntryName c) : ∀ t ∈ ts, t ≠ [] ∧ '/' ∉ t := by
  induction h with
  | nil => simp
  | cons hhead _ ih =>
      rw [List.forall_mem_cons] at hnames ⊢
      exact ⟨hhead.segment hnames.1, ih hnames.2⟩

lemma trimEndSlash_append (a : Str) {s : Str} (hne : s ≠ []) (hlast : s.getLast? ≠ some '/') :
    trimEndSlash (a ++ s) = a ++ s := by
  obtain ⟨s, c, rfl⟩ := (List.eq_nil_or_concat' s).resolve_left hne
  have hc : ¬ c = '/' := by simpa using hlast
  rw [trimEndSlash, ← List.append_assoc, List.reverse_concat]
  simp [hc]

lemma pathOf_ends (hnames : ∀ c ∈ path, EntryName c) :
    (pathOf path).head? ≠ some '/' ∧ (pathOf path).getLast? ≠ some '/' :=
  ends_intercalate (fun c hc => ⟨(hnames c hc).ne_nil, (hnames c hc).slash⟩)

lemma intercalate_ne_nil {ts : List Str} (hts : ∀ t ∈ ts, t ≠ []) (hne : ts ≠ []) :
    List.intercalate ['/'] ts ≠ [] := by
  obtain ⟨t, ts, rfl⟩ := List.exists_cons_of_ne_nil hne
  have ht := hts t List.mem_cons_self
  cases ts with
  | nil => rwa [List.intercalate_singleton]
  | cons u ts =>
      rw [List.intercalate_cons_cons]
      simp [ht]

/-- Different names make different paths. -/
lemma pathOf_injective {q : List Str} (hp : ∀ c ∈ path, EntryName c) (hq : ∀ c ∈ q, EntryName c)
    (h : pathOf path = pathOf q) : path = q := by
  have hback : ∀ {p : List Str}, (∀ c ∈ p, EntryName c) → segments (pathOf p) = p := by
    intro p hp
    by_cases hne : p = []
    · rw [hne]
      decide
    · exact segments_intercalate hp hne
  rw [← hback hp, h, hback hq]

/-- **What `parse_propfind` reads off an href**: where the names begin, what they decode to, and the
text without the slash at its end. -/
lemma IsHref.spec (h : IsHref spaceRoot path isDir href) (hne : path ≠ [])
    (hnames : ∀ c ∈ path, EntryName c) :
    behind spaceRoot href ≠ [] ∧
      decodeHrefPath (behind spaceRoot href) = pathOf path ++ (if isDir = true then ['/'] else []) ∧
      trimEndSlash href ≠ trimEndSlash spaceRoot ∧
      decodeHrefPath (behind spaceRoot (trimEndSlash href)) = pathOf path := by
  obtain ⟨k, ts, hk, hts, rfl⟩ := h
  have hsegs := encoded_segments hts hnames
  have htsne : ts ≠ [] := by
    rintro rfl
    exact hne (List.forall₂_nil_right_iff.mp hts)
  have htext : List.intercalate ['/'] ts ≠ [] := intercalate_ne_nil (fun t ht => (hsegs t ht).1) htsne
  obtain ⟨hhead, hlast⟩ := ends_intercalate hsegs
  have hdecode : decodeHrefPath (List.intercalate ['/'] ts) = pathOf path := by
    rw [decodeHrefPath_intercalate, map_decodeHrefPath hts]
    rfl
  have hbehind : ∀ tail, behind spaceRoot (trimEndSlash spaceRoot ++ (List.replicate k '/' ++
      (List.intercalate ['/'] ts ++ tail))) = List.intercalate ['/'] ts ++ tail := by
    intro tail
    rw [behind, stripPrefix_append, Option.getD_some, trimStartSlash_slashes]
    refine trimStartSlash_of_head ?_
    rwa [List.head?_append_of_ne_nil _ htext]
  -- without the slash at its end
  have htrimmed : trimEndSlash (trimEndSlash spaceRoot ++ (List.replicate k '/' ++
      (List.intercalate ['/'] ts ++ if isDir = true ∧ path ≠ [] then ['/'] else []))) =
        trimEndSlash spaceRoot ++ (List.replicate k '/' ++ List.intercalate ['/'] ts) := by
    split
    · rw [← List.append_assoc, ← List.append_assoc, trimEndSlash_concat, List.append_assoc,
        ← List.append_assoc, trimEndSlash_append _ htext hlast, List.append_assoc]
    · rw [List.append_nil, ← List.append_assoc, trimEndSlash_append _ htext hlast, List.append_assoc]
  refine ⟨?_, ?_, ?_, ?_⟩
  · rw [hbehind]
    exact List.append_ne_nil_of_left_ne_nil htext _
  · rw [hbehind]
    cases isDir with
    | true =>
        rw [if_pos ⟨rfl, hne⟩, if_pos rfl, decodeHrefPath_slash, hdecode, decodeHrefPath_nil]
    | false =>
        rw [if_neg (by simp), if_neg (by simp), List.append_nil, List.append_nil, hdecode]
  · rw [htrimmed]
    intro heq
    have hnil := List.append_right_eq_self.mp heq
    exact htext (List.append_eq_nil_iff.mp hnil).2
  · rw [htrimmed]
    have hplain := hbehind []
    rw [List.append_nil] at hplain
    rw [hplain, hdecode]

/-- The space itself is skipped. -/
lemma IsHref.root (h : IsHref spaceRoot [] isDir href) : behind spaceRoot href = [] := by
  obtain ⟨k, ts, -, hts, rfl⟩ := h
  obtain rfl := List.forall₂_nil_left_iff.mp hts
  rw [if_neg (by simp), behind, stripPrefix_append, Option.getD_some, trimStartSlash_slashes]
  rfl

/-! ## What is read from a response -/

lemma foldl_digits (text : Str) :
    text.foldl (fun acc c => 10 * acc + (c.toNat - '0'.toNat)) 0 =
      Nat.ofDigits 10 (text.reverse.map (fun c => c.toNat - '0'.toNat)) := by
  induction text using List.reverseRecOn with
  | nil => rfl
  | append_singleton text c ih =>
      rw [List.foldl_append, List.foldl_cons, List.foldl_nil, ih, List.reverse_concat, List.map_cons,
        Nat.ofDigits_cons]
      exact Nat.add_comm _ _

lemma IsNumeral.parse {text : Str} {n : UInt64} (h : IsNumeral text n.toNat) :
    parseU64 text = some n := by
  obtain ⟨hne, hdigits, hvalue⟩ := h
  have hall : text.all Char.isDigit = true := List.all_eq_true.mpr hdigits
  have hplus : ∀ rest, text ≠ '+' :: rest := by
    rintro rest rfl
    exact absurd (hdigits '+' List.mem_cons_self) (by decide)
  have hrange : n.toNat < 2 ^ 64 := n.toNat_lt
  rw [parseU64.eq_def]
  split
  · exact absurd rfl (hplus _)
  · dsimp only
    rw [if_pos ⟨hne, hall⟩, foldl_digits, hvalue, if_pos hrange, UInt64.ofNat_toNat]

/-- No text is being waited for. -/
structure Quiet (st : ParseState) : Prop where
  href : st.inHref = false
  etag : st.inEtag = false
  length : st.inLength = false
  fileId : st.inFileid = false

/-- What the text of an element is used for. -/
def filled (st : ParseState) : Element → Str → ParseState
  | .href, text => { st with href := text }
  | .getetag, text => { st with etag := trimQuotes text }
  | .getcontentlength, text => { st with size := (parseU64 text).getD 0 }
  | .fileid, text => { st with fileId := text }

/-- What a part does. -/
def Part.apply (st : ParseState) : Part → ParseState
  | .withText element text => filled st element text
  | .collection _ => { st with isCollection := true }
  | _ => st

variable {enc : Str → Str} {es : List XmlEvent}

/-- An event that is none of the parser's changes nothing. -/
lemma parseEvents_other {event : XmlEvent} (h : IsOther event) (hquiet : Quiet st) :
    parseEvents enc spaceRoot current (event :: es) st =
      parseEvents enc spaceRoot current es st := by
  have hknown : ∀ {name known : Str}, name ∉ knownNames → known ∈ knownNames → name ≠ known :=
    fun hname hmem heq => hname (heq ▸ hmem)
  cases event with
  | start name =>
      have hopened : st.opened name = st := by
        rw [ParseState.opened, if_neg (hknown h (by decide)),
          if_neg (fun hc => hknown h (by decide) hc.1), if_neg (hknown h (by decide)),
          if_neg (hknown h (by decide)), if_neg (hknown h (by decide)),
          if_neg (hknown h (by decide))]
      rw [parseEvents, hopened]
  | empty name => rw [parseEvents, if_neg (hknown h (by decide))]
  | text text =>
      have hread : st.textRead text = st := by
        obtain ⟨hhref, hetag, hlength, hfileId⟩ := hquiet
        cases st
        dsimp only at hhref hetag hlength hfileId
        subst hhref hetag hlength hfileId
        rfl
      rw [parseEvents, hread]
  | close name =>
      have hclosed : st.closed enc spaceRoot current name = st := by
        rw [ParseState.closed, if_neg (fun hc => hknown h (by decide) hc.1)]
      rw [parseEvents, hclosed]
  | other => rfl
  | malformed message => cases h

/-- The text of an element is waited for. -/
def awaiting (st : ParseState) : Element → ParseState
  | .href => { st with inHref := true }
  | .getetag => { st with inEtag := true }
  | .getcontentlength => { st with inLength := true }
  | .fileid => { st with inFileid := true }

lemma opened_element (element : Element) (hin : st.inResponse = true) :
    st.opened element.name = awaiting st element := by
  rw [ParseState.opened, if_neg (by cases element <;> decide)]
  cases element with
  | href => exact if_pos ⟨rfl, hin⟩
  | getetag =>
      rw [if_neg (fun h => absurd h.1 (by decide))]
      exact if_pos rfl
  | getcontentlength =>
      rw [if_neg (fun h => absurd h.1 (by decide)), if_neg (by decide)]
      exact if_pos rfl
  | fileid =>
      rw [if_neg (fun h => absurd h.1 (by decide)), if_neg (by decide), if_neg (by decide)]
      exact if_pos rfl

lemma textRead_awaiting (element : Element) (text : Str) (hquiet : Quiet st) :
    (awaiting st element).textRead text = filled st element text := by
  obtain ⟨hhref, hetag, hlength, hfileId⟩ := hquiet
  cases st
  dsimp only at hhref hetag hlength hfileId
  subst hhref hetag hlength hfileId
  cases element <;> rfl

/-- An element and its text. -/
lemma parseEvents_withText {element : Element} {text : Str} (hne : text ≠ [])
    (htrim : trimBlanks text = text) (hquiet : Quiet st) (hin : st.inResponse = true) :
    parseEvents enc spaceRoot current ((Part.withText element text).events ++ es) st =
      parseEvents enc spaceRoot current es (filled st element text) := by
  have hclosed : ∀ st', ParseState.closed enc spaceRoot current st' element.name = st' := by
    intro st'
    have hname : element.name ≠ "response".toList := by cases element <;> decide
    rw [ParseState.closed, if_neg (fun hc => hname hc.1)]
  rw [Part.events, textEvents, htrim, if_neg hne, List.singleton_append, List.cons_append,
    List.cons_append, List.cons_append, List.nil_append, parseEvents, parseEvents, parseEvents,
    opened_element element hin, textRead_awaiting element text hquiet, hclosed]

lemma filled_spec (st : ParseState) (element : Element) (text : Str) :
    (Quiet st → Quiet (filled st element text)) ∧
      (filled st element text).inResponse = st.inResponse ∧
      (filled st element text).files = st.files := by
  cases element
  all_goals exact ⟨fun h => ⟨h.href, h.etag, h.length, h.fileId⟩, rfl, rfl⟩

/-- **A part does what it says.** -/
lemma parseEvents_part (enc : Str → Str) (spaceRoot current : Str) (es : List XmlEvent)
    {part : Part} (hproper : part.Proper) (hunpadded : part.Unpadded)
    (hquiet : Quiet st) (hin : st.inResponse = true) :
    parseEvents enc spaceRoot current (part.events ++ es) st =
        parseEvents enc spaceRoot current es (part.apply st) ∧
      Quiet (part.apply st) ∧ (part.apply st).inResponse = true ∧
        (part.apply st).files = st.files := by
  cases part with
  | withText element text =>
      obtain ⟨hkept, hresponse, hfiles⟩ := filled_spec st element text
      exact ⟨parseEvents_withText hproper hunpadded hquiet hin, hkept hquiet,
        hresponse.trans hin, hfiles⟩
  | selfClosed element =>
      refine ⟨?_, hquiet, hin, rfl⟩
      have hname : element.name ≠ "collection".toList := by cases element <;> decide
      rw [Part.events, List.singleton_append, parseEvents, if_neg hname]
      rfl
  | collection selfClosed =>
      refine ⟨?_, ⟨hquiet.href, hquiet.etag, hquiet.length, hquiet.fileId⟩, hin, rfl⟩
      cases selfClosed <;> rfl
  | other event => exact ⟨parseEvents_other hproper hquiet, hquiet, hin, rfl⟩

/-- The last text of an element. -/
def lastText (element : Element) (parts : List Part) : Option Str :=
  (textsOf element parts).getLast?

lemma lastText_cons (element : Element) (part : Part) (parts : List Part) :
    lastText element (part :: parts) = (lastText element parts).or (part.textOf element) := by
  rw [lastText, lastText, textsOf, textsOf, List.filterMap_cons]
  cases part.textOf element with
  | none => simp
  | some text => rw [List.getLast?_cons, Option.or_some]

/-- What the parser has of a response when it is over. -/
lemma parseEvents_parts (enc : Str → Str) (spaceRoot current : Str) (es : List XmlEvent)
    {parts : List Part} (hproper : ∀ part ∈ parts, part.Proper)
    (hunpadded : ∀ part ∈ parts, part.Unpadded) (hquiet : Quiet st) (hin : st.inResponse = true) :
    ∃ st', parseEvents enc spaceRoot current (parts.flatMap Part.events ++ es) st =
        parseEvents enc spaceRoot current es st' ∧
      Quiet st' ∧ st'.inResponse = true ∧ st'.files = st.files ∧
      st'.href = (lastText .href parts).getD st.href ∧
      st'.etag = ((lastText .getetag parts).map trimQuotes).getD st.etag ∧
      st'.size = ((lastText .getcontentlength parts).map (fun t => (parseU64 t).getD 0)).getD st.size ∧
      st'.fileId = (lastText .fileid parts).getD st.fileId ∧
      st'.isCollection = (st.isCollection || parts.any Part.isCollection) := by
  induction parts generalizing st with
  | nil => exact ⟨st, rfl, hquiet, hin, rfl, rfl, rfl, rfl, rfl, (Bool.or_false _).symm⟩
  | cons part parts ih =>
      rw [List.forall_mem_cons] at hproper hunpadded
      obtain ⟨hparse, hquiet', hin', hfiles'⟩ := parseEvents_part enc spaceRoot current
        (parts.flatMap Part.events ++ es) hproper.1 hunpadded.1 hquiet hin
      obtain ⟨st', hrest, hq, hi, hfiles, hhref, hetag, hsize, hfileId, hcollection⟩ :=
        ih hproper.2 hunpadded.2 hquiet' hin'
      refine ⟨st', ?_, hq, hi, hfiles.trans hfiles', ?_⟩
      · rw [List.flatMap_cons, List.append_assoc, hparse, hrest]
      · rw [hhref, hetag, hsize, hfileId, hcollection, lastText_cons, lastText_cons, lastText_cons,
          lastText_cons, List.any_cons]
        cases part with
        | withText element text =>
            cases element
            · cases lastText .href parts <;> simp [Part.apply, filled, Part.textOf, Part.isCollection]
            · cases lastText .getetag parts <;>
                simp [Part.apply, filled, Part.textOf, Part.isCollection]
            · cases lastText .getcontentlength parts <;>
                simp [Part.apply, filled, Part.textOf, Part.isCollection]
            · cases lastText .fileid parts <;>
                simp [Part.apply, filled, Part.textOf, Part.isCollection]
        | selfClosed element => simp [Part.apply, Part.textOf, Part.isCollection]
        | collection selfClosed => simp [Part.apply, Part.textOf, Part.isCollection]
        | other event => simp [Part.apply, Part.textOf, Part.isCollection]

/-! ## What is made of a listing -/

lemma IsHref.ne_nil (h : IsHref spaceRoot path isDir href) : href ≠ [] := by
  obtain ⟨k, ts, hk, -, rfl⟩ := h
  refine List.append_ne_nil_of_right_ne_nil _ (List.append_ne_nil_of_left_ne_nil ?_ _)
  simpa using hk

/-- When an entry is left out: it is the space, or it is spelled like the collection. -/
lemma relPath_href (current : Str) (h : IsHref spaceRoot path isDir href)
    (hnames : ∀ c ∈ path, EntryName c) :
    relPath spaceRoot current href = none ∧
        (path = [] ∨ pathOf path = decodeHrefPath (behind spaceRoot (trimEndSlash current))) ∨
      path ≠ [] ∧
        relPath spaceRoot current href = some (pathOf path ++ if isDir = true then ['/'] else []) := by
  rw [relPath_eq]
  by_cases hpath : path = []
  · subst hpath
    rw [if_pos (.inl h.root)]
    exact .inl ⟨rfl, .inl rfl⟩
  · obtain ⟨hbehind, hdecode, hroot, htrimmed⟩ := h.spec hpath hnames
    by_cases hcurrent : trimEndSlash href = trimEndSlash current
    · rw [if_pos (.inr (.inr hcurrent))]
      exact .inl ⟨rfl, .inr (hcurrent ▸ htrimmed).symm⟩
    · have hshown : ¬ Skipped spaceRoot current href :=
        not_or.mpr ⟨hbehind, not_or.mpr ⟨hroot, hcurrent⟩⟩
      rw [if_neg hshown, hdecode]
      exact .inr ⟨hpath, rfl⟩

/-- The end of a response. -/
lemma closed_response (enc : Str → Str) (current : Str) (hin : st.inResponse = true)
    (hquiet : Quiet st)
    (hhref : IsHref spaceRoot path st.isCollection st.href) (hnames : ∀ c ∈ path, EntryName c) :
    let e : RemoteEntry := ⟨pathOf path, st.etag, if st.isCollection then 0 else st.size, st.fileId,
      st.isCollection⟩
    let st' := st.closed enc spaceRoot current "response".toList
    Quiet st' ∧
      (st'.files = st.files ∧
          (path = [] ∨ pathOf path = decodeHrefPath (behind spaceRoot (trimEndSlash current))) ∨
        path ≠ [] ∧ st'.files = st.files ++ [e]) := by
  intro e st'
  have hst' : st' = st.closed enc spaceRoot current "response".toList := rfl
  rw [ParseState.closed, if_pos ⟨rfl, hin⟩, if_neg hhref.ne_nil] at hst'
  rcases relPath_href current hhref hnames with ⟨hrel, hwhy⟩ | ⟨hne, hrel⟩
  · rw [hrel] at hst'
    rw [hst']
    exact ⟨⟨hquiet.href, hquiet.etag, hquiet.length, hquiet.fileId⟩, .inl ⟨rfl, hwhy⟩⟩
  · rw [hrel] at hst'
    dsimp only at hst'
    have hlast := (pathOf_ends hnames).2
    have hpath : pathOf path ≠ [] := intercalate_ne_nil (fun c hc => (hnames c hc).ne_nil) hne
    cases hcoll : st.isCollection with
    | true =>
        rw [hcoll, if_pos rfl, if_pos rfl, trimEndSlash_concat] at hst'
        have htrim := trimEndSlash_append [] hpath hlast
        rw [List.nil_append] at htrim
        rw [htrim] at hst'
        rw [hst']
        refine ⟨⟨hquiet.href, hquiet.etag, hquiet.length, hquiet.fileId⟩, .inr ⟨hne, ?_⟩⟩
        simp [e, hcoll]
    | false =>
        rw [hcoll, if_neg Bool.false_ne_true, if_neg Bool.false_ne_true, List.append_nil] at hst'
        rw [hst']
        refine ⟨⟨hquiet.href, hquiet.etag, hquiet.length, hquiet.fileId⟩, .inr ⟨hne, ?_⟩⟩
        simp [e, hcoll]

lemma trimQuotes_getD (etag : Option Str) :
    (etag.map trimQuotes).getD [] = trimQuotes (etag.getD []) := by
  cases etag <;> rfl

lemma lastText_toList {element : Element} {parts : List Part} {text : Option Str}
    (h : textsOf element parts = text.toList) : lastText element parts = text := by
  rw [lastText, h]
  cases text <;> rfl

lemma Describes.size_eq {x : List Str × Resource} {parts : List Part}
    (h : Describes spaceRoot x parts) :
    (if x.2.isDir = true then 0 else
        ((lastText .getcontentlength parts).map (fun t => (parseU64 t).getD 0)).getD 0) =
      if x.2.isDir = true then 0 else x.2.size.getD 0 := by
  cases hdir : x.2.isDir with
  | true => rfl
  | false =>
      have hsize := h.size hdir
      rw [if_neg Bool.false_ne_true, if_neg Bool.false_ne_true]
      cases hn : x.2.size with
      | none =>
          rw [hn] at hsize
          have hlast := @lastText_toList _ _ none (List.forall₂_nil_right_iff.mp hsize)
          rw [hlast]
          rfl
      | some n =>
          rw [hn] at hsize
          obtain ⟨text, rest, hnumeral, hrest, htexts⟩ := List.forall₂_cons_right_iff.mp hsize
          obtain rfl := List.forall₂_nil_right_iff.mp hrest
          have hlast := @lastText_toList _ _ (some text) htexts
          rw [hlast, Option.map_some, Option.getD_some, hnumeral.parse]

/-- **A response** is the entry of its resource, unless that is the space or the collection itself. -/
lemma parseEvents_response (enc : Str → Str) (current : Str) (es : List XmlEvent)
    {x : List Str × Resource} {parts : List Part}
    (h : Describes spaceRoot x parts) (hnames : ∀ c ∈ x.1, EntryName c)
    (hunpadded : ∀ part ∈ parts, part.Unpadded) (hquiet : Quiet st) :
    ∃ st', parseEvents enc spaceRoot current ((Item.response parts).events ++ es) st =
        parseEvents enc spaceRoot current es st' ∧ Quiet st' ∧
      (st'.files = st.files ∧
          (x.1 = [] ∨ pathOf x.1 = decodeHrefPath (behind spaceRoot (trimEndSlash current))) ∨
        x.1 ≠ [] ∧ st'.files = st.files ++ [entry x]) := by
  obtain ⟨href, hhref, htext⟩ := h.href
  have hopened : st.opened "response".toList =
      { st with inResponse := true, href := [], etag := [], fileId := [], size := 0,
                isCollection := false } := if_pos rfl
  have hquiet₀ : Quiet (st.opened "response".toList) := by
    rw [hopened]
    exact ⟨hquiet.href, hquiet.etag, hquiet.length, hquiet.fileId⟩
  obtain ⟨st', hparse, hquiet', hin, hfiles, hst⟩ := parseEvents_parts enc spaceRoot current
    (.close "response".toList :: es) h.proper hunpadded hquiet₀ (by rw [hopened])
  rw [hopened] at hfiles hst
  have hhrefText := @lastText_toList _ _ (some href) htext
  rw [hhrefText, lastText_toList h.etag, lastText_toList h.fileId,
    trimQuotes_getD, h.collection, Bool.false_or] at hst
  obtain ⟨hst_href, hst_etag, hst_size, hst_fileId, hst_dir⟩ := hst
  rw [Option.getD_some] at hst_href
  have hhref' : IsHref spaceRoot x.1 st'.isCollection st'.href := by
    rw [hst_href, hst_dir]
    exact hhref
  obtain ⟨hclosed, hcases⟩ := closed_response enc current hin hquiet' hhref' hnames
  rw [hst_etag, hst_size, hst_fileId, hst_dir, h.size_eq, hfiles] at hcases
  refine ⟨st'.closed enc spaceRoot current "response".toList, ?_, hclosed, hcases⟩
  rw [Item.events, List.cons_append, parseEvents, List.append_assoc, List.singleton_append, hparse,
    parseEvents]

/-- The entries a listing leaves. -/
lemma parseEvents_items (enc : Str → Str) (current : Str) {items : List Item}
    {shown : List (List Str × Resource)}
    (hother : ∀ event, .other event ∈ items → IsOther event) (hunpadded : Unpadded items)
    (hshown : List.Forall₂ (Describes spaceRoot) shown (items.filterMap Item.parts?))
    (hnames : ∀ x ∈ shown, ∀ c ∈ x.1, EntryName c) (hquiet : Quiet st) :
    ∃ st', parseEvents enc spaceRoot current (items.flatMap Item.events) st = .ok st' ∧
      (∀ e ∈ st'.files, e ∈ st.files ∨ ∃ x ∈ shown, x.1 ≠ [] ∧ e = entry x) ∧
      (∀ e ∈ st.files, e ∈ st'.files) ∧
      ∀ x ∈ shown, x.1 ≠ [] →
        pathOf x.1 ≠ decodeHrefPath (behind spaceRoot (trimEndSlash current)) →
          entry x ∈ st'.files := by
  induction items generalizing st shown with
  | nil =>
      obtain rfl := List.forall₂_nil_right_iff.mp hshown
      exact ⟨st, rfl, fun e he => .inl he, fun e he => he, by simp⟩
  | cons item items ih =>
      have hother' : ∀ event, .other event ∈ items → IsOther event :=
        fun event hmem => hother event (List.mem_cons_of_mem _ hmem)
      have hunpadded' : Unpadded items :=
        fun parts hmem => hunpadded parts (List.mem_cons_of_mem _ hmem)
      cases item with
      | other event =>
          obtain ⟨st', hparse, hspec⟩ := ih hother' hunpadded' hshown hnames hquiet
          refine ⟨st', ?_, hspec⟩
          rw [List.flatMap_cons, Item.events, List.singleton_append,
            parseEvents_other (hother event List.mem_cons_self) hquiet, hparse]
      | response parts =>
          have hparts : (Item.response parts).parts? = some parts := rfl
          rw [List.filterMap_cons_some hparts] at hshown
          obtain ⟨x, rest, hx, hrest, rfl⟩ := List.forall₂_cons_right_iff.mp hshown
          rw [List.forall_mem_cons] at hnames
          obtain ⟨st₁, hstep, hquiet₁, hcases⟩ := parseEvents_response enc current
            (items.flatMap Item.events) hx hnames.1 (hunpadded parts List.mem_cons_self) hquiet
          obtain ⟨st', hparse, hsound, hkept, hcomplete⟩ :=
            ih hother' hunpadded' hrest hnames.2 hquiet₁
          refine ⟨st', by rw [List.flatMap_cons, hstep, hparse], fun e he => ?_, fun e he => ?_,
            ?_⟩
          · rcases hsound e he with he | ⟨y, hy, hne, rfl⟩
            · rcases hcases with ⟨hfiles, -⟩ | ⟨hne, hfiles⟩
              · exact .inl (hfiles ▸ he)
              · rw [hfiles] at he
                rcases List.mem_append.mp he with he | he
                · exact .inl he
                · exact .inr ⟨x, List.mem_cons_self, hne, List.mem_singleton.mp he⟩
            · exact .inr ⟨y, List.mem_cons_of_mem _ hy, hne, rfl⟩
          · refine hkept e ?_
            rcases hcases with ⟨hfiles, -⟩ | ⟨-, hfiles⟩
            · rwa [hfiles]
            · rw [hfiles]
              exact List.mem_append_left _ he
          · rw [List.forall_mem_cons]
            refine ⟨fun hne hpath => ?_, hcomplete⟩
            rcases hcases with ⟨-, hnil | hsame⟩ | ⟨-, hfiles⟩
            · exact absurd hnil hne
            · exact absurd hsame hpath
            · refine hkept _ ?_
              rw [hfiles]
              exact List.mem_append_right _ (List.mem_singleton_self _)

/-- **What is left of a listing**: members and the collection itself, and every member. -/
lemma parse_listing (enc : Str → Str) {tree : Tree} {p : List Str} {items : List Item}
    (h : Lists spaceRoot tree p items) (hunpadded : Unpadded items)
    (hcurrent : decodeHrefPath (behind spaceRoot (trimEndSlash current)) = pathOf p)
    (hp : ∀ c ∈ p, EntryName c) :
    ∃ files dirs,
      parsePropfind enc spaceRoot current (items.flatMap Item.events) = .ok (files, dirs) ∧
      (∀ e ∈ files, ∃ x ∈ tree.resources, e = entry x ∧ (x.1 = p ∨ x.1.dropLast = p)) ∧
      ∀ x ∈ tree.resources, x.1.dropLast = p → entry x ∈ files := by
  obtain ⟨shown, hperm, hshown⟩ := h.responses
  have hmem : ∀ x, x ∈ shown ↔ x ∈ tree.listed p := fun x => hperm.mem_iff
  have hbelow : ∀ x ∈ shown, x.1 ≠ [] → x ∈ tree.resources ∧ (x.1 = p ∨ x.1.dropLast = p) := by
    intro x hx hne
    obtain ⟨hx, hwhy⟩ := List.mem_filter.mp ((hmem x).mp hx)
    rcases List.mem_cons.mp hx with rfl | hx
    · exact absurd rfl hne
    · exact ⟨hx, (of_decide_eq_true hwhy).imp_right And.right⟩
  have hnames : ∀ x ∈ shown, ∀ c ∈ x.1, EntryName c := by
    intro x hx c hc
    exact (tree.named x (hbelow x hx (List.ne_nil_of_mem hc)).1 c hc).1
  have hquiet : Quiet {} := ⟨rfl, rfl, rfl, rfl⟩
  obtain ⟨st', hparse, hsound, -, hcomplete⟩ :=
    parseEvents_items enc current h.other hunpadded hshown hnames hquiet
  refine ⟨st'.files, st'.dirs, by rw [parsePropfind, hparse], fun e he => ?_, fun x hx hdrop => ?_⟩
  · rcases hsound e he with he | ⟨x, hx, hne, rfl⟩
    · cases he
    · exact ⟨x, (hbelow x hx hne).1, rfl, (hbelow x hx hne).2⟩
  · have hne := tree.ne_nil x hx
    refine hcomplete x ((hmem x).mpr ?_) hne ?_
    · exact List.mem_filter.mpr ⟨List.mem_cons_of_mem _ hx, by simpa using .inr ⟨hne, hdrop⟩⟩
    · rw [hcurrent]
      intro hpath
      have heq := pathOf_injective (fun c hc => (tree.named x hx c hc).1) hp hpath
      -- a path is longer than what it is without its last name
      have hlength := congrArg List.length (heq.trans hdrop.symm)
      rw [List.length_dropLast] at hlength
      have hpos := List.length_pos_iff.mpr hne
      omega

end Dav

end OwncloudSync
