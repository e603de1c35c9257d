import OwncloudSync.Discovery.HonestListing
import OwncloudSync.Lib.Runs
import Mathlib.Tactic.Common

/-!
# Where the fields of an entry come from

`parse_propfind` sets a flag at the start tag of an `href`, `getetag`, `getcontentlength` or `fileid`,
and **the next text clears all of them**, wherever it stands.  An element without a text leaves its flag
to the text that follows, be it the text of another element, or of the next response.

Both sides of `fieldsIsolated_iff` are about the texts of one document: `Supplies` is what the flags of
the parser say, `Taken` looks back from the text to the start tag before it.
-/

namespace OwncloudSync

/-! ## Tokens -/

/-- What the reader reports of a text. -/
def Token.text? : Token → Option Str
  | .chars text => if trimBlanks text = [] then none else some (trimBlanks text)
  | _ => none

/-- It opens an element of the name. -/
def Token.starts (name : Str) : Token → Bool
  | .start n _ => localName n = name
  | _ => false

/-- It closes one. -/
def Token.closes (name : Str) : Token → Bool
  | .close n _ => localName n = name
  | _ => false

/-- It is an empty element of the name. -/
def Token.selfCloses (name : Str) : Token → Bool
  | .empty n _ => localName n = name
  | _ => false

namespace Dav

/-! ## The parser, token by token -/

/-- What the parser does with an event. -/
def eventStep (enc : Str → Str) (spaceRoot current : Str) (st : ParseState) : XmlEvent → ParseState
  | .start name => st.opened name
  | .empty name => if name = "collection".toList then { st with isCollection := true } else st
  | .text text => st.textRead text
  | .close name => st.closed enc spaceRoot current name
  | .other | .malformed _ => st

/-- The events of one token. -/
def tokenStep (enc : Str → Str) (spaceRoot current : Str) (st : ParseState) (t : Token) : ParseState :=
  t.events.foldl (eventStep enc spaceRoot current) st

/-- The parser's state after the first tokens of a document. -/
def readTo (enc : Str → Str) (spaceRoot current : Str) (ts : List Token) : ParseState :=
  ts.foldl (tokenStep enc spaceRoot current) {}

/-- The flag of the parser for an element. -/
def waits (st : ParseState) : Element → Bool
  | .href => st.inHref
  | .getetag => st.inEtag
  | .getcontentlength => st.inLength
  | .fileid => st.inFileid

/-- What the parser has of a field: a text or a number. -/
def field (st : ParseState) : Element → Str ⊕ UInt64
  | .href => .inl st.href
  | .getetag => .inl st.etag
  | .getcontentlength => .inr st.size
  | .fileid => .inl st.fileId

/-- What a text says of a field. -/
def reading : Element → Str → Str ⊕ UInt64
  | .href, text => .inl text
  | .getetag, text => .inl (trimQuotes text)
  | .getcontentlength, text => .inr ((parseU64 text).getD 0)
  | .fileid, text => .inl text

/-! ## Looking back

The tokens before a place, the last one first. -/

/-- The last response that was opened is not closed; the latest token stands first. -/
def withinResponse : List Token → Bool
  | [] => false
  | t :: earlier =>
      t.starts "response".toList || !t.closes "response".toList && withinResponse earlier

/-- A start tag of the field, and no text after it.  An `href` counts within a response only. -/
def follows (f : Element) : List Token → Bool
  | [] => false
  | t :: earlier =>
      t.text?.isNone &&
        (t.starts f.name && (f ≠ .href || withinResponse earlier) || follows f earlier)

/-- The last text of the response that follows a start tag of the field. -/
def heldText (f : Element) : List Token → Str
  | [] => []
  | t :: earlier =>
      if t.starts "response".toList then []
      else
        match t.text? with
        | some text => if follows f earlier then text else heldText f earlier
        | none => heldText f earlier

/-- The response has a `collection`. -/
def hasCollection : List Token → Bool
  | [] => false
  | t :: earlier =>
      !t.starts "response".toList &&
        (t.starts "collection".toList || t.selfCloses "collection".toList || hasCollection earlier)

variable {enc : Str → Str} {spaceRoot current : Str} {st : ParseState} {ts pre p q : List Token}
  {s t : Token} {f : Element} {text : Str}

/-! ## One token -/

lemma parseEvents_eq_foldl {es : List XmlEvent} (h : es.any XmlEvent.isMalformed = false) :
    parseEvents enc spaceRoot current es st = .ok (es.foldl (eventStep enc spaceRoot current) st) := by
  induction es generalizing st with
  | nil => rfl
  | cons event es ih =>
      rw [List.any_cons, Bool.or_eq_false_iff] at h
      rw [List.foldl_cons, ← ih h.2]
      cases event with
      | malformed message => exact absurd h.1 (by simp [XmlEvent.isMalformed])
      | _ => rfl

lemma readTo_concat (ts : List Token) (t : Token) : readTo enc spaceRoot current (ts ++ [t]) =
    tokenStep enc spaceRoot current (readTo enc spaceRoot current ts) t := by
  rw [readTo, List.foldl_append]
  rfl

/-- The end of an element touches no flag but that of the response, and no field. -/
lemma closed_eq (name : Str) : st.closed enc spaceRoot current name =
    { st with
      inResponse := name ≠ "response".toList && st.inResponse
      files := (st.closed enc spaceRoot current name).files
      dirs := (st.closed enc spaceRoot current name).dirs } := by
  rw [ParseState.closed]
  split
  · rename_i hend
    have hout : (decide (name ≠ "response".toList) && st.inResponse) = false := by simp [hend.1]
    rw [hout]
    split
    · rfl
    · split
      · rfl
      · split <;> rfl
  · rename_i hend
    have hkept : (decide (name ≠ "response".toList) && st.inResponse) = st.inResponse := by
      by_cases hname : name = "response".toList
      · have hout : st.inResponse = false := by simpa [hname] using hend
        rw [hout, Bool.and_false]
      · rw [decide_eq_true hname, Bool.true_and]
    rw [hkept]

lemma Element.name_injective {f g : Element} (h : f.name = g.name) : f = g := by
  cases f <;> cases g <;> first | rfl | exact absurd h (by decide)

lemma Element.name_ne (f : Element) : f.name ≠ "response".toList ∧ f.name ≠ "collection".toList := by
  cases f <;> decide

/-- What a start tag may do. -/
lemma opened_cases (st : ParseState) (name : Str) :
    (name = "response".toList ∧ st.opened name =
      { st with inResponse := true, href := [], etag := [], fileId := [], size := 0,
                isCollection := false }) ∨
    (∃ g : Element, name = g.name ∧ (g = .href → st.inResponse = true) ∧
      st.opened name = awaiting st g) ∨
    (name = "collection".toList ∧ st.opened name = { st with isCollection := true }) ∨
    (name ≠ "response".toList ∧ name ≠ "collection".toList ∧
      (∀ g : Element, name = g.name → g = .href ∧ st.inResponse = false) ∧ st.opened name = st) := by
  rw [ParseState.opened]
  split
  · exact .inl ⟨‹_›, rfl⟩
  rename_i hresponse
  split
  · rename_i hhref
    exact .inr (.inl ⟨.href, hhref.1, fun _ => hhref.2, rfl⟩)
  rename_i hhref
  split
  · exact .inr (.inl ⟨.getetag, ‹_›, fun h => absurd h (by decide), rfl⟩)
  rename_i hetag
  split
  · exact .inr (.inl ⟨.getcontentlength, ‹_›, fun h => absurd h (by decide), rfl⟩)
  rename_i hlength
  split
  · exact .inr (.inl ⟨.fileid, ‹_›, fun h => absurd h (by decide), rfl⟩)
  rename_i hfileid
  split
  · exact .inr (.inr (.inl ⟨‹_›, rfl⟩))
  rename_i hcollection
  refine .inr (.inr (.inr ⟨hresponse, hcollection, fun g hg => ?_, rfl⟩))
  cases g with
  | href => exact ⟨rfl, by simpa [show name = "href".toList from hg] using hhref⟩
  | getetag => exact absurd hg hetag
  | getcontentlength => exact absurd hg hlength
  | fileid => exact absurd hg hfileid

lemma awaiting_spec (st : ParseState) (g f : Element) :
    waits (awaiting st g) f = (decide (g = f) || waits st f) ∧
      field (awaiting st g) f = field st f ∧ (awaiting st g).inResponse = st.inResponse ∧
      (awaiting st g).isCollection = st.isCollection := by
  cases g <;> cases f <;> exact ⟨rfl, rfl, rfl, rfl⟩

lemma textRead_spec (st : ParseState) (text : Str) (f : Element) :
    waits (st.textRead text) f = false ∧
      field (st.textRead text) f = (if waits st f then reading f text else field st f) ∧
      (st.textRead text).inResponse = st.inResponse ∧
      (st.textRead text).isCollection = st.isCollection := by
  cases f
  · exact ⟨rfl, apply_ite Sum.inl _ _ _, rfl, rfl⟩
  · exact ⟨rfl, apply_ite Sum.inl _ _ _, rfl, rfl⟩
  · exact ⟨rfl, apply_ite Sum.inr _ _ _, rfl, rfl⟩
  · exact ⟨rfl, apply_ite Sum.inl _ _ _, rfl, rfl⟩

/-- What a token does to the state, as far as its fields and flags go. -/
structure Steps (st : ParseState) (t : Token) (st' : ParseState) : Prop where
  inResponse : st'.inResponse =
    (t.starts "response".toList || !t.closes "response".toList && st.inResponse)
  waits : ∀ f, waits st' f = (t.text?.isNone &&
    (t.starts f.name && (f ≠ .href || st.inResponse) || waits st f))
  field : ∀ f, field st' f =
    if t.starts "response".toList then reading f []
    else
      match t.text? with
      | some text => if Dav.waits st f then reading f text else field st f
      | none => field st f
  isCollection : st'.isCollection = (!t.starts "response".toList &&
    (t.starts "collection".toList || t.selfCloses "collection".toList || st.isCollection))

lemma Steps.refl (st : ParseState) (ht : t.text? = none) (hstart : ∀ n, t.starts n = false)
    (hclose : ∀ n, t.closes n = false) (hempty : ∀ n, t.selfCloses n = false) : Steps st t st where
  inResponse := by rw [hstart, hclose]; rfl
  waits := by simp [ht, hstart]
  field := by simp [ht, hstart]
  isCollection := by simp [hstart, hempty]

/-- A start tag that is none of a field, and leaves the fields and their flags alone. -/
lemma steps_start {st' : ParseState} {name attributes : Str}
    (hresponse : localName name ≠ "response".toList)
    (hother : ∀ f : Element, localName name = f.name → f = .href ∧ st.inResponse = false)
    (hin : st'.inResponse = st.inResponse) (hwaits : ∀ f, waits st' f = waits st f)
    (hfield : ∀ f, field st' f = field st f)
    (hcollection : st'.isCollection =
      (decide (localName name = "collection".toList) || st.isCollection)) :
    Steps st (.start name attributes) st' where
  inResponse := by
    rw [hin, Token.starts, decide_eq_false hresponse]
    rfl
  waits := by
    intro f
    rw [hwaits, Token.starts]
    by_cases hname : localName name = f.name
    · obtain ⟨rfl, hout⟩ := hother f hname
      rw [hout, decide_eq_false (not_not_intro rfl), Bool.or_false, Bool.and_false]
      rfl
    · rw [decide_eq_false hname]
      rfl
  field := by
    intro f
    rw [hfield, Token.starts, decide_eq_false hresponse]
    rfl
  isCollection := by
    rw [hcollection, Token.starts, Token.starts, decide_eq_false hresponse]
    simp only [Token.selfCloses, Bool.or_false, Bool.not_false, Bool.true_and]

lemma steps_opened (st : ParseState) (name attributes : Str) :
    Steps st (.start name attributes) (st.opened (localName name)) := by
  rcases opened_cases st (localName name) with ⟨hname, hst⟩ | ⟨g, hname, hin, hst⟩ | ⟨hname, hst⟩ |
    ⟨hresponse, hcollection, hother, hst⟩
  · rw [hst]
    have hstarts : (Token.start name attributes).starts "response".toList = true :=
      decide_eq_true hname
    refine ⟨by rw [hstarts]; rfl, fun f => ?_, fun f => ?_, by rw [hstarts]; rfl⟩
    · have hne : localName name ≠ f.name := fun h => f.name_ne.1 (h.symm.trans hname)
      rw [Token.starts, decide_eq_false hne]
      cases f <;> rfl
    · rw [hstarts, if_pos rfl]
      cases f <;> rfl
  · rw [hst]
    have hresponse : localName name ≠ "response".toList := hname ▸ g.name_ne.1
    have hstarts : (Token.start name attributes).starts "response".toList = false :=
      decide_eq_false hresponse
    refine ⟨?_, fun f => ?_, fun f => ?_, ?_⟩
    · rw [(awaiting_spec st g g).2.2.1, hstarts]
      rfl
    · rw [(awaiting_spec st g f).1, Token.starts]
      by_cases hgf : g = f
      · subst hgf
        have hcounts : (decide (g ≠ .href) || st.inResponse) = true := by
          by_cases hg : g = .href
          · rw [hin hg, Bool.or_true]
          · rw [decide_eq_true hg, Bool.true_or]
        rw [hcounts, decide_eq_true hname, decide_eq_true rfl]
        rfl
      · have hne : localName name ≠ f.name :=
          fun h => hgf (Element.name_injective (hname.symm.trans h))
        rw [decide_eq_false hgf, decide_eq_false hne]
        rfl
    · rw [(awaiting_spec st g f).2.1, hstarts]
      rfl
    · have hne : localName name ≠ "collection".toList := hname ▸ g.name_ne.2
      rw [(awaiting_spec st g g).2.2.2, hstarts, Token.starts, decide_eq_false hne]
      rfl
  · rw [hst]
    refine steps_start (hname ▸ (by decide)) (fun f hf => ?_) rfl (fun f => by cases f <;> rfl)
      (fun f => by cases f <;> rfl) ?_
    · exact absurd (hf.symm.trans hname) f.name_ne.2
    · rw [decide_eq_true hname]
      rfl
  · rw [hst]
    refine steps_start hresponse hother rfl (fun _ => rfl) (fun _ => rfl) ?_
    rw [decide_eq_false hcollection]
    rfl

/-- **What one token does.** -/
lemma tokenStep_spec (enc : Str → Str) (spaceRoot current : Str) (st : ParseState) (t : Token) :
    Steps st t (tokenStep enc spaceRoot current st t) := by
  cases t with
  | start name attributes => exact steps_opened st name attributes
  | empty name attributes =>
      show Steps st _ (if localName name = "collection".toList then { st with isCollection := true }
        else st)
      split
      · rename_i hname
        refine ⟨rfl, fun f => by cases f <;> rfl, fun f => by cases f <;> rfl, ?_⟩
        rw [Token.selfCloses, decide_eq_true hname]
        rfl
      · rename_i hname
        refine ⟨rfl, fun f => rfl, fun f => rfl, ?_⟩
        rw [Token.selfCloses, decide_eq_false hname]
        rfl
  | close name blanks =>
      show Steps st _ (st.closed enc spaceRoot current (localName name))
      rw [closed_eq]
      refine ⟨?_, fun f => by cases f <;> rfl, fun f => by cases f <;> rfl, rfl⟩
      rw [Token.closes]
      by_cases hname : localName name = "response".toList
      · rw [decide_eq_true hname, decide_eq_false (not_not_intro hname)]
        rfl
      · rw [decide_eq_false hname, decide_eq_true hname]
        rfl
  | chars text =>
      rw [tokenStep, Token.events, textEvents]
      by_cases hblank : trimBlanks text = []
      · rw [if_pos hblank]
        exact .refl st (if_pos hblank) (fun _ => rfl) (fun _ => rfl) (fun _ => rfl)
      · rw [if_neg hblank]
        have htext : (Token.chars text).text? = some (trimBlanks text) := if_neg hblank
        show Steps st _ (st.textRead (trimBlanks text))
        refine ⟨?_, fun f => ?_, fun f => ?_, ?_⟩
        · rw [(textRead_spec st _ .href).2.2.1]
          rfl
        · rw [(textRead_spec st _ f).1, htext]
          rfl
        · rw [(textRead_spec st _ f).2.1, htext]
          rfl
        · rw [(textRead_spec st _ .href).2.2.2]
          rfl
  | comment | cdata | instruction | doctype | reference =>
      exact .refl st rfl (fun _ => rfl) (fun _ => rfl) (fun _ => rfl)

/-! ## The state and the tokens before it -/

/-- **What the parser knows is what can be seen by looking back.** -/
lemma readTo_spec (enc : Str → Str) (spaceRoot current : Str) (ts : List Token) :
    let st := readTo enc spaceRoot current ts
    st.inResponse = withinResponse ts.reverse ∧ (∀ f, waits st f = follows f ts.reverse) ∧
      (∀ f, field st f = reading f (heldText f ts.reverse)) ∧
      st.isCollection = hasCollection ts.reverse := by
  induction ts using List.reverseRecOn with
  | nil => exact ⟨rfl, fun f => by cases f <;> rfl, fun f => by cases f <;> rfl, rfl⟩
  | append_singleton ts t ih =>
      obtain ⟨hin, hwaits, hfield, hcollection⟩ := ih
      have hstep := tokenStep_spec enc spaceRoot current (readTo enc spaceRoot current ts) t
      rw [readTo_concat, List.reverse_concat]
      refine ⟨?_, fun f => ?_, fun f => ?_, ?_⟩
      · rw [hstep.inResponse, hin, withinResponse]
      · rw [hstep.waits, hin, hwaits, follows]
      · rw [hstep.field, hwaits, hfield, heldText]
        split
        · rfl
        · split
          · split <;> rfl
          · rfl
      · rw [hstep.isCollection, hcollection, hasCollection]

lemma readTo_append (p : List Token) (s : Token) (q : List Token) :
    readTo enc spaceRoot current (p ++ s :: q) = q.foldl (tokenStep enc spaceRoot current)
      (tokenStep enc spaceRoot current (readTo enc spaceRoot current p) s) := by
  rw [readTo, List.foldl_append]
  rfl

/-! ## Entries -/

/-- The entry of a response whose path is `rel`. -/
def entryOf (st : ParseState) (rel : Str) : RemoteEntry where
  path := if st.isCollection then trimEndSlash rel else rel
  etag := st.etag
  size := if st.isCollection then 0 else st.size
  fileId := st.fileId
  isDir := st.isCollection

/-- What a token adds to the entries. -/
def pushed (spaceRoot current : Str) (st : ParseState) (t : Token) : List RemoteEntry :=
  if t.closes "response".toList && st.inResponse && (st.href ≠ [] : Bool) then
    ((relPath spaceRoot current st.href).map (entryOf st)).toList
  else []

lemma tokenStep_files (enc : Str → Str) (spaceRoot current : Str) (st : ParseState) (t : Token) :
    (tokenStep enc spaceRoot current st t).files = st.files ++ pushed spaceRoot current st t := by
  cases t with
  | start name attributes =>
      have hfiles : (st.opened (localName name)).files = st.files := by
        rcases opened_cases st (localName name) with ⟨-, hst⟩ | ⟨g, -, -, hst⟩ | ⟨-, hst⟩ |
          ⟨-, -, -, hst⟩
        · rw [hst]
        · rw [hst]
          cases g <;> rfl
        · rw [hst]
        · rw [hst]
      exact hfiles.trans (List.append_nil _).symm
  | empty name attributes =>
      refine Eq.trans ?_ (List.append_nil _).symm
      show (if localName name = "collection".toList then { st with isCollection := true }
        else st).files = st.files
      split <;> rfl
  | close name blanks =>
      show (st.closed enc spaceRoot current (localName name)).files = _
      rw [ParseState.closed, pushed, Token.closes]
      by_cases hend : localName name = "response".toList ∧ st.inResponse = true
      · rw [if_pos hend, decide_eq_true hend.1, hend.2]
        by_cases hhref : st.href = []
        · rw [if_pos hhref, decide_eq_false (not_not_intro hhref)]
          exact (List.append_nil _).symm
        · rw [if_neg hhref, decide_eq_true hhref]
          cases hrel : relPath spaceRoot current st.href with
          | none => exact (List.append_nil _).symm
          | some rel =>
              cases hdir : st.isCollection with
              | true => simp [entryOf, hdir]
              | false => simp [entryOf, hdir]
      · rw [if_neg hend, if_neg]
        · exact (List.append_nil _).symm
        · intro htrue
          rw [Bool.and_eq_true, Bool.and_eq_true, decide_eq_true_iff] at htrue
          exact hend htrue.1
  | chars text =>
      refine Eq.trans ?_ (List.append_nil _).symm
      rw [tokenStep, Token.events, textEvents]
      split <;> rfl
  | comment | cdata | instruction | doctype | reference => exact (List.append_nil _).symm

/-- `parse_propfind` gives an entry at the end of a response. -/
def Gives (enc : Str → Str) (spaceRoot current : Str) (pre : List Token) (t : Token)
    (e : RemoteEntry) : Prop :=
  e ∈ pushed spaceRoot current (readTo enc spaceRoot current pre) t

/-- **Every entry that `parse_propfind` returns is given at the end of a response.** -/
lemma parsePropfind_gives {files : List RemoteEntry} {dirs : List Str} {e : RemoteEntry}
    (h : parsePropfind enc spaceRoot current (ts.flatMap Token.events) = .ok (files, dirs)) :
    e ∈ files ↔ ∃ pre t post, ts = pre ++ t :: post ∧ Gives enc spaceRoot current pre t e := by
  have hclean : (ts.flatMap Token.events).any XmlEvent.isMalformed = false := by
    rw [List.any_flatMap, List.any_eq_false]
    exact fun t _ => by simp [t.events_not_malformed]
  rw [parsePropfind, parseEvents_eq_foldl hclean, List.foldl_flatMap] at h
  have hfiles : (readTo enc spaceRoot current ts).files = files := by
    injection h with h
    exact congrArg Prod.fst h
  rw [← hfiles, readTo, Runs.mem_foldl_iff (tokenStep_files enc spaceRoot current)]
  exact or_iff_right List.not_mem_nil

/-- A response whose entry is given, as the tokens before its end tag show it. -/
def Listed (spaceRoot current : Str) (pre : List Token) (t : Token) : Prop :=
  t.closes "response".toList = true ∧ withinResponse pre.reverse = true ∧
    heldText .href pre.reverse ≠ [] ∧
    (relPath spaceRoot current (heldText .href pre.reverse)).isSome = true

lemma href_readTo (enc : Str → Str) (spaceRoot current : Str) (pre : List Token) :
    (readTo enc spaceRoot current pre).href = heldText .href pre.reverse :=
  Sum.inl.inj ((readTo_spec enc spaceRoot current pre).2.2.1 .href)

lemma Gives.listed {e : RemoteEntry} (h : Gives enc spaceRoot current pre t e) :
    Listed spaceRoot current pre t ∧ e.isDir = hasCollection pre.reverse := by
  obtain ⟨hin, -, -, hcollection⟩ := readTo_spec enc spaceRoot current pre
  rw [Gives, pushed] at h
  split at h
  · rename_i hend
    rw [Bool.and_eq_true, Bool.and_eq_true, decide_eq_true_iff, href_readTo, hin] at hend
    rw [Option.mem_toList, Option.map_eq_some_iff, href_readTo] at h
    obtain ⟨rel, hrel, rfl⟩ := h
    exact ⟨⟨hend.1.1, hend.1.2, hend.2, Option.isSome_of_eq_some hrel⟩, hcollection⟩
  · cases h

lemma Listed.gives (enc : Str → Str) (h : Listed spaceRoot current pre t) :
    ∃ e, Gives enc spaceRoot current pre t e := by
  obtain ⟨hend, hin, hhref, hrel⟩ := h
  obtain ⟨rel, hrel⟩ := Option.isSome_iff_exists.mp hrel
  refine ⟨entryOf (readTo enc spaceRoot current pre) rel, ?_⟩
  rw [Gives, pushed, hend, (readTo_spec enc spaceRoot current pre).1, hin, href_readTo,
    decide_eq_true hhref, hrel]
  exact List.mem_singleton_self _

/-! ## Texts -/

/-- **The text `s` is what the parser has of the field**: its flag is set, and none is read after it
before the end of the response. -/
structure Supplies (enc : Str → Str) (spaceRoot current : Str) (f : Element) (p : List Token)
    (s : Token) (q : List Token) : Prop where
  text : s.text?.isSome = true
  waits : waits (readTo enc spaceRoot current p) f = true
  last : ∀ q₁ u q₂, q = q₁ ++ u :: q₂ → u.starts "response".toList = false ∧
    (u.text?.isSome = true → Dav.waits (readTo enc spaceRoot current (p ++ s :: q₁)) f = false)

/-- The text directly follows a start tag of the field, and is the last of the response that does. -/
structure Taken (f : Element) (p : List Token) (s : Token) (q : List Token) : Prop where
  text : s.text?.isSome = true
  follows : follows f p.reverse = true
  last : ∀ q₁ u q₂, q = q₁ ++ u :: q₂ → u.starts "response".toList = false ∧
    (u.text?.isSome = true → Dav.follows f (p ++ s :: q₁).reverse = false)

/-- The elements that are open, the innermost first. -/
def openElements (ts : List Token) : List Str :=
  ts.foldl (fun stack t =>
    match t with
    | .start name _ => localName name :: stack
    | .close _ _ => stack.tail
    | _ => stack) []

/-- The text stands in an element of the field, of the response that ends after `q`. -/
structure InOwnElement (f : Element) (p q : List Token) : Prop where
  response : withinResponse p.reverse = true
  own : ∀ u ∈ q, u.starts "response".toList = false ∧ u.closes "response".toList = false
  element : f.name ∈ openElements
    (p.reverse.takeWhile (fun t => !t.starts "response".toList)).reverse

/-- **Every field of every entry comes from an element of its own.**  The size of a collection comes
from none. -/
def FieldsIsolated (enc : Str → Str) (spaceRoot current : Str) (ts : List Token) : Prop :=
  ∀ pre t post e, ts = pre ++ t :: post → Gives enc spaceRoot current pre t e →
    ∀ f, (f = .getcontentlength → e.isDir = false) → ∀ p s q, pre = p ++ s :: q →
      Supplies enc spaceRoot current f p s q → InOwnElement f p q

/-- In a response that is listed, the text that follows the start tag of a field stands in it. -/
def TextsInPlace (spaceRoot current : Str) (ts : List Token) : Prop :=
  ∀ pre t post, ts = pre ++ t :: post → Listed spaceRoot current pre t →
    ∀ f, (f = .getcontentlength → hasCollection pre.reverse = false) → ∀ p s q, pre = p ++ s :: q →
      Taken f p s q → InOwnElement f p q

lemma supplies_iff : Supplies enc spaceRoot current f p s q ↔ Taken f p s q := by
  have hwaits : ∀ ts, waits (readTo enc spaceRoot current ts) f = follows f ts.reverse :=
    fun ts => (readTo_spec enc spaceRoot current ts).2.1 f
  constructor
  · rintro ⟨htext, hflag, hlast⟩
    refine ⟨htext, hwaits p ▸ hflag, fun q₁ u q₂ hq => ?_⟩
    rw [← hwaits]
    exact hlast q₁ u q₂ hq
  · rintro ⟨htext, hflag, hlast⟩
    refine ⟨htext, (hwaits p).trans hflag, fun q₁ u q₂ hq => ?_⟩
    rw [hwaits]
    exact hlast q₁ u q₂ hq

/-- No text stands behind. -/
lemma Taken.of_silent (htext : s.text?.isSome = true) (hfollows : Dav.follows f p.reverse = true)
    (hq : q.all (fun u => !u.starts "response".toList && u.text?.isNone) = true) : Taken f p s q where
  text := htext
  follows := hfollows
  last := by
    intro q₁ u q₂ hsplit
    have hu := List.all_eq_true.mp hq u (hsplit ▸ List.mem_append_right _ List.mem_cons_self)
    rw [Bool.and_eq_true, Bool.not_eq_true'] at hu
    refine ⟨hu.1, fun hsome => ?_⟩
    rw [Option.isNone_iff_eq_none] at hu
    rw [hu.2] at hsome
    cases hsome

/-- What is no new response and no text that is waited for leaves a field as it is. -/
lemma field_foldl_of_silent {st : ParseState} {q : List Token}
    (hsilent : ∀ q₁ u q₂, q = q₁ ++ u :: q₂ → u.starts "response".toList = false ∧
      (u.text?.isSome = true →
        waits (q₁.foldl (tokenStep enc spaceRoot current) st) f = false)) :
    field (q.foldl (tokenStep enc spaceRoot current) st) f = field st f := by
  refine Runs.foldl_eq_of_silent (fun st => field st f) (fun q₁ u q₂ hq => ?_)
  obtain ⟨hstart, hquiet⟩ := hsilent q₁ u q₂ hq
  rw [(tokenStep_spec enc spaceRoot current _ u).field, hstart, if_neg Bool.false_ne_true]
  cases htext : u.text? with
  | none => rfl
  | some text => rw [hquiet (Option.isSome_of_eq_some htext)]; rfl

/-- **A field says what the text that supplies it says.** -/
lemma Supplies.field {text : Str} (h : Supplies enc spaceRoot current f p s q)
    (htext : s.text? = some text) :
    field (readTo enc spaceRoot current (p ++ s :: q)) f = reading f text := by
  have hstart : s.starts "response".toList = false := by
    cases s with
    | chars _ => rfl
    | _ => cases htext
  have hread : ∀ q₁, readTo enc spaceRoot current (p ++ s :: q₁) =
      q₁.foldl (tokenStep enc spaceRoot current)
        (tokenStep enc spaceRoot current (readTo enc spaceRoot current p) s) := readTo_append p s
  rw [hread, field_foldl_of_silent (fun q₁ u q₂ hq => by rw [← hread]; exact h.last q₁ u q₂ hq),
    (tokenStep_spec enc spaceRoot current _ s).field, hstart, if_neg Bool.false_ne_true, htext]
  dsimp only
  rw [if_pos h.waits]

/-- The entries of a listing have their fields from where they belong **exactly if** no text that follows
the start tag of a field stands elsewhere: for every document, space and collection. -/
theorem fieldsIsolated_iff (enc : Str → Str) (spaceRoot current : Str) (doc : Multistatus) :
    FieldsIsolated enc spaceRoot current doc.tokens ↔
      TextsInPlace spaceRoot current doc.tokens := by
  constructor
  · intro h pre t post hdoc hlisted f hf p s q hpre htaken
    obtain ⟨e, hgives⟩ := hlisted.gives enc
    exact h pre t post e hdoc hgives f (fun hlength => hgives.listed.2.trans (hf hlength)) p s q hpre
      (supplies_iff.mpr htaken)
  · intro h pre t post e hdoc hgives f hf p s q hpre hsupplies
    obtain ⟨hlisted, hdir⟩ := hgives.listed
    exact h pre t post hdoc hlisted f (fun hlength => hdir.symm.trans (hf hlength)) p s q hpre
      (supplies_iff.mp hsupplies)

lemma misc_nil : (([] : List Token) ++ []).all Token.isMisc = true := rfl

/-- A response with an empty `getetag`, and its status behind. -/
def emptyTag : Multistatus where
  prolog := []
  name := "d:multistatus".toList
  attributes := " xmlns:d=\"DAV:\"".toList
  content :=
    .element "d:response".toList []
      (.element "d:href".toList [] (.token (.chars "/dav/x/a.txt".toList) .done) []
        (.element "d:propstat".toList []
          (.element "d:prop".toList [] (.element "d:getetag".toList [] .done [] .done) []
            (.element "d:status".toList [] (.token (.chars "HTTP/1.1 200 OK".toList) .done) [] .done))
          [] .done))
      [] .done
  blanks := []
  epilog := []
  root_name := oneFile.root_name
  misc := misc_nil
  nested := by decide
  wellFormed := by decide +kernel
  separated := by decide

/-- The status line becomes the etag of the file. -/
theorem emptyTag_not_isolated :
    ¬ FieldsIsolated id "/dav/x/".toList "/dav/x/".toList emptyTag.tokens := by
  intro h
  have htaken : Taken .getetag (emptyTag.tokens.take 11) (.chars "HTTP/1.1 200 OK".toList)
      ((emptyTag.tokens.take 14).drop 12) :=
    .of_silent (by decide +kernel) (by decide +kernel) (by decide +kernel)
  have hplace := h (emptyTag.tokens.take 14) (.close "d:response".toList [])
    [.close "d:multistatus".toList []] ⟨"a.txt".toList, "HTTP/1.1 200 OK".toList, 0, [], false⟩ rfl
    (by unfold Gives; decide +kernel) .getetag nofun _ _ _ rfl (supplies_iff.mpr htaken)
  exact absurd hplace.element (by decide +kernel)

end Dav

end OwncloudSync
