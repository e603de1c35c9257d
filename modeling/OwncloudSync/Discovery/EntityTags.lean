import OwncloudSync.Discovery.Encoding
import OwncloudSync.Discovery.WholeText
import Mathlib.Tactic.Common

/-!
# Two ways to an etag

The journal has the etag of an `ETag` header, of a GET, a PUT or the PATCH of a TUS upload; the next
listing has the etag of a `getetag` element.  Both lose the quotes at their ends.  **The header's is
empty if it is not of visible ASCII characters**, the element's is the first piece of its text.

`sameForm_iff` says of which tags, and of which spellings of them, the two are the same.
-/

namespace OwncloudSync

namespace Dav

/-- An entity tag, strong or weak, of any characters. -/
structure EntityTag where
  weak : Bool
  inner : Str

/-- The text of the tag. -/
def EntityTag.text (tag : EntityTag) : Str :=
  (if tag.weak then ['W', '/'] else []) ++ '"' :: tag.inner ++ ['"']

/-- The bytes of the header. -/
def EntityTag.header (tag : EntityTag) : List UInt8 := tag.text.flatMap String.utf8EncodeChar

/-- What `HeaderValue::to_str` accepts. -/
def isVisibleAscii (b : UInt8) : Bool := 32 ≤ b && b < 127 || b = 9

/-- `HeaderValue::to_str`. -/
def toStr (bytes : List UInt8) : Option Str :=
  if bytes.all isVisibleAscii then some (decodeUtf8Lossy bytes) else none

/-- `headers().get("etag").and_then(to_str).unwrap_or("")`, of a response with or without it. -/
def headerEtag (header : Option (List UInt8)) : Str := (header.bind toStr).getD []

/-- What `run_sync` puts into the journal. -/
def journaledEtag (header : Option (List UInt8)) : Str := trimQuotes (headerEtag header)

/-- **The journaled etag is the listed one**, if the listing reports the tag that the header had. -/
def SameForm (resolve enc : Str → Str) (spaceRoot current : Str) (tag : EntityTag)
    (ts : List Token) : Prop :=
  ∀ pre t post, ts = pre ++ t :: post → t.closes "response".toList = true →
    ∀ p inside tail selfClosed, LastElement .getetag pre p inside tail selfClosed →
      charData resolve inside = tag.text →
        (readTo enc spaceRoot current pre).etag = journaledEtag (some tag.header)

/-- The header can be read, and the first piece of the element's text is all of the tag, but for the quotes
at the ends; or the header cannot be read, and of the element nothing is read but quotes. -/
def SpelledOut (resolve : Str → Str) (tag : EntityTag) (ts : List Token) : Prop :=
  ∀ pre t post, ts = pre ++ t :: post → t.closes "response".toList = true →
    ∀ p inside tail selfClosed, LastElement .getetag pre p inside tail selfClosed →
      charData resolve inside = tag.text →
        if tag.header.all isVisibleAscii then Whole resolve .getetag p inside tail selfClosed
        else trimQuotes (readText .getetag p inside tail selfClosed) = []

variable {resolve enc : Str → Str} {spaceRoot current : Str} {tag : EntityTag} {ts : List Token}

/-- What the journal has of a tag: all of it, or nothing. -/
lemma journaledEtag_header (tag : EntityTag) : journaledEtag (some tag.header) =
    if tag.header.all isVisibleAscii then trimQuotes tag.text else [] := by
  rw [journaledEtag, headerEtag, Option.bind_some, toStr]
  split
  · rw [Option.getD_some, EntityTag.header, decodeUtf8Lossy_flatMap]
  · rfl

/-- **The two forms agree exactly if the tag is spelled out**: for every tag and every document, and
whatever its references stand for. -/
theorem sameForm_iff (resolve enc : Str → Str) (spaceRoot current : Str) (tag : EntityTag)
    (doc : Multistatus) : SameForm resolve enc spaceRoot current tag doc.tokens ↔
      SpelledOut resolve tag doc.tokens := by
  refine forall_congr' fun pre => forall_congr' fun t => forall_congr' fun post =>
    forall_congr' fun _ => forall_congr' fun _ => forall_congr' fun p => forall_congr' fun inside =>
    forall_congr' fun tail => forall_congr' fun selfClosed => forall_congr' fun hlast =>
    forall_congr' fun hdata => ?_
  have hetag : (readTo enc spaceRoot current pre).etag =
      trimQuotes (readText .getetag p inside tail selfClosed) :=
    Sum.inl.inj (((readTo_spec enc spaceRoot current pre).2.2.1 .getetag).trans
      (congrArg (reading .getetag) hlast.heldText))
  rw [hetag, journaledEtag_header, whole_iff, hdata]
  split
  · exact (Sum.inl_injective.eq_iff).symm
  · rfl

/-! ## Ampersands -/

lemma mem_trimQuotes {c : Char} {s : Str} (hc : c ≠ '"') (hmem : c ∈ s) : c ∈ trimQuotes s := by
  have hdrop : ∀ {s : Str}, c ∈ s → c ∈ s.dropWhile (· == '"') := by
    intro s hmem
    rw [← List.takeWhile_append_dropWhile (p := (· == '"')) (l := s), List.mem_append] at hmem
    exact hmem.resolve_left (fun h => hc (by simpa using List.mem_takeWhile_imp h))
  rw [trimQuotes, List.mem_reverse]
  exact hdrop (List.mem_reverse.mpr (hdrop hmem))

lemma mem_of_mem_trimQuotes {c : Char} {s : Str} (h : c ∈ trimQuotes s) : c ∈ s := by
  rw [trimQuotes, List.mem_reverse] at h
  exact (List.dropWhile_sublist _).subset (List.mem_reverse.mp ((List.dropWhile_sublist _).subset h))

lemma mem_of_mem_trimBlanks {c : Char} {s : Str} (h : c ∈ trimBlanks s) : c ∈ s := by
  rw [trimBlanks, List.mem_reverse] at h
  exact (List.dropWhile_sublist _).subset (List.mem_reverse.mp ((List.dropWhile_sublist _).subset h))

/-- No piece of text has an ampersand. -/
lemma ampersand_not_mem_text {t : Token} {text : Str} (ht : t.wellFormed = true)
    (htext : t.text? = some text) : '&' ∉ text := by
  cases t with
  | chars source =>
      rw [Token.text?] at htext
      split at htext
      · cases htext
      · obtain rfl := Option.some.inj htext
        intro hmem
        rw [Token.wellFormed, Bool.and_eq_true, List.all_eq_true] at ht
        exact absurd (ht.2 '&' (mem_of_mem_trimBlanks hmem)) (by decide)
  | _ => cases htext

/-- What is held is a text of the document. -/
lemma ampersand_not_mem_heldText {f : Element} {back : List Token}
    (hback : ∀ t ∈ back, t.wellFormed = true) : '&' ∉ heldText f back := by
  induction back with
  | nil => exact List.not_mem_nil
  | cons t earlier ih =>
      rw [List.forall_mem_cons] at hback
      rw [heldText]
      split
      · exact List.not_mem_nil
      · split
        · rename_i text htext
          split
          · exact ampersand_not_mem_text hback.1 htext
          · exact ih hback.2
        · exact ih hback.2

/-- **A tag with an ampersand never has the same form**, however the listing spells it. -/
lemma journaledEtag_ne_of_ampersand {pre post : List Token} {doc : Multistatus} (hamp : '&' ∈ tag.text)
    (hvisible : tag.header.all isVisibleAscii = true) (hdoc : doc.tokens = pre ++ post) :
    (readTo enc spaceRoot current pre).etag ≠ journaledEtag (some tag.header) := by
  have hetag : (readTo enc spaceRoot current pre).etag =
      trimQuotes (heldText .getetag pre.reverse) :=
    Sum.inl.inj ((readTo_spec enc spaceRoot current pre).2.2.1 .getetag)
  rw [hetag, journaledEtag_header, if_pos hvisible]
  intro heq
  have hmem : '&' ∈ trimQuotes (heldText .getetag pre.reverse) :=
    heq ▸ mem_trimQuotes (by decide) hamp
  refine ampersand_not_mem_heldText (fun t ht => ?_) (mem_of_mem_trimQuotes hmem)
  have hmem : t ∈ doc.tokens := hdoc ▸ List.mem_append_left _ (List.mem_reverse.mp ht)
  exact List.all_eq_true.mp doc.wellFormed t hmem

/-- The tag `"a&b"`, as it is in a header. -/
def inquiring : EntityTag := ⟨false, "a&b".toList⟩

/-- A response with this tag. -/
def inquiringTag : Multistatus where
  prolog := []
  name := "d:multistatus".toList
  attributes := " xmlns:d=\"DAV:\"".toList
  content :=
    .element "d:response".toList []
      (.element "d:href".toList [] (.token (.chars "/dav/x/a.txt".toList) .done) []
        (.element "d:getetag".toList []
          (.token (.chars "\"a".toList) (.token (.reference "amp".toList)
            (.token (.chars "b\"".toList) .done))) [] .done))
      [] .done
  blanks := []
  epilog := []
  root_name := oneFile.root_name
  misc := misc_nil
  nested := by decide
  wellFormed := by decide
  separated := by decide

/-- The journal has `a&b`, the listing `a`. -/
theorem inquiring_not_sameForm :
    ¬ SameForm predefined id "/dav/x/".toList "/dav/x/".toList inquiring inquiringTag.tokens := by
  intro h
  have hlast : LastElement .getetag (inquiringTag.tokens.take 5 ++ .start "d:getetag".toList [] ::
      ((inquiringTag.tokens.take 9).drop 6 ++ .close "d:getetag".toList [] :: []))
      (inquiringTag.tokens.take 5) ((inquiringTag.tokens.take 9).drop 6) [] false :=
    .tagged (by decide) (by decide) (by decide) (by unfold Without; decide)
      (by decide) (fun t ht => nomatch ht)
  have hetag := h _ (.close "d:response".toList []) [.close "d:multistatus".toList []] rfl
    (by decide) _ _ _ _ hlast (by decide)
  exact absurd hetag (by decide)

end Dav

end OwncloudSync
