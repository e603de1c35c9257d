import OwncloudSync.Discovery.FieldSources
import Mathlib.Tactic.Common

/-!
# How much of a text is read

A reference within a text is an event of its own, and so is a CDATA section; `parse_propfind` looks at
neither.  What it takes for the value of an element is **the first piece of its text**, without the blanks
around it, and if there is none the next piece of text behind the element.

`valuesComplete_iff` says when this is all of the element's character data.  Of several elements of one
name in a response the last is meant.
-/

namespace OwncloudSync

namespace Dav

/-- The first piece of text that the reader reports. -/
def firstText (ts : List Token) : Option Str := ts.findSome? Token.text?

/-- The character data of what stands in an element; `resolve` is what a reference stands for. -/
def charData (resolve : Str → Str) (ts : List Token) : Str :=
  ts.flatMap fun t =>
    match t with
    | .chars text => text
    | .cdata text => text
    | .reference name => resolve name
    | _ => []

/-- No element of the field begins here, and no response begins or ends. -/
def Without (f : Element) (ts : List Token) : Prop :=
  ∀ t ∈ ts, t.starts f.name = false ∧ t.selfCloses f.name = false ∧
    t.starts "response".toList = false ∧ t.closes "response".toList = false

/-- The last element of the field in a response of which `pre` has been read: what stands before it, in
it and behind it. -/
inductive LastElement (f : Element) : List Token → List Token → List Token → List Token → Bool → Prop
  | selfClosed {name attributes : Str} {p tail : List Token} :
      localName name = f.name → withinResponse p.reverse = true → Without f tail →
      LastElement f (p ++ .empty name attributes :: tail) p [] tail true
  | tagged {name attributes name' blanks : Str} {p inside tail : List Token} :
      localName name = f.name → localName name' = f.name → withinResponse p.reverse = true →
      Without f inside → (∀ t ∈ inside, t.closes f.name = false) → Without f tail →
      LastElement f (p ++ .start name attributes :: (inside ++ .close name' blanks :: tail)) p inside
        tail false

/-- What is read for an element that has no text: the next one, or an earlier one. -/
def insteadText (f : Element) (p tail : List Token) (selfClosed : Bool) : Str :=
  if selfClosed && !follows f p.reverse then heldText f p.reverse
  else (firstText tail).getD (heldText f p.reverse)

/-- What is read for an element. -/
def readText (f : Element) (p inside tail : List Token) (selfClosed : Bool) : Str :=
  (firstText inside).getD (insteadText f p tail selfClosed)

/-- The values that `parse_propfind` has at the end of a response are the character data of its
elements. -/
def ValuesComplete (resolve : Str → Str) (enc : Str → Str) (spaceRoot current : Str)
    (ts : List Token) : Prop :=
  ∀ pre t post, ts = pre ++ t :: post → t.closes "response".toList = true →
    ∀ f, f ≠ .getcontentlength → ∀ p inside tail selfClosed,
      LastElement f pre p inside tail selfClosed →
        field (readTo enc spaceRoot current pre) f = reading f (charData resolve inside)

/-- **The first piece of text is all of it.**  An element without text is empty, and nothing is read
instead, unless it happens to be what the element says by references. -/
def Whole (resolve : Str → Str) (f : Element) (p inside tail : List Token) (selfClosed : Bool) : Prop :=
  match firstText inside with
  | some text => reading f text = reading f (charData resolve inside)
  | none => reading f (insteadText f p tail selfClosed) = reading f (charData resolve inside)

/-- The last text of every element of a response is the whole of it. -/
def WholeTexts (resolve : Str → Str) (ts : List Token) : Prop :=
  ∀ pre t post, ts = pre ++ t :: post → t.closes "response".toList = true →
    ∀ f, f ≠ .getcontentlength → ∀ p inside tail selfClosed,
      LastElement f pre p inside tail selfClosed → Whole resolve f p inside tail selfClosed

variable {resolve enc : Str → Str} {spaceRoot current : Str} {f : Element}
  {ts pre p q inside tail : List Token} {t : Token} {selfClosed : Bool}

/-! ## What follows an element -/

lemma firstText_concat (q : List Token) (t : Token) :
    firstText (q ++ [t]) = (firstText q).or t.text? := by
  rw [firstText, firstText, List.findSome?_append, List.findSome?_singleton]

/-- Without a start tag only the first text matters, and only if it is waited for. -/
lemma lookBack_append (p : List Token) {q : List Token}
    (hq : ∀ t ∈ q, t.starts f.name = false ∧ t.starts "response".toList = false) :
    follows f (p ++ q).reverse = (follows f p.reverse && (firstText q).isNone) ∧
      heldText f (p ++ q).reverse =
        if follows f p.reverse then (firstText q).getD (heldText f p.reverse)
        else heldText f p.reverse := by
  induction q using List.reverseRecOn with
  | nil =>
      rw [List.append_nil]
      exact ⟨(Bool.and_true _).symm, (ite_self _).symm⟩
  | append_singleton q t ih =>
      obtain ⟨hfollows, hheld⟩ := ih (fun u hu => hq u (List.mem_append_left _ hu))
      obtain ⟨hstart, hresponse⟩ := hq t (List.mem_append_right _ (List.mem_singleton_self t))
      rw [← List.append_assoc, List.reverse_concat, follows, heldText, hstart, hresponse, hfollows,
        hheld, firstText_concat]
      cases htext : t.text? with
      | none => simp
      | some text =>
          cases hfirst : firstText q with
          | none => cases follows f p.reverse <;> simp
          | some first => cases follows f p.reverse <;> simp

lemma Without.starts (h : Without f q) :
    ∀ t ∈ q, t.starts f.name = false ∧ t.starts "response".toList = false :=
  fun t ht => ⟨(h t ht).1, (h t ht).2.2.1⟩

/-- What the parser has of a field after an element of it. -/
lemma LastElement.heldText (h : LastElement f pre p inside tail selfClosed) :
    heldText f pre.reverse = readText f p inside tail selfClosed := by
  cases h with
  | @selfClosed name attributes _ _ hname hin htail =>
      have hq : ∀ t ∈ Token.empty name attributes :: tail, t.starts f.name = false ∧
          t.starts "response".toList = false := List.forall_mem_cons.mpr ⟨⟨rfl, rfl⟩, htail.starts⟩
      have hfirst : firstText (Token.empty name attributes :: tail) = firstText tail := rfl
      have hnone : firstText [] = none := rfl
      rw [(lookBack_append p hq).2, readText, insteadText, hfirst, hnone]
      cases follows f p.reverse <;> rfl
  | @tagged name attributes name' blanks _ _ _ hname hname' hin hinside hclose htail =>
      have hq : ∀ t ∈ inside ++ .close name' blanks :: tail, t.starts f.name = false ∧
          t.starts "response".toList = false :=
        List.forall_mem_append.mpr ⟨hinside.starts, List.forall_mem_cons.mpr
          ⟨⟨rfl, rfl⟩, htail.starts⟩⟩
      have hstart : (Token.start name attributes).starts f.name = true := decide_eq_true hname
      have hresponse : (Token.start name attributes).starts "response".toList = false :=
        decide_eq_false (hname ▸ f.name_ne.1)
      have hfollows : follows f (p ++ [Token.start name attributes]).reverse = true := by
        rw [List.reverse_concat, follows, hstart, hin, Bool.or_true]
        rfl
      have hheld : Dav.heldText f (p ++ [Token.start name attributes]).reverse =
          Dav.heldText f p.reverse := by
        rw [List.reverse_concat, Dav.heldText, hresponse]
        rfl
      rw [List.append_cons, (lookBack_append _ hq).2, hfollows, hheld, if_pos rfl, firstText,
        List.findSome?_append, readText, insteadText, Bool.false_and, if_neg Bool.false_ne_true]
      cases hfirst : List.findSome? Token.text? inside with
      | none =>
          rw [firstText, hfirst]
          rfl
      | some text =>
          rw [firstText, hfirst]
          rfl

lemma whole_iff : Whole resolve f p inside tail selfClosed ↔
    reading f (readText f p inside tail selfClosed) = reading f (charData resolve inside) := by
  rw [Whole, readText]
  cases firstText inside <;> rfl

/-- **The values are complete exactly if the first piece of every text is all of it**: for every
document, and whatever its references stand for. -/
theorem valuesComplete_iff (resolve enc : Str → Str) (spaceRoot current : Str) (doc : Multistatus) :
    ValuesComplete resolve enc spaceRoot current doc.tokens ↔ WholeTexts resolve doc.tokens := by
  refine forall_congr' fun pre => forall_congr' fun t => forall_congr' fun post =>
    forall_congr' fun _ => forall_congr' fun _ => forall_congr' fun f => forall_congr' fun _ =>
    forall_congr' fun p => forall_congr' fun inside => forall_congr' fun tail =>
    forall_congr' fun selfClosed => forall_congr' fun hlast => ?_
  rw [(readTo_spec enc spaceRoot current pre).2.2.1 f, hlast.heldText, whole_iff]

/-! ## A name with an ampersand -/

/-- `amp`, `lt`, `gt`, `quot` and `apos`. -/
def predefined (name : Str) : Str :=
  if name = "amp".toList then ['&']
  else if name = "lt".toList then ['<']
  else if name = "gt".toList then ['>']
  else if name = "quot".toList then ['"']
  else if name = "apos".toList then ['\'']
  else []

/-- A response for `a&b.txt`. -/
def ampersand : Multistatus where
  prolog := []
  name := "d:multistatus".toList
  attributes := " xmlns:d=\"DAV:\"".toList
  content :=
    .element "d:response".toList []
      (.element "d:href".toList []
        (.token (.chars "/dav/x/a".toList) (.token (.reference "amp".toList)
          (.token (.chars "b.txt".toList) .done))) [] .done)
      [] .done
  blanks := []
  epilog := []
  root_name := oneFile.root_name
  misc := misc_nil
  nested := by decide
  wellFormed := by decide
  separated := by decide

/-- The entry is `a`. -/
theorem ampersand_not_complete :
    ¬ ValuesComplete predefined id "/dav/x/".toList "/dav/x/".toList ampersand.tokens := by
  intro h
  have hlast : LastElement .href (ampersand.tokens.take 2 ++ .start "d:href".toList [] ::
      ((ampersand.tokens.take 6).drop 3 ++ .close "d:href".toList [] :: [])) (ampersand.tokens.take 2)
      ((ampersand.tokens.take 6).drop 3) [] false :=
    .tagged (by decide) (by decide) (by decide) (by unfold Without; decide)
      (by decide) (fun t ht => nomatch ht)
  have hvalue := h _ (.close "d:response".toList []) [.close "d:multistatus".toList []] rfl
    (by decide) .href nofun _ _ _ _ hlast
  exact absurd hvalue (by decide)

end Dav

end OwncloudSync
