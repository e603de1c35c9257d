import Mathlib.Data.List.Basic
import Mathlib.Tactic.Common

/-!
# Stems and extensions of file names

The rules by which `std::path` cuts a file name into stem and extension: the cut is at the
**last** dot, a name whose only dot is the leading one has no extension, and neither has `..`.
A name is a list of characters.

`rsplitDot_eq_some` and `rsplitDot_eq_none` say what the cut at the last dot means; everything
else is derived from them.  `name_of_stem_extension` puts a name together again, and
`rsplitFileAtDot_join` reads stem and extension off a name built as `s ++ "." ++ e`.
-/

namespace FileName

/-- Cut a name at its last dot, if it has one. -/
def rsplitDot : List Char → Option (List Char × List Char)
  | [] => none
  | c :: cs =>
      match rsplitDot cs with
      | some (b, a) => some (c :: b, a)
      | none => if c = '.' then some ([], cs) else none

lemma rsplitDot_eq_none {n : List Char} : rsplitDot n = none ↔ '.' ∉ n := by
  induction n with
  | nil => simp [rsplitDot]
  | cons c cs ih =>
      simp only [rsplitDot, List.mem_cons, not_or]
      cases h : rsplitDot cs with
      | some ba =>
          have hin : '.' ∈ cs := by
            by_contra hc
            rw [ih.mpr hc] at h
            cases h
          simp [hin]
      | none =>
          have hnot := ih.mp h
          by_cases hc : c = '.'
          · simp [hc]
          · simp [hc, hnot, Ne.symm hc]

lemma rsplitDot_eq_some {n b a : List Char} :
    rsplitDot n = some (b, a) ↔ n = b ++ '.' :: a ∧ '.' ∉ a := by
  induction n generalizing b a with
  | nil => simp [rsplitDot]
  | cons c cs ih =>
      simp only [rsplitDot]
      cases h : rsplitDot cs with
      | some ba =>
          obtain ⟨b', a'⟩ := ba
          obtain ⟨hcs, hna⟩ := ih.mp h
          simp only [Option.some.injEq, Prod.mk.injEq]
          constructor
          · rintro ⟨rfl, rfl⟩
            exact ⟨by rw [hcs, List.cons_append], hna⟩
          · rintro ⟨heq, hna'⟩
            cases b with
            | nil =>
                obtain ⟨-, rfl⟩ := List.cons.inj heq
                exact absurd (by rw [hcs]; simp) hna'
            | cons d b =>
                obtain ⟨rfl, hcs'⟩ := List.cons.inj heq
                have h' : rsplitDot cs = some (b, a) := ih.mpr ⟨hcs', hna'⟩
                rw [h] at h'
                cases h'
                exact ⟨rfl, rfl⟩
      | none =>
          have hnot := rsplitDot_eq_none.mp h
          constructor
          · intro hc
            by_cases hdot : c = '.'
            · rw [if_pos hdot] at hc
              cases hc
              exact ⟨by rw [hdot, List.nil_append], hnot⟩
            · rw [if_neg hdot] at hc
              cases hc
          · rintro ⟨heq, -⟩
            cases b with
            | nil =>
                obtain ⟨rfl, rfl⟩ := List.cons.inj heq
                simp
            | cons d b =>
                obtain ⟨-, hcs'⟩ := List.cons.inj heq
                exact absurd (by rw [hcs']; simp) hnot

/-- `rsplit_file_at_dot`: the stem of a name and its extension, if it has one. -/
def rsplitFileAtDot (n : List Char) : List Char × Option (List Char) :=
  if n = ['.', '.'] then (n, none)
  else
    match rsplitDot n with
    | none => (n, none)
    | some ([], _) => (n, none)
    | some (b, a) => (b, some a)

/-- `Path::file_stem`. -/
def fileStem (n : List Char) : List Char := (rsplitFileAtDot n).1

/-- `Path::extension`. -/
def extension (n : List Char) : Option (List Char) := (rsplitFileAtDot n).2

/-- Is it the name of a file?  The empty name and `..` are not, and have no stem. -/
def isFileName (n : List Char) : Bool := n ≠ [] && n ≠ ['.', '.']

/-- `with_extension`: the stem with a new extension; what is no file name is left alone. -/
def withExtension (n ext : List Char) : List Char :=
  if isFileName n then fileStem n ++ '.' :: ext else n

lemma isFileName_iff {n : List Char} : isFileName n = true ↔ n ≠ [] ∧ n ≠ ['.', '.'] := by
  simp [isFileName]

/-- Cutting a name built from a non-empty stem and a dot-free extension gives both back. -/
lemma rsplitFileAtDot_join {s e : List Char} (hs : s ≠ []) (he : '.' ∉ e)
    (hne : s ++ '.' :: e ≠ ['.', '.']) : rsplitFileAtDot (s ++ '.' :: e) = (s, some e) := by
  have hcut : rsplitDot (s ++ '.' :: e) = some (s, e) := rsplitDot_eq_some.mpr ⟨rfl, he⟩
  rw [rsplitFileAtDot, if_neg hne, hcut]
  cases s with
  | nil => exact absurd rfl hs
  | cons c cs => rfl

/-- What the cut of a name can be: no extension, because the name is `..`, has no dot, or has
only a leading one; or a non-empty stem and the dot-free rest. -/
lemma rsplitFileAtDot_cases (n : List Char) :
    (rsplitFileAtDot n = (n, none) ∧
      (n = ['.', '.'] ∨ '.' ∉ n ∨ ∃ cs, n = '.' :: cs ∧ '.' ∉ cs)) ∨
    ∃ b a, b ≠ [] ∧ '.' ∉ a ∧ n = b ++ '.' :: a ∧ rsplitFileAtDot n = (b, some a) := by
  by_cases hdd : n = ['.', '.']
  · left
    exact ⟨by rw [rsplitFileAtDot, if_pos hdd], Or.inl hdd⟩
  · cases hcut : rsplitDot n with
    | none =>
        left
        refine ⟨?_, Or.inr (Or.inl (rsplitDot_eq_none.mp hcut))⟩
        rw [rsplitFileAtDot, if_neg hdd, hcut]
    | some ba =>
        obtain ⟨b, a⟩ := ba
        obtain ⟨hn, ha⟩ := rsplitDot_eq_some.mp hcut
        cases b with
        | nil =>
            left
            refine ⟨?_, Or.inr (Or.inr ⟨a, hn, ha⟩)⟩
            rw [rsplitFileAtDot, if_neg hdd, hcut]
        | cons c b =>
            right
            refine ⟨c :: b, a, by simp, ha, hn, ?_⟩
            rw [rsplitFileAtDot, if_neg hdd, hcut]

/-- A name is its stem, followed by a dot and its extension if it has one. -/
lemma name_of_stem_extension (n : List Char) :
    n = match extension n with
      | some e => fileStem n ++ '.' :: e
      | none => fileStem n := by
  unfold extension fileStem
  rcases rsplitFileAtDot_cases n with ⟨h, -⟩ | ⟨b, a, -, -, hn, h⟩
  · rw [h]
  · rw [h]
    exact hn

/-- The extension of a name contains no dot. -/
lemma dot_notMem_extension {n e : List Char} (h : extension n = some e) : '.' ∉ e := by
  unfold extension at h
  rcases rsplitFileAtDot_cases n with ⟨hc, -⟩ | ⟨b, a, -, ha, -, hc⟩
  · rw [hc] at h
    cases h
  · rw [hc] at h
    cases h
    exact ha

/-- Two names with the same stem and the same extension are equal. -/
lemma eq_of_stem_extension {n m : List Char} (hs : fileStem n = fileStem m)
    (he : extension n = extension m) : n = m := by
  rw [name_of_stem_extension n, name_of_stem_extension m, he, hs]

/-- Only the empty name has an empty stem. -/
lemma fileStem_ne_nil {n : List Char} (hn : n ≠ []) : fileStem n ≠ [] := by
  unfold fileStem
  rcases rsplitFileAtDot_cases n with ⟨hc, -⟩ | ⟨b, a, hb, -, -, hc⟩
  · rw [hc]
    exact hn
  · rw [hc]
    exact hb

/-- A non-empty dot-free extension put on a file name is its extension. -/
lemma rsplitFileAtDot_withExtension {n ext : List Char} (hn : isFileName n) (he : '.' ∉ ext)
    (hne : ext ≠ []) : rsplitFileAtDot (withExtension n ext) = (fileStem n, some ext) := by
  rw [withExtension, if_pos hn]
  refine rsplitFileAtDot_join (fileStem_ne_nil (isFileName_iff.mp hn).1) he ?_
  intro hc
  have hlast : (fileStem n ++ '.' :: ext).getLast? = some '.' := by rw [hc]; rfl
  rw [List.getLast?_append_cons, List.getLast?_cons_of_ne_nil hne] at hlast
  exact he (List.mem_of_getLast? hlast)

lemma extension_withExtension {n ext : List Char} (hn : isFileName n) (he : '.' ∉ ext)
    (hne : ext ≠ []) : extension (withExtension n ext) = some ext := by
  rw [extension, rsplitFileAtDot_withExtension hn he hne]

/-- Replacing the extension twice is replacing it once. -/
lemma withExtension_idem {n ext : List Char} (he : '.' ∉ ext) (hne : ext ≠ []) :
    withExtension (withExtension n ext) ext = withExtension n ext := by
  by_cases hn : isFileName n = true
  · have hstem : fileStem (withExtension n ext) = fileStem n := by
      rw [fileStem, rsplitFileAtDot_withExtension hn he hne]
    have hfile : isFileName (withExtension n ext) = true := by
      have hsome := extension_withExtension hn he hne
      rw [isFileName_iff]
      constructor
      · intro hc
        rw [hc] at hsome
        cases hsome
      · intro hc
        rw [hc] at hsome
        cases hsome
    conv_lhs => rw [withExtension, if_pos hfile, hstem]
    rw [withExtension, if_pos hn]
  · have hself : withExtension n ext = n := by rw [withExtension, if_neg hn]
    rw [hself, hself]

end FileName
