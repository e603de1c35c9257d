import Mathlib.Data.List.DropRight
import Mathlib.Tactic.Common

/-!
# Taking texts apart

The `str` methods that take a text apart — `split_once`, `splitn`, `lines`, `split_whitespace` — over
lists of characters; `trim_end_matches` is `List.rdropWhile`.  `splitOnce_append`, `splitOnce_takeWhile`
and `splitOnce_eq_none` say where a text is cut.

`cutLines` takes the complete lines off the front of a text; `cutLines_prefix` says what it finds in
the first part of a stream of lines, wherever the part ends.

`splitOn_suffix_iff` says when a text ends with given parts.

`utf8` gives the bytes of a text.

`partCounts` cuts a text at every separator and counts a character in the parts: what stands before
the first separator matters for the first part only (`tail_partCounts_append`), and what is taken off
the end for none (`partCounts_rdropWhile`).
-/

namespace Text

/-- `str::split_once`: before and after the first `c`. -/
def splitOnce (c : Char) : List Char → Option (List Char × List Char)
  | [] => none
  | a :: s => if a = c then some ([], s) else (splitOnce c s).map (fun (l, r) => (a :: l, r))

/-- `str::splitn`: at most `n` parts, the last one being what is left. -/
def splitN (c : Char) : ℕ → List Char → List (List Char)
  | 0, _ => []
  | 1, s => [s]
  | n + 2, s =>
      match splitOnce c s with
      | none => [s]
      | some (l, r) => l :: splitN c (n + 1) r

/-- The words between separators, as `str::split_whitespace` has them. -/
def words (separates : Char → Bool) (s : List Char) : List (List Char) :=
  (s.splitOnP separates).filter (fun word => !word.isEmpty)

/-- `str::strip_suffix` of one character, or the text as it is. -/
def dropSuffix (c : Char) (s : List Char) : List Char :=
  if s.getLast? = some c then s.dropLast else s

/-- The first of the `lines` of a text; a `\r` before the `\n` is no part of it. -/
def firstLine (s : List Char) : Option (List Char) :=
  match splitOnce '\n' s with
  | some (line, _) => some (dropSuffix '\r' line)
  | none => if s = [] then none else some s

variable {c : Char} {l r s : List Char}

/-- A text is cut at the first separator. -/
lemma splitOnce_append (h : c ∉ l) : splitOnce c (l ++ c :: r) = some (l, r) := by
  induction l with
  | nil => simp [splitOnce]
  | cons a l ih =>
      rw [List.mem_cons, not_or] at h
      rw [List.cons_append, splitOnce, if_neg (Ne.symm h.1), ih h.2]
      rfl

lemma splitOnce_eq_none : splitOnce c s = none ↔ c ∉ s := by
  induction s with
  | nil => simp [splitOnce]
  | cons a s ih =>
      by_cases ha : a = c
      · simp [splitOnce, ha]
      · rw [splitOnce, if_neg ha, Option.map_eq_none_iff, ih, List.mem_cons, not_or]
        exact ⟨fun h => ⟨Ne.symm ha, h⟩, And.right⟩

/-- A text that holds the separator is cut where its first part ends. -/
lemma splitOnce_takeWhile (c : Char) (s t : List Char) :
    ∃ r, splitOnce c (s ++ c :: t) = some (s.takeWhile (· ≠ c), r) := by
  induction s with
  | nil => exact ⟨t, by simp [splitOnce]⟩
  | cons a s ih =>
      obtain ⟨r, hr⟩ := ih
      by_cases ha : a = c
      · exact ⟨s ++ c :: t, by simp [splitOnce, ha]⟩
      · refine ⟨r, ?_⟩
        rw [List.cons_append, splitOnce, if_neg ha, hr, List.takeWhile_cons_of_pos (by simpa)]
        rfl

lemma eq_of_splitOnce (h : splitOnce c s = some (l, r)) : s = l ++ c :: r ∧ c ∉ l := by
  induction s generalizing l with
  | nil => cases h
  | cons a s ih =>
      rw [splitOnce] at h
      split at h
      · rename_i ha
        cases h
        exact ⟨by rw [ha]; rfl, List.not_mem_nil⟩
      · rename_i ha
        obtain ⟨⟨l', r'⟩, hs, hlr⟩ := Option.map_eq_some_iff.mp h
        cases hlr
        obtain ⟨rfl, hl'⟩ := ih hs
        exact ⟨rfl, by simp [Ne.symm ha, hl']⟩

/-- What is taken off the end stops at a character that stays. -/
lemma rdropWhile_append_cons {p : Char → Bool} (h : p c = false) :
    (l ++ c :: r).rdropWhile p = l ++ c :: r.rdropWhile p := by
  induction r using List.reverseRecOn with
  | nil =>
      rw [List.rdropWhile_nil, List.rdropWhile_concat_neg]
      simp [h]
  | append_singleton r a ih =>
      rw [← List.cons_append, ← List.append_assoc]
      by_cases ha : p a = true
      · rw [List.rdropWhile_concat_pos _ _ _ ha, List.rdropWhile_concat_pos _ _ _ ha, ih]
      · rw [List.rdropWhile_concat_neg _ _ _ ha, List.rdropWhile_concat_neg _ _ _ ha,
          List.append_assoc]
        rfl

/-! ## Lines -/

/-- The lines of a text that have come to their line feed, and what is behind the last one. -/
def cutLines : List Char → List (List Char) × List Char
  | [] => ([], [])
  | a :: s =>
      let r := cutLines s
      if a = '\n' then ([] :: r.1, r.2)
      else
        match r.1 with
        | [] => ([], a :: r.2)
        | l :: ls => ((a :: l) :: ls, r.2)

/-- Lines as they are sent. -/
def unlines (ls : List (List Char)) : List Char := ls.flatMap (· ++ ['\n'])

lemma cutLines_of_not_mem (h : '\n' ∉ s) : cutLines s = ([], s) := by
  induction s with
  | nil => rfl
  | cons a s ih =>
      rw [List.mem_cons, not_or] at h
      rw [cutLines, ih h.2]
      dsimp only
      rw [if_neg (Ne.symm h.1)]

lemma cutLines_line (h : '\n' ∉ l) :
    cutLines (l ++ '\n' :: s) = (l :: (cutLines s).1, (cutLines s).2) := by
  induction l with
  | nil => rfl
  | cons a l ih =>
      rw [List.mem_cons, not_or] at h
      rw [List.cons_append, cutLines, ih h.2]
      dsimp only
      rw [if_neg (Ne.symm h.1)]

lemma cutLines_unlines {ls : List (List Char)} (h : ∀ l ∈ ls, '\n' ∉ l) :
    cutLines (unlines ls) = (ls, []) := by
  induction ls with
  | nil => rfl
  | cons l ls ih =>
      obtain ⟨hl, hls⟩ := List.forall_mem_cons.mp h
      have hcons : unlines (l :: ls) = l ++ '\n' :: unlines ls := by simp [unlines]
      rw [hcons, cutLines_line hl, ih hls]

/-- No line holds a line feed, and together with the rest they are the text. -/
lemma cutLines_spec (s : List Char) : (∀ l ∈ (cutLines s).1, '\n' ∉ l) ∧ '\n' ∉ (cutLines s).2 ∧
    unlines (cutLines s).1 ++ (cutLines s).2 = s := by
  induction s with
  | nil => simp [cutLines, unlines]
  | cons a s ih =>
      obtain ⟨hlines, hrest, htext⟩ := ih
      rw [cutLines]
      by_cases ha : a = '\n'
      · rw [if_pos ha]
        refine ⟨List.forall_mem_cons.mpr ⟨by simp, hlines⟩, hrest, ?_⟩
        have hcons : unlines ([] :: (cutLines s).1) = '\n' :: unlines (cutLines s).1 := by
          simp [unlines]
        rw [hcons, List.cons_append, htext, ha]
      · rw [if_neg ha]
        cases hcut : (cutLines s).1 with
        | nil =>
            rw [hcut] at htext
            refine ⟨by simp, by simp [Ne.symm ha, hrest], ?_⟩
            exact congrArg (a :: ·) htext
        | cons l ls =>
            rw [hcut] at htext hlines
            obtain ⟨hl, hls⟩ := List.forall_mem_cons.mp hlines
            refine ⟨List.forall_mem_cons.mpr ⟨by simp [Ne.symm ha, hl], hls⟩, hrest, ?_⟩
            exact congrArg (a :: ·) htext

/-- A text that ends with a line feed leaves nothing behind it. -/
lemma cutLines_concat (s : List Char) : (cutLines (s ++ ['\n'])).2 = [] := by
  obtain ⟨-, hrest, htext⟩ := cutLines_spec (s ++ ['\n'])
  rcases List.eq_nil_or_concat (cutLines (s ++ ['\n'])).2 with hnil | ⟨l, b, hb⟩
  · exact hnil
  · rw [hb, List.concat_eq_append, ← List.append_assoc] at htext
    have hlast : b = '\n' := List.singleton_inj.mp (List.append_inj' htext rfl).2
    rw [hb, hlast] at hrest
    simp at hrest

lemma cutLines_ne_nil (h : '\n' ∈ s) : (cutLines s).1 ≠ [] := by
  intro hnil
  obtain ⟨-, hrest, htext⟩ := cutLines_spec s
  rw [hnil, unlines, List.flatMap_nil, List.nil_append] at htext
  rw [htext] at hrest
  exact hrest h

/-- **What a part of a stream of lines is cut into**: as many of the lines as have come to their line
feed, and the beginning of the next one. -/
lemma cutLines_prefix {ls : List (List Char)} (h : ∀ l ∈ ls, '\n' ∉ l) {t : List Char}
    (hst : s ++ t = unlines ls) :
    (cutLines s).1 = ls.take (cutLines s).1.length ∧
      (cutLines s).2 ++ t = unlines (ls.drop (cutLines s).1.length) := by
  induction ls generalizing s with
  | nil =>
      obtain ⟨rfl, rfl⟩ := List.append_eq_nil_iff.mp hst
      exact ⟨rfl, rfl⟩
  | cons l ls ih =>
      obtain ⟨hl, hls⟩ := List.forall_mem_cons.mp h
      have hcons : s ++ t = (l ++ ['\n']) ++ unlines ls := by rw [hst]; simp [unlines]
      rcases List.append_eq_append_iff.mp hcons with ⟨u, hu, ht⟩ | ⟨u, hu, ht⟩
      · -- the part ends within the first line, or with its line feed
        rcases List.eq_nil_or_concat u with rfl | ⟨v, b, rfl⟩
        · have hs : s = l ++ '\n' :: [] := by rw [List.append_nil] at hu; exact hu.symm
          rw [hs, cutLines_line hl]
          refine ⟨by simp [cutLines], ?_⟩
          simpa [cutLines] using ht
        · rw [List.concat_eq_append, ← List.append_assoc] at hu
          obtain ⟨hsv, -⟩ := List.append_inj' hu rfl
          have hs : '\n' ∉ s := fun hmem => hl (by rw [hsv]; exact List.mem_append_left _ hmem)
          rw [cutLines_of_not_mem hs]
          exact ⟨rfl, hst⟩
      · have hs : s = l ++ '\n' :: u := by rw [hu]; simp
        obtain ⟨hlines, hrest⟩ := ih hls ht.symm
        rw [hs, cutLines_line hl]
        simp only [List.length_cons, List.take_succ_cons, List.drop_succ_cons]
        exact ⟨by rw [← hlines], hrest⟩

/-! ## Parts -/

/-- A part has no separator, and is part of the text. -/
lemma mem_splitOnP {separates : Char → Bool} (h : l ∈ s.splitOnP separates) :
    (∀ a ∈ l, separates a = false) ∧ l.Sublist s := by
  induction s generalizing l with
  | nil =>
      rw [List.splitOnP_nil, List.mem_singleton] at h
      rw [h]
      exact ⟨fun _ ha => absurd ha List.not_mem_nil, List.Sublist.refl _⟩
  | cons a s ih =>
      obtain ⟨x, xs, hx⟩ := List.exists_cons_of_ne_nil (List.splitOnP_ne_nil separates s)
      rw [List.splitOnP_cons_eq_if_modifyHead, hx] at h
      rw [hx] at ih
      split at h
      · rcases List.mem_cons.mp h with rfl | h
        · exact ⟨fun _ ha => absurd ha List.not_mem_nil, List.nil_sublist _⟩
        · exact ⟨(ih h).1, (ih h).2.cons a⟩
      · rename_i ha
        rw [List.modifyHead_cons] at h
        rcases List.mem_cons.mp h with rfl | h
        · obtain ⟨hall, hsub⟩ := ih List.mem_cons_self
          exact ⟨List.forall_mem_cons.mpr ⟨by simpa using ha, hall⟩, hsub.cons_cons a⟩
        · obtain ⟨hall, hsub⟩ := ih (List.mem_cons_of_mem _ h)
          exact ⟨hall, hsub.cons a⟩

lemma not_mem_of_mem_splitOn (h : l ∈ s.splitOn c) : c ∉ l := by
  rw [List.splitOn_eq_splitOnP] at h
  intro hc
  have hfalse := (mem_splitOnP h).1 c hc
  rw [beq_self_eq_true] at hfalse
  cases hfalse

lemma sublist_of_mem_splitOn (h : l ∈ s.splitOn c) : l.Sublist s := by
  rw [List.splitOn_eq_splitOnP] at h
  exact (mem_splitOnP h).2

lemma mem_of_mem_intercalate {x : Char} {ps : List (List Char)} (h : x ∈ [c].intercalate ps) :
    x = c ∨ ∃ p ∈ ps, x ∈ p := by
  induction ps with
  | nil => cases h
  | cons p ps ih =>
      by_cases hnil : ps = []
      · rw [hnil, List.intercalate_singleton] at h
        exact .inr ⟨p, List.mem_cons_self, h⟩
      · rw [List.intercalate_cons_of_ne_nil hnil, List.mem_append, List.mem_append,
          List.mem_singleton] at h
        rcases h with (h | rfl) | h
        · exact .inr ⟨p, List.mem_cons_self, h⟩
        · exact .inl rfl
        · rcases ih h with rfl | ⟨q, hq, hx⟩
          · exact .inl rfl
          · exact .inr ⟨q, List.mem_cons_of_mem _ hq, hx⟩

lemma intercalate_append {ps qs : List (List Char)} (hp : ps ≠ []) (hq : qs ≠ []) :
    [c].intercalate (ps ++ qs) = [c].intercalate ps ++ c :: [c].intercalate qs := by
  induction ps with
  | nil => exact absurd rfl hp
  | cons p ps ih =>
      cases ps with
      | nil => simp [List.intercalate_cons_of_ne_nil hq]
      | cons p' ps =>
          rw [List.cons_append, List.cons_append, List.intercalate_cons_cons,
            List.intercalate_cons_cons, ← List.cons_append, ih (List.cons_ne_nil _ _)]
          simp

/-- **A text ends with parts**, from a separator or its beginning on, if they are its last parts. -/
lemma splitOn_suffix_iff {ps : List (List Char)} (hps : ∀ p ∈ ps, c ∉ p) (hne : ps ≠ []) :
    ps <:+ s.splitOn c ↔ s = [c].intercalate ps ∨ (c :: [c].intercalate ps) <:+ s := by
  have hsplit : ([c].intercalate ps).splitOn c = ps := List.splitOn_intercalate c hps hne
  constructor
  · rintro ⟨front, hfront⟩
    have hjoin : [c].intercalate (s.splitOn c) = s := List.intercalate_splitOn c
    rw [← hfront] at hjoin
    by_cases hnil : front = []
    · rw [hnil, List.nil_append] at hjoin
      exact .inl hjoin.symm
    · rw [intercalate_append hnil hne] at hjoin
      exact .inr ⟨_, hjoin⟩
  · rintro (rfl | ⟨front, rfl⟩)
    · exact ⟨[], by rw [List.nil_append, hsplit]⟩
    · rw [List.splitOn_append_cons_self, hsplit]
      exact List.suffix_append _ _

/-! ## Counting in parts -/

/-- How often `c` occurs in each part of a text that is cut at every `sep`. -/
def partCounts (sep c : Char) (s : List Char) : List ℕ := (s.splitOn sep).map (List.count c)

variable {sep a : Char}

lemma partCounts_cons_self : partCounts sep c (sep :: s) = 0 :: partCounts sep c s := by
  simp [partCounts, List.splitOn_cons_eq_if_modifyHead]

lemma partCounts_cons_ne (h : a ≠ sep) : partCounts sep c (a :: s) =
    (partCounts sep c s).modifyHead (· + if a = c then 1 else 0) := by
  obtain ⟨x, xs, hx⟩ := List.exists_cons_of_ne_nil (List.splitOn_ne_nil sep s)
  simp [partCounts, List.splitOn_cons_eq_if_modifyHead, h, hx, List.count_cons]

lemma tail_partCounts_append (h : sep ∉ l) :
    (partCounts sep c (l ++ s)).tail = (partCounts sep c s).tail := by
  induction l with
  | nil => rfl
  | cons b l ih =>
      rw [List.mem_cons, not_or] at h
      rw [List.cons_append, partCounts_cons_ne (Ne.symm h.1), List.tail_modifyHead, ih h.2]

lemma partCounts_concat (hsep : a ≠ sep) (hc : a ≠ c) :
    partCounts sep c (s ++ [a]) = partCounts sep c s := by
  induction s with
  | nil => simp [partCounts, List.splitOn_cons_eq_if_modifyHead, hsep, hc]
  | cons b s ih =>
      by_cases hb : b = sep
      · rw [hb, List.cons_append, partCounts_cons_self, partCounts_cons_self, ih]
      · rw [List.cons_append, partCounts_cons_ne hb, partCounts_cons_ne hb, ih]

lemma partCounts_rdropWhile {p : Char → Bool} (hsep : p sep = false) (hc : p c = false) :
    partCounts sep c (s.rdropWhile p) = partCounts sep c s := by
  induction s using List.reverseRecOn with
  | nil => rfl
  | append_singleton s a ih =>
      by_cases ha : p a = true
      · rw [List.rdropWhile_concat_pos _ _ _ ha, ih, partCounts_concat]
        · rintro rfl
          exact Bool.false_ne_true (hsep.symm.trans ha)
        · rintro rfl
          exact Bool.false_ne_true (hc.symm.trans ha)
      · rw [List.rdropWhile_concat_neg _ _ _ ha]

/-! ## Bytes -/

/-- `str::as_bytes`. -/
def utf8 (s : List Char) : List UInt8 := s.flatMap String.utf8EncodeChar

end Text
