import OwncloudSync.Lib.LexicalPath
import OwncloudSync.Lib.Text
import Mathlib.Tactic.Common

/-!
# Absolute paths in one spelling

A text is a `Normal` path if it is what its components spell: it begins with a slash, no slash stands
at its end or next to another one, and no component is `.`.

Between normal paths, "is it or is above it" by components and "is a prefix of it" as a text go
together in one direction: `prefix_of_components` (and so a path above another one is the shorter
text).  In the other direction a text prefix is **not** enough, which is `not_components_prefix`.
-/

namespace LexicalPath

/-- An absolute path as its components spell it. -/
def Normal (s : List Char) : Prop :=
  s.head? = some '/' ∧ (s = ['/'] ∨ ∀ part ∈ (splitSlash s).tail, part ≠ [] ∧ part ≠ ['.'])

instance (s : List Char) : Decidable (Normal s) := inferInstanceAs (Decidable (_ ∧ _))

/-- How a component is spelled. -/
def Component.text : Component → List Char
  | rootDir => []
  | curDir => ['.']
  | parentDir => ['.', '.']
  | normal n => n

variable {s t n : List Char} {c : Char}

lemma splitSlash_eq_splitOn (s : List Char) : splitSlash s = s.splitOn '/' := by
  induction s with
  | nil => rfl
  | cons c s ih =>
      rw [splitSlash, List.splitOn_cons_eq_if_modifyHead, ih]
      obtain ⟨x, xs, hx⟩ := List.exists_cons_of_ne_nil (List.splitOn_ne_nil '/' s)
      simp [hx]

lemma intercalate_splitSlash (s : List Char) : ['/'].intercalate (splitSlash s) = s := by
  rw [splitSlash_eq_splitOn]
  exact List.intercalate_splitOn '/'

lemma components_slash (s : List Char) : components ('/' :: s) = .rootDir :: body s := by
  rw [components_eq, List.head?_cons, if_pos rfl]
  rfl

lemma normal_slash : Normal ('/' :: s) ↔
    s = [] ∨ ∀ part ∈ splitSlash s, part ≠ [] ∧ part ≠ ['.'] := by
  have htail : (splitSlash ('/' :: s)).tail = splitSlash s := by
    rw [splitSlash, if_pos rfl, List.tail_cons]
  rw [Normal, htail, List.head?_cons]
  simp

/-- A part that is a component is spelled like it. -/
lemma text_of_inner {part : List Char} (h : part ≠ [] ∧ part ≠ ['.']) :
    (inner part).map Component.text = some part := by
  rw [inner, if_neg (by simp [h])]
  split
  · rename_i hpart
    rw [hpart]
    rfl
  · rfl

lemma map_text_body (h : ∀ part ∈ splitSlash s, part ≠ [] ∧ part ≠ ['.']) :
    (body s).map Component.text = splitSlash s := by
  rw [body, List.map_filterMap]
  calc (splitSlash s).filterMap (fun part => (inner part).map Component.text)
      = (splitSlash s).filterMap some :=
        List.filterMap_congr (fun part hpart => text_of_inner (h part hpart))
    _ = splitSlash s := List.filterMap_some

/-- **A normal path above another one is a prefix of its text.** -/
theorem prefix_of_components (hs : Normal s) (ht : Normal t) (h : components s <+: components t) :
    s <+: t := by
  obtain ⟨s, rfl⟩ := List.head?_eq_some_iff.mp hs.1
  obtain ⟨t, rfl⟩ := List.head?_eq_some_iff.mp ht.1
  rw [components_slash, components_slash, List.prefix_cons_inj] at h
  rw [List.prefix_cons_inj]
  rcases normal_slash.mp hs with rfl | hs
  · exact List.nil_prefix
  · have hparts := h.map Component.text
    rw [map_text_body hs] at hparts
    rcases normal_slash.mp ht with rfl | ht
    · exact absurd (List.prefix_nil.mp hparts) (splitSlash_ne_nil s)
    · rw [map_text_body ht] at hparts
      obtain ⟨rest, hrest⟩ := hparts
      rw [← intercalate_splitSlash s, ← intercalate_splitSlash t, ← hrest]
      by_cases hnil : rest = []
      · rw [hnil, List.append_nil]
      · rw [Text.intercalate_append (splitSlash_ne_nil s) hnil]
        exact List.prefix_append _ _

/-- A normal path has no other spelling. -/
lemma eq_of_components (hs : Normal s) (ht : Normal t) (h : components s = components t) : s = t := by
  have hst := prefix_of_components hs ht (by rw [h])
  have hts := prefix_of_components ht hs (by rw [h])
  exact hst.eq_of_length_le hts.length_le

/-! ## What only begins like a path -/

lemma splitSlash_of_not_mem (h : '/' ∉ n) : splitSlash n = [n] := by
  induction n with
  | nil => rfl
  | cons c n ih =>
      rw [List.mem_cons, not_or] at h
      rw [splitSlash, if_neg (Ne.symm h.1), ih h.2]

/-- A name that goes on is another component. -/
lemma body_longer (hn : '/' ∉ n) (hne : n ≠ []) (hdot : n ≠ ['.']) (hc : c ≠ '/') (t : List Char) :
    ¬ body n <+: body (n ++ c :: t) := by
  have hbody : (body n).map Component.text = [n] := by
    rw [map_text_body, splitSlash_of_not_mem hn]
    rw [splitSlash_of_not_mem hn, List.forall_mem_singleton]
    exact ⟨hne, hdot⟩
  -- the first part of the longer text
  obtain ⟨u, rest, hsplit⟩ : ∃ u rest, splitSlash (n ++ c :: t) = (n ++ c :: u) :: rest := by
    clear hne hdot hbody
    induction n with
    | nil =>
        obtain ⟨x, xs, hx⟩ := List.exists_cons_of_ne_nil (splitSlash_ne_nil t)
        exact ⟨x, xs, by rw [List.nil_append, splitSlash, if_neg hc, hx]; rfl⟩
    | cons d n ih =>
        rw [List.mem_cons, not_or] at hn
        obtain ⟨u, rest, hu⟩ := ih hn.2
        exact ⟨u, rest, by rw [List.cons_append, splitSlash, if_neg (Ne.symm hn.1), hu]; rfl⟩
  have hlong : n ++ c :: u ≠ [] ∧ n ++ c :: u ≠ ['.'] := by
    refine ⟨by simp, fun h => ?_⟩
    cases n with
    | nil => exact hne rfl
    | cons d n => simp at h
  intro hpre
  obtain ⟨first, hfirst⟩ : ∃ first, inner (n ++ c :: u) = some first ∧
      first.text = n ++ c :: u := by
    simpa [Option.map_eq_some_iff] using text_of_inner hlong
  rw [body, body, hsplit, List.filterMap_cons, hfirst.1] at hpre
  have htext := hpre.map Component.text
  rw [← body, hbody, List.map_cons, hfirst.2, List.cons_prefix_cons] at htext
  simpa using htext.1

/-- **A text that only begins like a normal path is not below it.** -/
theorem not_components_prefix (hs : Normal s) (hroot : s ≠ ['/']) (hc : c ≠ '/') (t : List Char) :
    ¬ components s <+: components (s ++ c :: t) := by
  obtain ⟨r, rfl⟩ := List.head?_eq_some_iff.mp hs.1
  have hparts := (normal_slash.mp hs).resolve_left (fun h => hroot (by rw [h]))
  -- the name behind the last slash
  obtain ⟨front, n, hlast⟩ := (List.eq_nil_or_concat (splitSlash r)).resolve_left (splitSlash_ne_nil r)
  have hmem : n ∈ splitSlash r := by rw [hlast]; simp
  have hn : '/' ∉ n := by
    rw [splitSlash_eq_splitOn] at hmem
    exact Text.not_mem_of_mem_splitOn hmem
  obtain ⟨a, ha⟩ : ∃ a, '/' :: r = a ++ '/' :: n := by
    rw [← intercalate_splitSlash r, hlast, List.concat_eq_append]
    by_cases hnil : front = []
    · rw [hnil, List.nil_append, List.intercalate_singleton]
      exact ⟨[], rfl⟩
    · rw [Text.intercalate_append hnil (List.cons_ne_nil _ _), List.intercalate_singleton]
      exact ⟨'/' :: ['/'].intercalate front, rfl⟩
  have hbody : ∀ u, components ('/' :: r ++ u) = .rootDir :: (body a ++ body (n ++ u)) := by
    intro u
    have hslash : body ('/' :: r ++ u) = body (r ++ u) := rfl
    rw [List.cons_append, components_slash, ← hslash, ha, List.append_assoc, List.cons_append,
      body_append]
  have hself := hbody []
  rw [List.append_nil, List.append_nil] at hself
  rw [hself, hbody, List.prefix_cons_inj, List.prefix_append_right_inj]
  exact body_longer hn (hparts n hmem).1 (hparts n hmem).2 hc t

end LexicalPath
