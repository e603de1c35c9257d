import Mathlib.Data.List.DropRight
import Mathlib.Tactic.Common

/-!
# Streams that arrive in chunks

A reader takes what is complete off the front of its buffer and leaves the rest there.  `feed` puts
chunk after chunk behind the rest and runs the reader after each.

* `Resumes` — the reader may stop anywhere and go on: reading in two steps is reading at once.  For
  such a reader **the chunks do not matter** (`Resumes.feed_eq`).
* `cut` — the reader that cuts a stream at a separator: it resumes (`resumes_cut`), and it leaves what
  is behind the last separator (`cut_snd`).
-/

namespace Chunks

variable {α β γ : Type*}

/-- Each chunk is put behind what is left, and then the reader takes what it can. -/
def feed (read : List α → List β × List α) : List α → List (List α) → List β × List α
  | buffer, [] => ([], buffer)
  | buffer, chunk :: chunks =>
      let r := read (buffer ++ chunk)
      let rest := feed read r.2 chunks
      (r.1 ++ rest.1, rest.2)

/-- What is left can be read on from. -/
def Resumes (read : List α → List β × List α) : Prop :=
  ∀ s t, read (s ++ t) =
    ((read s).1 ++ (read ((read s).2 ++ t)).1, (read ((read s).2 ++ t)).2)

variable {read : List α → List β × List α} {buffer s t : List α} {chunks : List (List α)}

namespace Resumes

/-- From what is left nothing can be taken. -/
lemma rest (h : Resumes read) (s : List α) : read (read s).2 = ([], (read s).2) := by
  have hs := h s []
  rw [List.append_nil, List.append_nil] at hs
  refine Prod.ext ?_ (congrArg Prod.snd hs).symm
  have hlen := congrArg (List.length ∘ Prod.fst) hs
  simp only [Function.comp_apply, List.length_append] at hlen
  exact List.eq_nil_of_length_eq_zero (by omega)

/-- **The chunks do not matter.** -/
theorem feed_eq (h : Resumes read) (hbuffer : read buffer = ([], buffer)) :
    feed read buffer chunks = read (buffer ++ chunks.flatten) := by
  induction chunks generalizing buffer with
  | nil => rw [feed, List.flatten_nil, List.append_nil, hbuffer]
  | cons chunk chunks ih =>
      rw [feed, ih (h.rest _), List.flatten_cons, ← List.append_assoc, h (buffer ++ chunk)]

/-- What is taken may be worked on, or passed over. -/
lemma flatMap (h : Resumes read) (f : β → List γ) :
    Resumes (fun s => ((read s).1.flatMap f, (read s).2)) := by
  intro s t
  simp only [h s t, List.flatMap_append]

end Resumes

/-! ## Cutting at a separator -/

/-- What stands before a separator is not at the end. -/
lemma rtakeWhile_append_cons {p : α → Bool} {a : α} (h : p a = false) (l s : List α) :
    (l ++ a :: s).rtakeWhile p = s.rtakeWhile p := by
  induction s using List.reverseRecOn with
  | nil =>
      rw [List.rtakeWhile_nil, List.rtakeWhile_concat_neg]
      simp [h]
  | append_singleton s b ih =>
      rw [← List.cons_append, ← List.append_assoc]
      by_cases hb : p b = true
      · rw [List.rtakeWhile_concat_pos _ _ _ hb, List.rtakeWhile_concat_pos _ _ _ hb, ih]
      · rw [List.rtakeWhile_concat_neg _ _ _ hb, List.rtakeWhile_concat_neg _ _ _ hb]

section Cut

variable [DecidableEq α] (sep : α)

/-- The parts that have come to their separator, and what is behind the last one. -/
def cut : List α → List (List α) × List α
  | [] => ([], [])
  | a :: s =>
      let r := cut s
      if a = sep then ([] :: r.1, r.2)
      else
        match r.1 with
        | [] => ([], a :: r.2)
        | l :: ls => ((a :: l) :: ls, r.2)

variable {sep} {a : α} {l : List α}

lemma cut_cons_ne (h : a ≠ sep) : cut sep (a :: s) =
    match (cut sep s).1 with
    | [] => ([], a :: (cut sep s).2)
    | l :: ls => ((a :: l) :: ls, (cut sep s).2) := by
  rw [cut]
  exact if_neg h

lemma cut_of_not_mem (h : sep ∉ s) : cut sep s = ([], s) := by
  induction s with
  | nil => rfl
  | cons a s ih =>
      rw [List.mem_cons, not_or] at h
      rw [cut_cons_ne (Ne.symm h.1), ih h.2]

lemma cut_part (h : sep ∉ l) : cut sep (l ++ sep :: s) = (l :: (cut sep s).1, (cut sep s).2) := by
  induction l with
  | nil => exact if_pos rfl
  | cons a l ih =>
      rw [List.mem_cons, not_or] at h
      rw [List.cons_append, cut_cons_ne (Ne.symm h.1), ih h.2]

/-- **A stream may be cut in two steps.** -/
theorem resumes_cut (sep : α) : Resumes (cut sep) := by
  intro s t
  induction s with
  | nil => rfl
  | cons a s ih =>
      rw [List.cons_append]
      by_cases ha : a = sep
      · rw [cut, cut, ih]
        simp only [if_pos ha, List.cons_append]
      · rw [cut_cons_ne ha, cut_cons_ne ha, ih]
        cases hs : (cut sep s).1 with
        | nil =>
            -- the first part ends behind `s`, if at all
            rw [List.nil_append]
            dsimp only
            rw [List.cons_append, cut_cons_ne ha, List.nil_append]
        | cons l ls => rfl

/-- A stream has no separator, or it is a part, a separator and a stream. -/
lemma parts_induction (sep : α) {P : List α → Prop} (hlast : ∀ s, sep ∉ s → P s)
    (hpart : ∀ l s, sep ∉ l → P s → P (l ++ sep :: s)) (s : List α) : P s := by
  by_cases h : sep ∈ s
  · obtain ⟨l, s', hs, hl⟩ := List.eq_append_cons_of_mem h
    have hshorter : s'.length < s.length := by
      rw [hs, List.length_append, List.length_cons]
      omega
    rw [hs]
    exact hpart l s' hl (parts_induction sep hlast hpart s')
  · exact hlast s h
termination_by s.length

/-- **What is left is what stands behind the last separator.** -/
theorem cut_snd (s : List α) : (cut sep s).2 = s.rtakeWhile (· ≠ sep) := by
  induction s using parts_induction sep with
  | hlast s h =>
      rw [cut_of_not_mem h, eq_comm, List.rtakeWhile_eq_self_iff]
      intro a ha
      have hne : a ≠ sep := fun hsep => h (by rw [← hsep]; exact ha)
      simpa using hne
  | hpart l s hl ih => rw [cut_part hl, ih, rtakeWhile_append_cons (by simp) l s]

end Cut

end Chunks
