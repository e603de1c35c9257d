import Mathlib.Data.List.Basic
import Mathlib.Data.List.Nodup
import Mathlib.Tactic.Common

/-!
# Lists of records with a key

A list is searched for the **first** record with a key, as `iter().find` does, and that record is
changed in place (`iter_mut().find`).  Keys may occur more than once: only the first counts.

* `find_modify_self`, `find_modify_ne` — what is found after a change;
* `modify_split` — a change as a cut of the list at the record it changes;
* `mem_modify` — the records of the changed list;
* `lastMax_mem`, `lastMax_eq_none`, `lastMax_le` — the last record with the greatest key, as
  `max_by_key` has it.
-/

namespace Keyed

variable {α κ : Type*} [DecidableEq κ] (key : α → κ)

/-- The first record with the key. -/
def find (k : κ) (l : List α) : Option α := l.find? (fun a => key a = k)

/-- Change the first record with the key. -/
def modify (k : κ) (g : α → α) : List α → List α
  | [] => []
  | a :: l => if key a = k then g a :: l else a :: modify k g l

variable {key} {k k' : κ} {g : α → α} {l : List α} {a : α}

lemma find_cons_self (h : key a = k) : find key k (a :: l) = some a := by
  simp [find, h]

lemma find_cons_ne (h : key a ≠ k) : find key k (a :: l) = find key k l := by
  simp [find, h]

lemma find_append (l l' : List α) :
    find key k (l ++ l') = (find key k l).or (find key k l') := List.find?_append

lemma key_of_find (h : find key k l = some a) : key a = k := by
  simpa using List.find?_some h

lemma mem_of_find (h : find key k l = some a) : a ∈ l := List.mem_of_find?_eq_some h

lemma find_isSome : (find key k l).isSome = true ↔ ∃ a ∈ l, key a = k := by
  simp [find]

lemma find_eq_none : find key k l = none ↔ ∀ a ∈ l, key a ≠ k := by
  simp [find]

/-- What is found after the change is what was found before, changed. -/
lemma find_modify_self (hg : ∀ a, key (g a) = key a) :
    find key k (modify key k g l) = (find key k l).map g := by
  induction l with
  | nil => rfl
  | cons a l ih =>
      by_cases ha : key a = k
      · rw [modify, if_pos ha, find_cons_self ha, find_cons_self ((hg a).trans ha)]
        rfl
      · rw [modify, if_neg ha, find_cons_ne ha, find_cons_ne ha, ih]

/-- Other keys are found as before. -/
lemma find_modify_ne (hg : ∀ a, key (g a) = key a) (hk : k' ≠ k) :
    find key k' (modify key k g l) = find key k' l := by
  induction l with
  | nil => rfl
  | cons a l ih =>
      by_cases ha : key a = k
      · have hne : key a ≠ k' := fun h => hk (h.symm.trans ha)
        rw [modify, if_pos ha, find_cons_ne hne, find_cons_ne (by rw [hg]; exact hne)]
      · rw [modify, if_neg ha]
        by_cases ha' : key a = k'
        · rw [find_cons_self ha', find_cons_self ha']
        · rw [find_cons_ne ha', find_cons_ne ha', ih]

lemma modify_of_find_eq_none (h : find key k l = none) : modify key k g l = l := by
  induction l with
  | nil => rfl
  | cons a l ih =>
      rw [find_eq_none, List.forall_mem_cons] at h
      rw [modify, if_neg h.1, ih (find_eq_none.mpr h.2)]

/-- The list cut at the record that is found and changed. -/
lemma modify_split (h : find key k l = some a) :
    ∃ l₁ l₂, l = l₁ ++ a :: l₂ ∧ ∀ g, modify key k g l = l₁ ++ g a :: l₂ := by
  induction l with
  | nil => cases h
  | cons b l ih =>
      by_cases hb : key b = k
      · rw [find_cons_self hb, Option.some.injEq] at h
        subst h
        exact ⟨[], l, rfl, fun g => by rw [modify, if_pos hb]; rfl⟩
      · rw [find_cons_ne hb] at h
        obtain ⟨l₁, l₂, rfl, hmod⟩ := ih h
        refine ⟨b :: l₁, l₂, rfl, fun g => ?_⟩
        rw [modify, if_neg hb, hmod]
        rfl

lemma map_modify {β : Type*} (f : α → β) (hg : ∀ a, f (g a) = f a) :
    (modify key k g l).map f = l.map f := by
  induction l with
  | nil => rfl
  | cons a l ih =>
      by_cases ha : key a = k
      · rw [modify, if_pos ha, List.map_cons, List.map_cons, hg]
      · rw [modify, if_neg ha, List.map_cons, List.map_cons, ih]

lemma mem_modify (h : a ∈ modify key k g l) : a ∈ l ∨ ∃ b ∈ l, key b = k ∧ a = g b := by
  cases hf : find key k l with
  | none => exact Or.inl (by rwa [modify_of_find_eq_none hf] at h)
  | some b =>
      obtain ⟨l₁, l₂, hl, hmod⟩ := modify_split hf
      rw [hmod, List.mem_append, List.mem_cons] at h
      rcases h with h | h | h
      · exact Or.inl (by rw [hl]; simp [h])
      · exact Or.inr ⟨b, mem_of_find hf, key_of_find hf, h⟩
      · exact Or.inl (by rw [hl]; simp [h])

/-! ## The greatest key -/

section LastMax

variable (rank : α → ℕ)

/-- `Iterator::max_by_key`: of several records with the greatest key, the last one. -/
def lastMax : List α → Option α
  | [] => none
  | a :: l =>
      match lastMax l with
      | none => some a
      | some b => if rank a ≤ rank b then some b else some a

lemma exists_lastMax (a : α) (l : List α) : ∃ b, lastMax rank (a :: l) = some b := by
  rw [lastMax]
  split
  · exact ⟨_, rfl⟩
  · split
    · exact ⟨_, rfl⟩
    · exact ⟨_, rfl⟩

variable {rank}

lemma lastMax_eq_none : lastMax rank l = none ↔ l = [] := by
  cases l with
  | nil => exact iff_of_true rfl rfl
  | cons a l =>
      obtain ⟨b, hb⟩ := exists_lastMax rank a l
      simp [hb]

lemma lastMax_mem (h : lastMax rank l = some a) : a ∈ l := by
  induction l generalizing a with
  | nil => cases h
  | cons b l ih =>
      rw [lastMax] at h
      split at h
      · cases h
        exact List.mem_cons_self
      · rename_i c hc
        split at h
        · cases h
          exact List.mem_cons_of_mem _ (ih hc)
        · cases h
          exact List.mem_cons_self

lemma lastMax_le (h : lastMax rank l = some a) : ∀ b ∈ l, rank b ≤ rank a := by
  induction l generalizing a with
  | nil => cases h
  | cons b l ih =>
      rw [List.forall_mem_cons]
      rw [lastMax] at h
      split at h
      · rename_i hnone
        cases h
        rw [lastMax_eq_none.mp hnone]
        exact ⟨Nat.le_refl _, fun _ hx => nomatch hx⟩
      · rename_i c hc
        split at h
        · rename_i hbc
          cases h
          exact ⟨hbc, ih hc⟩
        · rename_i hbc
          cases h
          refine ⟨Nat.le_refl _, fun x hx => ?_⟩
          have hxc := ih hc x hx
          omega

end LastMax

end Keyed
