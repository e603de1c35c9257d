import Mathlib.Data.List.Infix
import Mathlib.Tactic.Common

/-!
# Public suffixes

A domain name as the list of its labels, the last being the top-level domain.  Given which names are
public suffixes, the public suffix of a name is the longest one it ends with, or its last label if it
ends with none; the **registrable domain** has one label more.  A name that is its own public suffix
has none.
-/

namespace DomainName

variable {α : Type}

/-- The longest public suffix a name ends with. -/
def publicSuffix (isSuffix : List α → Bool) (labels : List α) : List α :=
  (labels.tails.find? (fun t => !t.isEmpty && isSuffix t)).getD (labels.drop (labels.length - 1))

/-- The public suffix and one label more. -/
def registrable (isSuffix : List α → Bool) (labels : List α) : Option (List α) :=
  let n := (publicSuffix isSuffix labels).length
  if n < labels.length then some (labels.drop (labels.length - (n + 1))) else none

variable {isSuffix : List α → Bool} {labels r : List α}

lemma publicSuffix_ne_nil (isSuffix : List α → Bool) (h : labels ≠ []) :
    publicSuffix isSuffix labels ≠ [] := by
  rw [publicSuffix]
  cases hfind : labels.tails.find? (fun t => !t.isEmpty && isSuffix t) with
  | none =>
      rw [Option.getD_none, ← List.length_pos_iff, List.length_drop]
      have hpos := List.length_pos_iff.mpr h
      omega
  | some t =>
      have ht := List.find?_some hfind
      rw [Bool.and_eq_true] at ht
      simpa using ht.1

/-- A registrable domain is a part of the name, and has two labels at least. -/
lemma registrable_spec (h : registrable isSuffix labels = some r) : r <:+ labels ∧ 2 ≤ r.length := by
  rw [registrable] at h
  split at h
  · rename_i hlt
    obtain rfl := Option.some.inj h
    have hne : labels ≠ [] := by
      rintro rfl
      exact absurd hlt (Nat.not_lt_zero _)
    have hpos := List.length_pos_iff.mpr (publicSuffix_ne_nil isSuffix hne)
    refine ⟨List.drop_suffix _ _, ?_⟩
    rw [List.length_drop]
    omega
  · cases h

end DomainName
