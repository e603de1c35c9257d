import Mathlib.Data.List.Nodup
import Mathlib.Tactic.Common

/-!
# The order of two entries

`[a, b]` is a sublist of a list when `a` stands before `b` in it.

* `pair_concat` — the pairs after one more entry at the end;
* `getLast?_of_not_pair` — what stands before nothing is the last entry;
* `eq_of_agree` — a list without repetitions is its entries and the order of any two of them.
-/

namespace PairOrder

variable {α : Type*} {a b c : α} {l l' : List α}

/-- After one more entry. -/
lemma pair_concat : [a, b].Sublist (l ++ [c]) ↔ [a, b].Sublist l ∨ a ∈ l ∧ b = c := by
  constructor
  · intro h
    obtain ⟨l₁, l₂, hl, h₁, h₂⟩ := List.sublist_append_iff.mp h
    rcases List.sublist_singleton.mp h₂ with rfl | rfl
    · rw [List.append_nil] at hl
      rw [hl]
      exact .inl h₁
    · obtain ⟨hfirst, hlast⟩ := List.append_inj' (show [a] ++ [b] = l₁ ++ [c] from hl) rfl
      rw [← hfirst, List.singleton_sublist] at h₁
      exact .inr ⟨h₁, List.singleton_inj.mp hlast⟩
  · rintro (h | ⟨ha, rfl⟩)
    · exact h.trans (List.sublist_append_left l [c])
    · exact (List.singleton_sublist.mpr ha).append (List.Sublist.refl [b])

/-- Two entries stand in one order or in the other. -/
lemma pair_or_pair (ha : a ∈ l) (hb : b ∈ l) (hne : a ≠ b) :
    [a, b].Sublist l ∨ [b, a].Sublist l := by
  induction l with
  | nil => cases ha
  | cons c l ih =>
      rcases List.mem_cons.mp ha with rfl | hal
      · have hbl := List.mem_of_ne_of_mem (Ne.symm hne) hb
        exact .inl ((List.singleton_sublist.mpr hbl).cons_cons a)
      · rcases List.mem_cons.mp hb with rfl | hbl
        · exact .inr ((List.singleton_sublist.mpr hal).cons_cons b)
        · exact (ih hal hbl).imp (fun h => h.cons c) (fun h => h.cons c)

/-- What nothing stands behind is the last one. -/
lemma getLast?_of_not_pair (ha : a ∈ l) (h : ∀ b, ¬ [a, b].Sublist l) : l.getLast? = some a := by
  obtain ⟨before, behind, rfl⟩ := List.append_of_mem ha
  cases behind with
  | nil => exact List.getLast?_concat
  | cons b behind =>
      refine absurd ?_ (h b)
      have hpair : [a, b].Sublist (a :: b :: behind) :=
        ((List.nil_sublist behind).cons_cons b).cons_cons a
      exact hpair.trans (List.sublist_append_right before _)

/-- No two entries stand in one order here and in the other order there. -/
def Agree (l l' : List α) : Prop := ∀ a b, [a, b].Sublist l → ¬ [b, a].Sublist l'

lemma Agree.symm (h : Agree l l') : Agree l' l := fun a b hab hba => h b a hba hab

lemma agree_nil (l : List α) : Agree l [] := fun _ _ _ h => nomatch h

lemma Agree.tail (h : Agree (a :: l) (b :: l')) : Agree l l' :=
  fun x y hxy hyx => h x y (hxy.cons a) (hyx.cons b)

lemma eq_of_agree (hl : l.Nodup) (hl' : l'.Nodup) (hmem : ∀ x, x ∈ l ↔ x ∈ l') (h : Agree l l') :
    l = l' := by
  induction l generalizing l' with
  | nil =>
      refine (List.eq_nil_iff_forall_not_mem.mpr ?_).symm
      intro x hx
      exact absurd ((hmem x).mpr hx) List.not_mem_nil
  | cons a l ih =>
      cases l' with
      | nil => exact absurd ((hmem a).mp List.mem_cons_self) List.not_mem_nil
      | cons b l' =>
          obtain ⟨hal, htail⟩ := List.nodup_cons.mp hl
          obtain ⟨hbl', htail'⟩ := List.nodup_cons.mp hl'
          have hab : a = b := by
            by_contra hne
            -- each head stands behind the other one in the other list
            have ha : a ∈ l' := List.mem_of_ne_of_mem hne ((hmem a).mp List.mem_cons_self)
            have hb : b ∈ l := List.mem_of_ne_of_mem (Ne.symm hne) ((hmem b).mpr List.mem_cons_self)
            exact h a b ((List.singleton_sublist.mpr hb).cons_cons a)
              ((List.singleton_sublist.mpr ha).cons_cons b)
          subst hab
          refine congrArg (List.cons a) (ih htail htail' ?_ h.tail)
          intro x
          constructor
          · intro hx
            have hne : x ≠ a := fun heq => hal (heq ▸ hx)
            exact List.mem_of_ne_of_mem hne ((hmem x).mp (List.mem_cons_of_mem a hx))
          · intro hx
            have hne : x ≠ a := fun heq => hbl' (heq ▸ hx)
            exact List.mem_of_ne_of_mem hne ((hmem x).mpr (List.mem_cons_of_mem a hx))

end PairOrder
