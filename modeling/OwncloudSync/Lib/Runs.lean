import Mathlib.Logic.Relation
import Mathlib.Data.List.Chain
import Mathlib.Tactic.Common

/-!
# Runs of a transition system

A run is a list of states, each a step away from the one before it, or (where the states between
do not matter) a pair of states in the reflexive transitive closure of the steps.

* `invariant` — what every step keeps, every run keeps;
* `forall_iff_guarded` — if a step from a good state leads to a good state **exactly when** it
  meets a condition, the states of a run are all good exactly when all its steps meet it;
* `forall_split_concat` — what holds at every place of a log, after one more entry;
* `mem_foldl_iff`, `foldl_eq_of_silent` — what a machine has put out was put out at some input, and what
  no input touches stays.
-/

namespace Runs

variable {σ : Type*} {R C : σ → σ → Prop} {I P : σ → Prop} {s t : σ}

/-- The invariant rule. -/
lemma invariant (hstep : ∀ s t, I s → R s t → I t) (hs : I s) (h : Relation.ReflTransGen R s t) :
    I t := by
  induction h with
  | refl => exact hs
  | tail _ hR ih => exact hstep _ _ ih hR

/-- The rule for the runs whose steps meet a condition, exact in both directions.  The invariant
`I` may be used to decide whether a step is good. -/
lemma forall_iff_guarded {l : List σ} (hI : ∀ s t, I s → R s t → I t)
    (hstep : ∀ s t, I s → P s → R s t → (P t ↔ C s t)) (hs : I s) (hP : P s)
    (hrun : List.IsChain R (s :: l)) : (∀ t ∈ l, P t) ↔ List.IsChain C (s :: l) := by
  induction l generalizing s with
  | nil => simp
  | cons t l ih =>
      obtain ⟨hR, hrest⟩ := List.isChain_cons_cons.mp hrun
      rw [List.forall_mem_cons, List.isChain_cons_cons, hstep s t hs hP hR]
      refine and_congr_right (fun hC => ?_)
      exact ih (hI s t hs hR) ((hstep s t hs hP hR).mpr hC) hrest

/-- A property of every place of a log, given what is before it, when the log grows by one entry. -/
lemma forall_split_concat {α : Type*} {Q : List α → α → Prop} {l : List α} {a : α} :
    (∀ pre x post, l ++ [a] = pre ++ x :: post → Q pre x) ↔
      (∀ pre x post, l = pre ++ x :: post → Q pre x) ∧ Q l a := by
  constructor
  · intro h
    refine ⟨fun pre x post hl => h pre x (post ++ [a]) ?_, h l a [] rfl⟩
    rw [hl, List.append_assoc]
    rfl
  · rintro ⟨h, ha⟩ pre x post hl
    rcases List.eq_nil_or_concat post with rfl | ⟨post', b, rfl⟩
    · obtain ⟨rfl, hx⟩ := List.append_inj' hl rfl
      rw [List.cons.injEq] at hx
      rw [← hx.1]
      exact ha
    · rw [List.concat_eq_append, ← List.cons_append, ← List.append_assoc] at hl
      exact h pre x post' (List.append_inj' hl rfl).1

variable {τ α ν : Type*} {step : σ → τ → σ} {a : α}

/-- What a machine that only adds to its output has put out. -/
lemma mem_foldl_iff {output : σ → List α} {push : σ → τ → List α}
    (hpush : ∀ s t, output (step s t) = output s ++ push s t) {ts : List τ} {s : σ} :
    a ∈ output (ts.foldl step s) ↔
      a ∈ output s ∨ ∃ pre t post, ts = pre ++ t :: post ∧ a ∈ push (pre.foldl step s) t := by
  induction ts generalizing s with
  | nil => simp
  | cons u ts ih =>
      rw [List.foldl_cons, ih, hpush, List.mem_append, or_assoc]
      refine or_congr_right ⟨?_, ?_⟩
      · rintro (hu | ⟨pre, t, post, rfl, ht⟩)
        · exact ⟨[], u, ts, rfl, hu⟩
        · exact ⟨u :: pre, t, post, rfl, ht⟩
      · rintro ⟨pre, t, post, hts, ht⟩
        cases pre with
        | nil =>
            obtain ⟨rfl, rfl⟩ := List.cons.inj hts
            exact .inl ht
        | cons v pre =>
            obtain ⟨rfl, rfl⟩ := List.cons.inj hts
            exact .inr ⟨pre, t, post, rfl, ht⟩

/-- What none of the inputs touches. -/
lemma foldl_eq_of_silent (get : σ → ν) {ts : List τ} {s : σ}
    (h : ∀ pre t post, ts = pre ++ t :: post →
      get (step (pre.foldl step s) t) = get (pre.foldl step s)) :
    get (ts.foldl step s) = get s := by
  induction ts using List.reverseRecOn with
  | nil => rfl
  | append_singleton ts t ih =>
      rw [List.foldl_append, List.foldl_cons, List.foldl_nil, h ts t [] rfl]
      exact ih (fun pre u post hts => h pre u (post ++ [t]) (by rw [hts]; simp))

end Runs
