import Mathlib.Logic.Function.Basic
import Mathlib.Logic.Relation
import Mathlib.Tactic.Common

/-!
# Three-way merge, and replicas that meet by it

A map has been changed on two sides since they last agreed on a base.  `merge` takes at each key
the side that differs from the base.

* `merge_of_left`, `merge_of_right` — an unchanged side gives way to the other;
* `merge_of_eq` — what both sides have stays.

`Replicas` is any number of copies of one store.  A client edits its own copy, and a sync merges
copy and store over what the client has synced last.  **If every key has one owner, who alone
edits it, then no edit is lost whatever the order of edits and syncs**: `Coherent` says that the
store has at each key what its owner has synced last, and `converge` that everyone has everything
after two rounds.
-/

namespace ThreeWay

variable {ι α : Type*} [DecidableEq α] {base left right : ι → α} {i : ι}

/-- The side that differs from the base. -/
def merge (base left right : ι → α) (i : ι) : α := if left i = base i then right i else left i

/-- No key was changed on both sides. -/
def OneSided (base left right : ι → α) : Prop := ∀ i, left i = base i ∨ right i = base i

lemma merge_of_left (h : left i = base i) : merge base left right i = right i := if_pos h

lemma merge_of_right (h : right i = base i) : merge base left right i = left i := by
  by_cases hl : left i = base i
  · rw [merge_of_left hl, h, hl]
  · exact if_neg hl

/-- What both sides have is in the merge. -/
lemma merge_of_eq {a : α} (hl : left i = a) (hr : right i = a) : merge base left right i = a := by
  unfold merge
  split
  · exact hr
  · exact hl

/-- A merge takes every value from one of the sides. -/
lemma merge_eq_or (base left right : ι → α) (i : ι) :
    merge base left right i = left i ∨ merge base left right i = right i := by
  unfold merge
  split
  · exact Or.inr rfl
  · exact Or.inl rfl

end ThreeWay

/-! ## Replicas -/

/-- A store, the copies of the clients, and what each client has synced last. -/
structure Replicas (κ ι α : Type*) where
  store : ι → α
  copy : κ → ι → α
  base : κ → ι → α

namespace Replicas

open ThreeWay

variable {κ ι α : Type*} [DecidableEq κ]

/-- A client's copy is changed. -/
def edit (w : Replicas κ ι α) (k : κ) (v : ι → α) : Replicas κ ι α :=
  { w with copy := Function.update w.copy k v }

/-- The store has what the owners have synced last, and others' keys are as they were synced. -/
structure Coherent (owner : ι → κ) (w : Replicas κ ι α) : Prop where
  owned : ∀ i, w.store i = w.base (owner i) i
  foreign : ∀ k i, owner i ≠ k → w.copy k i = w.base k i

variable {owner : ι → κ} {w w' : Replicas κ ι α} {k : κ} {i : ι}

lemma Coherent.oneSided (h : Coherent owner w) (k : κ) :
    OneSided (w.base k) (w.copy k) w.store := by
  intro i
  by_cases hi : owner i = k
  · exact Or.inr (hi ▸ h.owned i)
  · exact Or.inl (h.foreign k i hi)

lemma Coherent.edit (h : Coherent owner w) {v : ι → α}
    (hv : ∀ i, owner i ≠ k → v i = w.copy k i) : Coherent owner (w.edit k v) where
  owned := h.owned
  foreign l i hi := by
    show Function.update w.copy k v l i = w.base l i
    by_cases hl : l = k
    · subst hl
      rw [Function.update_self, hv i hi]
      exact h.foreign l i hi
    · rw [Function.update_of_ne hl]
      exact h.foreign l i hi

variable [DecidableEq α]

/-- A client's sync leaves the merge in the store, in its copy and as its base. -/
def sync (w : Replicas κ ι α) (k : κ) : Replicas κ ι α :=
  let m := merge (w.base k) (w.copy k) w.store
  { store := m, copy := Function.update w.copy k m, base := Function.update w.base k m }

/-- Edits by the owners of what they change, and syncs. -/
inductive Step (owner : ι → κ) : Replicas κ ι α → Replicas κ ι α → Prop
  | edit {w : Replicas κ ι α} (k : κ) (v : ι → α) (h : ∀ i, owner i ≠ k → v i = w.copy k i) :
      Step owner w (w.edit k v)
  | sync {w : Replicas κ ι α} (k : κ) : Step owner w (w.sync k)

section Coherent

variable (h : Coherent owner w)

include h in
/-- A sync takes the client's version of its own keys and the store's of all others. -/
lemma Coherent.sync_store (k : κ) (i : ι) :
    (w.sync k).store i = if owner i = k then w.copy k i else w.store i := by
  by_cases hi : owner i = k
  · rw [if_pos hi]
    exact merge_of_right (hi ▸ h.owned i)
  · rw [if_neg hi]
    exact merge_of_left (h.foreign k i hi)

include h in
lemma Coherent.sync (k : κ) : Coherent owner (w.sync k) where
  owned i := by
    by_cases hi : owner i = k
    · show (w.sync k).store i = Function.update w.base k _ (owner i) i
      rw [hi, Function.update_self]
      rfl
    · show (w.sync k).store i = Function.update w.base k _ (owner i) i
      rw [h.sync_store, if_neg hi, Function.update_of_ne hi]
      exact h.owned i
  foreign l i hi := by
    show Function.update w.copy k _ l i = Function.update w.base k _ l i
    by_cases hl : l = k
    · subst hl
      simp
    · rw [Function.update_of_ne hl, Function.update_of_ne hl]
      exact h.foreign l i hi

include h in
/-- **Replicas stay coherent, whatever the order of edits and syncs.** -/
theorem Coherent.run (hrun : Relation.ReflTransGen (Step owner) w w') : Coherent owner w' := by
  induction hrun with
  | refl => exact h
  | tail _ hstep ih =>
      cases hstep with
      | edit k v hv => exact ih.edit hv
      | sync k => exact ih.sync k

end Coherent

/-! ## Convergence -/

/-- The clients sync one after another. -/
def syncAll (w : Replicas κ ι α) (ks : List κ) : Replicas κ ι α := ks.foldl Replicas.sync w

lemma syncAll_append (w : Replicas κ ι α) (ks ls : List κ) :
    w.syncAll (ks ++ ls) = (w.syncAll ks).syncAll ls := List.foldl_append

section Syncs

variable (h : Coherent owner w)

include h in
/-- A sync changes no owner's version of its keys. -/
lemma Coherent.sync_own (k : κ) (i : ι) :
    (w.sync k).copy (owner i) i = w.copy (owner i) i := by
  show Function.update w.copy k (w.sync k).store (owner i) i = w.copy (owner i) i
  by_cases hi : owner i = k
  · rw [hi, Function.update_self, h.sync_store, if_pos hi]
  · rw [Function.update_of_ne hi]

include h in
/-- Once a key is in the store as its owner has it, it stays so. -/
lemma Coherent.sync_stays (k : κ) (hi : w.store i = w.copy (owner i) i) :
    (w.sync k).store i = w.copy (owner i) i := by
  rw [h.sync_store]
  split
  · rename_i hk
    rw [hk]
  · exact hi

include h in
lemma Coherent.syncAll (ks : List κ) : Coherent owner (w.syncAll ks) := by
  induction ks generalizing w with
  | nil => exact h
  | cons k ks ih => exact ih (h.sync k)

include h in
lemma Coherent.syncAll_own (ks : List κ) (i : ι) :
    (w.syncAll ks).copy (owner i) i = w.copy (owner i) i := by
  induction ks generalizing w with
  | nil => rfl
  | cons k ks ih => exact (ih (h.sync k)).trans (h.sync_own k i)

include h in
/-- After a round in which its owner takes part, the store has the owner's version of a key. -/
lemma Coherent.syncAll_store {ks : List κ}
    (hi : owner i ∈ ks ∨ w.store i = w.copy (owner i) i) :
    (w.syncAll ks).store i = w.copy (owner i) i := by
  induction ks generalizing w with
  | nil => exact hi.resolve_left (by simp)
  | cons k ks ih =>
      refine (ih (h.sync k) ?_).trans (h.sync_own k i)
      rw [h.sync_own k i]
      rcases hi with hi | hi
      · rcases List.mem_cons.mp hi with hk | hk
        · right
          rw [h.sync_store, if_pos hk, hk]
        · exact Or.inl hk
      · exact Or.inr (h.sync_stays k hi)

include h in
/-- Once the store has everything, whoever syncs has everything. -/
lemma Coherent.syncAll_copy {ks : List κ} (hall : ∀ i, w.store i = w.copy (owner i) i)
    (hk : k ∈ ks ∨ ∀ i, w.copy k i = w.copy (owner i) i) (i : ι) :
    (w.syncAll ks).copy k i = w.copy (owner i) i := by
  induction ks generalizing w with
  | nil => exact hk.resolve_left (by simp) i
  | cons l ks ih =>
      have hown := h.sync_own l
      refine (ih (h.sync l) (fun j => ?_) ?_).trans (hown i)
      · rw [hown j]
        exact h.sync_stays l (hall j)
      · by_cases hl : k = l
        · right
          intro j
          rw [hown j, ← h.sync_stays l (hall j), hl]
          exact congrFun (Function.update_self l _ w.copy) j
        · refine hk.imp (fun hm => (List.mem_cons.mp hm).resolve_left hl) (fun hc j => ?_)
          rw [hown j, ← hc j]
          exact congrFun (Function.update_of_ne hl _ w.copy) j

include h in
/-- **Convergence.**  After two rounds of syncs in any order, every client has every key as its
owner had it before. -/
theorem Coherent.converge {ks ls : List κ} (hks : ∀ k, k ∈ ks) (hk : k ∈ ls) (i : ι) :
    ((w.syncAll ks).syncAll ls).copy k i = w.copy (owner i) i := by
  have hround := h.syncAll ks
  have hstore : ∀ j, (w.syncAll ks).store j = (w.syncAll ks).copy (owner j) j := by
    intro j
    rw [h.syncAll_store (Or.inl (hks (owner j))), h.syncAll_own]
  rw [hround.syncAll_copy hstore (Or.inl hk), h.syncAll_own]

end Syncs

end Replicas
