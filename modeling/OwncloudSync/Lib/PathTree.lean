import Mathlib.Data.List.Infix
import Mathlib.Tactic.Common

/-!
# Path trees

A directory tree as a function from paths to nodes.  A path is the list of its names,
**innermost name first**, so that the parent of `n :: p` is `p` and "`a` is `q` or an ancestor
of `q`" is the suffix relation `a <:+ q`.  The empty path is the root.

`Tree` carries the laws of a directory tree as fields: the root is a directory, whatever
exists lies in a directory, and only finitely much exists.  So every operation below returns a
tree again, and "a file has nothing beneath it" is a consequence (`Tree.dir_of_below`), never a
hypothesis.

The operations are those a file system and a WebDAV server share: `prune` (and `erase`, its
one-path case) removes whole subtrees, `write?` stores a file, `mkdir?` and `mkdirAll?` make
directories, `rename?` moves a file.  The partial ones return `none` exactly where the
operation is refused, and each has one lemma saying what the tree holds afterwards.
-/

namespace PathTree

/-- What a tree holds at a path: a file with its payload, or a directory. -/
inductive Node (α : Type) where
  | file (a : α)
  | dir
  deriving DecidableEq

/-- A directory tree over names `ν` with file payloads `α`. -/
@[ext] structure Tree (ν α : Type) where
  get : List ν → Option (Node α)
  root : get [] = some Node.dir
  closed : ∀ n p, get (n :: p) ≠ none → get p = some Node.dir
  finite : ∃ ps : List (List ν), ∀ p, get p ≠ none → p ∈ ps

variable {ν α : Type}

/-- A path is never above its own parent. -/
lemma cons_not_suffix (n : ν) (p : List ν) : ¬ (n :: p) <:+ p := by
  intro h
  have hlen := h.length_le
  rw [List.length_cons] at hlen
  omega

/-- What lies strictly below a path lies below its parent. -/
lemma suffix_tail_of_ne {b p : List ν} (h : b <:+ p) (hne : b ≠ p) : b <:+ p.tail := by
  cases p with
  | nil => exact h
  | cons n p => exact (List.suffix_cons_iff.mp h).resolve_left hne

/-- What is at or above the parent of a path is strictly above the path. -/
lemma above_of_suffix_tail {b p : List ν} (hp : p ≠ []) (h : b <:+ p.tail) :
    b <:+ p ∧ b ≠ p := by
  cases p with
  | nil => exact absurd rfl hp
  | cons n r =>
      refine ⟨h.trans (List.suffix_cons n r), ?_⟩
      rintro rfl
      exact cons_not_suffix n r h

namespace Tree

/-- Is there a directory at `p`? -/
def isDir (t : Tree ν α) (p : List ν) : Bool :=
  match t.get p with
  | some Node.dir => true
  | _ => false

lemma isDir_iff {t : Tree ν α} {p : List ν} : t.isDir p = true ↔ t.get p = some Node.dir := by
  unfold isDir
  split <;> simp_all

/-- Everything above something that exists is a directory. -/
lemma dir_of_below (t : Tree ν α) {a q : List ν} (h : a <:+ q) (hne : a ≠ q)
    (hq : t.get q ≠ none) : t.get a = some Node.dir := by
  induction q with
  | nil => exact absurd (List.suffix_nil.mp h) hne
  | cons n p ih =>
      have hp := t.closed n p hq
      rcases List.suffix_cons_iff.mp h with rfl | h
      · exact absurd rfl hne
      · by_cases hap : a = p
        · rw [hap]; exact hp
        · exact ih h hap (by rw [hp]; simp)

/-- No file stands at or above a directory. -/
lemma dir_above_dir (t : Tree ν α) {x : List ν} (h : t.get x = some Node.dir) {a : List ν}
    (ha : a <:+ x) : t.get a = none ∨ t.get a = some Node.dir := by
  by_cases hax : a = x
  · exact Or.inr (hax ▸ h)
  · exact Or.inr (t.dir_of_below ha hax (by rw [h]; simp))

/-- Nothing exists below something that does not. -/
lemma none_of_below (t : Tree ν α) {a q : List ν} (h : a <:+ q) (ha : t.get a = none) :
    t.get q = none := by
  by_contra hq
  by_cases hne : a = q
  · exact hq (hne ▸ ha)
  · rw [t.dir_of_below h hne hq] at ha
    cases ha

/-- A path below a file does not exist. -/
lemma none_below_file (t : Tree ν α) {a q : List ν} {x : α} (h : a <:+ q) (hne : a ≠ q)
    (ha : t.get a = some (Node.file x)) : t.get q = none := by
  by_contra hq
  rw [t.dir_of_below h hne hq] at ha
  cases ha

/-- The tree with nothing but its root. -/
def empty : Tree ν α where
  get p := if p.isEmpty then some Node.dir else none
  root := rfl
  closed := by intro n p h; exact absurd rfl h
  finite := ⟨[[]], fun p h => by
    cases p with
    | nil => exact List.mem_singleton_self _
    | cons n p => exact absurd rfl h⟩

/-! ## Removing subtrees -/

/-- Is `q`, or something above it other than the root, marked by `S`? -/
def covered (S : List ν → Bool) : List ν → Bool
  | [] => false
  | n :: p => S (n :: p) || covered S p

lemma covered_iff {S : List ν → Bool} {q : List ν} :
    covered S q = true ↔ ∃ a, a <:+ q ∧ a ≠ [] ∧ S a = true := by
  induction q with
  | nil =>
      simp only [covered, List.suffix_nil]
      constructor
      · intro h; cases h
      · rintro ⟨a, rfl, h, _⟩; exact absurd rfl h
  | cons n p ih =>
      simp only [covered, Bool.or_eq_true, ih]
      constructor
      · rintro (h | ⟨a, ha, hne, hS⟩)
        · exact ⟨n :: p, List.suffix_refl _, by simp, h⟩
        · exact ⟨a, ha.trans (List.suffix_cons n p), hne, hS⟩
      · rintro ⟨a, ha, hne, hS⟩
        rcases List.suffix_cons_iff.mp ha with rfl | ha
        · exact Or.inl hS
        · exact Or.inr ⟨a, ha, hne, hS⟩

/-- Remove every path marked by `S` together with everything beneath it. -/
def prune (t : Tree ν α) (S : List ν → Bool) : Tree ν α where
  get q := if covered S q then none else t.get q
  root := by simp [covered, t.root]
  closed := by
    intro n p h
    by_cases hc : covered S (n :: p)
    · simp [hc] at h
    · have hp : ¬ covered S p := fun hp => hc (by simp [covered, hp])
      rw [if_neg hc] at h
      rw [if_neg hp]
      exact t.closed n p h
  finite := by
    obtain ⟨ps, hps⟩ := t.finite
    refine ⟨ps, fun p h => hps p (fun hn => h ?_)⟩
    rw [hn, ite_self]

lemma prune_get (t : Tree ν α) (S : List ν → Bool) (q : List ν) :
    (t.prune S).get q = if covered S q then none else t.get q := rfl

/-- Pruning never makes anything appear. -/
lemma prune_none {t : Tree ν α} {S : List ν → Bool} {q : List ν} (h : t.get q = none) :
    (t.prune S).get q = none := by
  rw [prune_get, h, ite_self]

/-- Pruning at and below a path touches nothing else. -/
lemma prune_of_not_below {t : Tree ν α} {S : List ν → Bool} {d q : List ν}
    (hS : ∀ a, S a = true → d <:+ a) (h : ¬ d <:+ q) : (t.prune S).get q = t.get q := by
  rw [prune_get, if_neg]
  intro hc
  obtain ⟨a, haq, -, ha⟩ := covered_iff.mp hc
  exact h ((hS a ha).trans haq)

variable [DecidableEq ν]

/-- Remove the path `d` with everything beneath it. -/
def erase (t : Tree ν α) (d : List ν) : Tree ν α := t.prune (fun a => a == d)

lemma erase_get (t : Tree ν α) (d q : List ν) :
    (t.erase d).get q = if d ≠ [] ∧ d <:+ q then none else t.get q := by
  have hiff : covered (fun a => a == d) q = true ↔ d ≠ [] ∧ d <:+ q := by
    rw [covered_iff]
    constructor
    · rintro ⟨a, ha, hne, hS⟩
      rw [beq_iff_eq] at hS
      subst hS
      exact ⟨hne, ha⟩
    · rintro ⟨hne, h⟩
      exact ⟨d, h, hne, by simp⟩
  rw [erase, prune_get]
  by_cases h : d ≠ [] ∧ d <:+ q
  · rw [if_pos (hiff.mpr h), if_pos h]
  · rw [if_neg (fun hc => h (hiff.mp hc)), if_neg h]

lemma erase_self {t : Tree ν α} {d : List ν} (hd : d ≠ []) : (t.erase d).get d = none := by
  rw [erase_get, if_pos ⟨hd, List.suffix_refl d⟩]

lemma erase_of_not_below {t : Tree ν α} {d q : List ν} (h : ¬ d <:+ q) :
    (t.erase d).get q = t.get q := by
  rw [erase_get, if_neg (fun hc => h hc.2)]

/-- Erasing a file touches no other path. -/
lemma erase_file_keep {t : Tree ν α} {d q : List ν} {a : α} (hd : t.get d = some (Node.file a))
    (h : q ≠ d) : (t.erase d).get q = t.get q := by
  by_cases hb : d <:+ q
  · rw [erase_get, t.none_below_file hb (Ne.symm h) hd, ite_self]
  · exact erase_of_not_below hb

/-! ## Storing files and making directories -/

/-- One more path leaves a tree finite. -/
lemma finite_update (t : Tree ν α) (q : List ν) (x : Option (Node α)) :
    ∃ ps : List (List ν), ∀ p, (if p = q then x else t.get p) ≠ none → p ∈ ps := by
  obtain ⟨ps, hps⟩ := t.finite
  refine ⟨q :: ps, fun p h => ?_⟩
  by_cases hpq : p = q
  · exact hpq ▸ List.mem_cons_self
  · rw [if_neg hpq] at h
    exact List.mem_cons_of_mem q (hps p h)

/-- Store the payload `a` at `q`, replacing a file already there.  Refused when the parent is
not a directory or `q` itself is one. -/
def write? (t : Tree ν α) (q : List ν) (a : α) : Option (Tree ν α) :=
  match q with
  | [] => none
  | n :: p =>
      if h : t.isDir p = true ∧ ¬ t.isDir (n :: p) = true then
        some {
          get := fun r => if r = n :: p then some (Node.file a) else t.get r
          root := by simp [t.root]
          closed := by
            intro m r hr
            have hne : r ≠ n :: p := by
              rintro rfl
              rw [if_neg (by simp)] at hr
              exact h.2 (isDir_iff.mpr (t.closed m _ hr))
            rw [if_neg hne]
            by_cases hmr : m :: r = n :: p
            · obtain ⟨-, rfl⟩ := List.cons.inj hmr
              exact isDir_iff.mp h.1
            · rw [if_neg hmr] at hr
              exact t.closed m r hr
          finite := t.finite_update (n :: p) _ }
      else none

lemma write?_eq_some {t t' : Tree ν α} {q : List ν} {a : α} (h : t.write? q a = some t') :
    q ≠ [] ∧ t.get q ≠ some Node.dir ∧
      ∀ r, t'.get r = if r = q then some (Node.file a) else t.get r := by
  cases q with
  | nil => simp [write?] at h
  | cons n p =>
      simp only [write?] at h
      split at h
      · rename_i hc
        cases h
        exact ⟨by simp, fun hd => hc.2 (isDir_iff.mpr hd), fun r => rfl⟩
      · cases h

/-- A write is accepted exactly when the parent is a directory and the target is not. -/
lemma write?_isSome {t : Tree ν α} {n : ν} {p : List ν} {a : α}
    (hp : t.get p = some Node.dir) (hq : t.get (n :: p) ≠ some Node.dir) :
    ∃ t', t.write? (n :: p) a = some t' := by
  refine ⟨_, dif_pos ⟨isDir_iff.mpr hp, fun h => hq (isDir_iff.mp h)⟩⟩

lemma write?_parent {t t' : Tree ν α} {n : ν} {p : List ν} {a : α}
    (h : t.write? (n :: p) a = some t') : t.get p = some Node.dir := by
  simp only [write?] at h
  split at h
  · rename_i hc; exact isDir_iff.mp hc.1
  · cases h

/-- What was written once can be written again. -/
lemma write?_again {t t₁ : Tree ν α} {q : List ν} {a : α} (h : t.write? q a = some t₁) (b : α) :
    ∃ t₂, t₁.write? q b = some t₂ ∧
      ∀ r, t₂.get r = if r = q then some (Node.file b) else t.get r := by
  obtain ⟨hq, -, hg⟩ := write?_eq_some h
  cases q with
  | nil => exact absurd rfl hq
  | cons n p =>
      have hp : t₁.get p = some Node.dir := by
        rw [hg p, if_neg (List.cons_ne_self n p).symm]
        exact write?_parent h
      have hfile : t₁.get (n :: p) ≠ some Node.dir := by rw [hg, if_pos rfl]; simp
      obtain ⟨t₂, h₂⟩ := write?_isSome (a := b) hp hfile
      refine ⟨t₂, h₂, fun r => ?_⟩
      obtain ⟨-, -, hg₂⟩ := write?_eq_some h₂
      rw [hg₂ r, hg r]
      split <;> rfl

/-- Make the directory `q`.  Refused when something is there or the parent is missing. -/
def mkdir? (t : Tree ν α) (q : List ν) : Option (Tree ν α) :=
  match q with
  | [] => none
  | n :: p =>
      if h : t.isDir p = true then
        match t.get (n :: p) with
        | some _ => none
        | none =>
            some {
              get := fun r => if r = n :: p then some Node.dir else t.get r
              root := by simp [t.root]
              closed := by
                intro m r hr
                by_cases hrq : r = n :: p
                · rw [if_pos hrq]
                · rw [if_neg hrq]
                  by_cases hmr : m :: r = n :: p
                  · obtain ⟨-, rfl⟩ := List.cons.inj hmr
                    exact isDir_iff.mp h
                  · rw [if_neg hmr] at hr
                    exact t.closed m r hr
              finite := t.finite_update (n :: p) _ }
      else none

lemma mkdir?_eq_some {t t' : Tree ν α} {q : List ν} (h : t.mkdir? q = some t') :
    q ≠ [] ∧ t.get q = none ∧ ∀ r, t'.get r = if r = q then some Node.dir else t.get r := by
  cases q with
  | nil => simp [mkdir?] at h
  | cons n p =>
      simp only [mkdir?] at h
      split at h
      · split at h
        · cases h
        · rename_i hn
          cases h
          exact ⟨by simp, hn, fun r => rfl⟩
      · cases h

lemma mkdir?_isSome {t : Tree ν α} {n : ν} {p : List ν}
    (hp : t.get p = some Node.dir) (hq : t.get (n :: p) = none) :
    ∃ t', t.mkdir? (n :: p) = some t' := by
  simp only [mkdir?, isDir_iff.mpr hp, hq]
  exact ⟨_, rfl⟩

/-- Make `q` and every missing directory above it.  Refused when a file is in the way. -/
def mkdirAll? (t : Tree ν α) : List ν → Option (Tree ν α)
  | [] => some t
  | n :: p =>
      match t.mkdirAll? p with
      | none => none
      | some t' => if t'.isDir (n :: p) then some t' else t'.mkdir? (n :: p)

lemma mkdirAll?_get {t : Tree ν α} : ∀ {q : List ν} {t' : Tree ν α}, t.mkdirAll? q = some t' →
    ∀ r, t'.get r = if r <:+ q then some Node.dir else t.get r
  | [], t', h => by
      intro r
      simp only [mkdirAll?, Option.some.injEq] at h
      subst h
      split
      · rename_i hr; rw [List.suffix_nil.mp hr]; exact t.root
      · rfl
  | n :: p, t', h => by
      intro r
      simp only [mkdirAll?] at h
      split at h
      · cases h
      · rename_i t₁ h₁
        have ih := mkdirAll?_get h₁
        have hsplit : (r <:+ n :: p) ↔ (r = n :: p ∨ r <:+ p) := List.suffix_cons_iff
        split at h
        · -- `n :: p` was already a directory once its parents were in place
          rename_i hd
          cases h
          by_cases hr : r = n :: p
          · rw [if_pos (hsplit.mpr (Or.inl hr)), hr]
            exact isDir_iff.mp hd
          · rw [ih r]
            by_cases hrp : r <:+ p
            · rw [if_pos hrp, if_pos (hsplit.mpr (Or.inr hrp))]
            · rw [if_neg hrp, if_neg (fun hc => (hsplit.mp hc).elim hr hrp)]
        · obtain ⟨-, -, hg⟩ := mkdir?_eq_some h
          rw [hg r, ih r]
          by_cases hr : r = n :: p
          · rw [if_pos hr, if_pos (hsplit.mpr (Or.inl hr))]
          · rw [if_neg hr]
            by_cases hrp : r <:+ p
            · rw [if_pos hrp, if_pos (hsplit.mpr (Or.inr hrp))]
            · rw [if_neg hrp, if_neg (fun hc => (hsplit.mp hc).elim hr hrp)]

/-- Making directories changes nothing that exists. -/
lemma mkdirAll?_keep {t t' : Tree ν α} {q r : List ν} (h : t.mkdirAll? q = some t')
    (hr : t.get r ≠ none) : t'.get r = t.get r := by
  induction q generalizing t' with
  | nil =>
      simp only [mkdirAll?, Option.some.injEq] at h
      rw [← h]
  | cons n p ih =>
      simp only [mkdirAll?] at h
      split at h
      · cases h
      · rename_i t₁ h₁
        have ih₁ := ih h₁
        split at h
        · cases h; exact ih₁
        · obtain ⟨-, hn, hg⟩ := mkdir?_eq_some h
          rw [hg r, if_neg, ih₁]
          rintro rfl
          exact hr (ih₁ ▸ hn)

/-- With no file on the way, `mkdirAll?` succeeds. -/
lemma mkdirAll?_isSome {t : Tree ν α} {q : List ν}
    (h : ∀ r, r <:+ q → t.get r = none ∨ t.get r = some Node.dir) :
    ∃ t', t.mkdirAll? q = some t' := by
  induction q with
  | nil => exact ⟨t, rfl⟩
  | cons n p ih =>
      obtain ⟨t₁, h₁⟩ := ih (fun r hr => h r (hr.trans (List.suffix_cons n p)))
      have hg := mkdirAll?_get h₁
      have hp : t₁.get p = some Node.dir := by rw [hg p, if_pos (List.suffix_refl p)]
      simp only [mkdirAll?, h₁]
      by_cases hd : t₁.isDir (n :: p)
      · exact ⟨t₁, if_pos hd⟩
      · rw [if_neg hd]
        refine mkdir?_isSome hp ?_
        have hself : t₁.get (n :: p) = t.get (n :: p) := by rw [hg, if_neg (cons_not_suffix n p)]
        rcases h (n :: p) (List.suffix_refl _) with hn | hn
        · rw [hself, hn]
        · exact absurd (isDir_iff.mpr (hself.trans hn)) hd

/-- Add one entry; an entry that does not fit is skipped. -/
def insert (t : Tree ν α) (e : List ν × Node α) : Tree ν α :=
  match e.2 with
  | Node.dir => (t.mkdir? e.1).getD t
  | Node.file a => (t.write? e.1 a).getD t

/-- The tree with the given entries, every directory listed before what it holds. -/
def ofList (es : List (List ν × Node α)) : Tree ν α := es.foldl insert empty

/-- Nothing is in the tree but what was listed. -/
lemma ofList_mem {es : List (List ν × Node α)} {q : List ν} (h : (ofList es).get q ≠ none) :
    q = [] ∨ q ∈ es.map Prod.fst := by
  have hinsert : ∀ (t : Tree ν α) (e : List ν × Node α), (t.insert e).get q ≠ none →
      q = e.1 ∨ t.get q ≠ none := by
    intro t e hq
    by_cases hqe : q = e.1
    · exact Or.inl hqe
    · refine Or.inr (fun hn => hq ?_)
      unfold insert
      split
      · cases hm : t.mkdir? e.1 with
        | none => exact hn
        | some t' => exact ((mkdir?_eq_some hm).2.2 q).trans ((if_neg hqe).trans hn)
      · rename_i a _
        cases hm : t.write? e.1 a with
        | none => exact hn
        | some t' => exact ((write?_eq_some hm).2.2 q).trans ((if_neg hqe).trans hn)
  have hfold : ∀ (es : List (List ν × Node α)) (t : Tree ν α),
      (es.foldl insert t).get q ≠ none → q ∈ es.map Prod.fst ∨ t.get q ≠ none := by
    intro es
    induction es with
    | nil => exact fun t ht => Or.inr ht
    | cons e es ih =>
        intro t ht
        rcases ih (t.insert e) ht with hm | hm
        · exact Or.inl (List.mem_cons_of_mem _ hm)
        · rcases hinsert t e hm with rfl | hm
          · exact Or.inl List.mem_cons_self
          · exact Or.inr hm
  rcases hfold es empty h with hm | hm
  · exact Or.inr hm
  · cases q with
    | nil => exact Or.inl rfl
    | cons n p => exact absurd rfl hm

/-- Move the file at `p` to `q`, replacing a file there.  A source that is not a file is
refused, and moving a file onto itself changes nothing. -/
def rename? (t : Tree ν α) (p q : List ν) : Option (Tree ν α) :=
  match t.get p with
  | some (Node.file a) =>
      if p = q then some t else (t.write? q a).map (fun t' => t'.erase p)
  | _ => none

/-- What a successful rename of one path onto another leaves. -/
lemma rename?_eq_some {t t' : Tree ν α} {p q : List ν} (h : t.rename? p q = some t') :
    ∃ a, t.get p = some (Node.file a) ∧ ((p = q ∧ t' = t) ∨
      (p ≠ q ∧ t.get q ≠ some Node.dir ∧ ∀ r, t'.get r =
        if r = p then none else if r = q then some (Node.file a) else t.get r)) := by
  unfold rename? at h
  split at h
  · rename_i a ha
    refine ⟨a, ha, ?_⟩
    split at h
    · rename_i hpq
      exact Or.inl ⟨hpq, (Option.some.inj h).symm⟩
    · rename_i hpq
      cases hw : t.write? q a with
      | none => rw [hw] at h; cases h
      | some t₁ =>
          rw [hw] at h
          obtain ⟨-, hqd, hg⟩ := write?_eq_some hw
          have hp : p ≠ [] := by
            rintro rfl
            rw [t.root] at ha
            cases ha
          have ht' : t' = t₁.erase p := (Option.some.inj h).symm
          refine Or.inr ⟨hpq, hqd, fun r => ?_⟩
          rw [ht']
          by_cases hrp : r = p
          · rw [if_pos hrp, hrp, erase_self hp]
          · rw [if_neg hrp]
            have hpfile : t₁.get p = some (Node.file a) := by rw [hg p, if_neg hpq, ha]
            rw [erase_file_keep hpfile hrp, hg r]
  · cases h

/-- A file can be moved to any path whose parent is a directory and that is no directory. -/
lemma rename?_isSome {t : Tree ν α} {p : List ν} {n : ν} {q : List ν} {a : α}
    (hp : t.get p = some (Node.file a)) (hq : t.get q = some Node.dir)
    (hd : t.get (n :: q) ≠ some Node.dir) : ∃ t', t.rename? p (n :: q) = some t' := by
  obtain ⟨t₁, h₁⟩ := write?_isSome (a := a) hq hd
  unfold rename?
  rw [hp]
  by_cases h : p = n :: q
  · exact ⟨t, if_pos h⟩
  · simp only [if_neg h, h₁, Option.map_some]
    exact ⟨_, rfl⟩

end Tree

end PathTree
