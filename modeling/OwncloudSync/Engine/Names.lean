import OwncloudSync.Engine.Env
import Mathlib.Data.Set.Finite.Basic
import Mathlib.Tactic.Common

/-!
# The names a run makes up

A download writes to `with_extension("tmp")` of its destination, a conflict sets the local file
aside under a name with the current second in it.  Both stand beside the path they are made from.

* Temp names always have the extension `tmp`, and the temp name of a temp name is itself
  (`extension_tmpName`, `tmpName_tmpName`): **the temp name forgets the extension**, so two
  paths may share it.
* Conflict names keep the extension and are different for different files and different
  seconds (`conflictName_inj`), the name `..` apart.
-/

namespace OwncloudSync

open PathTree FileName

variable {n m : Name} {p q : Path} {ts ts' : ℕ}

/-! ## Temp names -/

lemma extension_tmpName (hn : isFileName n) : extension (tmpName n) = some "tmp".toList :=
  extension_withExtension hn (by decide) (by decide)

lemma tmpName_tmpName : tmpName (tmpName n) = tmpName n :=
  withExtension_idem (by decide) (by decide)

lemma tmpPath_tmpPath : tmpPath (tmpPath p) = tmpPath p := by
  cases p with
  | nil => rfl
  | cons n r => simp only [tmpPath, tmpName_tmpName]

/-- The temp file stands beside its destination. -/
lemma tmpPath_tail : (tmpPath p).tail = p.tail := by
  cases p <;> rfl

lemma length_tmpPath : (tmpPath p).length = p.length := by
  cases p <;> rfl

/-! ## Conflict names -/

lemma conflictPath_tail (ts : ℕ) : (conflictPath p ts).tail = p.tail := by
  cases p <;> rfl

lemma length_conflictPath (ts : ℕ) : (conflictPath p ts).length = p.length := by
  cases p <;> rfl

lemma toDigits_inj (h : Nat.toDigits 10 ts = Nat.toDigits 10 ts') : ts = ts' := by
  rw [← Nat.ofDigitChars_ten_toDigits (n := ts), h, Nat.ofDigitChars_ten_toDigits]

/-- What a conflict name is made of: the name, the marker and the digits of the second. -/
lemma mem_conflictName {c : Char} (h : c ∈ conflictName n ts) :
    c ∈ n ∨ c ∈ "_conflict_".toList ∨ c ∈ Nat.toDigits 10 ts := by
  have hparts := name_of_stem_extension n
  unfold conflictName at h
  cases he : extension n with
  | some e =>
      rw [he] at h hparts
      rw [hparts]
      simp only [List.mem_append, List.mem_cons] at h ⊢
      grind
  | none =>
      rw [he] at h hparts
      rw [hparts]
      simp only [List.mem_append] at h ⊢
      grind

/-- A conflict name is longer than the name it is made from. -/
lemma conflictName_ne : conflictName n ts ≠ n := by
  intro h
  have hlen := congrArg List.length h
  have hn := congrArg List.length (name_of_stem_extension n)
  unfold conflictName at hlen
  split at hlen
  · rename_i e he
    rw [he] at hn
    simp only [List.length_append, List.length_cons] at hlen hn
    have h10 : "_conflict_".toList.length = 10 := by decide
    omega
  · rename_i he
    rw [he] at hn
    simp only [List.length_append] at hlen hn
    have h10 : "_conflict_".toList.length = 10 := by decide
    omega

lemma conflictPath_ne (hp : p ≠ []) : conflictPath p ts ≠ p := by
  cases p with
  | nil => exact absurd rfl hp
  | cons n r =>
      intro h
      exact conflictName_ne (List.cons.inj h).1

/-- A conflict name is longer than the temp name, too. -/
lemma conflictName_ne_tmpName : conflictName n ts ≠ tmpName n := by
  intro h
  unfold tmpName withExtension at h
  split at h
  · have hlen := congrArg List.length h
    have h10 : "_conflict_".toList.length = 10 := by decide
    have h3 : "tmp".toList.length = 3 := by decide
    unfold conflictName at hlen
    split at hlen
    · simp only [List.length_append, List.length_cons] at hlen
      omega
    · simp only [List.length_append, List.length_cons] at hlen
      omega
  · exact conflictName_ne h

lemma conflictPath_ne_tmpPath (hp : p ≠ []) : conflictPath p ts ≠ tmpPath p := by
  cases p with
  | nil => exact absurd rfl hp
  | cons n r =>
      intro h
      exact conflictName_ne_tmpName (List.cons.inj h).1

/-- Different seconds give different conflict names. -/
lemma conflictName_clock_inj (h : conflictName n ts = conflictName n ts') : ts = ts' := by
  unfold conflictName at h
  split at h
  · exact toDigits_inj (List.append_cancel_left (List.append_cancel_right h))
  · exact toDigits_inj (List.append_cancel_left h)

/-- Some second gives a conflict path at which the disk holds nothing and that is none of the
given ones. -/
lemma exists_clock (d : Disk) (avoid : List Path) (hp : p ≠ []) :
    ∃ ts, d.get (conflictPath p ts) = none ∧ conflictPath p ts ∉ avoid := by
  obtain ⟨ps, hps⟩ := d.finite
  have hinj : Function.Injective (conflictPath p) := by
    intro ts ts' h
    cases p with
    | nil => exact absurd rfl hp
    | cons n r => exact conflictName_clock_inj (List.cons.inj h).1
  obtain ⟨_, ⟨ts, rfl⟩, hts⟩ :=
    (Set.infinite_range_of_injective hinj).exists_notMem_finset (ps ++ avoid).toFinset
  rw [List.mem_toFinset, List.mem_append, not_or] at hts
  refine ⟨ts, ?_, hts.2⟩
  by_contra hne
  exact hts.1 (hps _ hne)

/-- The stem of a conflict name and its parts. -/
lemma append_conflict_inj {a b c d : List Char} (hc : '_' ∉ c) (hd : '_' ∉ d)
    (h : a ++ "_conflict_".toList ++ c = b ++ "_conflict_".toList ++ d) : a = b ∧ c = d := by
  -- the last underscore of either side ends its infix, so the digits agree
  have key : ∀ {x y u v : List Char}, '_' ∉ u → '_' ∉ v →
      x ++ '_' :: u = y ++ '_' :: v → x = y ∧ u = v := by
    intro x y u v hu hv hxy
    rcases List.append_eq_append_iff.mp hxy with ⟨as, hy, hu'⟩ | ⟨as, hx, hv'⟩
    · cases as with
      | nil => simp at hy hu'; exact ⟨hy.symm, hu'⟩
      | cons c as =>
          obtain ⟨-, rfl⟩ := List.cons.inj hu'
          exact absurd (by simp) hu
    · cases as with
      | nil => simp at hx hv'; exact ⟨hx, hv'.symm⟩
      | cons c as =>
          obtain ⟨-, rfl⟩ := List.cons.inj hv'
          exact absurd (by simp) hv
  have hsplit : ∀ x u : List Char, x ++ "_conflict_".toList ++ u =
      (x ++ "_conflict".toList) ++ '_' :: u := by
    intro x u
    simp
  rw [hsplit, hsplit] at h
  obtain ⟨hab, hcd⟩ := key hc hd h
  exact ⟨List.append_cancel_right hab, hcd⟩

/-- A conflict name keeps the extension of the name it is made from. -/
lemma rsplitFileAtDot_conflictName (ts : ℕ) (hn : n ≠ ['.', '.']) :
    rsplitFileAtDot (conflictName n ts) =
      (fileStem n ++ "_conflict_".toList ++ Nat.toDigits 10 ts, extension n) := by
  have hdot : '.' ∉ "_conflict_".toList ++ Nat.toDigits 10 ts := by
    rw [List.mem_append, not_or]
    refine ⟨by decide, fun h => ?_⟩
    have := Nat.isDigit_of_mem_toDigits (by decide) (by decide) h
    exact absurd this (by decide)
  have hne : fileStem n ++ "_conflict_".toList ++ Nat.toDigits 10 ts ≠ [] := by simp
  unfold conflictName
  cases he : extension n with
  | some e =>
      have hmem := dot_notMem_extension he
      refine rsplitFileAtDot_join hne hmem ?_
      intro hc
      have hlen := congrArg List.length hc
      simp only [List.length_append, List.length_cons] at hlen
      have h10 : "_conflict_".toList.length = 10 := by decide
      have h2 : ([] : List Char).length = 0 := rfl
      omega
  | none =>
      have hstem : fileStem n = n := by
        have h := name_of_stem_extension n
        rw [he] at h
        exact h.symm
      rw [hstem, List.append_assoc]
      rcases rsplitFileAtDot_cases n with ⟨-, hdd | hno | ⟨cs, rfl, hcs⟩⟩ | ⟨b, a, -, -, -, hc⟩
      · exact absurd hdd hn
      · have hnot : '.' ∉ n ++ ("_conflict_".toList ++ Nat.toDigits 10 ts) := by
          rw [List.mem_append, not_or]
          exact ⟨hno, hdot⟩
        have hcut := rsplitDot_eq_none.mpr hnot
        rw [rsplitFileAtDot, hcut, ite_self]
      · have hnot : '.' ∉ cs ++ ("_conflict_".toList ++ Nat.toDigits 10 ts) := by
          rw [List.mem_append, not_or]
          exact ⟨hcs, hdot⟩
        have hcut : rsplitDot ('.' :: cs ++ ("_conflict_".toList ++ Nat.toDigits 10 ts)) =
            some ([], cs ++ ("_conflict_".toList ++ Nat.toDigits 10 ts)) :=
          rsplitDot_eq_some.mpr ⟨rfl, hnot⟩
        rw [rsplitFileAtDot, hcut, ite_self]
      · rw [extension, hc] at he
        cases he

lemma extension_conflictName (hn : n ≠ ['.', '.']) :
    extension (conflictName n ts) = extension n := by
  rw [extension, rsplitFileAtDot_conflictName ts hn]

/-- **Conflict copies of different files have different names.** -/
theorem conflictName_inj (hn : n ≠ ['.', '.']) (hm : m ≠ ['.', '.'])
    (h : conflictName n ts = conflictName m ts') : n = m ∧ ts = ts' := by
  have hcut := rsplitFileAtDot_conflictName ts hn
  rw [h, rsplitFileAtDot_conflictName ts' hm, Prod.mk.injEq] at hcut
  obtain ⟨hstem, hext⟩ := hcut
  obtain ⟨hs, hd⟩ := append_conflict_inj Nat.underscore_not_in_toDigits
    Nat.underscore_not_in_toDigits hstem
  exact ⟨eq_of_stem_extension hs.symm hext.symm, (toDigits_inj hd).symm⟩

end OwncloudSync
