import OwncloudSync.Auth.TokenManager
import Mathlib.Algebra.Group.Int.Defs
import Mathlib.Tactic.Common

/-!
# The arithmetic of expiry

`expires_in` is a `u64`, the clock an `i64`, and `token_response_to_set` casts the one to add it to the
other.  A lifetime from `2 ^ 63` on is **negative after the cast**, and the new token is expired at
once; one just below that makes the sum overflow.  `is_expired` subtracts 30 from whatever is stored,
and a time within 30 seconds of the smallest `i64` makes that overflow too.

`exactExpiry_iff` says that there is nothing else: where the end of the lifetime is an `i64`, the
arithmetic is that of the integers.
-/

namespace OwncloudSync

namespace Auth

/-- The number is one of `i64`. -/
def FitsI64 (n : ℤ) : Prop := -2 ^ 63 ≤ n ∧ n < 2 ^ 63

/-- A time the clock can show. -/
def IsClock (t : Int64) : Prop := 0 ≤ t.toInt ∧ t.toInt < 2 ^ 62

/-- How long the token is valid, in seconds. -/
def TokenResponse.lifetime (resp : TokenResponse) : UInt64 := resp.expiresIn.getD 3600

/-- The set made of a response at a time expires when it should, and no sum or difference overflows:
neither for this set, nor for another one that is stored. -/
structure ExactExpiry (now : Int64) (resp : TokenResponse) (stored : TokenSet) : Prop where
  expired : ∀ t, IsClock t → now ≤ t →
    ((tokenResponseToSet resp now).isExpired t = true ↔
      now.toInt + resp.lifetime.toNat ≤ t.toInt + 30)
  addition : FitsI64 (now.toInt + resp.lifetime.toInt64.toInt)
  subtraction : FitsI64 ((tokenResponseToSet resp now).expiresAt.toInt - 30)
  storedSubtraction : FitsI64 (stored.expiresAt.toInt - 30)

variable {now : Int64} {resp : TokenResponse} {stored : TokenSet}

instance (n : ℤ) : Decidable (FitsI64 n) := inferInstanceAs (Decidable (_ ∧ _))

instance (t : Int64) : Decidable (IsClock t) := inferInstanceAs (Decidable (_ ∧ _))

/-- What the cast makes of a lifetime. -/
lemma toInt_toInt64 (e : UInt64) :
    e.toInt64.toInt = if e.toNat < 2 ^ 63 then (e.toNat : ℤ) else e.toNat - 2 ^ 64 := by
  have hcond : e.toInt64.toInt = e.toBitVec.toInt := rfl
  have hnat : e.toBitVec.toNat = e.toNat := rfl
  rw [hcond, BitVec.toInt_eq_toNat_cond, hnat]
  split_ifs <;> omega

/-- Sums and differences that fit are those of the integers. -/
lemma toInt_add_of_fits {a b : Int64} (h : FitsI64 (a.toInt + b.toInt)) :
    (a + b).toInt = a.toInt + b.toInt := by
  rw [Int64.toInt_add]
  exact Int.bmod_eq_of_le h.1 h.2

lemma toInt_sub_thirty {a : Int64} (h : FitsI64 (a.toInt - 30)) : (a - 30).toInt = a.toInt - 30 := by
  have hthirty : (30 : Int64).toInt = 30 := by decide
  rw [Int64.toInt_sub, hthirty]
  exact Int.bmod_eq_of_le h.1 h.2

/-- When a set is expired, if nothing overflows. -/
lemma isExpired_iff {s : TokenSet} (h : FitsI64 (s.expiresAt.toInt - 30)) (t : Int64) :
    s.isExpired t = true ↔ s.expiresAt.toInt ≤ t.toInt + 30 := by
  rw [TokenSet.isExpired, decide_eq_true_iff, Int64.le_iff_toInt_le, toInt_sub_thirty h]
  omega

lemma fits_sub_thirty (a : Int64) : FitsI64 (a.toInt - 30) ↔ -2 ^ 63 + 30 ≤ a.toInt := by
  have hlt := a.toInt_lt
  rw [FitsI64]
  omega

lemma toInt_expiresAt (h : FitsI64 (now.toInt + resp.lifetime.toInt64.toInt)) :
    (tokenResponseToSet resp now).expiresAt.toInt = now.toInt + resp.lifetime.toInt64.toInt :=
  toInt_add_of_fits h

/-- **The arithmetic is exact** exactly if the token expires before the last second of `i64`, and no
stored time is within 30 seconds of the first. -/
theorem exactExpiry_iff (hnow : IsClock now) : ExactExpiry now resp stored ↔
    now.toInt + resp.lifetime.toNat < 2 ^ 63 ∧ -2 ^ 63 + 30 ≤ stored.expiresAt.toInt := by
  obtain ⟨hzero, hbound⟩ := hnow
  have hcast := toInt_toInt64 resp.lifetime
  have hlifetime : resp.lifetime.toNat < 2 ^ 64 := resp.lifetime.toNat_lt
  constructor
  · rintro ⟨hexpired, hadd, hsub, hstored⟩
    refine ⟨?_, (fits_sub_thirty _).mp hstored⟩
    by_contra hlong
    have hend := toInt_expiresAt hadd
    obtain ⟨-, hlt⟩ := hadd
    split_ifs at hcast with hsmall
    · omega
    · -- the lifetime is negative: the token is expired already
      have hnow' := hexpired now ⟨hzero, hbound⟩ (Int64.le_refl now)
      rw [isExpired_iff hsub, hend, hcast] at hnow'
      omega
  · rintro ⟨hshort, hstored⟩
    rw [if_pos (by omega)] at hcast
    have hadd : FitsI64 (now.toInt + resp.lifetime.toInt64.toInt) := by
      rw [hcast, FitsI64]
      omega
    have hend := toInt_expiresAt hadd
    have hsub : FitsI64 ((tokenResponseToSet resp now).expiresAt.toInt - 30) := by
      rw [fits_sub_thirty, hend, hcast]
      omega
    refine ⟨fun t _ _ => ?_, hadd, hsub, (fits_sub_thirty _).mpr hstored⟩
    rw [isExpired_iff hsub, hend, hcast]

/-- Five minutes from the second 1000 on, with a set in the keychain that expired at 970. -/
theorem rotated_exact : ExactExpiry 1000 rotated aging :=
  (exactExpiry_iff (by decide)).mpr (by decide)

/-- Valid for `2 ^ 63` seconds. -/
def endless : TokenResponse := ⟨"at-1".toList, none, some 9223372036854775808⟩

/-- **A lifetime of `2 ^ 63` seconds is over at once**, although no sum overflows; one that is a second
shorter makes the sum overflow; and the smallest stored time makes the difference overflow. -/
theorem endless_not_exact :
    (tokenResponseToSet endless 1000).isExpired 1000 = true ∧
      ¬ FitsI64 ((1000 : Int64).toInt + (9223372036854775807 : UInt64).toInt64.toInt) ∧
      ¬ FitsI64 (Int64.minValue.toInt - 30) ∧ ¬ ExactExpiry 1000 endless aging := by
  have hexpired : (tokenResponseToSet endless 1000).isExpired 1000 = true := by decide
  refine ⟨hexpired, by decide, by decide, fun h => ?_⟩
  have hlate := (h.expired 1000 (by decide) (by decide)).mp hexpired
  revert hlate
  decide

end Auth

end OwncloudSync
