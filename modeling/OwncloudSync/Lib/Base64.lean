import Mathlib.Data.List.Basic
import Mathlib.Tactic.Common

/-!
# Base64

Bytes as characters of an alphabet of sixty-four, three bytes to four characters, with `=` to fill
the last four.  `decode` takes canonical text only: the padding is there, and the bits it leaves over
are zero.

* `decode_encode` — nothing is lost;
* `mem_encode` — the text is made of the alphabet and `=`.
-/

namespace Base64

/-- Sixty-four characters, and the sextet each stands for. -/
structure Alphabet where
  char : ℕ → Char
  value : Char → Option ℕ
  value_char : ∀ n < 64, value (char n) = some n
  value_pad : value '=' = none

/-- The first byte of a quantum, in two sextets. -/
def byte₁ (w x : ℕ) : UInt8 := UInt8.ofNat (w * 4 + x / 16)

/-- The second byte, of the second and the third digit. -/
def byte₂ (x y : ℕ) : UInt8 := UInt8.ofNat (x % 16 * 16 + y / 4)

/-- The third byte, of the third and the fourth digit. -/
def byte₃ (y z : ℕ) : UInt8 := UInt8.ofNat (y % 4 * 64 + z)

variable (A : Alphabet)

/-- The digits of the bytes, three bytes at a time. -/
def encode : List UInt8 → List Char
  | a :: b :: c :: rest =>
      A.char (a.toNat / 4) :: A.char (a.toNat % 4 * 16 + b.toNat / 16) ::
        A.char (b.toNat % 16 * 4 + c.toNat / 64) :: A.char (c.toNat % 64) :: encode rest
  | [a, b] =>
      [A.char (a.toNat / 4), A.char (a.toNat % 4 * 16 + b.toNat / 16), A.char (b.toNat % 16 * 4), '=']
  | [a] => [A.char (a.toNat / 4), A.char (a.toNat % 4 * 16), '=', '=']
  | [] => []

/-- The bytes of the digits; it fails at a character that is no digit. -/
def decode : List Char → Option (List UInt8)
  | [] => some []
  | w :: x :: y :: z :: rest =>
      match A.value w, A.value x, A.value y, A.value z with
      | some w, some x, some y, some z =>
          (decode rest).map (fun bs => byte₁ w x :: byte₂ x y :: byte₃ y z :: bs)
      | some w, some x, some y', none =>
          if z = '=' ∧ rest = [] ∧ y' % 4 = 0 then some [byte₁ w x, byte₂ x y'] else none
      | some w, some x', none, none =>
          if y = '=' ∧ z = '=' ∧ rest = [] ∧ x' % 16 = 0 then some [byte₁ w x'] else none
      | _, _, _, _ => none
  | _ => none

lemma byte₁_eq (a : UInt8) {k : ℕ} (h : k < 16) : byte₁ (a.toNat / 4) (a.toNat % 4 * 16 + k) = a := by
  unfold byte₁
  rw [show a.toNat / 4 * 4 + (a.toNat % 4 * 16 + k) / 16 = a.toNat by omega, UInt8.ofNat_toNat]

lemma byte₂_eq (n : ℕ) (b : UInt8) {k : ℕ} (h : k < 4) :
    byte₂ (n * 16 + b.toNat / 16) (b.toNat % 16 * 4 + k) = b := by
  have hb := b.toNat_lt
  unfold byte₂
  rw [show (n * 16 + b.toNat / 16) % 16 * 16 + (b.toNat % 16 * 4 + k) / 4 = b.toNat by omega,
    UInt8.ofNat_toNat]

lemma byte₃_eq (n : ℕ) (c : UInt8) : byte₃ (n * 4 + c.toNat / 64) (c.toNat % 64) = c := by
  have hc := c.toNat_lt
  unfold byte₃
  rw [show (n * 4 + c.toNat / 64) % 4 * 64 + c.toNat % 64 = c.toNat by omega, UInt8.ofNat_toNat]

/-- **The bytes can be read back.** -/
theorem decode_encode (bs : List UInt8) : decode A (encode A bs) = some bs := by
  fun_induction encode A bs with
  | case1 a b c rest ih =>
      have ha := a.toNat_lt
      have hb := b.toNat_lt
      have hc := c.toNat_lt
      rw [decode, A.value_char _ (by omega), A.value_char _ (by omega), A.value_char _ (by omega),
        A.value_char _ (by omega), ih]
      simp [byte₁_eq a (show b.toNat / 16 < 16 by omega), byte₂_eq (a.toNat % 4) b
        (show c.toNat / 64 < 4 by omega), byte₃_eq (b.toNat % 16) c]
  | case2 a b =>
      have ha := a.toNat_lt
      have hb := b.toNat_lt
      rw [decode, A.value_char _ (by omega), A.value_char _ (by omega), A.value_char _ (by omega),
        A.value_pad]
      have hbyte := byte₂_eq (a.toNat % 4) b (show 0 < 4 by omega)
      rw [Nat.add_zero] at hbyte
      simp [byte₁_eq a (show b.toNat / 16 < 16 by omega), hbyte]
  | case3 a =>
      have ha := a.toNat_lt
      rw [decode, A.value_char _ (by omega), A.value_char _ (by omega), A.value_pad]
      have hbyte := byte₁_eq a (show 0 < 16 by omega)
      rw [Nat.add_zero] at hbyte
      simp [hbyte]
  | case4 => rfl

/-- Every character has a sextet, or fills up. -/
theorem mem_encode {c : Char} {bs : List UInt8} (h : c ∈ encode A bs) :
    c = '=' ∨ ∃ n < 64, c = A.char n := by
  fun_induction encode A bs with
  | case1 a b d rest ih =>
      have ha := a.toNat_lt
      have hb := b.toNat_lt
      have hd := d.toNat_lt
      simp only [List.mem_cons] at h
      rcases h with h | h | h | h | h
      · exact Or.inr ⟨_, by omega, h⟩
      · exact Or.inr ⟨_, by omega, h⟩
      · exact Or.inr ⟨_, by omega, h⟩
      · exact Or.inr ⟨_, by omega, h⟩
      · exact ih h
  | case2 a b =>
      have ha := a.toNat_lt
      have hb := b.toNat_lt
      simp only [List.mem_cons, List.not_mem_nil, or_false] at h
      rcases h with h | h | h | h
      · exact Or.inr ⟨_, by omega, h⟩
      · exact Or.inr ⟨_, by omega, h⟩
      · exact Or.inr ⟨_, by omega, h⟩
      · exact Or.inl h
  | case3 a =>
      have ha := a.toNat_lt
      simp only [List.mem_cons, List.not_mem_nil, or_false] at h
      rcases h with h | h | h | h
      · exact Or.inr ⟨_, by omega, h⟩
      · exact Or.inr ⟨_, by omega, h⟩
      · exact Or.inl h
      · exact Or.inl h
  | case4 => cases h

end Base64
