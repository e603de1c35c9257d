import OwncloudSync.Discovery.Propfind
import Mathlib.Tactic.Common

/-!
# Percent-encoding

`join_remote_path` leaves the encoding of a name to the `url` crate and `decode_href_path` undoes it.
What is encoded are the bytes of the name in UTF-8: a byte that is legal in a path segment stands for
itself, any other is `%` and two hex digits.  Which bytes are legal is the crate's choice
(`SegmentBytes`); what matters is that they are ASCII and that the percent sign and the slash are not
among them.

`decodeHrefPath_encodeSegments` is the round trip: the encoded names, with slashes between them, decode
to the names with slashes between them.
-/

namespace OwncloudSync

/-! ## Slashes -/

lemma trimStartSlash_slashes (n : ℕ) (s : Str) :
    trimStartSlash (List.replicate n '/' ++ s) = trimStartSlash s := by
  induction n with
  | zero => rfl
  | succ n ih => exact ih

lemma trimStartSlash_of_head {s : Str} (h : s.head? ≠ some '/') : trimStartSlash s = s := by
  cases s with
  | nil => rfl
  | cons c s =>
      have hc : c ≠ '/' := fun hc => h (by rw [hc]; rfl)
      exact List.dropWhile_cons_of_neg (by simpa using hc)

lemma trimEndSlash_concat (p : Str) : trimEndSlash (p ++ ['/']) = trimEndSlash p := by
  simp [trimEndSlash]

/-- What is trimmed is slashes. -/
lemma eq_trimEndSlash (p : Str) : ∃ n, p = trimEndSlash p ++ List.replicate n '/' := by
  induction p using List.reverseRecOn with
  | nil => exact ⟨0, rfl⟩
  | append_singleton p c ih =>
      by_cases hc : c = '/'
      · obtain ⟨n, hn⟩ := ih
        refine ⟨n + 1, ?_⟩
        rw [hc, trimEndSlash_concat, List.replicate_succ', ← List.append_assoc, ← hn]
      · refine ⟨0, ?_⟩
        simp [trimEndSlash, hc]

/-- Segments with a slash before each are segments with slashes between them, after one more. -/
lemma flatMap_slash (enc : Str → Str) (c : Str) (cs : List Str) :
    (c :: cs).flatMap (fun c => '/' :: enc c) =
      '/' :: ['/'].intercalate ((c :: cs).map enc) := by
  induction cs generalizing c with
  | nil => simp
  | cons c' cs ih =>
      rw [List.flatMap_cons, ih c']
      simp only [List.map_cons, List.intercalate_cons_cons]
      simp

/-! ## UTF-8 -/

variable {b₀ b₁ b₂ b₃ : UInt8} {rest : List UInt8}

lemma decodeUtf8Lossy_ascii (h : b₀.toNat < 0x80) :
    decodeUtf8Lossy (b₀ :: rest) = Char.ofNat b₀.toNat :: decodeUtf8Lossy rest := by
  have hlt : b₀ < 0x80 := UInt8.lt_iff_toNat_lt.mpr h
  rw [decodeUtf8Lossy.eq_def]
  dsimp only
  rw [if_pos hlt]

/-- The first byte of a character of several bytes. -/
lemma first_byte (b₀ : UInt8) (h : 0xC2 ≤ b₀.toNat ∧ b₀.toNat ≤ 0xF4) :
    ¬ b₀ < 0x80 ∧ ¬ (b₀ < 0xC2 ∨ 0xF4 < b₀) := by
  have h1 : (0x80 : UInt8).toNat = 128 := rfl
  have h2 : (0xC2 : UInt8).toNat = 194 := rfl
  have h3 : (0xF4 : UInt8).toNat = 244 := rfl
  simp only [UInt8.lt_iff_toNat_lt]
  omega

/-- The bytes that may follow it, in numbers. -/
lemma secondByte_of (h : 0x80 ≤ b₁.toNat ∧ b₁.toNat ≤ 0xBF)
    (hE0 : b₀.toNat = 0xE0 → 0xA0 ≤ b₁.toNat) (hED : b₀.toNat = 0xED → b₁.toNat ≤ 0x9F)
    (hF0 : b₀.toNat = 0xF0 → 0x90 ≤ b₁.toNat) (hF4 : b₀.toNat = 0xF4 → b₁.toNat ≤ 0x8F) :
    ¬ secondByte b₀ b₁ = false := by
  have e1 : (0xE0 : UInt8).toNat = 224 := rfl
  have e2 : (0xED : UInt8).toNat = 237 := rfl
  have e3 : (0xF0 : UInt8).toNat = 240 := rfl
  have e4 : (0xF4 : UInt8).toNat = 244 := rfl
  have e5 : (0x80 : UInt8).toNat = 128 := rfl
  have e6 : (0xBF : UInt8).toNat = 191 := rfl
  have e7 : (0xA0 : UInt8).toNat = 160 := rfl
  have e8 : (0x9F : UInt8).toNat = 159 := rfl
  have e9 : (0x90 : UInt8).toNat = 144 := rfl
  have e10 : (0x8F : UInt8).toNat = 143 := rfl
  rw [Bool.not_eq_false, secondByte]
  simp only [← UInt8.toNat_inj, UInt8.le_iff_toNat_le]
  split_ifs <;> simp only [decide_eq_true_eq] <;> omega

lemma tailByte_of (h : 0x80 ≤ b₂.toNat ∧ b₂.toNat ≤ 0xBF) : ¬ tailByte b₂ = false := by
  rw [Bool.not_eq_false, tailByte, decide_eq_true_eq, UInt8.le_iff_toNat_le, UInt8.le_iff_toNat_le]
  exact h

lemma decodeUtf8Lossy_two (h₀ : 0xC2 ≤ b₀.toNat ∧ b₀.toNat < 0xE0)
    (h₁ : 0x80 ≤ b₁.toNat ∧ b₁.toNat ≤ 0xBF) :
    decodeUtf8Lossy (b₀ :: b₁ :: rest) =
      Char.ofNat (b₀.toNat % 32 * 64 + b₁.toNat % 64) :: decodeUtf8Lossy rest := by
  obtain ⟨hascii, hrange⟩ := first_byte b₀ ⟨h₀.1, by omega⟩
  have hsecond : ¬ secondByte b₀ b₁ = false := by apply secondByte_of h₁ <;> omega
  have htwo : b₀ < 0xE0 := UInt8.lt_iff_toNat_lt.mpr h₀.2
  rw [decodeUtf8Lossy.eq_def]
  dsimp only
  rw [if_neg hascii, if_neg hrange, if_neg hsecond, if_pos htwo]

lemma decodeUtf8Lossy_three (h₀ : 0xE0 ≤ b₀.toNat ∧ b₀.toNat < 0xF0)
    (h₁ : ¬ secondByte b₀ b₁ = false) (h₂ : 0x80 ≤ b₂.toNat ∧ b₂.toNat ≤ 0xBF) :
    decodeUtf8Lossy (b₀ :: b₁ :: b₂ :: rest) =
      Char.ofNat (b₀.toNat % 16 * 4096 + b₁.toNat % 64 * 64 + b₂.toNat % 64) ::
        decodeUtf8Lossy rest := by
  obtain ⟨hascii, hrange⟩ := first_byte b₀ ⟨by omega, by omega⟩
  have htwo : ¬ b₀ < 0xE0 := fun h => absurd (UInt8.lt_iff_toNat_lt.mp h) (Nat.not_lt.mpr h₀.1)
  have hthree : b₀ < 0xF0 := UInt8.lt_iff_toNat_lt.mpr h₀.2
  rw [decodeUtf8Lossy.eq_def]
  dsimp only
  rw [if_neg hascii, if_neg hrange, if_neg h₁, if_neg htwo, if_neg (tailByte_of h₂), if_pos hthree]

lemma decodeUtf8Lossy_four (h₀ : 0xF0 ≤ b₀.toNat ∧ b₀.toNat ≤ 0xF4)
    (h₁ : ¬ secondByte b₀ b₁ = false) (h₂ : 0x80 ≤ b₂.toNat ∧ b₂.toNat ≤ 0xBF)
    (h₃ : 0x80 ≤ b₃.toNat ∧ b₃.toNat ≤ 0xBF) :
    decodeUtf8Lossy (b₀ :: b₁ :: b₂ :: b₃ :: rest) =
      Char.ofNat (b₀.toNat % 8 * 262144 + b₁.toNat % 64 * 4096 + b₂.toNat % 64 * 64 +
        b₃.toNat % 64) :: decodeUtf8Lossy rest := by
  obtain ⟨hascii, hrange⟩ := first_byte b₀ ⟨by omega, by omega⟩
  have e1 : (0xE0 : UInt8).toNat = 224 := rfl
  have e2 : (0xF0 : UInt8).toNat = 240 := rfl
  have htwo : ¬ b₀ < 0xE0 := by rw [UInt8.lt_iff_toNat_lt]; omega
  have hthree : ¬ b₀ < 0xF0 := by rw [UInt8.lt_iff_toNat_lt]; omega
  rw [decodeUtf8Lossy.eq_def]
  dsimp only
  rw [if_neg hascii, if_neg hrange, if_neg h₁, if_neg htwo, if_neg (tailByte_of h₂),
    if_neg hthree, if_neg (tailByte_of h₃)]

/-- A character is read back from its bytes. -/
lemma decodeUtf8Lossy_utf8EncodeChar (c : Char) (rest : List UInt8) :
    decodeUtf8Lossy (String.utf8EncodeChar c ++ rest) = c :: decodeUtf8Lossy rest := by
  have hvalid : c.val.toNat < 0xD800 ∨ (0xDFFF < c.val.toNat ∧ c.val.toNat < 0x110000) := c.valid
  have hback : ∀ n, n = c.val.toNat → Char.ofNat n = c := fun n hn => by
    rw [hn]
    exact Char.ofNat_toNat c
  have hnat : ∀ n, (UInt8.ofNat n).toNat = n % 256 := fun n => UInt8.toNat_ofNat'
  fun_cases String.utf8EncodeChar c
  · rename_i h
    rw [List.singleton_append, decodeUtf8Lossy_ascii (by rw [hnat]; omega)]
    rw [hback _ (by rw [hnat]; omega)]
  · rename_i h1 h2
    rw [List.cons_append, List.singleton_append, decodeUtf8Lossy_two (by rw [hnat]; omega)
      (by rw [hnat]; omega), hback _ (by rw [hnat, hnat]; omega)]
  · rename_i h1 h2 h3
    rw [List.cons_append, List.cons_append, List.singleton_append,
      decodeUtf8Lossy_three (by rw [hnat]; omega)
        (by apply secondByte_of <;> simp only [hnat] <;> omega) (by rw [hnat]; omega),
      hback _ (by rw [hnat, hnat, hnat]; omega)]
  · rename_i h1 h2 h3
    rw [List.cons_append, List.cons_append, List.cons_append, List.singleton_append,
      decodeUtf8Lossy_four (by rw [hnat]; omega)
        (by apply secondByte_of <;> simp only [hnat] <;> omega) (by rw [hnat]; omega)
        (by rw [hnat]; omega),
      hback _ (by rw [hnat, hnat, hnat, hnat]; omega)]

lemma decodeUtf8Lossy_flatMap (s : Str) :
    decodeUtf8Lossy (s.flatMap String.utf8EncodeChar) = s := by
  induction s with
  | nil => rw [List.flatMap_nil, decodeUtf8Lossy.eq_def]
  | cons c s ih => rw [List.flatMap_cons, decodeUtf8Lossy_utf8EncodeChar, ih]

/-- An ASCII character comes into the bytes of a text only by itself. -/
lemma count_utf8EncodeChar_le {c : Char} (hc : c.toNat < 0x80) (d : Char) :
    (String.utf8EncodeChar d).count (UInt8.ofNat c.toNat) ≤ [d].count c := by
  have hnat : ∀ n, (UInt8.ofNat n).toNat = n % 256 := fun n => UInt8.toNat_ofNat'
  have hbyte : (UInt8.ofNat c.toNat).toNat = c.toNat := by
    rw [hnat]
    omega
  have habsent : ∀ {bs : List UInt8}, (∀ b ∈ bs, 0x80 ≤ b.toNat) →
      bs.count (UInt8.ofNat c.toNat) ≤ [d].count c := by
    intro bs hbs
    rw [List.count_eq_zero.mpr (fun hmem => by
      have hle := hbs _ hmem
      omega)]
    exact Nat.zero_le _
  fun_cases String.utf8EncodeChar d
  · rename_i h
    by_cases heq : d = c
    · rw [heq, List.count_singleton_self]
      exact List.count_le_length
    · refine (List.count_eq_zero.mpr fun hmem => heq ?_).trans_le (Nat.zero_le _)
      have hsame := congrArg UInt8.toNat (List.mem_singleton.mp hmem)
      rw [hbyte, hnat] at hsame
      have hval : d.val.toNat = c.val.toNat := by
        have hc' : c.toNat = c.val.toNat := rfl
        omega
      exact Char.ext (UInt32.toNat_inj.mp hval)
  · refine habsent fun b hb => ?_
    simp only [List.mem_cons, List.not_mem_nil, or_false] at hb
    rcases hb with rfl | rfl <;> rw [hnat] <;> omega
  · refine habsent fun b hb => ?_
    simp only [List.mem_cons, List.not_mem_nil, or_false] at hb
    rcases hb with rfl | rfl | rfl <;> rw [hnat] <;> omega
  · refine habsent fun b hb => ?_
    simp only [List.mem_cons, List.not_mem_nil, or_false] at hb
    rcases hb with rfl | rfl | rfl | rfl <;> rw [hnat] <;> omega

lemma count_bytes_le {c : Char} (hc : c.toNat < 0x80) (s : Str) :
    (s.flatMap String.utf8EncodeChar).count (UInt8.ofNat c.toNat) ≤ s.count c := by
  induction s with
  | nil => exact Nat.zero_le _
  | cons d s ih =>
      rw [List.flatMap_cons, List.count_append, ← List.singleton_append, List.count_append]
      exact Nat.add_le_add (count_utf8EncodeChar_le hc d) ih

/-! ## The parts of a path -/

lemma percentDecode_cons {b : UInt8} (h : b ≠ 0x25) :
    percentDecode (b :: rest) = b :: percentDecode rest := by
  rw [percentDecode.eq_def]
  dsimp only
  rw [if_neg h]

lemma percentDecode_slash (a b : List UInt8) :
    percentDecode (a ++ 0x2F :: b) = percentDecode a ++ 0x2F :: percentDecode b := by
  have hslash : percentDecode (0x2F :: b) = 0x2F :: percentDecode b := percentDecode_cons (by decide)
  have hno : hexValue 0x2F = none := by decide
  fun_induction percentDecode a with
  | case1 => exact hslash
  | case2 h l rest' x y hx hy ih =>
      rw [percentDecode.eq_def]
      simp only [List.cons_append, ↓reduceIte, hx, hy, ih]
  | case3 h l rest' hxy ih =>
      rw [percentDecode.eq_def]
      simp only [List.cons_append, ↓reduceIte] at ih ⊢
      rw [ih]
  | case4 h ih =>
      -- the slash is no hex digit
      rw [List.cons_append, percentDecode.eq_def]
      simp only [List.cons_append, List.nil_append, ↓reduceIte, hno] at ih ⊢
      rw [ih]
      cases hexValue h <;> rfl
  | case5 =>
      rw [List.singleton_append, percentDecode.eq_def]
      simp only [↓reduceIte]
      split
      · rename_i h l rest' heq
        obtain ⟨rfl, rfl⟩ := List.cons.inj heq
        rw [hno]
        dsimp only
        rw [hslash]
        rfl
      · rename_i h heq
        rw [← heq, hslash]
        rfl
      · rename_i heq
        cases heq
  | case6 c rest hc ih => rw [List.cons_append, percentDecode_cons hc, ih, List.cons_append]

lemma secondByte_slash (b : UInt8) : secondByte b 0x2F = false := by
  unfold secondByte
  split_ifs <;> decide

lemma decodeUtf8Lossy_slash (a b : List UInt8) :
    decodeUtf8Lossy (a ++ 0x2F :: b) = decodeUtf8Lossy a ++ '/' :: decodeUtf8Lossy b := by
  have hslash : decodeUtf8Lossy (0x2F :: b) = '/' :: decodeUtf8Lossy b :=
    decodeUtf8Lossy_ascii (by decide)
  have htail : tailByte 0x2F = false := by decide
  fun_induction decodeUtf8Lossy a
  case case1 => exact hslash
  -- where a character would go on, the slash begins a new one
  all_goals rw [decodeUtf8Lossy.eq_def]
  all_goals simp_all only [List.cons_append, List.nil_append, ↓reduceIte, secondByte_slash,
    Bool.true_eq_false]

/-- A path is decoded part by part. -/
lemma decodeHrefPath_slash (a b : Str) :
    decodeHrefPath (a ++ '/' :: b) = decodeHrefPath a ++ '/' :: decodeHrefPath b := by
  have hslash : String.utf8EncodeChar '/' = [0x2F] := by decide
  rw [decodeHrefPath, List.flatMap_append, List.flatMap_cons, hslash, List.singleton_append,
    percentDecode_slash, decodeUtf8Lossy_slash]
  rfl
/-! ## Segments -/

/-- The bytes that stand for themselves in a path segment. -/
structure SegmentBytes where
  legal : UInt8 → Bool
  ascii : ∀ b, legal b = true → b.toNat < 0x80
  percent : legal 0x25 = false
  slash : legal 0x2F = false
  question : legal 0x3F = false
  hash : legal 0x23 = false
  backslash : legal 0x5C = false

/-- The digit of a number below 16. -/
def hexDigit (n : UInt8) : UInt8 := if n < 10 then 0x30 + n else 0x37 + n

/-- A byte as the `url` crate writes it. -/
def encodeByte (β : SegmentBytes) (b : UInt8) : List UInt8 :=
  if β.legal b then [b] else [0x25, hexDigit (b / 16), hexDigit (b % 16)]

/-- The bytes of an encoded text. -/
def encodeBytes (β : SegmentBytes) (s : Str) : List UInt8 :=
  (s.flatMap String.utf8EncodeChar).flatMap (encodeByte β)

/-- A segment as it stands in a URL. -/
def encodeSegment (β : SegmentBytes) (s : Str) : Str :=
  (encodeBytes β s).map (fun b => Char.ofNat b.toNat)

variable {β : SegmentBytes}

lemma hexDigit_of_lt {n : UInt8} (h : n.toNat < 16) :
    hexValue (hexDigit n) = some n ∧ (hexDigit n).toNat < 0x80 ∧ hexDigit n ≠ 0x2F := by
  have hall : ∀ k < 16, hexValue (hexDigit (UInt8.ofNat k)) = some (UInt8.ofNat k) ∧
      (hexDigit (UInt8.ofNat k)).toNat < 0x80 ∧ hexDigit (UInt8.ofNat k) ≠ 0x2F := by decide
  have hn := hall n.toNat h
  rwa [UInt8.ofNat_toNat] at hn

lemma toNat_halves (b : UInt8) : (b / 16).toNat < 16 ∧ (b % 16).toNat < 16 := by
  have hb : b.toNat < 256 := b.toNat_lt
  have h16 : (16 : UInt8).toNat = 16 := rfl
  rw [UInt8.toNat_div, UInt8.toNat_mod, h16]
  omega

lemma join_halves (b : UInt8) : 16 * (b / 16) + b % 16 = b := by
  have hb : b.toNat < 256 := b.toNat_lt
  have h16 : (16 : UInt8).toNat = 16 := rfl
  rw [← UInt8.toNat_inj, UInt8.toNat_add, UInt8.toNat_mul, UInt8.toNat_div, UInt8.toNat_mod, h16]
  omega

lemma percentDecode_encodeByte (b : UInt8) (rest : List UInt8) :
    percentDecode (encodeByte β b ++ rest) = b :: percentDecode rest := by
  rw [encodeByte]
  split
  · rename_i hlegal
    refine percentDecode_cons (fun h => ?_)
    rw [h, β.percent] at hlegal
    exact Bool.false_ne_true hlegal
  · have hhigh := (hexDigit_of_lt (toNat_halves b).1).1
    have hlow := (hexDigit_of_lt (toNat_halves b).2).1
    rw [List.cons_append, List.cons_append, List.singleton_append, percentDecode.eq_def]
    dsimp only
    rw [if_pos rfl, hhigh, hlow]
    dsimp only
    rw [join_halves]

lemma percentDecode_flatMap_encodeByte (bs rest : List UInt8) :
    percentDecode (bs.flatMap (encodeByte β) ++ rest) = bs ++ percentDecode rest := by
  induction bs with
  | nil => rfl
  | cons b bs ih =>
      rw [List.flatMap_cons, List.append_assoc, percentDecode_encodeByte, ih, List.cons_append]

/-- Encoded bytes are ASCII, and no slash is among them. -/
lemma mem_encodeByte {a b : UInt8} (ha : b ∈ encodeByte β a) : b.toNat < 0x80 ∧ b ≠ 0x2F := by
  rw [encodeByte] at ha
  split at ha
  · rename_i hlegal
    obtain rfl := List.mem_singleton.mp ha
    refine ⟨β.ascii b hlegal, fun hslash => ?_⟩
    rw [hslash, β.slash] at hlegal
    exact Bool.false_ne_true hlegal
  · simp only [List.mem_cons, List.not_mem_nil, or_false] at ha
    rcases ha with rfl | rfl | rfl
    · decide
    · exact (hexDigit_of_lt (toNat_halves a).1).2
    · exact (hexDigit_of_lt (toNat_halves a).2).2

lemma mem_encodeBytes {s : Str} {b : UInt8} (h : b ∈ encodeBytes β s) :
    b.toNat < 0x80 ∧ b ≠ 0x2F := by
  obtain ⟨a, -, ha⟩ := List.mem_flatMap.mp h
  exact mem_encodeByte ha

lemma utf8EncodeChar_ofNat {b : UInt8} (h : b.toNat < 0x80) :
    String.utf8EncodeChar (Char.ofNat b.toNat) = [b] := by
  have hvalid : b.toNat.isValidChar := .inl (by omega)
  have hval : (Char.ofNat b.toNat).val.toNat = b.toNat := by
    rw [Char.ofNat, dif_pos hvalid]
    rfl
  rw [String.utf8EncodeChar, hval, if_pos (by omega), UInt8.ofNat_toNat]

lemma flatMap_ascii {bs : List UInt8} (hbs : ∀ b ∈ bs, b.toNat < 0x80) :
    (bs.map (fun b => Char.ofNat b.toNat)).flatMap String.utf8EncodeChar = bs := by
  induction bs with
  | nil => rfl
  | cons b bs ih =>
      obtain ⟨hb, hbs⟩ := List.forall_mem_cons.mp hbs
      rw [List.map_cons, List.flatMap_cons, utf8EncodeChar_ofNat hb, ih hbs,
        List.singleton_append]

/-- The characters of an encoded text are its bytes. -/
lemma flatMap_encodeSegment (s : Str) :
    (encodeSegment β s).flatMap String.utf8EncodeChar = encodeBytes β s :=
  flatMap_ascii (fun _ hb => (mem_encodeBytes hb).1)

lemma slash_not_mem_encodeSegment (s : Str) : '/' ∉ encodeSegment β s := by
  intro h
  obtain ⟨b, hb, hslash⟩ := List.mem_map.mp h
  obtain ⟨hlt, hne⟩ := mem_encodeBytes hb
  have hbytes := utf8EncodeChar_ofNat hlt
  rw [hslash] at hbytes
  exact hne (List.singleton_inj.mp (hbytes.symm.trans (by decide)))

lemma decodeHrefPath_encodeSegment (s : Str) : decodeHrefPath (encodeSegment β s) = s := by
  have hnil : percentDecode [] = [] := percentDecode.eq_def []
  rw [decodeHrefPath, flatMap_encodeSegment, encodeBytes, ← List.append_nil (List.flatMap _ _),
    percentDecode_flatMap_encodeByte, hnil, List.append_nil, decodeUtf8Lossy_flatMap]

/-- Different texts are encoded differently. -/
lemma encodeSegment_injective : Function.Injective (encodeSegment β) :=
  Function.LeftInverse.injective decodeHrefPath_encodeSegment

lemma decodeHrefPath_intercalate (ts : List Str) :
    decodeHrefPath (List.intercalate ['/'] ts) =
      List.intercalate ['/'] (ts.map decodeHrefPath) := by
  induction ts with
  | nil => simp [decodeHrefPath, percentDecode.eq_def, decodeUtf8Lossy.eq_def]
  | cons t ts ih =>
      cases ts with
      | nil => simp
      | cons u ts =>
          rw [List.intercalate_cons_cons, List.append_assoc, List.singleton_append,
            decodeHrefPath_slash, ih]
          simp only [List.map_cons, List.intercalate_cons_cons, List.append_assoc,
            List.singleton_append]

/-- **The round trip.** -/
lemma decodeHrefPath_encodeSegments (cs : List Str) :
    decodeHrefPath (List.intercalate ['/'] (cs.map (encodeSegment β))) =
      List.intercalate ['/'] cs := by
  rw [decodeHrefPath_intercalate, List.map_map]
  have hid : decodeHrefPath ∘ encodeSegment β = id := funext decodeHrefPath_encodeSegment
  rw [hid, List.map_id]

end OwncloudSync
