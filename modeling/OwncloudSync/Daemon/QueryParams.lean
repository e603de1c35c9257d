import OwncloudSync.Daemon.CallbackRequest
import OwncloudSync.Discovery.Encoding
import Mathlib.Tactic.Common

/-!
# Parameters of the callback

The server of a sign-in sends the browser to `/callback?code=…&state=…`, with the pairs in the form
`application/x-www-form-urlencoded`: a space is a plus, letters, digits and `*-._` stand for themselves,
and every other character is the percent escapes of its bytes.  `extract_query_param`
(`oidc_callback.rs`) cuts the pairs apart, compares the names **as they stand** and undoes only the
plus, since, as its comment says, codes contain no escapes in practice.

So the percent escapes of a value are passed on (`extractQueryParam_form`), and a parameter with a plain
name is read back exactly when its value is plain.
-/

namespace OwncloudSync

/-! ## The form -/

/-- ASCII letters and digits, and `*-._`. -/
def unreserved (c : Char) : Bool :=
  (0x30 ≤ c.toNat && c.toNat ≤ 0x39) || (0x41 ≤ c.toNat && c.toNat ≤ 0x5a) ||
    (0x61 ≤ c.toNat && c.toNat ≤ 0x7a) || c ∈ ['*', '-', '.', '_']

/-- Unreserved, or a space. -/
def plainChar (c : Char) : Bool := c = ' ' || unreserved c

/-- A byte that stands for itself. -/
def legalByte (b : UInt8) : Bool := unreserved (Char.ofNat b.toNat)

lemma legalByte_ascii {b : UInt8} (h : legalByte b = true) : b.toNat < 0x80 := by
  have hall : ∀ k < 256, legalByte (UInt8.ofNat k) = true → k < 0x80 := by decide +kernel
  have hb := hall b.toNat b.toNat_lt
  rw [UInt8.ofNat_toNat] at hb
  exact hb h

/-- The bytes that stand for themselves in a form. -/
def formBytes : SegmentBytes where
  legal := legalByte
  ascii _ h := legalByte_ascii h
  percent := by decide
  slash := by decide
  question := by decide
  hash := by decide
  backslash := by decide

/-- The same, and the space. -/
def spacedBytes : SegmentBytes where
  legal b := b = 0x20 || legalByte b
  ascii b h := by
    rcases Bool.or_eq_true_iff.mp h with h | h
    · rw [of_decide_eq_true h]
      decide
    · exact legalByte_ascii h
  percent := by decide
  slash := by decide
  question := by decide
  hash := by decide
  backslash := by decide

/-- A name or a value, as it stands in the query. -/
def formEncode (s : Str) : Str :=
  s.flatMap (fun c => if c = ' ' then ['+'] else encodeSegment formBytes [c])

/-- The serialisation of a list of pairs. -/
def formSerialize (pairs : List (Str × Str)) : Str :=
  ['&'].intercalate (pairs.map (fun pair => formEncode pair.1 ++ '=' :: formEncode pair.2))

/-- A value with the percent escapes left in. -/
def escaped (s : Str) : Str :=
  s.flatMap (fun c => if plainChar c = true then [c] else encodeSegment formBytes [c])

variable {c d : Char} {s t : Str} {β : SegmentBytes}

/-! ## Characters -/

lemma unreserved_cases (h : unreserved c = true) : (0x30 ≤ c.toNat ∧ c.toNat ≤ 0x39) ∨
    (0x41 ≤ c.toNat ∧ c.toNat ≤ 0x5a) ∨ (0x61 ≤ c.toNat ∧ c.toNat ≤ 0x7a) ∨ c.toNat = 0x2a ∨
    c.toNat = 0x2d ∨ c.toNat = 0x2e ∨ c.toNat = 0x5f := by
  simp only [unreserved, Bool.or_eq_true, Bool.and_eq_true, decide_eq_true_eq, List.mem_cons,
    List.not_mem_nil, or_false] at h
  rcases h with ((h | h) | h) | rfl | rfl | rfl | rfl
  · exact .inl h
  · exact .inr (.inl h)
  · exact .inr (.inr (.inl h))
  all_goals decide

lemma isWhiteSpace_of_unreserved (h : unreserved c = true) : isWhiteSpace c = false := by
  have hcases := unreserved_cases h
  simp only [isWhiteSpace, Bool.or_eq_false_iff, Bool.and_eq_false_iff, decide_eq_false_iff_not,
    List.mem_cons, List.not_mem_nil, or_false, not_or]
  omega

/-- What an encoded text is made of. -/
def formChar (c : Char) : Bool := unreserved c || c = '%' || c = '+'

lemma isWhiteSpace_of_formChar (h : formChar c = true) : isWhiteSpace c = false := by
  rcases Bool.or_eq_true_iff.mp h with h | h
  · rcases Bool.or_eq_true_iff.mp h with h | h
    · exact isWhiteSpace_of_unreserved h
    · rw [of_decide_eq_true h]
      decide
  · rw [of_decide_eq_true h]
    decide

lemma unreserved_hexDigit (b : UInt8) : unreserved (Char.ofNat (hexDigit (b / 16)).toNat) = true ∧
    unreserved (Char.ofNat (hexDigit (b % 16)).toNat) = true := by
  have hall : ∀ k < 16, unreserved (Char.ofNat (hexDigit (UInt8.ofNat k)).toNat) = true := by decide
  obtain ⟨hhigh, hlow⟩ := toNat_halves b
  have h := And.intro (hall _ hhigh) (hall _ hlow)
  rwa [UInt8.ofNat_toNat, UInt8.ofNat_toNat] at h

/-- Percent escapes, and what is unreserved. -/
lemma mem_encodeSegment (h : d ∈ encodeSegment formBytes s) : unreserved d = true ∨ d = '%' := by
  obtain ⟨b, hb, rfl⟩ := List.mem_map.mp h
  obtain ⟨a, -, ha⟩ := List.mem_flatMap.mp hb
  rw [encodeByte] at ha
  split at ha
  · rename_i hlegal
    rw [List.mem_singleton.mp ha]
    exact .inl hlegal
  · simp only [List.mem_cons, List.not_mem_nil, or_false] at ha
    rcases ha with rfl | rfl | rfl
    · exact .inr (by decide)
    · exact .inl (unreserved_hexDigit a).1
    · exact .inl (unreserved_hexDigit a).2

lemma mem_formEncode (h : d ∈ formEncode s) : formChar d = true := by
  obtain ⟨c, -, hc⟩ := List.mem_flatMap.mp h
  split at hc
  · rw [List.mem_singleton.mp hc]
    decide
  · rcases mem_encodeSegment hc with hd | rfl
    · simp [formChar, hd]
    · decide

/-! ## What is read back -/

lemma encodeSegment_flatMap (β : SegmentBytes) (s : Str) :
    encodeSegment β s = s.flatMap (fun c => encodeSegment β [c]) := by
  induction s with
  | nil => rfl
  | cons c s ih =>
      rw [List.flatMap_cons, ← ih]
      simp [encodeSegment, encodeBytes]

/-- An ASCII byte stands in no other character. -/
lemma eq_of_mem_utf8EncodeChar {b : UInt8} (hmem : b ∈ String.utf8EncodeChar c)
    (hb : b.toNat < 0x80) : c = Char.ofNat b.toNat := by
  have hvalid : b.toNat.isValidChar := .inl (by omega)
  have hchar : (Char.ofNat b.toNat).toNat = b.toNat := by
    rw [Char.ofNat, dif_pos hvalid]
    rfl
  have hle := count_utf8EncodeChar_le (c := Char.ofNat b.toNat) (by omega) c
  rw [hchar, UInt8.ofNat_toNat] at hle
  by_contra hne
  have hzero : [c].count (Char.ofNat b.toNat) = 0 :=
    List.count_eq_zero.mpr (by simpa using Ne.symm hne)
  rw [hzero] at hle
  exact List.count_eq_zero.mp (Nat.le_zero.mp hle) hmem

lemma encodeSegment_singleton (c : Char) : encodeSegment β [c] =
    ((String.utf8EncodeChar c).flatMap (encodeByte β)).map (fun b => Char.ofNat b.toNat) := by
  simp [encodeSegment, encodeBytes]

/-- A character with a legal byte stands for itself. -/
lemma encodeSegment_of_legal {b : UInt8} (hmem : b ∈ String.utf8EncodeChar c)
    (hlegal : β.legal b = true) : encodeSegment β [c] = [c] := by
  have hascii := β.ascii b hlegal
  have hc := eq_of_mem_utf8EncodeChar hmem hascii
  have hbytes : String.utf8EncodeChar c = [b] := by
    rw [hc]
    exact utf8EncodeChar_ofNat hascii
  rw [encodeSegment_singleton, hbytes, List.flatMap_singleton, encodeByte, if_pos hlegal,
    List.map_singleton, ← hc]

/-- Any other is longer than a character. -/
lemma encodeSegment_of_illegal (h : ∀ b ∈ String.utf8EncodeChar c, β.legal b = false) :
    1 < (encodeSegment β [c]).length := by
  obtain ⟨b, bs, hbytes⟩ := List.exists_cons_of_ne_nil (String.utf8EncodeChar_ne_nil (c := c))
  have hb : β.legal b = false := h b (by rw [hbytes]; exact List.mem_cons_self)
  rw [encodeSegment_singleton, hbytes, List.length_map, List.flatMap_cons, List.length_append,
    encodeByte, if_neg (by simp [hb])]
  simp
  omega

lemma exists_legal (h : unreserved c = true) : ∃ b ∈ String.utf8EncodeChar c, legalByte b = true := by
  have hcases := unreserved_cases h
  have hsmall : (UInt8.ofNat c.toNat).toNat = c.toNat := by
    rw [UInt8.toNat_ofNat']
    omega
  have hback : Char.ofNat (UInt8.ofNat c.toNat).toNat = c := by rw [hsmall, Char.ofNat_toNat]
  have hbytes := utf8EncodeChar_ofNat (b := UInt8.ofNat c.toNat) (by omega)
  rw [hback] at hbytes
  refine ⟨UInt8.ofNat c.toNat, by rw [hbytes]; exact List.mem_singleton_self _, ?_⟩
  rw [legalByte, hback, h]

lemma not_legal (h : unreserved c = false) : ∀ b ∈ String.utf8EncodeChar c, legalByte b = false := by
  intro b hb
  by_contra hlegal
  rw [Bool.not_eq_false] at hlegal
  rw [eq_of_mem_utf8EncodeChar hb (legalByte_ascii hlegal)] at h
  rw [legalByte, h] at hlegal
  exact Bool.false_ne_true hlegal

lemma encodeSegment_unreserved (h : unreserved c = true) : encodeSegment formBytes [c] = [c] := by
  obtain ⟨b, hb, hlegal⟩ := exists_legal h
  exact encodeSegment_of_legal hb hlegal

/-- Leaving the escapes in is encoding all but the spaces. -/
lemma escaped_eq (s : Str) : escaped s = encodeSegment spacedBytes s := by
  rw [encodeSegment_flatMap, escaped]
  refine List.flatMap_congr (fun c _ => ?_)
  split
  · rename_i hplain
    rcases Bool.or_eq_true_iff.mp hplain with hspace | hunreserved
    · rw [of_decide_eq_true hspace]
      decide
    · obtain ⟨b, hb, hlegal⟩ := exists_legal hunreserved
      refine (encodeSegment_of_legal hb ?_).symm
      exact Bool.or_eq_true_iff.mpr (.inr hlegal)
  · rename_i hplain
    rw [encodeSegment_singleton, encodeSegment_singleton]
    congr 1
    refine List.flatMap_congr (fun b hb => ?_)
    have hspace : b ≠ 0x20 := by
      rintro rfl
      refine hplain ?_
      rw [eq_of_mem_utf8EncodeChar hb (by decide)]
      decide
    have hlegal : spacedBytes.legal b = formBytes.legal b := by
      simp [spacedBytes, formBytes, hspace]
    rw [encodeByte, encodeByte, hlegal]

lemma escaped_injective : Function.Injective escaped := by
  intro s t h
  rw [escaped_eq, escaped_eq] at h
  exact encodeSegment_injective h

lemma escaped_cons (c : Char) (s : Str) : escaped (c :: s) =
    (if plainChar c = true then [c] else encodeSegment formBytes [c]) ++ escaped s := rfl

lemma length_encodeSegment_lt (h : ¬ plainChar c = true) :
    1 < (encodeSegment formBytes [c]).length := by
  rw [Bool.not_eq_true] at h
  exact encodeSegment_of_illegal (not_legal (Bool.or_eq_false_iff.mp h).2)

lemma length_le_escaped (s : Str) : s.length ≤ (escaped s).length := by
  induction s with
  | nil => exact Nat.le_refl _
  | cons c s ih =>
      rw [escaped_cons, List.length_append, List.length_cons]
      split
      · rw [List.length_singleton]
        omega
      · rename_i hc
        have hlong := length_encodeSegment_lt hc
        omega

/-- **A value comes back as it was exactly when it is plain.** -/
lemma escaped_eq_self : escaped s = s ↔ ∀ c ∈ s, plainChar c = true := by
  constructor
  · intro h
    have hlen : (escaped s).length = s.length := by rw [h]
    clear h
    induction s with
    | nil => exact fun _ hc => nomatch hc
    | cons c s ih =>
        -- no part is shorter than what it stands for, so none is longer
        have hs := length_le_escaped s
        rw [escaped_cons, List.length_append, List.length_cons] at hlen
        rw [List.forall_mem_cons]
        split at hlen
        · rename_i hc
          rw [List.length_singleton] at hlen
          exact ⟨hc, ih (by omega)⟩
        · rename_i hc
          have hlong := length_encodeSegment_lt hc
          omega
  · intro h
    calc escaped s = s.flatMap (fun c => [c]) := List.flatMap_congr (fun c hc => if_pos (h c hc))
      _ = s := List.flatMap_singleton' s

lemma formEncode_of_unreserved (h : ∀ c ∈ s, unreserved c = true) : formEncode s = s := by
  calc formEncode s = s.flatMap (fun c => [c]) := by
        refine List.flatMap_congr (fun c hc => ?_)
        rw [if_neg, encodeSegment_unreserved (h c hc)]
        rintro rfl
        exact absurd (h ' ' hc) (by decide)
    _ = s := List.flatMap_singleton' s

namespace OidcCallback

/-- The plus is undone, and nothing else. -/
lemma decodeQueryValue_formEncode (s : Str) : decodeQueryValue (formEncode s) = escaped s := by
  rw [decodeQueryValue, formEncode, List.map_flatMap]
  refine List.flatMap_congr (fun c _ => ?_)
  split
  · rename_i hspace
    rw [hspace]
    rfl
  · rename_i hspace
    have hkeep : (encodeSegment formBytes [c]).map (fun d => if d = '+' then ' ' else d) =
        encodeSegment formBytes [c] := by
      refine (List.map_congr_left (fun d hd => if_neg ?_)).trans (List.map_id _)
      rintro rfl
      exact absurd (mem_encodeSegment hd) (by decide)
    rw [hkeep]
    split
    · rename_i hplain
      refine encodeSegment_unreserved ?_
      simpa [plainChar, hspace] using hplain
    · rfl

/-- Different texts stand in the query differently. -/
lemma formEncode_injective : Function.Injective formEncode := by
  intro s t h
  refine escaped_injective ?_
  rw [← decodeQueryValue_formEncode, ← decodeQueryValue_formEncode, h]

/-- The request line of a callback with the parameters. -/
def callbackLine (pairs : List (Str × Str)) : Str :=
  "GET /callback?".toList ++ formSerialize pairs ++ " HTTP/1.1".toList

/-- The value of the first pair of that name. -/
def lookup (pairs : List (Str × Str)) (param : Str) : Option Str :=
  (pairs.find? (fun pair => pair.1 = param)).map (·.2)

variable {pairs : List (Str × Str)} {request param : Str}

lemma findParam_map (param : Str) (pairs : List (Str × Str)) :
    findParam param (pairs.map (fun pair => formEncode pair.1 ++ '=' :: formEncode pair.2)) =
      (pairs.find? (fun pair => formEncode pair.1 = param)).map (fun pair => escaped pair.2) := by
  induction pairs with
  | nil => rfl
  | cons pair pairs ih =>
      have hname : '=' ∉ formEncode pair.1 := by
        intro h
        exact absurd (mem_formEncode h) (by decide)
      rw [List.map_cons, findParam, Text.splitOnce_append hname]
      dsimp only
      by_cases h : formEncode pair.1 = param
      · rw [if_pos h, List.find?_cons_of_pos (by simpa using h), decodeQueryValue_formEncode]
        rfl
      · rw [if_neg h, List.find?_cons_of_neg (by simpa using h), ih]

/-- The pairs of a query, cut apart again. -/
lemma findParam_formSerialize (param : Str) (pairs : List (Str × Str)) :
    findParam param ((formSerialize pairs).splitOn '&') =
      (pairs.find? (fun pair => formEncode pair.1 = param)).map (fun pair => escaped pair.2) := by
  cases pairs with
  | nil => rfl
  | cons pair pairs =>
      rw [formSerialize, List.splitOn_intercalate '&' _ (by simp), findParam_map]
      intro part hpart hamp
      obtain ⟨x, -, rfl⟩ := List.mem_map.mp hpart
      rw [List.mem_append, List.mem_cons] at hamp
      rcases hamp with h | h | h
      · exact absurd (mem_formEncode h) (by decide)
      · exact absurd h (by decide)
      · exact absurd (mem_formEncode h) (by decide)

lemma isWhiteSpace_of_mem_formSerialize (h : c ∈ formSerialize pairs) : isWhiteSpace c = false := by
  rcases Text.mem_of_mem_intercalate h with rfl | ⟨part, hpart, hc⟩
  · decide
  · obtain ⟨pair, -, rfl⟩ := List.mem_map.mp hpart
    rw [List.mem_append, List.mem_cons] at hc
    rcases hc with hc | rfl | hc
    · exact isWhiteSpace_of_formChar (mem_formEncode hc)
    · decide
    · exact isWhiteSpace_of_formChar (mem_formEncode hc)

lemma line_parts (method target version query : Str) :
    (method ++ ' ' :: target) ++ query ++ ' ' :: version =
      method ++ ' ' :: ((target ++ query) ++ ' ' :: version) := by
  simp

lemma callbackLine_eq (pairs : List (Str × Str)) : callbackLine pairs = "GET".toList ++ ' ' ::
    (("/callback?".toList ++ formSerialize pairs) ++ ' ' :: "HTTP/1.1".toList) := by
  have hstart : "GET /callback?".toList = "GET".toList ++ ' ' :: "/callback?".toList := by decide
  have hend : " HTTP/1.1".toList = ' ' :: "HTTP/1.1".toList := by decide
  have hparts := line_parts "GET".toList "/callback?".toList "HTTP/1.1".toList (formSerialize pairs)
  rw [← hstart, ← hend] at hparts
  exact hparts

/-- The target of the request line. -/
lemma words_callbackLine (pairs : List (Str × Str)) :
    (Text.words isWhiteSpace (callbackLine pairs))[1]? =
      some ("/callback?".toList ++ formSerialize pairs) := by
  have hvisible : ∀ word : Str, word.all (fun c => !isWhiteSpace c) = true →
      ∀ c ∈ word, isWhiteSpace c = false := by
    intro word hword c hc
    simpa using List.all_eq_true.mp hword c hc
  have htarget : ∀ c ∈ "/callback?".toList ++ formSerialize pairs, isWhiteSpace c = false := by
    intro c hc
    rcases List.mem_append.mp hc with hc | hc
    · exact hvisible _ (by decide) c hc
    · exact isWhiteSpace_of_mem_formSerialize hc
  rw [Text.words, callbackLine_eq,
    List.splitOnP_append_cons_of_forall_mem (hvisible _ (by decide)) ' ' (by decide),
    List.splitOnP_append_cons_of_forall_mem htarget ' ' (by decide),
    List.splitOnP_eq_singleton (hvisible _ (by decide))]
  rfl

/-- **What a parameter is read as**: the value of the first pair whose name stands like this in the
query, with its percent escapes left in. -/
lemma extractQueryParam_form (param : Str)
    (hline : Text.firstLine request = some (callbackLine pairs)) :
    extractQueryParam request param =
      (pairs.find? (fun pair => formEncode pair.1 = param)).map (fun pair => escaped pair.2) := by
  have hcut : Text.splitOnce '?' ("/callback?".toList ++ formSerialize pairs) =
      some ("/callback".toList, formSerialize pairs) := by
    have hstart : "/callback?".toList = "/callback".toList ++ ['?'] := by decide
    rw [hstart, List.append_assoc]
    exact Text.splitOnce_append (by decide)
  rw [extractQueryParam, hline]
  simp only [Option.bind_eq_bind, Option.bind_some, words_callbackLine, hcut]
  exact findParam_formSerialize param pairs

/-- A plain name stands for itself, and no other name stands like it. -/
lemma find_formEncode (hparam : ∀ c ∈ param, unreserved c = true) (pairs : List (Str × Str)) :
    pairs.find? (fun pair => formEncode pair.1 = param) =
      pairs.find? (fun pair => pair.1 = param) := by
  have hname : ∀ name : Str, formEncode name = param ↔ name = param := by
    intro name
    constructor
    · intro h
      exact formEncode_injective (h.trans (formEncode_of_unreserved hparam).symm)
    · rintro rfl
      exact formEncode_of_unreserved hparam
  simp only [hname]

/-- What the callback reads: the value of the first pair whose name stands like the parameter in the
query, with its percent escapes left in.  For a plain name this is the value of the first pair of that
name, and it is exact just when the value is plain. -/
theorem extractQueryParam_callback (pairs : List (Str × Str)) (request : Str)
    (hline : Text.firstLine request = some (callbackLine pairs)) (param : Str) :
    extractQueryParam request param =
        (pairs.find? (fun pair => formEncode pair.1 = param)).map (fun pair => escaped pair.2) ∧
      ((∀ c ∈ param, unreserved c = true) →
        (extractQueryParam request param = lookup pairs param ↔
          ∀ value, lookup pairs param = some value → ∀ c ∈ value, plainChar c = true)) := by
  have hread := extractQueryParam_form param hline
  refine ⟨hread, ?_⟩
  intro hparam
  rw [hread, find_formEncode hparam, lookup]
  cases pairs.find? (fun pair => pair.1 = param) with
  | none => simp
  | some pair => simp [escaped_eq_self]

/-- A code with a plus in its place, and a state. -/
theorem sample_callback :
    extractQueryParam "GET /callback?code=a+b&state=x HTTP/1.1\r\n\r\n".toList "code".toList =
      some "a b".toList := by
  have h := extractQueryParam_callback
    [("code".toList, "a b".toList), ("state".toList, "x".toList)]
    "GET /callback?code=a+b&state=x HTTP/1.1\r\n\r\n".toList (by decide) "code".toList
  rw [h.1]
  decide

/-- A slash comes back as its escape. -/
theorem escape_kept : ¬ ∀ (pairs : List (Str × Str)) (request : Str),
    Text.firstLine request = some (callbackLine pairs) →
      ∀ param, extractQueryParam request param = lookup pairs param := by
  intro h
  have hread := h [("code".toList, "a/b".toList)]
    "GET /callback?code=a%2Fb HTTP/1.1\r\n\r\n".toList (by decide) "code".toList
  exact absurd hread (by decide)

end OidcCallback

end OwncloudSync
