import OwncloudSync.Daemon.AppConfig
import OwncloudSync.Engine.ParentCollections
import Mathlib.Tactic.Common

/-!
# The root of a space on the server

`webdav_root` writes the id of a space or of a user **as it is** into a reference and joins it to the URL
of the server.  The URL library takes the reference apart again: it cuts it at slashes, backslashes,
question marks and hashes, drops tabs and line ends, goes up for dots, and leaves percent signs alone.

`rootExact_iff` says for which ids the root is one segment below the server that decodes to the id.
-/

namespace OwncloudSync

/-! ## Joining a path -/

/-- The end of a path, in a reference. -/
def endsPath (c : Char) : Bool := c = '?' || c = '#'

/-- What parts the segments of a web URL. -/
def partsPath (c : Char) : Bool := c = '/' || c = '\\'

/-- A part is encoded where it has to be; a percent sign stays. -/
def encodePart (β : SegmentBytes) (s : Str) : Str :=
  ((s.flatMap String.utf8EncodeChar).flatMap
    (fun b => if b = 0x25 then [b] else encodeByte β b)).map (fun b => Char.ofNat b.toNat)

/-- The other spellings of a dot. -/
def escapedDot : List Str := ["%2e".toList, "%2E".toList]

/-- The spellings of a segment of two dots that hold an escape. -/
def escapedDots : List Str :=
  ["%2e%2e".toList, "%2e%2E".toList, "%2E%2e".toList, "%2E%2E".toList, "%2e.".toList, "%2E.".toList,
    ".%2e".toList, ".%2E".toList]

/-- A segment that stands for the directory itself. -/
def isSingleDot (s : Str) : Bool := s = ['.'] || escapedDot.any (fun t => s = t)

/-- A segment that stands for the parent. -/
def isDoubleDot (s : Str) : Bool := s = ['.', '.'] || escapedDots.any (fun t => s = t)

/-- The parts of a path, behind the segments there are. -/
def pathState (β : SegmentBytes) : List Str → List Str → List Str
  | segs, [] => segs
  | segs, [s] =>
      if isDoubleDot s then segs.dropLast ++ [[]]
      else if isSingleDot s then segs ++ [[]]
      else segs ++ [encodePart β s]
  | segs, s :: t :: parts =>
      if isDoubleDot s then pathState β segs.dropLast (t :: parts)
      else if isSingleDot s then pathState β segs (t :: parts)
      else pathState β (segs ++ [encodePart β s]) (t :: parts)

/-- What the URL library makes of a reference without a scheme that begins with a letter and ends with
a slash, joined to a web URL: the parts of its path come in the place of the last segment, and query
and fragment are its own. -/
structure JoinsPaths (β : SegmentBytes) (join : ParsedUrl → Str → Option ParsedUrl) : Prop where
  relative : ∀ base segs ref, base.scheme = "http".toList ∨ base.scheme = "https".toList →
    base.path = .segments segs → ref.head?.any Char.isAlpha = true → ref.getLast? = some '/' →
    schemePart (cleaned ref) = none →
    ∃ query fragment, join base ref = some { base with
        path := .segments (pathState β segs.dropLast
          ((cleaned (ref.takeWhile (fun c => !endsPath c))).splitOnP partsPath))
        query := query
        fragment := fragment } ∧
      (query = none ↔ '?' ∉ ref.takeWhile (· ≠ '#')) ∧ (fragment = none ↔ '#' ∉ ref)

/-! ## The root -/

/-- What stands before the id. -/
def ServerType.rootPath : ServerType → List Str
  | .ocis => ["dav".toList, "spaces".toList]
  | .classic => ["remote.php".toList, "dav".toList, "files".toList]

/-- The id that is written. -/
def ServerType.rootId (serverType : ServerType) (spaceId userId : Str) : Str :=
  match serverType with
  | .ocis => spaceId
  | .classic => userId

/-- `webdav_root`. -/
def webdavRoot (join : ParsedUrl → Str → Option ParsedUrl) (serverUrl : ParsedUrl)
    (serverType : ServerType) (spaceId userId : Str) : Option ParsedUrl :=
  let base := serverUrl.asCollection
  match serverType with
  | .ocis => join base ("dav/spaces/".toList ++ spaceId ++ "/".toList)
  | .classic => join base ("remote.php/dav/files/".toList ++ userId ++ "/".toList)

/-- The segments of the server, without the slash at their end. -/
def serverSegments (segs : List Str) : List Str :=
  if segs.getLast? = some [] then segs.dropLast else segs

/-- **The root of the id**: below the server, with one segment that decodes to the id, and a slash at
its end. -/
def RootExact (join : ParsedUrl → Str → Option ParsedUrl) (serverUrl : ParsedUrl) (segs : List Str)
    (serverType : ServerType) (spaceId userId : Str) : Prop :=
  ∃ s, webdavRoot join serverUrl serverType spaceId userId = some { serverUrl with
      path := .segments (serverSegments segs ++ serverType.rootPath ++ [s, []])
      query := none
      fragment := none } ∧
    decodeHrefPath s = serverType.rootId spaceId userId

/-- The characters the library does not take as part of a segment. -/
def cutsSegment (c : Char) : Bool := endsPath c || partsPath c || isTabOrNewline c

/-- An id that stays: no character of it cuts it or is dropped, it is not dots, and it is the same when
it is decoded. -/
structure PlainId (id : Str) : Prop where
  whole : ∀ c ∈ id, cutsSegment c = false
  dot : id ≠ ['.']
  dotdot : id ≠ ['.', '.']
  decoded : decodeHrefPath id = id

/-- Letters, digits and the dot. -/
def isNameByte (b : UInt8) : Bool :=
  (0x30 ≤ b && b ≤ 0x39) || (0x41 ≤ b && b ≤ 0x5A) || (0x61 ≤ b && b ≤ 0x7A) || b == 0x2E

/-- They stand for themselves. -/
def NamesLegal (β : SegmentBytes) : Prop := ∀ b, isNameByte b = true → β.legal b = true

variable {β : SegmentBytes} {join : ParsedUrl → Str → Option ParsedUrl} {s id : Str}
  {segs parts : List Str} {bs rest : List UInt8}

/-! ## Decoding a part -/

/-- Two hex digits. -/
def beginsHex : List UInt8 → Bool
  | h :: l :: _ => (hexValue h).isSome && (hexValue l).isSome
  | _ => false

lemma percentDecode_percent (h : beginsHex rest = false) :
    percentDecode (0x25 :: rest) = 0x25 :: percentDecode rest := by
  rw [percentDecode.eq_def]
  dsimp only
  rw [if_pos rfl]
  split
  · rename_i h' l rest'
    rw [beginsHex, Bool.and_eq_false_iff, Option.isSome_eq_false_iff, Option.isSome_eq_false_iff,
      Option.isNone_iff_eq_none, Option.isNone_iff_eq_none] at h
    rcases h with h | h
    · rw [h]
    · rw [h]
      cases hexValue h' <;> rfl
  · rfl
  · rw [percentDecode.eq_def]

/-- The bytes of a part as it is written. -/
def partBytes (β : SegmentBytes) (bs : List UInt8) : List UInt8 :=
  bs.flatMap (fun b => if b = 0x25 then [b] else encodeByte β b)

lemma isNameByte_of_hex {b : UInt8} (h : hexValue b ≠ none) : isNameByte b = true := by
  rw [isNameByte, Bool.or_eq_true, Bool.or_eq_true, Bool.or_eq_true, Bool.and_eq_true,
    Bool.and_eq_true, Bool.and_eq_true, decide_eq_true_iff, decide_eq_true_iff, decide_eq_true_iff,
    decide_eq_true_iff, decide_eq_true_iff, decide_eq_true_iff]
  have hupper : (0x46 : UInt8) ≤ 0x5A := by decide
  have hlower : (0x66 : UInt8) ≤ 0x7A := by decide
  rw [hexValue] at h
  split at h
  · exact .inl (.inl (.inl ‹_›))
  split at h
  · rename_i hb
    exact .inl (.inl (.inr ⟨hb.1, UInt8.le_trans hb.2 hupper⟩))
  split at h
  · rename_i hb
    exact .inl (.inr ⟨hb.1, UInt8.le_trans hb.2 hlower⟩)
  · exact absurd rfl h

lemma partBytes_cons_of_hex (hnames : NamesLegal β) {b : UInt8}
    (h : hexValue b ≠ none) : partBytes β (b :: bs) = b :: partBytes β bs := by
  rw [partBytes, List.flatMap_cons, encodeByte, if_pos (hnames b (isNameByte_of_hex h)), ite_self]
  rfl

/-- A part begins with a hex digit if it did before. -/
lemma partBytes_cons (hnames : NamesLegal β) (b : UInt8) (bs : List UInt8) :
    ∃ d t, partBytes β (b :: bs) = d :: t ∧ (hexValue d).isSome = (hexValue b).isSome := by
  by_cases h : hexValue b = none
  · have hpercent : (hexValue 0x25).isSome = (hexValue b).isSome := by
      rw [h]
      decide
    rw [partBytes, List.flatMap_cons]
    split
    · exact ⟨b, _, rfl, rfl⟩
    · rw [encodeByte]
      split
      · exact ⟨b, _, rfl, rfl⟩
      · exact ⟨0x25, _, rfl, hpercent⟩
  · exact ⟨b, _, partBytes_cons_of_hex hnames h, rfl⟩

lemma beginsHex_partBytes (hnames : NamesLegal β) (bs : List UInt8) :
    beginsHex (partBytes β bs) = beginsHex bs := by
  have hnone : ∀ {b : UInt8} {t}, (hexValue b).isSome = false → beginsHex (b :: t) = false := by
    intro b t h
    cases t with
    | nil => rfl
    | cons c t => rw [beginsHex, h, Bool.false_and]
  cases bs with
  | nil => rfl
  | cons b bs =>
      by_cases hb : hexValue b = none
      · obtain ⟨d, t, hd, hsome⟩ := partBytes_cons hnames b bs
        have hfalse : (hexValue b).isSome = false := by rw [hb]; rfl
        rw [hd, hnone (hsome.trans hfalse), hnone hfalse]
      · rw [partBytes_cons_of_hex hnames hb]
        cases bs with
        | nil => rfl
        | cons c bs =>
            obtain ⟨d, t, hd, hsome⟩ := partBytes_cons hnames c bs
            rw [hd, beginsHex, beginsHex, hsome]

/-- Encoding a part does not change what it decodes to. -/
lemma percentDecode_partBytes (hnames : NamesLegal β) (bs : List UInt8) :
    percentDecode (partBytes β bs) = percentDecode bs := by
  have hpercent : ∀ rest, partBytes β (0x25 :: rest) = 0x25 :: partBytes β rest := fun _ => rfl
  fun_induction percentDecode bs with
  | case1 => rw [partBytes, List.flatMap_nil, percentDecode.eq_def]
  | case2 h l rest' x y hy hx ih =>
      have hh : hexValue h ≠ none := by rw [hx]; exact Option.some_ne_none x
      have hl : hexValue l ≠ none := by rw [hy]; exact Option.some_ne_none y
      rw [hpercent, partBytes_cons_of_hex hnames hh, partBytes_cons_of_hex hnames hl, percentDecode.eq_def]
      dsimp only
      rw [if_pos rfl, hx, hy]
      dsimp only
      rw [ih]
  | case3 h l rest' hxy ih =>
      have hno : beginsHex (h :: l :: rest') = false := by
        rw [beginsHex]
        cases hx : hexValue h with
        | none => rfl
        | some x =>
            cases hy : hexValue l with
            | none => rfl
            | some y => exact (hxy x y hx hy).elim
      rw [hpercent, percentDecode_percent (by rw [beginsHex_partBytes hnames, hno]), ih]
  | case4 h ih => rw [hpercent, percentDecode_percent (by rw [beginsHex_partBytes hnames]; rfl), ih]
  | case5 => rw [hpercent, percentDecode_percent rfl, partBytes, List.flatMap_nil, percentDecode.eq_def]
  | case6 b rest hb ih =>
      rw [partBytes, List.flatMap_cons, if_neg hb, percentDecode_encodeByte, ← partBytes, ih]

lemma decodeHrefPath_encodePart (hnames : NamesLegal β) (s : Str) :
    decodeHrefPath (encodePart β s) = decodeHrefPath s := by
  have hascii : ∀ b ∈ partBytes β (s.flatMap String.utf8EncodeChar), b.toNat < 0x80 := by
    intro b hb
    obtain ⟨a, -, ha⟩ := List.mem_flatMap.mp hb
    split at ha
    · rename_i hpercent
      rw [List.mem_singleton.mp ha, hpercent]
      decide
    · exact (mem_encodeByte ha).1
  rw [decodeHrefPath, encodePart, ← partBytes, flatMap_ascii hascii, percentDecode_partBytes hnames,
    decodeHrefPath]

/-! ## What decoding brings in -/

/-- How many of two characters there are. -/
def tally {α : Type} [BEq α] (a b : α) (s : List α) : ℕ := s.count a + s.count b

lemma tally_cons_le {α : Type} [DecidableEq α] {a b : α} (hab : a ≠ b) (d : α) (s : List α) :
    tally a b (d :: s) ≤ tally a b s + 1 := by
  rw [tally, tally, List.count_cons, List.count_cons]
  by_cases ha : d = a
  · have hb : ¬ d = b := fun hb => hab (ha.symm.trans hb)
    simp [ha, hab]
    omega
  · simp [ha]
    split <;> omega

lemma tally_cons_le_cons {α : Type} [DecidableEq α] {a b d : α} {s t : List α}
    (h : tally a b s ≤ tally a b t) : tally a b (d :: s) ≤ tally a b (d :: t) := by
  rw [tally, tally] at h ⊢
  rw [List.count_cons, List.count_cons, List.count_cons, List.count_cons]
  omega

lemma tally_sublist_le {α : Type} [DecidableEq α] {a b : α} {s t : List α} (h : s.Sublist t) :
    tally a b s ≤ tally a b t := Nat.add_le_add (h.count_le a) (h.count_le b)

/-- An escape is one byte for a percent sign. -/
lemma tally_percentDecode_le {x : UInt8} (hx : x ≠ 0x25) (bs : List UInt8) :
    tally 0x25 x (percentDecode bs) ≤ tally 0x25 x bs := by
  fun_induction percentDecode bs with
  | case1 => exact le_refl _
  | case2 h l rest' a b hb ha ih =>
      have hone : tally 0x25 x (0x25 :: h :: l :: rest') = tally 0x25 x (h :: l :: rest') + 1 := by
        rw [tally, tally, List.count_cons_self, List.count_cons_of_ne hx.symm]
        omega
      have hrest : tally 0x25 x rest' ≤ tally 0x25 x (h :: l :: rest') :=
        tally_sublist_le ((List.sublist_cons_self l rest').trans (List.sublist_cons_self h _))
      have hcons := tally_cons_le hx.symm (16 * a + b) (percentDecode rest')
      omega
  | case3 h l rest' hxy ih => exact tally_cons_le_cons ih
  | case4 h ih => exact tally_cons_le_cons ih
  | case5 => exact le_refl _
  | case6 b rest hb ih => exact tally_cons_le_cons ih

variable {c : Char}

lemma ofNat_ne (hzero : c ≠ '\x00') (hc : c.toNat < 0x80) {n : ℕ} (hn : 0x80 ≤ n) : Char.ofNat n ≠ c := by
  intro h
  by_cases hvalid : n.isValidChar
  · have hnat : (Char.ofNat n).toNat = n := by
      rw [Char.ofNat, dif_pos hvalid]
      rfl
    rw [h] at hnat
    omega
  · rw [Char.ofNat, dif_neg hvalid] at h
    exact hzero h.symm

/-- Where a character goes on, its first two bytes are large enough. -/
lemma secondByte_bound {b₀ b₁ : UInt8} (h : ¬ secondByte b₀ b₁ = false) :
    (b₀ = 0xE0 → 32 ≤ b₁.toNat % 64) ∧ (b₀ = 0xF0 → 16 ≤ b₁.toNat % 64) := by
  rw [Bool.not_eq_false] at h
  constructor
  · rintro rfl
    rw [secondByte, if_pos rfl, decide_eq_true_iff, UInt8.le_iff_toNat_le, UInt8.le_iff_toNat_le] at h
    have h₁ : (0xA0 : UInt8).toNat = 160 := rfl
    have h₂ : (0xBF : UInt8).toNat = 191 := rfl
    omega
  · rintro rfl
    rw [secondByte, if_neg (by decide), if_neg (by decide), if_pos rfl, decide_eq_true_iff,
      UInt8.le_iff_toNat_le, UInt8.le_iff_toNat_le] at h
    have h₁ : (0x90 : UInt8).toNat = 144 := rfl
    have h₂ : (0xBF : UInt8).toNat = 191 := rfl
    omega

/-- A character below 128 comes from its own byte. -/
lemma count_decodeUtf8Lossy_le (hzero : c ≠ '\x00') (hc : c.toNat < 0x80) (bs : List UInt8) :
    (decodeUtf8Lossy bs).count c ≤ bs.count (UInt8.ofNat c.toNat) := by
  have hskip : ∀ (pre : List UInt8) {d : Char} {s : Str} {t : List UInt8}, d ≠ c →
      s.count c ≤ t.count (UInt8.ofNat c.toNat) →
      (d :: s).count c ≤ (pre ++ t).count (UInt8.ofNat c.toNat) := by
    intro pre d s t hd hs
    rw [List.count_cons_of_ne hd]
    exact hs.trans ((List.sublist_append_right pre t).count_le _)
  have hreplacement : '\uFFFD' ≠ c := ofNat_ne hzero hc (n := 0xFFFD) (by decide)
  have hlarge : ∀ {b₀ : UInt8}, ¬ (b₀ < 0xC2 ∨ 0xF4 < b₀) → 0xC2 ≤ b₀.toNat ∧ b₀.toNat ≤ 0xF4 := by
    intro b₀ h
    rw [not_or, UInt8.lt_iff_toNat_lt, UInt8.lt_iff_toNat_lt, not_lt, not_lt] at h
    exact h
  fun_induction decodeUtf8Lossy bs with
  | case1 => exact Nat.zero_le _
  | case2 b rest h ih =>
      have hb : b.toNat < 0x80 := UInt8.lt_iff_toNat_lt.mp h
      by_cases heq : Char.ofNat b.toNat = c
      · have hbyte : UInt8.ofNat c.toNat = b := by
          have hnat : (Char.ofNat b.toNat).toNat = b.toNat := by
            rw [Char.ofNat, dif_pos (.inl (by omega))]
            rfl
          rw [← heq, hnat, UInt8.ofNat_toNat]
        rw [heq, hbyte, List.count_cons_self, List.count_cons_self, ← hbyte]
        exact Nat.succ_le_succ ih
      · exact hskip [b] heq ih
  | case3 b rest h h' ih => exact hskip [b] hreplacement ih
  | case4 b h h' => exact hskip [b] hreplacement (Nat.zero_le _)
  | case5 b₀ h h' b₁ rest hsecond ih => exact hskip [b₀] hreplacement ih
  | case6 b₀ h h' b₁ rest hsecond htwo ih =>
      have hfirst := hlarge h'
      have hbound : b₀.toNat < 0xE0 := UInt8.lt_iff_toNat_lt.mp htwo
      exact hskip [b₀, b₁] (ofNat_ne hzero hc (by omega)) ih
  | case7 b₀ h h' b₁ hsecond htwo => exact hskip [b₀, b₁] hreplacement (Nat.zero_le _)
  | case8 b₀ h h' b₁ hsecond htwo b₂ rest htail ih => exact hskip [b₀, b₁] hreplacement ih
  | case9 b₀ h h' b₁ hsecond htwo b₂ rest htail hthree ih =>
      have hlow : 0xE0 ≤ b₀.toNat := not_lt.mp (fun hlt => htwo (UInt8.lt_iff_toNat_lt.mpr hlt))
      have hhigh : b₀.toNat < 0xF0 := UInt8.lt_iff_toNat_lt.mp hthree
      have hvalue : 0x80 ≤ b₀.toNat % 16 * 4096 + b₁.toNat % 64 * 64 + b₂.toNat % 64 := by
        by_cases heq : b₀.toNat = 0xE0
        · have hsmall := (secondByte_bound hsecond).1 (UInt8.toNat_inj.mp heq)
          omega
        · omega
      exact hskip [b₀, b₁, b₂] (ofNat_ne hzero hc hvalue) ih
  | case10 b₀ h h' b₁ hsecond htwo b₂ htail hthree =>
      exact hskip [b₀, b₁, b₂] hreplacement (Nat.zero_le _)
  | case11 b₀ h h' b₁ hsecond htwo b₂ htail hthree b₃ rest htail' ih =>
      exact hskip [b₀, b₁, b₂] hreplacement ih
  | case12 b₀ h h' b₁ hsecond htwo b₂ htail hthree b₃ rest htail' ih =>
      have hlow : 0xF0 ≤ b₀.toNat := not_lt.mp (fun hlt => hthree (UInt8.lt_iff_toNat_lt.mpr hlt))
      have hhigh := (hlarge h').2
      have hvalue : 0x80 ≤ b₀.toNat % 8 * 262144 + b₁.toNat % 64 * 4096 + b₂.toNat % 64 * 64 +
          b₃.toNat % 64 := by
        by_cases heq : b₀.toNat = 0xF0
        · have hsmall := (secondByte_bound hsecond).2 (UInt8.toNat_inj.mp heq)
          omega
        · omega
      exact hskip [b₀, b₁, b₂, b₃] (ofNat_ne hzero hc hvalue) ih

/-- Decoding brings in a character only for a percent sign. -/
lemma tally_decodeHrefPath_le (hzero : c ≠ '\x00') (hc : c.toNat < 0x80) (hne : c ≠ '%') (s : Str) :
    tally '%' c (decodeHrefPath s) ≤ tally '%' c s := by
  have hbyte : UInt8.ofNat c.toNat ≠ 0x25 := by
    intro h
    have hnat : (UInt8.ofNat c.toNat).toNat = c.toNat % 256 := UInt8.toNat_ofNat'
    rw [h] at hnat
    have hpercent : (0x25 : UInt8).toNat = 37 := rfl
    refine hne (Char.ext (UInt32.toNat_inj.mp ?_))
    have hval : c.toNat = c.val.toNat := rfl
    have hpercent' : '%'.val.toNat = 37 := rfl
    omega
  calc tally '%' c (decodeHrefPath s)
      ≤ tally 0x25 (UInt8.ofNat c.toNat) (percentDecode (s.flatMap String.utf8EncodeChar)) :=
        Nat.add_le_add (count_decodeUtf8Lossy_le (by decide) (by decide) _)
          (count_decodeUtf8Lossy_le hzero hc _)
    _ ≤ tally 0x25 (UInt8.ofNat c.toNat) (s.flatMap String.utf8EncodeChar) :=
        tally_percentDecode_le hbyte _
    _ ≤ tally '%' c s := Nat.add_le_add (count_bytes_le (c := '%') (by decide) s) (count_bytes_le hc s)

/-- A part of an id decodes to the id only if it has all of its characters but those that are the same
in both. -/
lemma mem_of_decodeHrefPath {p : Str} (hsub : p.Sublist id) (hdec : decodeHrefPath p = id)
    (hzero : c ≠ '\x00') (hc : c.toNat < 0x80) (hne : c ≠ '%') (hmem : c ∈ id) : c ∈ p := by
  by_contra hnot
  have hle := tally_decodeHrefPath_le hzero hc hne p
  rw [hdec, tally, tally, List.count_eq_zero.mpr hnot] at hle
  have hpercent := hsub.count_le '%'
  have hpos := List.count_pos_iff.mpr hmem
  omega

/-! ## The parts of a path -/

/-- What is there at the end: some of what was there before, and parts. -/
lemma pathState_shape (segs parts : List Str) :
    ∃ k added, pathState β segs parts = segs.take k ++ added ∧
      ∀ s ∈ added, s = [] ∨ ∃ p ∈ parts, s = encodePart β p := by
  have hempty : ∀ {p : Str} {parts : List Str}, ∀ s ∈ [([] : Str)],
      s = [] ∨ ∃ q ∈ p :: parts, s = encodePart β q := fun s hs => .inl (List.mem_singleton.mp hs)
  induction parts generalizing segs with
  | nil => exact ⟨segs.length, [], by rw [pathState, List.take_length, List.append_nil], by simp⟩
  | cons p parts ih =>
      cases parts with
      | nil =>
          rw [pathState]
          split
          · exact ⟨segs.length - 1, [[]], by rw [List.dropLast_eq_take], hempty⟩
          split
          · exact ⟨segs.length, [[]], by rw [List.take_length], hempty⟩
          · refine ⟨segs.length, [encodePart β p], by rw [List.take_length], fun s hs => ?_⟩
            exact .inr ⟨p, List.mem_cons_self, List.mem_singleton.mp hs⟩
      | cons q parts =>
          have hlater : ∀ {added : List Str}, (∀ s ∈ added, s = [] ∨ ∃ r ∈ q :: parts,
              s = encodePart β r) → ∀ s ∈ added, s = [] ∨ ∃ r ∈ p :: q :: parts, s = encodePart β r := by
            intro added h s hs
            refine (h s hs).imp_right ?_
            rintro ⟨r, hr, rfl⟩
            exact ⟨r, List.mem_cons_of_mem _ hr, rfl⟩
          rw [pathState]
          split
          · obtain ⟨k, added, heq, hadded⟩ := ih segs.dropLast
            exact ⟨min k (segs.length - 1), added, by rw [heq, List.dropLast_eq_take, List.take_take],
              hlater hadded⟩
          split
          · obtain ⟨k, added, heq, hadded⟩ := ih segs
            exact ⟨k, added, heq, hlater hadded⟩
          · obtain ⟨k, added, heq, hadded⟩ := ih (segs ++ [encodePart β p])
            by_cases hk : k ≤ segs.length
            · exact ⟨k, added, by rw [heq, List.take_append_of_le_length hk], hlater hadded⟩
            · refine ⟨segs.length, encodePart β p :: added, ?_, ?_⟩
              · rw [heq, List.take_of_length_le (by rw [List.length_append, List.length_singleton]; omega),
                  List.take_length, List.append_assoc]
                rfl
              · rw [List.forall_mem_cons]
                exact ⟨.inr ⟨p, List.mem_cons_self, rfl⟩, hlater hadded⟩

/-- Parts that are not dots stay. -/
lemma pathState_append {pre : List Str}
    (hpre : ∀ p ∈ pre, isDoubleDot p = false ∧ isSingleDot p = false ∧ encodePart β p = p)
    (hne : parts ≠ []) : pathState β segs (pre ++ parts) = pathState β (segs ++ pre) parts := by
  induction pre generalizing segs with
  | nil => rw [List.nil_append, List.append_nil]
  | cons p pre ih =>
      rw [List.forall_mem_cons] at hpre
      obtain ⟨⟨hdouble, hsingle, hself⟩, hpre⟩ := hpre
      obtain ⟨q, rest, hrest⟩ := List.exists_cons_of_ne_nil
        (List.append_ne_nil_of_right_ne_nil pre hne)
      rw [List.cons_append, hrest, pathState, hdouble, hsingle, hself, if_neg Bool.false_ne_true,
        if_neg Bool.false_ne_true, ← hrest, ih hpre, List.append_assoc]
      rfl

lemma encodePart_of_names (hnames : NamesLegal β)
    (h : (s.flatMap String.utf8EncodeChar).all isNameByte = true) :
    encodePart β s = (s.flatMap String.utf8EncodeChar).map (fun b => Char.ofNat b.toNat) := by
  rw [List.all_eq_true] at h
  rw [encodePart]
  congr 1
  conv_rhs => rw [← List.flatMap_singleton' (s.flatMap String.utf8EncodeChar)]
  refine List.flatMap_congr fun b hb => ?_
  rw [encodeByte, if_pos (hnames b (h b hb)), ite_self]

lemma rootPath_plain (hnames : NamesLegal β) (serverType : ServerType) :
    ∀ p ∈ serverType.rootPath,
      isDoubleDot p = false ∧ isSingleDot p = false ∧ encodePart β p = p := by
  have hall : ∀ p : Str, (p.flatMap String.utf8EncodeChar).all isNameByte = true →
      (p.flatMap String.utf8EncodeChar).map (fun b => Char.ofNat b.toNat) = p →
      isDoubleDot p = false → isSingleDot p = false →
      isDoubleDot p = false ∧ isSingleDot p = false ∧ encodePart β p = p :=
    fun p hbytes hback hdouble hsingle =>
      ⟨hdouble, hsingle, (encodePart_of_names hnames hbytes).trans hback⟩
  cases serverType with
  | ocis =>
      rw [ServerType.rootPath, List.forall_mem_cons, List.forall_mem_singleton]
      exact ⟨hall _ (by decide) (by decide) (by decide) (by decide),
        hall _ (by decide) (by decide) (by decide) (by decide)⟩
  | classic =>
      rw [ServerType.rootPath, List.forall_mem_cons, List.forall_mem_cons, List.forall_mem_singleton]
      exact ⟨hall _ (by decide) (by decide) (by decide) (by decide),
        hall _ (by decide) (by decide) (by decide) (by decide),
        hall _ (by decide) (by decide) (by decide) (by decide)⟩

/-! ## The reference -/

/-- What is joined. -/
def rootRef (serverType : ServerType) (id : Str) : Str :=
  serverType.rootPath.flatMap (· ++ ['/']) ++ id ++ ['/']

variable {serverUrl : ParsedUrl} {serverType : ServerType} {spaceId userId : Str}

lemma webdavRoot_eq : webdavRoot join serverUrl serverType spaceId userId =
    join serverUrl.asCollection (rootRef serverType (serverType.rootId spaceId userId)) := by
  cases serverType <;> rfl

lemma head_rootRef : (rootRef serverType id).head?.any Char.isAlpha = true := by
  cases serverType <;> rfl

lemma last_rootRef : (rootRef serverType id).getLast? = some '/' := List.getLast?_concat

lemma mem_rootRef {c : Char} (hc : cutsSegment c = true) (hslash : c ≠ '/') :
    c ∈ rootRef serverType id ↔ c ∈ id := by
  have hroot : ∀ c ∈ serverType.rootPath.flatMap (· ++ ['/']), cutsSegment c = true → c = '/' := by
    have hall : (serverType.rootPath.flatMap (· ++ ['/'])).all
        (fun c => !cutsSegment c || c == '/') = true := by cases serverType <;> decide
    intro c hc hcuts
    have hone := List.all_eq_true.mp hall c hc
    rw [hcuts] at hone
    simpa using hone
  rw [rootRef, List.mem_append, List.mem_append, List.mem_singleton]
  constructor
  · rintro ((hmem | hmem) | heq)
    · exact absurd (hroot c hmem hc) hslash
    · exact hmem
    · exact absurd heq hslash
  · exact fun hmem => .inl (.inr hmem)

lemma cleaned_rootRef : cleaned (rootRef serverType id) = rootRef serverType (cleaned id) := by
  have hroot : cleaned (serverType.rootPath.flatMap (· ++ ['/'])) =
      serverType.rootPath.flatMap (· ++ ['/']) := by cases serverType <;> rfl
  have hslash : cleaned ['/'] = ['/'] := rfl
  rw [rootRef, cleaned, List.filter_append, List.filter_append, ← cleaned, ← cleaned, ← cleaned, hroot,
    hslash, rootRef]

lemma schemePart_rootRef : schemePart (rootRef serverType id) = none := by
  cases serverType with
  | ocis =>
      have hfirst : schemePart "dav".toList = none := by decide
      have hsplit : rootRef .ocis id = ['/'].intercalate ["dav".toList,
          "spaces/".toList ++ id ++ ['/']] := by
        rw [List.intercalate_cons_cons, List.intercalate_singleton]
        rfl
      rw [hsplit]
      exact schemePart_intercalate hfirst _
  | classic =>
      have hfirst : schemePart "remote.php".toList = none := by decide
      have hsplit : rootRef .classic id = ['/'].intercalate ["remote.php".toList,
          "dav/files/".toList ++ id ++ ['/']] := by
        rw [List.intercalate_cons_cons, List.intercalate_singleton]
        rfl
      rw [hsplit]
      exact schemePart_intercalate hfirst _

lemma splitOnP_flatMap {ps : List Str} (hps : ∀ p ∈ ps, ∀ c ∈ p, partsPath c = false) (t : Str) :
    (ps.flatMap (· ++ ['/']) ++ t).splitOnP partsPath = ps ++ t.splitOnP partsPath := by
  induction ps with
  | nil => rfl
  | cons p ps ih =>
      rw [List.forall_mem_cons] at hps
      rw [List.flatMap_cons, List.append_assoc, List.append_assoc, List.singleton_append,
        List.splitOnP_append_cons_of_forall_mem hps.1 '/' rfl, ih hps.2]
      rfl

lemma splitOnP_rootRef (id : Str) : (rootRef serverType id).splitOnP partsPath =
    serverType.rootPath ++ (id.splitOnP partsPath ++ [[]]) := by
  have hroot : ∀ p ∈ serverType.rootPath, ∀ c ∈ p, partsPath c = false := by
    have hall : serverType.rootPath.all (fun p => p.all (fun c => !partsPath c)) = true := by
      cases serverType <;> decide
    intro p hp c hc
    have hone := List.all_eq_true.mp (List.all_eq_true.mp hall p hp) c hc
    rwa [Bool.not_eq_true'] at hone
  rw [rootRef, List.append_assoc, splitOnP_flatMap hroot, List.splitOnP_append_cons _ _ rfl,
    List.splitOnP_nil]

/-! ## The root -/

lemma asCollection_segments (hpath : serverUrl.path = .segments segs) :
    ∃ segs', serverUrl.asCollection = { serverUrl with path := .segments segs' } ∧
      segs'.dropLast = serverSegments segs := by
  rw [serverSegments]
  by_cases hlast : segs.getLast? = some []
  · exact ⟨segs, by rw [asCollection_of_eq hpath hlast, ← hpath], by rw [if_pos hlast]⟩
  · exact ⟨segs ++ [[]], asCollection_of_ne hpath hlast, by rw [if_neg hlast, List.dropLast_concat]⟩

/-- What the library makes of an id. -/
lemma webdavRoot_spec (hjoin : JoinsPaths β join)
    (hweb : serverUrl.scheme = "http".toList ∨ serverUrl.scheme = "https".toList)
    (hpath : serverUrl.path = .segments segs) (hid : serverType.rootId spaceId userId = id) :
    ∃ query fragment, webdavRoot join serverUrl serverType spaceId userId = some { serverUrl with
        path := .segments (pathState β (serverSegments segs) ((cleaned ((rootRef serverType id).takeWhile
          (fun c => !endsPath c))).splitOnP partsPath))
        query := query
        fragment := fragment } ∧
      (query = none ↔ '?' ∉ (rootRef serverType id).takeWhile (· ≠ '#')) ∧
      (fragment = none ↔ '#' ∉ rootRef serverType id) := by
  obtain ⟨segs', hbase, hsegs⟩ := asCollection_segments hpath
  rw [webdavRoot_eq, hid, hbase, ← hsegs]
  exact hjoin.relative _ segs' _ hweb rfl head_rootRef last_rootRef
    (by rw [cleaned_rootRef]; exact schemePart_rootRef)

/-- An id without question mark and hash leaves no query and no fragment. -/
lemma webdavRoot_whole (hjoin : JoinsPaths β join) (hnames : NamesLegal β)
    (hweb : serverUrl.scheme = "http".toList ∨ serverUrl.scheme = "https".toList)
    (hpath : serverUrl.path = .segments segs) (hid : serverType.rootId spaceId userId = id)
    (hends : ∀ c ∈ id, endsPath c = false) :
    webdavRoot join serverUrl serverType spaceId userId = some { serverUrl with
      path := .segments (pathState β (serverSegments segs ++ serverType.rootPath)
        ((cleaned id).splitOnP partsPath ++ [[]]))
      query := none
      fragment := none } := by
  obtain ⟨query, fragment, hroot, hquery, hfragment⟩ := webdavRoot_spec hjoin hweb hpath hid
  have hmark : '?' ∉ rootRef serverType id := by
    rw [mem_rootRef (by decide) (by decide)]
    exact fun h => absurd (hends _ h) (by decide)
  have hhash : '#' ∉ rootRef serverType id := by
    rw [mem_rootRef (by decide) (by decide)]
    exact fun h => absurd (hends _ h) (by decide)
  have htake : (rootRef serverType id).takeWhile (fun c => !endsPath c) = rootRef serverType id := by
    rw [List.takeWhile_eq_self_iff]
    intro c hc
    rw [Bool.not_eq_true', endsPath, Bool.or_eq_false_iff, decide_eq_false_iff_not,
      decide_eq_false_iff_not]
    exact ⟨fun h => hmark (h ▸ hc), fun h => hhash (h ▸ hc)⟩
  have hnone : query = none :=
    hquery.mpr (fun h => hmark ((List.takeWhile_prefix _).subset h))
  rw [hroot, hnone, hfragment.mpr hhash, htake, cleaned_rootRef, splitOnP_rootRef,
    pathState_append (rootPath_plain hnames serverType)
      (List.append_ne_nil_of_right_ne_nil _ (List.cons_ne_nil _ _))]

/-- What has an escape is not the same when it is decoded. -/
lemma PlainId.not_dots (h : PlainId id) : isDoubleDot id = false ∧ isSingleDot id = false := by
  have hescaped : (escapedDots ++ escapedDot).all (fun t => decodeHrefPath t != t) = true := by
    decide +kernel
  have hnot : ∀ t ∈ escapedDots ++ escapedDot, ¬ decide (id = t) = true := by
    intro t hmem heq
    have hne := List.all_eq_true.mp hescaped t hmem
    rw [← decide_eq_true_iff.mp heq, h.decoded, bne_self_eq_false] at hne
    cases hne
  rw [List.forall_mem_append] at hnot
  rw [isDoubleDot, isSingleDot, decide_eq_false h.dotdot, decide_eq_false h.dot,
    List.any_eq_false.mpr hnot.1, List.any_eq_false.mpr hnot.2]
  exact ⟨rfl, rfl⟩

lemma pathState_end (segs : List Str) : pathState β segs [[]] = segs ++ [[]] := rfl

/-- The root of a plain id. -/
lemma webdavRoot_plain (hjoin : JoinsPaths β join) (hnames : NamesLegal β)
    (hweb : serverUrl.scheme = "http".toList ∨ serverUrl.scheme = "https".toList)
    (hpath : serverUrl.path = .segments segs) (hid : serverType.rootId spaceId userId = id)
    (h : PlainId id) :
    webdavRoot join serverUrl serverType spaceId userId = some { serverUrl with
      path := .segments (serverSegments segs ++ serverType.rootPath ++ [encodePart β id, []])
      query := none
      fragment := none } := by
  have hcuts : ∀ c ∈ id, (endsPath c = false ∧ partsPath c = false) ∧ isTabOrNewline c = false := by
    intro c hc
    have hwhole := h.whole c hc
    rwa [cutsSegment, Bool.or_eq_false_iff, Bool.or_eq_false_iff] at hwhole
  have hclean : cleaned id = id := cleaned_eq_self.mpr (fun c hc => (hcuts c hc).2)
  have hparts : id.splitOnP partsPath = [id] :=
    List.splitOnP_eq_singleton (fun c hc => (hcuts c hc).1.2)
  rw [webdavRoot_whole hjoin hnames hweb hpath hid (fun c hc => (hcuts c hc).1.1), hclean, hparts]
  obtain ⟨hdouble, hsingle⟩ := h.not_dots
  rw [List.singleton_append, pathState, hdouble, hsingle, if_neg Bool.false_ne_true,
    if_neg Bool.false_ne_true, pathState_end, List.append_assoc _ [_]]
  rfl

lemma append_two_ne {segs' : List Str} (h : segs'.length ≤ segs.length) :
    segs' ++ [[]] ≠ segs ++ [s, []] := by
  intro heq
  have hlength := congrArg List.length heq
  rw [List.length_append, List.length_append, List.length_singleton, List.length_cons,
    List.length_singleton] at hlength
  omega

/-- A question mark or a hash cuts the URL off. -/
lemma ends_of_rootExact (hjoin : JoinsPaths β join)
    (hweb : serverUrl.scheme = "http".toList ∨ serverUrl.scheme = "https".toList)
    (hpath : serverUrl.path = .segments segs) (hid : serverType.rootId spaceId userId = id)
    (h : RootExact join serverUrl segs serverType spaceId userId) : ∀ c ∈ id, endsPath c = false := by
  obtain ⟨s, hroot, -⟩ := h
  obtain ⟨query, fragment, hspec, hquery, hfragment⟩ := webdavRoot_spec hjoin hweb hpath hid
  rw [hspec] at hroot
  have hurl := Option.some.inj hroot
  have hhash : '#' ∉ rootRef serverType id := hfragment.mp (congrArg ParsedUrl.fragment hurl)
  have htake : (rootRef serverType id).takeWhile (· ≠ '#') = rootRef serverType id := by
    rw [List.takeWhile_eq_self_iff]
    intro c hc
    rw [decide_eq_true_iff]
    exact fun heq => hhash (heq ▸ hc)
  have hmark : '?' ∉ rootRef serverType id := by
    rw [← htake]
    exact hquery.mp (congrArg ParsedUrl.query hurl)
  rw [mem_rootRef (by decide) (by decide)] at hhash hmark
  intro c hc
  rw [endsPath, Bool.or_eq_false_iff, decide_eq_false_iff_not, decide_eq_false_iff_not]
  exact ⟨fun heq => hmark (heq ▸ hc), fun heq => hhash (heq ▸ hc)⟩

/-- The segment that decodes to the id is one part of it. -/
lemma exists_part (hnames : NamesLegal β) {xs : List Str}
    (hsegs : pathState β xs ((cleaned id).splitOnP partsPath ++ [[]]) = xs ++ [s, []])
    (hdec : decodeHrefPath s = id) :
    ∃ p : Str, p.Sublist (cleaned id) ∧ (∀ c ∈ p, partsPath c = false) ∧ decodeHrefPath p = id := by
  obtain ⟨k, added, hshape, hadded⟩ :=
    @pathState_shape β xs ((cleaned id).splitOnP partsPath ++ [[]])
  have hs : s ∈ added := by
    rw [hshape] at hsegs
    have hlength := congrArg List.length hsegs
    rw [List.length_append, List.length_append, List.length_take, List.length_cons,
      List.length_singleton] at hlength
    have hsuffix : [s, []] <:+ added := List.suffix_of_suffix_length_le
      ⟨_, hsegs.symm⟩ (List.suffix_append _ _) (by
        rw [List.length_cons, List.length_singleton]
        omega)
    exact hsuffix.subset List.mem_cons_self
  have hempty : decodeHrefPath [] = id → ∃ p : Str, p.Sublist (cleaned id) ∧
      (∀ c ∈ p, partsPath c = false) ∧ decodeHrefPath p = id :=
    fun hnil => ⟨[], List.nil_sublist _, fun c hc => absurd hc List.not_mem_nil, hnil⟩
  rcases hadded s hs with hnil | ⟨p, hp, rfl⟩
  · exact hempty (hnil ▸ hdec)
  rw [decodeHrefPath_encodePart hnames] at hdec
  rcases List.mem_append.mp hp with hp | hp
  · exact ⟨p, (Text.mem_splitOnP hp).2, (Text.mem_splitOnP hp).1, hdec⟩
  · rw [List.mem_singleton.mp hp] at hdec
    exact hempty hdec

/-- A part that decodes to the whole id is the whole id: what was cut or dropped can come back only for
a percent sign. -/
lemma whole_of_part {p : Str} (hsub : p.Sublist (cleaned id)) (hwhole : ∀ c ∈ p, partsPath c = false)
    (hdec : decodeHrefPath p = id) : ∀ c ∈ id, partsPath c = false ∧ isTabOrNewline c = false := by
  have hsub' : p.Sublist id := hsub.trans List.filter_sublist
  intro c hc
  constructor
  · by_contra hparts
    rw [Bool.not_eq_false] at hparts
    have hcases := hparts
    rw [partsPath, Bool.or_eq_true, decide_eq_true_iff, decide_eq_true_iff] at hcases
    have hmem : c ∈ p := by
      rcases hcases with rfl | rfl
      · exact mem_of_decodeHrefPath hsub' hdec (by decide) (by decide) (by decide) hc
      · exact mem_of_decodeHrefPath hsub' hdec (by decide) (by decide) (by decide) hc
    rw [hwhole c hmem] at hparts
    cases hparts
  · by_contra htab
    rw [Bool.not_eq_false] at htab
    have hcases := htab
    rw [isTabOrNewline, Bool.or_eq_true, Bool.or_eq_true, decide_eq_true_iff, decide_eq_true_iff,
      decide_eq_true_iff] at hcases
    have hmem : c ∈ p := by
      rcases hcases with (rfl | rfl) | rfl
      · exact mem_of_decodeHrefPath hsub' hdec (by decide) (by decide) (by decide) hc
      · exact mem_of_decodeHrefPath hsub' hdec (by decide) (by decide) (by decide) hc
      · exact mem_of_decodeHrefPath hsub' hdec (by decide) (by decide) (by decide) hc
    have hkept := (List.mem_filter.mp (hsub.subset hmem)).2
    rw [htab] at hkept
    cases hkept

/-- **Needed**: the id is whole in its segment. -/
lemma plainId_of_rootExact (hjoin : JoinsPaths β join) (hnames : NamesLegal β)
    (hweb : serverUrl.scheme = "http".toList ∨ serverUrl.scheme = "https".toList)
    (hpath : serverUrl.path = .segments segs) (hid : serverType.rootId spaceId userId = id)
    (h : RootExact join serverUrl segs serverType spaceId userId) : PlainId id := by
  have hends := ends_of_rootExact hjoin hweb hpath hid h
  obtain ⟨s, hroot, hdec⟩ := h
  rw [hid] at hdec
  rw [webdavRoot_whole hjoin hnames hweb hpath hid hends] at hroot
  have hsegs := UrlPath.segments.inj (congrArg ParsedUrl.path (Option.some.inj hroot))
  obtain ⟨p, hsub, hwhole, hpdec⟩ := exists_part hnames hsegs hdec
  have hclean := whole_of_part hsub hwhole hpdec
  have hself : cleaned id = id := cleaned_eq_self.mpr (fun c hc => (hclean c hc).2)
  rw [hself, List.splitOnP_eq_singleton (fun c hc => (hclean c hc).1), List.singleton_append,
    pathState, pathState_end, pathState_end, pathState_end] at hsegs
  split at hsegs
  · -- the id takes a segment away
    exact absurd hsegs (append_two_ne (by rw [List.length_dropLast]; exact Nat.sub_le _ _))
  rename_i hdouble
  split at hsegs
  · exact absurd hsegs (append_two_ne (le_refl _))
  rename_i hsingle
  rw [List.append_assoc _ [_]] at hsegs
  have hs : encodePart β id = s := (List.cons.inj (List.append_cancel_left hsegs)).1
  refine ⟨fun c hc => ?_, ?_, ?_, ?_⟩
  · rw [cutsSegment, hends c hc, (hclean c hc).1, (hclean c hc).2]
    rfl
  · rintro rfl
    exact hsingle rfl
  · rintro rfl
    exact hdouble rfl
  · rwa [← hs, decodeHrefPath_encodePart hnames] at hdec

/-- **The root of a space or a user is its own segment below the server exactly if** the id is plain: for
every web URL of a server and every id.  Two plain ids have two roots. -/
theorem rootExact_iff (hjoin : JoinsPaths β join) (hnames : NamesLegal β)
    (hweb : serverUrl.scheme = "http".toList ∨ serverUrl.scheme = "https".toList)
    (hpath : serverUrl.path = .segments segs) :
    (RootExact join serverUrl segs serverType spaceId userId ↔
        PlainId (serverType.rootId spaceId userId)) ∧
      ∀ spaceId' userId', PlainId (serverType.rootId spaceId userId) →
        PlainId (serverType.rootId spaceId' userId') →
        webdavRoot join serverUrl serverType spaceId userId =
          webdavRoot join serverUrl serverType spaceId' userId' →
        serverType.rootId spaceId userId = serverType.rootId spaceId' userId' := by
  refine ⟨⟨plainId_of_rootExact hjoin hnames hweb hpath rfl, fun h => ?_⟩, ?_⟩
  · refine ⟨_, webdavRoot_plain hjoin hnames hweb hpath rfl h, ?_⟩
    rw [decodeHrefPath_encodePart hnames, h.decoded]
  · intro spaceId' userId' h h' hsame
    rw [webdavRoot_plain hjoin hnames hweb hpath rfl h,
      webdavRoot_plain hjoin hnames hweb hpath rfl h'] at hsame
    have hsegs := UrlPath.segments.inj (congrArg ParsedUrl.path (Option.some.inj hsame))
    have hpart := (List.cons.inj (List.append_cancel_left hsegs)).1
    rw [← h.decoded, ← decodeHrefPath_encodePart hnames, hpart, decodeHrefPath_encodePart hnames,
      h'.decoded]

/-! ## A library that joins -/

/-- The rules for a path, and nothing else. -/
def pathJoin (β : SegmentBytes) (base : ParsedUrl) (ref : Str) : Option ParsedUrl :=
  match base.path with
  | .segments segs => some { base with
      path := .segments (pathState β segs.dropLast
        ((cleaned (ref.takeWhile (fun c => !endsPath c))).splitOnP partsPath))
      query :=
        if '?' ∈ ref.takeWhile (· ≠ '#') then
          some ((ref.takeWhile (· ≠ '#')).dropWhile (· ≠ '?')).tail
        else none
      fragment := if '#' ∈ ref then some (ref.dropWhile (· ≠ '#')).tail else none }
  | .cannotBeABase _ => none

lemma joinsPaths_pathJoin : JoinsPaths β (pathJoin β) where
  relative base segs ref _ hpath _ _ _ := by
    refine ⟨_, _, by rw [pathJoin, hpath], ?_, ?_⟩
    · split <;> simp_all
    · split <;> simp_all

lemma namesLegal_specialPathSegment : NamesLegal specialPathSegment := by
  have hall : (List.range 256).all (fun n => !isNameByte (UInt8.ofNat n) ||
      specialPathSegment.legal (UInt8.ofNat n)) = true := by decide +kernel
  intro b hb
  have hone := List.all_eq_true.mp hall b.toNat (List.mem_range.mpr b.toNat_lt)
  rwa [UInt8.ofNat_toNat, hb, Bool.not_true, Bool.false_or] at hone

/-- `https://host/owncloud` -/
def serverHost : ParsedUrl where
  scheme := "https".toList
  authority := some "host".toList
  path := .segments ["owncloud".toList]
  query := none
  fragment := none

lemma plainId_drive : PlainId "drive-1$2".toList where
  whole c hc := by
    have hall : "drive-1$2".toList.all (fun c => !cutsSegment c) = true := by decide
    have hone := List.all_eq_true.mp hall c hc
    rwa [Bool.not_eq_true'] at hone
  dot := by decide
  dotdot := by decide
  decoded := by decide +kernel

/-- `rootExact_iff` at the id of a drive on a server below "owncloud". -/
theorem drive_rootExact : RootExact (pathJoin specialPathSegment) serverHost ["owncloud".toList] .ocis
    "drive-1$2".toList [] :=
  (rootExact_iff joinsPaths_pathJoin namesLegal_specialPathSegment (.inr rfl) rfl).1.mpr plainId_drive

/-- The root is `https://host/owncloud/dav/`. -/
theorem dots_not_rootExact : ¬ RootExact (pathJoin specialPathSegment) serverHost
    ["owncloud".toList] .ocis "..".toList [] := fun h =>
  (plainId_of_rootExact joinsPaths_pathJoin namesLegal_specialPathSegment (.inr rfl) rfl rfl h).dotdot
    rfl

end OwncloudSync
