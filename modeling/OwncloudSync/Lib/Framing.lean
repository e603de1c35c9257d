import Mathlib.Algebra.Group.Nat.Defs
import Mathlib.Data.List.Basic
import Mathlib.Tactic.Common

/-!
# Length-prefixed frames

A frame is the length of its body as a big-endian `u32`, and the body.  A stream of bytes arrives
in chunks, cut anywhere; the reader asks for an exact number of bytes, twice for each frame.

**Chunks do not matter.**  `readExact_of_le` and `readExact_of_lt` say what a read returns in terms
of the bytes alone, so that no later lemma looks at the cuts.

**Streams.**  `Yields` is what repeated reads return before the first error.  The frames of a list
of messages yield the list (`yields_frames`), and a stream that breaks off yields the messages that
are complete (`yields_of_prefix`).
-/

namespace Framing

/-- `u32::to_be_bytes`, after the cast to `u32`. -/
def toBeBytes (n : ℕ) : List UInt8 :=
  [UInt8.ofNat (n / 2 ^ 24), UInt8.ofNat (n / 2 ^ 16), UInt8.ofNat (n / 2 ^ 8), UInt8.ofNat n]

/-- `u32::from_be_bytes`. -/
def fromBeBytes (bytes : List UInt8) : ℕ := bytes.foldl (fun n b => n * 256 + b.toNat) 0

/-- `read_exact` of so many bytes.  An empty chunk is no arrival; there is no more data after the
last chunk. -/
def readExact : ℕ → List (List UInt8) → Option (List UInt8 × List (List UInt8))
  | 0, chunks => some ([], chunks)
  | _ + 1, [] => none
  | n + 1, c :: chunks =>
      if n + 1 ≤ c.length then some (c.take (n + 1), c.drop (n + 1) :: chunks)
      else (readExact (n + 1 - c.length) chunks).map (fun r => (c ++ r.1, r.2))

/-- Why a read fails. -/
inductive ReadError where
  /-- the stream ends inside of what was asked for -/
  | unexpectedEof
  | tooLarge (message : String)
  /-- the body is no message -/
  | malformed
  deriving DecidableEq

/-- A body with its length before it. -/
def frame (body : List UInt8) : List UInt8 := toBeBytes body.length ++ body

/-- Read one frame of at most `limit` bytes, and decode its body. -/
def readFrame {α : Type*} (limit : ℕ) (tooLarge : ℕ → String) (decode : List UInt8 → Option α)
    (chunks : List (List UInt8)) : Except ReadError (α × List (List UInt8)) :=
  match readExact 4 chunks with
  | none => .error .unexpectedEof
  | some (header, chunks) =>
      if limit < fromBeBytes header then .error (.tooLarge (tooLarge (fromBeBytes header)))
      else
        match readExact (fromBeBytes header) chunks with
        | none => .error .unexpectedEof
        | some (body, chunks) =>
            match decode body with
            | none => .error .malformed
            | some a => .ok (a, chunks)

/-- Repeated reads from a stream return these messages, and then the error. -/
inductive Yields {σ α ε : Type*} (read : σ → Except ε (α × σ)) : σ → List α → ε → Prop
  | stop {s : σ} {e : ε} (h : read s = .error e) : Yields read s [] e
  | next {s s' : σ} {a : α} {l : List α} {e : ε} (h : read s = .ok (a, s'))
      (hrest : Yields read s' l e) : Yields read s (a :: l) e

/-- There is nothing else they could return. -/
lemma Yields.unique {σ α ε : Type*} {read : σ → Except ε (α × σ)} {s : σ} {l l' : List α} {e e' : ε}
    (h : Yields read s l e) (h' : Yields read s l' e') : l = l' ∧ e = e' := by
  induction h generalizing l' e' with
  | stop h =>
      cases h' with
      | stop h' => exact ⟨rfl, Except.error.inj (h.symm.trans h')⟩
      | next h' _ => cases h.symm.trans h'
  | next h _ ih =>
      cases h' with
      | stop h' => cases h.symm.trans h'
      | next h' hrest =>
          obtain ⟨rfl, rfl⟩ := Prod.mk.inj (Except.ok.inj (h.symm.trans h'))
          obtain ⟨rfl, rfl⟩ := ih hrest
          exact ⟨rfl, rfl⟩

/-! ## The length -/

lemma length_toBeBytes (n : ℕ) : (toBeBytes n).length = 4 := rfl

lemma fromBeBytes_toBeBytes (n : ℕ) : fromBeBytes (toBeBytes n) = n % 2 ^ 32 := by
  simp only [fromBeBytes, toBeBytes, List.foldl_cons, List.foldl_nil, UInt8.toNat_ofNat']
  omega

/-! ## Reads, without the chunks -/

variable {n : ℕ} {chunks : List (List UInt8)} {body rest : List UInt8}

lemma readExact_of_le (h : n ≤ chunks.flatten.length) : ∃ chunks',
    readExact n chunks = some (chunks.flatten.take n, chunks') ∧
      chunks'.flatten = chunks.flatten.drop n := by
  induction chunks generalizing n with
  | nil =>
      obtain rfl : n = 0 := by simpa using h
      exact ⟨[], rfl, rfl⟩
  | cons c chunks ih =>
      cases n with
      | zero => exact ⟨c :: chunks, rfl, rfl⟩
      | succ n =>
          rw [readExact, List.flatten_cons]
          rw [List.flatten_cons, List.length_append] at h
          by_cases hc : n + 1 ≤ c.length
          · rw [if_pos hc, List.take_append_of_le_length hc, List.drop_append_of_le_length hc]
            exact ⟨_, rfl, rfl⟩
          · obtain ⟨chunks', hread, hrest⟩ := ih (n := n + 1 - c.length) (by omega)
            have htake : c.take (n + 1) = c := List.take_of_length_le (by omega)
            have hdrop : c.drop (n + 1) = [] := List.drop_eq_nil_of_le (by omega)
            rw [if_neg hc, hread, List.take_append, List.drop_append, htake, hdrop]
            exact ⟨chunks', rfl, hrest⟩

lemma readExact_of_lt (h : chunks.flatten.length < n) : readExact n chunks = none := by
  induction chunks generalizing n with
  | nil =>
      cases n with
      | zero => simp at h
      | succ n => rfl
  | cons c chunks ih =>
      rw [List.flatten_cons, List.length_append] at h
      cases n with
      | zero => omega
      | succ n => rw [readExact, if_neg (by omega), ih (by omega), Option.map_none]

/-- The bytes of a stream in front of others. -/
lemma readExact_append (h : chunks.flatten = body ++ rest) : ∃ chunks',
    readExact body.length chunks = some (body, chunks') ∧ chunks'.flatten = rest := by
  have hlen : body.length ≤ chunks.flatten.length := by
    rw [h, List.length_append]
    omega
  obtain ⟨chunks', hread, hrest⟩ := readExact_of_le hlen
  rw [h, List.take_left] at hread
  rw [h, List.drop_left] at hrest
  exact ⟨chunks', hread, hrest⟩

/-! ## Frames -/

variable {α : Type*} {limit : ℕ} {tooLarge : ℕ → String} {decode : List UInt8 → Option α} {a : α}

variable (limit tooLarge decode) in
/-- A header is read as the length of the body, up to `u32`. -/
lemma readFrame_header (h : chunks.flatten = frame body ++ rest) : ∃ chunks',
    chunks'.flatten = body ++ rest ∧ readFrame limit tooLarge decode chunks =
      if limit < body.length % 2 ^ 32 then
        .error (.tooLarge (tooLarge (body.length % 2 ^ 32)))
      else
        match readExact (body.length % 2 ^ 32) chunks' with
        | none => .error .unexpectedEof
        | some (body, chunks) =>
            match decode body with
            | none => .error .malformed
            | some a => .ok (a, chunks) := by
  rw [frame, List.append_assoc] at h
  obtain ⟨chunks', hread, hrest⟩ := readExact_append h
  refine ⟨chunks', hrest, ?_⟩
  rw [readFrame, ← length_toBeBytes body.length, hread]
  simp only [fromBeBytes_toBeBytes]

variable (tooLarge) in
/-- A frame within the limit is read back. -/
lemma readFrame_frame (hlimit : limit < 2 ^ 32) (hlen : body.length ≤ limit)
    (hdec : decode body = some a) (h : chunks.flatten = frame body ++ rest) : ∃ chunks',
      readFrame limit tooLarge decode chunks = .ok (a, chunks') ∧ chunks'.flatten = rest := by
  obtain ⟨chunks', hflat, hread⟩ := readFrame_header limit tooLarge decode h
  obtain ⟨chunks'', hbody, hrest⟩ := readExact_append hflat
  rw [Nat.mod_eq_of_lt (by omega), if_neg (by omega), hbody] at hread
  dsimp only at hread
  rw [hdec] at hread
  exact ⟨chunks'', hread, hrest⟩

/-- A frame that breaks off is an end of the stream. -/
lemma readFrame_truncated (hlimit : limit < 2 ^ 32) (hlen : body.length ≤ limit)
    (h : chunks.flatten <+: frame body) (hshort : chunks.flatten.length < (frame body).length) :
    readFrame limit tooLarge decode chunks = .error .unexpectedEof := by
  by_cases hheader : chunks.flatten.length < 4
  · rw [readFrame, readExact_of_lt hheader]
  · -- the header is complete, the body is not
    obtain ⟨part, hpart⟩ : ∃ part, chunks.flatten = toBeBytes body.length ++ part := by
      have hpre : toBeBytes body.length <+: chunks.flatten := by
        refine List.prefix_of_prefix_length_le (List.prefix_append _ body) h ?_
        rw [length_toBeBytes]
        omega
      obtain ⟨part, hpart⟩ := hpre
      exact ⟨part, hpart.symm⟩
    obtain ⟨chunks', hread, hrest⟩ := readExact_append hpart
    have hpartlen : part.length < body.length := by
      rw [hpart, frame, List.length_append, List.length_append] at hshort
      omega
    rw [readFrame, ← length_toBeBytes body.length, hread]
    simp only [fromBeBytes_toBeBytes]
    rw [Nat.mod_eq_of_lt (by omega), if_neg (by omega), readExact_of_lt (by rw [hrest]; omega)]

/-! ## Streams of frames -/

variable {encode : α → List UInt8} {l : List α}

/-- The frames of a list of messages. -/
def frames (encode : α → List UInt8) (l : List α) : List UInt8 :=
  l.flatMap (fun a => frame (encode a))

lemma readFrame_nil (h : chunks.flatten = []) :
    readFrame limit tooLarge decode chunks = .error .unexpectedEof := by
  rw [readFrame, readExact_of_lt (by rw [h]; simp)]

/-- **What is written is read**, however it is cut. -/
lemma yields_frames (hlimit : limit < 2 ^ 32) (hlen : ∀ a ∈ l, (encode a).length ≤ limit)
    (hdec : ∀ a ∈ l, decode (encode a) = some a) (h : chunks.flatten = frames encode l) :
    Yields (readFrame limit tooLarge decode) chunks l .unexpectedEof := by
  induction l generalizing chunks with
  | nil => exact .stop (readFrame_nil h)
  | cons a l ih =>
      rw [List.forall_mem_cons] at hlen hdec
      rw [frames, List.flatMap_cons] at h
      obtain ⟨chunks', hread, hrest⟩ := readFrame_frame tooLarge hlimit hlen.1 hdec.1 h
      exact .next hread (ih hlen.2 hdec.2 hrest)

/-- **A stream that breaks off yields the messages that are complete.** -/
lemma yields_of_prefix (hlimit : limit < 2 ^ 32) (hlen : ∀ a ∈ l, (encode a).length ≤ limit)
    (hdec : ∀ a ∈ l, decode (encode a) = some a) (h : chunks.flatten <+: frames encode l) :
    ∃ l', l' <+: l ∧ frames encode l' <+: chunks.flatten ∧
      Yields (readFrame limit tooLarge decode) chunks l' .unexpectedEof := by
  induction l generalizing chunks with
  | nil =>
      exact ⟨[], List.nil_prefix, List.nil_prefix, .stop (readFrame_nil (List.prefix_nil.mp h))⟩
  | cons a l ih =>
      rw [List.forall_mem_cons] at hlen hdec
      rw [frames, List.flatMap_cons] at h
      by_cases hshort : chunks.flatten.length < (frame (encode a)).length
      · refine ⟨[], List.nil_prefix, List.nil_prefix, .stop ?_⟩
        exact readFrame_truncated hlimit hlen.1
          (List.prefix_of_prefix_length_le h (List.prefix_append _ _) (by omega)) hshort
      · -- the first frame is complete, the rest breaks off
        obtain ⟨rest, hrest⟩ := List.prefix_of_prefix_length_le (List.prefix_append _ _) h
          (Nat.le_of_not_lt hshort)
        obtain ⟨chunks', hread, hflat⟩ := readFrame_frame tooLarge hlimit hlen.1 hdec.1
          hrest.symm
        rw [← hrest, List.prefix_append_right_inj, ← hflat] at h
        obtain ⟨l', hl', hdone, hyields⟩ := ih hlen.2 hdec.2 h
        refine ⟨a :: l', (List.prefix_cons_inj a).mpr hl', ?_, .next hread hyields⟩
        rw [frames, List.flatMap_cons, ← hrest, List.prefix_append_right_inj, ← hflat]
        exact hdone

end Framing
