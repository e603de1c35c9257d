import OwncloudSync.Discovery.Encoding
import OwncloudSync.Lib.Chunks
import OwncloudSync.Shell.FinderClient
import Mathlib.Tactic.Common

/-!
# Lines out of received bytes

`startReceiving` (`FinderSync/SocketClient.swift`) appends what it receives to its buffer, and
`extractLines` takes the complete lines off the front: as long as there is a line feed, what stands
before it is decoded, freed of carriage returns and passed on, unless it is empty or no UTF-8.

A chunk may end inside a character or between a carriage return and its line feed; the lines are the
same (`extraction_chunks`), for they are cut at bytes and decoded afterwards.  On text they are the
lines of the model in characters (`extractLinesFrom_utf8`).
-/

namespace OwncloudSync

namespace Finder

open Shell Text

/-- `UInt8(ascii: "\n")`. -/
def lf : UInt8 := 10

section

-- what `String(data:encoding:)` makes of the bytes, if they are UTF-8
variable (decode : List UInt8 → Option Str)

/-- What becomes of the bytes of one line. -/
def lineOf (lineData : List UInt8) : List Str :=
  match decode lineData with
  | none => []
  | some line => if trimReturns line = [] then [] else [trimReturns line]

/-- The loop of `extractLines`, with the lines it has. -/
def extractLoop (lines : List Str) (buffer : List UInt8) : List Str × List UInt8 :=
  match h : buffer.finIdxOf? lf with
  | none => (lines, buffer)
  | some nlIndex =>
      extractLoop (lines ++ lineOf decode (buffer.take nlIndex)) (buffer.drop (nlIndex + 1))
termination_by buffer.length
decreasing_by
  have hlt := nlIndex.isLt
  rw [List.length_drop]
  omega

/-- `extractLines(from:)`: the lines, and the buffer afterwards. -/
def extractLinesFrom (buffer : List UInt8) : List Str × List UInt8 := extractLoop decode [] buffer

/-- `startReceiving`: the lines that are dispatched while the chunks come, and the buffer at the end. -/
def startReceiving (receiveBuffer : List UInt8) : List (List UInt8) → List Str × List UInt8
  | [] => ([], receiveBuffer)
  | data :: more =>
      let r := if data = [] then ([], receiveBuffer)
        else extractLinesFrom decode (receiveBuffer ++ data)
      let rest := startReceiving r.2 more
      (r.1 ++ rest.1, rest.2)

variable {decode} {buffer l : List UInt8}

/-! ## The loop -/

lemma extractLoop_of_not_mem (lines : List Str) (h : lf ∉ buffer) :
    extractLoop decode lines buffer = (lines, buffer) := by
  have hnone : buffer.finIdxOf? lf = none := List.finIdxOf?_eq_none_iff.mpr h
  rw [extractLoop]
  split
  · rfl
  · rename_i i hi
    rw [hnone] at hi
    cases hi

lemma extractLoop_line (lines : List Str) (h : lf ∉ l) : extractLoop decode lines (l ++ lf :: buffer) =
    extractLoop decode (lines ++ lineOf decode l) buffer := by
  have hlt : l.length < (l ++ lf :: buffer).length := by
    rw [List.length_append, List.length_cons]
    omega
  have hfirst : (l ++ lf :: buffer).finIdxOf? lf = some ⟨l.length, hlt⟩ := by
    rw [List.finIdxOf?_eq_some_iff]
    refine ⟨by simp, fun j hj => ?_⟩
    have hj' : j.val < l.length := hj
    rw [Fin.getElem_fin, List.getElem_append_left hj']
    intro hlf
    exact h (by rw [← hlf]; exact List.getElem_mem hj')
  conv_lhs => rw [extractLoop]
  split
  · rename_i hnone
    rw [hfirst] at hnone
    cases hnone
  · rename_i i hi
    rw [hfirst, Option.some.injEq] at hi
    rw [← hi]
    simp

/-- **The loop cuts at the line feeds.** -/
lemma extractLoop_eq (lines : List Str) (buffer : List UInt8) : extractLoop decode lines buffer =
    (lines ++ (Chunks.cut lf buffer).1.flatMap (lineOf decode), (Chunks.cut lf buffer).2) := by
  induction buffer using Chunks.parts_induction lf generalizing lines with
  | hlast s h =>
      rw [extractLoop_of_not_mem lines h, Chunks.cut_of_not_mem h]
      simp
  | hpart l s hl ih =>
      rw [extractLoop_line lines hl, ih, Chunks.cut_part hl]
      simp

lemma extractLinesFrom_eq : extractLinesFrom decode =
    fun buffer => ((Chunks.cut lf buffer).1.flatMap (lineOf decode), (Chunks.cut lf buffer).2) := by
  funext buffer
  rw [extractLinesFrom, extractLoop_eq, List.nil_append]

lemma resumes_extractLinesFrom : Chunks.Resumes (extractLinesFrom decode) := by
  rw [extractLinesFrom_eq]
  exact (Chunks.resumes_cut lf).flatMap (lineOf decode)

/-- Passing over an empty chunk makes no difference. -/
lemma startReceiving_eq (h : extractLinesFrom decode buffer = ([], buffer))
    (chunks : List (List UInt8)) :
    startReceiving decode buffer chunks = Chunks.feed (extractLinesFrom decode) buffer chunks := by
  induction chunks generalizing buffer with
  | nil => rfl
  | cons data chunks ih =>
      rw [startReceiving, Chunks.feed]
      by_cases hdata : data = []
      · simp only [hdata, List.append_nil, if_pos, h, ih h]
      · simp only [if_neg hdata]
        rw [ih (resumes_extractLinesFrom.rest _)]

end

/-- **The lines do not depend on the chunks**, and the buffer ends with what stands behind the last line
feed, whatever the bytes are. -/
theorem extraction_chunks (decode : List UInt8 → Option Str) (chunks : List (List UInt8)) :
    Chunks.feed (extractLinesFrom decode) [] chunks = extractLinesFrom decode chunks.flatten ∧
      startReceiving decode [] chunks = extractLinesFrom decode chunks.flatten ∧
      (extractLinesFrom decode chunks.flatten).2 = chunks.flatten.rtakeWhile (· ≠ lf) := by
  have hempty : extractLinesFrom decode [] = ([], []) := by rw [extractLinesFrom_eq]; rfl
  have hfeed : Chunks.feed (extractLinesFrom decode) [] chunks =
      extractLinesFrom decode chunks.flatten := resumes_extractLinesFrom.feed_eq hempty
  refine ⟨hfeed, (startReceiving_eq hempty chunks).trans hfeed, ?_⟩
  rw [extractLinesFrom_eq]
  exact Chunks.cut_snd chunks.flatten

/-! ## Text -/

/-- A line feed is a byte of its own in UTF-8. -/
lemma lf_not_mem_bytes {s : Str} (h : '\n' ∉ s) : lf ∉ s.flatMap String.utf8EncodeChar := by
  have hle := count_bytes_le (c := '\n') (by decide) s
  rw [List.count_eq_zero.mpr h] at hle
  exact List.count_eq_zero.mp (Nat.le_zero.mp hle)

lemma cut_bytes (s : Str) : Chunks.cut lf (s.flatMap String.utf8EncodeChar) =
    ((cutLines s).1.map (List.flatMap String.utf8EncodeChar),
      (cutLines s).2.flatMap String.utf8EncodeChar) := by
  induction s using Chunks.parts_induction '\n' with
  | hlast s h =>
      rw [Chunks.cut_of_not_mem (lf_not_mem_bytes h), cutLines_of_not_mem h]
      rfl
  | hpart l s hl ih =>
      have hbyte : String.utf8EncodeChar '\n' = [lf] := by decide
      rw [List.flatMap_append, List.flatMap_cons, hbyte, List.singleton_append,
        Chunks.cut_part (lf_not_mem_bytes hl), ih, cutLines_line hl]
      rfl

/-- **On UTF-8 the lines are those of the text**: the model in characters says what happens to the
bytes. -/
theorem extractLinesFrom_utf8 {decode : List UInt8 → Option Str}
    (hdecode : ∀ t : Str, decode (t.flatMap String.utf8EncodeChar) = some t) (s : Str) :
    extractLinesFrom decode (s.flatMap String.utf8EncodeChar) =
      ((extractLines s).1, (extractLines s).2.flatMap String.utf8EncodeChar) := by
  have hline : ∀ t : Str, lineOf decode (t.flatMap String.utf8EncodeChar) =
      [trimReturns t].filter (· ≠ []) := by
    intro t
    rw [lineOf, hdecode]
    dsimp only
    split
    · rename_i hnil
      rw [hnil]
      rfl
    · rename_i hne
      simp [hne]
  rw [extractLinesFrom_eq]
  dsimp only
  rw [cut_bytes, extractLines]
  refine Prod.ext ?_ rfl
  dsimp only
  rw [List.flatMap_map]
  simp only [hline]
  induction (cutLines s).1 with
  | nil => rfl
  | cons t ts ih => rw [List.flatMap_cons, ih, List.map_cons, ← List.filter_append, List.singleton_append]

end Finder

end OwncloudSync
