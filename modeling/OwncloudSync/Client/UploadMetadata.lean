import OwncloudSync.Client.Tus
import OwncloudSync.Lib.Base64
import OwncloudSync.Lib.Text
import Mathlib.Tactic.Common

/-!
# The metadata of an upload

`TusClient::create` (`tus/mod.rs`) tells the server what it is about to send in one header,
`Upload-Metadata`: pairs of a key and a value in Base64, with a comma and a space between them, and the
path last, under `filename`.  **Read as the protocol says, the header has just these pairs**, in
whatever order the map is iterated (`uploadMetadata`); but a `filename` among the caller's keys makes
two of them, which the protocol forbids.
-/

namespace OwncloudSync

namespace Tus

open Text

/-! ## The request -/

/-- The alphabet of the standard encoding. -/
def standardChars : Str :=
  "ABCDEFGHIJKLMNOPQRSTUVWXYZabcdefghijklmnopqrstuvwxyz0123456789+/".toList

/-- `general_purpose::STANDARD`. -/
def standard : Base64.Alphabet where
  char n := standardChars.getD n 'A'
  value c := standardChars.idxOf? c
  value_char := by decide +kernel
  value_pad := by decide

/-- A key and its value, as they stand in the header. -/
def metaPair (kv : Str × Str) : Str := kv.1 ++ ' ' :: Base64.encode standard (utf8 kv.2)

/-- `meta_header`; `metadata` is the map in the order it is iterated in. -/
def metaHeader (metadata : List (Str × Str)) (path : Str) : Str :=
  [',', ' '].intercalate (metadata.map metaPair ++ [metaPair ("filename".toList, path)])

/-- The headers of the POST. -/
structure CreateRequest where
  tusResumable : Str
  uploadLength : Str
  uploadMetadata : Str
  contentLength : Str

/-- The request of `TusClient::create`. -/
def createRequest (path : Str) (size : UInt64) (metadata : List (Str × Str)) : CreateRequest where
  tusResumable := "1.0.0".toList
  uploadLength := Nat.toDigits 10 size.toNat
  uploadMetadata := metaHeader metadata path
  contentLength := "0".toList

/-! ## What the protocol reads -/

/-- A pair: the key, a space, and the value in Base64; a value that is empty may be left out. -/
def readPair (s : Str) : Option (Str × List UInt8) :=
  match splitOnce ' ' s with
  | some (k, v) => (Base64.decode standard v).map (fun bytes => (k, bytes))
  | none => if s = [] then none else some (s, [])

/-- Pairs between commas. -/
def readMetadata (header : Str) : Option (List (Str × List UInt8)) :=
  (header.splitOn ',').mapM (fun part => readPair (part.dropWhile (· == ' ')))

/-- A key as the protocol allows it. -/
def ValidKey (k : Str) : Prop := k ≠ [] ∧ ' ' ∉ k ∧ ',' ∉ k

variable {metadata : List (Str × Str)} {kv : Str × Str} {path : Str}

lemma standard_chars {c : Char} {bs : List UInt8} (h : c ∈ Base64.encode standard bs) :
    c ≠ ' ' ∧ c ≠ ',' := by
  have hall : ∀ n < 64, standard.char n ≠ ' ' ∧ standard.char n ≠ ',' := by decide +kernel
  rcases Base64.mem_encode standard h with rfl | ⟨n, hn, rfl⟩
  · decide
  · exact hall n hn

lemma comma_not_mem (h : ValidKey kv.1) : ',' ∉ metaPair kv := by
  unfold metaPair
  rw [List.mem_append, List.mem_cons]
  rintro (hc | hc | hc)
  · exact h.2.2 hc
  · exact absurd hc (by decide)
  · exact (standard_chars hc).2 rfl

/-- A pair is read back, with the space before it. -/
lemma readPair_metaPair (h : ValidKey kv.1) (spaces : List Char) (hs : ∀ c ∈ spaces, c = ' ') :
    readPair ((spaces ++ metaPair kv).dropWhile (· == ' ')) = some (kv.1, utf8 kv.2) := by
  obtain ⟨hne, hspace, -⟩ := h
  have hdrop : (spaces ++ metaPair kv).dropWhile (· == ' ') = metaPair kv := by
    rw [List.dropWhile_append_of_pos (fun c hc => by simp [hs c hc]), metaPair]
    cases hk : kv.1 with
    | nil => exact absurd hk hne
    | cons c k =>
        rw [List.cons_append, List.dropWhile_cons_of_neg]
        intro hc
        rw [beq_iff_eq] at hc
        exact hspace (by rw [hk, hc]; exact List.mem_cons_self)
  rw [hdrop, readPair, metaPair, splitOnce_append hspace]
  simp only [Base64.decode_encode, Option.map_some]

/-- A comma and a space between the parts is a comma between parts that begin with a space. -/
lemma intercalate_spaced (p : Str) (ps : List Str) :
    [',', ' '].intercalate (p :: ps) = [','].intercalate (p :: ps.map (' ' :: ·)) := by
  induction ps generalizing p with
  | nil => rfl
  | cons q ps ih =>
      rw [List.map_cons, List.intercalate_cons_cons, List.intercalate_cons_cons, ih]
      cases ps with
      | nil => simp
      | cons r ps => simp [List.intercalate_cons_cons]

lemma mapM_readPair {l : List (Str × Str)} (h : ∀ kv ∈ l, ValidKey kv.1) :
    (l.map (fun kv => ' ' :: metaPair kv)).mapM (fun part => readPair (part.dropWhile (· == ' '))) =
      some (l.map (fun kv => (kv.1, utf8 kv.2))) := by
  induction l with
  | nil => rfl
  | cons kv l ih =>
      have hpair := readPair_metaPair (h kv List.mem_cons_self) [' '] (by simp)
      rw [List.map_cons, List.mapM_cons, ih (fun kv' h' => h kv' (List.mem_cons_of_mem kv h'))]
      rw [List.cons_append, List.nil_append] at hpair
      rw [hpair]
      rfl

lemma validKey_filename : ValidKey "filename".toList := by
  refine ⟨?_, ?_, ?_⟩
  · decide
  · decide
  · decide

/-- Any list of pairs is read back. -/
lemma readMetadata_pairs {l : List (Str × Str)} (hne : l ≠ []) (h : ∀ kv ∈ l, ValidKey kv.1) :
    readMetadata ([',', ' '].intercalate (l.map metaPair)) =
      some (l.map (fun kv => (kv.1, utf8 kv.2))) := by
  cases l with
  | nil => exact absurd rfl hne
  | cons kv l =>
      have hkv := h kv List.mem_cons_self
      have hl : ∀ kv' ∈ l, ValidKey kv'.1 := fun kv' h' => h kv' (List.mem_cons_of_mem kv h')
      have hcommas : ∀ p ∈ metaPair kv :: (l.map metaPair).map (' ' :: ·), ',' ∉ p := by
        intro p hp
        rcases List.mem_cons.mp hp with rfl | hp
        · exact comma_not_mem hkv
        · obtain ⟨q, hq, rfl⟩ := List.mem_map.mp hp
          obtain ⟨kv', hkv', rfl⟩ := List.mem_map.mp hq
          rw [List.mem_cons]
          rintro (hc | hc)
          · exact absurd hc (by decide)
          · exact comma_not_mem (hl kv' hkv') hc
      have hfirst := readPair_metaPair hkv [] (by simp)
      rw [List.nil_append] at hfirst
      rw [readMetadata, List.map_cons, intercalate_spaced,
        List.splitOn_intercalate ',' hcommas (List.cons_ne_nil _ _), List.mapM_cons, hfirst,
        List.map_map, show ((' ' :: ·) ∘ metaPair) = fun kv => ' ' :: metaPair kv from rfl,
        mapM_readPair hl]
      rfl

/-- **The request says what it is to say.**  The length is the size, the pairs of the header are those
of the caller and the path, and no two have a key in common unless the caller has a `filename`. -/
theorem uploadMetadata (path : Str) (size : UInt64) (metadata : List (Str × Str))
    (h : ∀ kv ∈ metadata, ValidKey kv.1) (hnodup : (metadata.map Prod.fst).Nodup) :
    parseU64 (createRequest path size metadata).uploadLength = some size ∧
    ∃ pairs, readMetadata (createRequest path size metadata).uploadMetadata = some pairs ∧
      pairs = metadata.map (fun kv => (kv.1, utf8 kv.2)) ++ [("filename".toList, utf8 path)] ∧
      ((pairs.map Prod.fst).Nodup ↔ "filename".toList ∉ metadata.map Prod.fst) := by
  refine ⟨parseU64_toDigits size, _, ?_, rfl, ?_⟩
  · have hread := readMetadata_pairs (l := metadata ++ [("filename".toList, path)]) (by simp) (by
      intro kv hkv
      rcases List.mem_append.mp hkv with hkv | hkv
      · exact h kv hkv
      · rw [List.mem_singleton.mp hkv]
        exact validKey_filename)
    rw [List.map_append, List.map_append] at hread
    exact hread
  · rw [List.map_append, List.map_map, show (Prod.fst ∘ fun kv : Str × Str => (kv.1, utf8 kv.2)) =
      Prod.fst from rfl, List.nodup_append]
    constructor
    · rintro ⟨-, -, hdis⟩ hmem
      exact hdis _ hmem _ (List.mem_singleton.mpr rfl) rfl
    · intro hmem
      refine ⟨hnodup, List.nodup_cons.mpr ⟨List.not_mem_nil, List.nodup_nil⟩, fun k hk k' hk' => ?_⟩
      rintro rfl
      rw [List.map_singleton, List.mem_singleton] at hk'
      rw [hk'] at hk
      exact hmem hk

/-- The theorem for the request of the tests. -/
theorem uploadMetadata_report :
    ∃ pairs, readMetadata (createRequest "/documents/report.txt".toList 1024
        [("content-type".toList, "text/plain".toList)]).uploadMetadata = some pairs ∧
      (pairs.map Prod.fst).Nodup := by
  obtain ⟨-, pairs, hread, -, hnodup⟩ := uploadMetadata "/documents/report.txt".toList 1024
    [("content-type".toList, "text/plain".toList)]
    (fun kv hkv => by
      rw [List.mem_singleton.mp hkv]
      exact ⟨by decide, by decide, by decide⟩) (by decide)
  exact ⟨pairs, hread, hnodup.mpr (by decide)⟩

end Tus

end OwncloudSync
