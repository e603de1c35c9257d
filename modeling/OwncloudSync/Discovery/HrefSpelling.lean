import OwncloudSync.Discovery.Encoding
import Mathlib.Data.List.TakeWhile
import Mathlib.Tactic.Common

/-!
# How an href is spelled

A server may escape in an href what it likes; `$` and `%24` are the same name.  `parse_propfind`
decodes **what stands behind the path of the space**, and finds out where that is in the text as it
came: the path of the space is stripped if the href begins with it in just this spelling, and an entry
is the collection itself if it is spelled like the URL that was asked for.  So two spellings of one
href may end up as two paths, or one of them be skipped.

`alike_iff` is what two hrefs that decode to the same text must have in common.  The prefix is taken
off as text, so it may end inside an escape of the href; `CutWhole` says that it does not.
-/

namespace OwncloudSync

/-! ## Where an href is cut -/

/-- What `parse_propfind` takes off in front: the path of the space, if the href begins with it, and
slashes. -/
def front (root href : Str) : Str :=
  match stripPrefix (trimEndSlash root) href with
  | some rest => trimEndSlash root ++ rest.takeWhile (· == '/')
  | none => href.takeWhile (· == '/')

/-- What is decoded. -/
def behind (root href : Str) : Str :=
  trimStartSlash ((stripPrefix (trimEndSlash root) href).getD href)

/-- The href is spelled like the path of the space, or like the collection that was asked for, but for
slashes at its end. -/
def Spelled (root current href : Str) : Prop :=
  trimEndSlash href = trimEndSlash root ∨ trimEndSlash href = trimEndSlash current

/-- The entry is skipped. -/
def Skipped (root current href : Str) : Prop := behind root href = [] ∨ Spelled root current href

instance (root current href : Str) : Decidable (Spelled root current href) :=
  inferInstanceAs (Decidable (_ ∨ _))

instance (root current href : Str) : Decidable (Skipped root current href) :=
  inferInstanceAs (Decidable (_ ∨ _))

/-- The path of the space ends neither inside an escape of the href nor inside a character. -/
def CutWhole (root href : Str) : Prop :=
  decodeHrefPath href = decodeHrefPath (front root href) ++ decodeHrefPath (behind root href)

/-- Whatever else a response holds, its href comes to the same: no entry, or one with the same path
and the same URL to ask for. -/
def Alike (enc : Str → Str) (root current href href' : Str) : Prop :=
  ∀ st : ParseState,
    ({ st with href := href }.closed enc root current "response".toList).files =
        ({ st with href := href' }.closed enc root current "response".toList).files ∧
      ({ st with href := href }.closed enc root current "response".toList).dirs =
        ({ st with href := href' }.closed enc root current "response".toList).dirs

instance (root href : Str) : Decidable (CutWhole root href) :=
  inferInstanceAs (Decidable (_ = _))

variable {enc : Str → Str} {root current href href' : Str}

lemma takeWhile_append_trimStartSlash (s : Str) :
    s.takeWhile (· == '/') ++ trimStartSlash s = s := List.takeWhile_append_dropWhile

lemma front_append_behind (root href : Str) : front root href ++ behind root href = href := by
  rw [front, behind]
  cases h : stripPrefix (trimEndSlash root) href with
  | none => exact takeWhile_append_trimStartSlash href
  | some rest =>
      dsimp only [Option.getD_some]
      rw [List.append_assoc, takeWhile_append_trimStartSlash, ← eq_append_of_stripPrefix h]

/-! ## When a cut is whole -/

lemma decodeHrefPath_nil : decodeHrefPath [] = [] := by
  simp [decodeHrefPath, percentDecode.eq_def, decodeUtf8Lossy.eq_def]

lemma decodeHrefPath_slashes (n : ℕ) (s : Str) :
    decodeHrefPath (List.replicate n '/' ++ s) = List.replicate n '/' ++ decodeHrefPath s := by
  induction n with
  | zero => rfl
  | succ n ih =>
      have hslash := decodeHrefPath_slash [] (List.replicate n '/' ++ s)
      rw [decodeHrefPath_nil, ih] at hslash
      exact hslash

lemma decodeHrefPath_append_slashes (a b : Str) {n : ℕ} (h : n ≠ 0) :
    decodeHrefPath (a ++ (List.replicate n '/' ++ b)) =
      decodeHrefPath (a ++ List.replicate n '/') ++ decodeHrefPath b := by
  obtain ⟨m, rfl⟩ := Nat.exists_eq_succ_of_ne_zero h
  have hend := decodeHrefPath_slashes m []
  rw [decodeHrefPath_nil, List.append_nil] at hend
  rw [List.replicate_succ, List.cons_append, decodeHrefPath_slash, decodeHrefPath_slash,
    decodeHrefPath_slashes, hend, List.append_assoc, List.cons_append]

lemma takeWhile_slash (s : Str) : ∃ n, s.takeWhile (· == '/') = List.replicate n '/' := by
  refine ⟨_, List.eq_replicate_of_mem (fun c hc => ?_)⟩
  simpa using List.mem_takeWhile_imp hc

/-- **An href that does not begin like the space, or goes on with a slash where that ends**, is cut
between two characters. -/
theorem cutWhole_of (h : ∀ rest, stripPrefix (trimEndSlash root) href = some rest →
    rest = [] ∨ rest.head? = some '/') : CutWhole root href := by
  rw [CutWhole]
  conv_lhs => rw [← front_append_behind root href]
  rw [front]
  cases hstrip : stripPrefix (trimEndSlash root) href with
  | none =>
      obtain ⟨n, hn⟩ := takeWhile_slash href
      have hend := decodeHrefPath_slashes n []
      rw [decodeHrefPath_nil, List.append_nil] at hend
      dsimp only
      rw [hn, decodeHrefPath_slashes, hend]
  | some rest =>
      dsimp only
      rcases h rest hstrip with rfl | hhead
      · have hbehind : behind root href = [] := by rw [behind, hstrip]; rfl
        rw [hbehind, decodeHrefPath_nil, List.append_nil, List.append_nil]
      · obtain ⟨n, hn⟩ := takeWhile_slash rest
        have hne : n ≠ 0 := by
          rintro rfl
          obtain ⟨tail, rfl⟩ := List.head?_eq_some_iff.mp hhead
          simp at hn
        rw [hn, List.append_assoc, decodeHrefPath_append_slashes _ _ hne]

/-! ## Nothing decodes to nothing -/

lemma percentDecode_ne_nil (b : UInt8) (bs : List UInt8) : percentDecode (b :: bs) ≠ [] := by
  rw [percentDecode.eq_def]
  dsimp only
  repeat' split
  all_goals exact List.cons_ne_nil _ _

lemma decodeUtf8Lossy_ne_nil (b : UInt8) (bs : List UInt8) : decodeUtf8Lossy (b :: bs) ≠ [] := by
  rw [decodeUtf8Lossy.eq_def]
  dsimp only
  repeat' split
  all_goals exact List.cons_ne_nil _ _

lemma decodeHrefPath_eq_nil {s : Str} : decodeHrefPath s = [] ↔ s = [] := by
  refine ⟨fun h => ?_, fun h => by rw [h, decodeHrefPath_nil]⟩
  cases s with
  | nil => rfl
  | cons c s =>
      obtain ⟨b, bs, hb⟩ := List.exists_cons_of_ne_nil (String.utf8EncodeChar_ne_nil (c := c))
      rw [decodeHrefPath, List.flatMap_cons, hb, List.cons_append] at h
      obtain ⟨d, ds, hd⟩ := List.exists_cons_of_ne_nil
        (percentDecode_ne_nil b (bs ++ s.flatMap String.utf8EncodeChar))
      rw [hd] at h
      exact absurd h (decodeUtf8Lossy_ne_nil d ds)

/-- `parse_propfind` in these words. -/
lemma relPath_eq : relPath root current href =
    if Skipped root current href then none else some (decodeHrefPath (behind root href)) := by
  have hiff : (decodeHrefPath (behind root href) = [] ∨ trimEndSlash href = trimEndSlash root ∨
      trimEndSlash href = trimEndSlash current) ↔ Skipped root current href :=
    or_congr_left decodeHrefPath_eq_nil
  rw [relPath]
  exact if_congr hiff rfl rfl

lemma behind_nil (root : Str) : behind root [] = [] := by
  have h := front_append_behind root []
  exact (List.append_eq_nil_iff.mp h).2

lemma relPath_nil : relPath root current [] = none := by
  rw [relPath_eq, if_pos (.inl (behind_nil root))]

/-! ## Two spellings -/

/-- The end of a response depends on its href through `relPath` only. -/
lemma closed_href (enc : Str → Str) (root current : Str) (st : ParseState) :
    ∃ f : Option Str → List RemoteEntry × List Str, ∀ href,
    (({ st with href := href }.closed enc root current "response".toList).files,
      ({ st with href := href }.closed enc root current "response".toList).dirs) =
        f (relPath root current href) := by
  by_cases hin : st.inResponse = true
  · refine ⟨fun rel? => rel?.elim (st.files, st.dirs) (fun rel =>
        if st.isCollection then
          let subUrl := joinRemotePath enc root (trimEndSlash rel)
          (st.files ++ [{ path := trimEndSlash rel, etag := st.etag, size := 0,
                          fileId := st.fileId, isDir := true }],
            st.dirs ++ [if subUrl.getLast? = some '/' then subUrl else subUrl ++ ['/']])
        else (st.files ++ [{ path := rel, etag := st.etag, size := st.size, fileId := st.fileId,
                             isDir := false }], st.dirs)), fun href => ?_⟩
    rw [ParseState.closed, if_pos ⟨rfl, hin⟩]
    by_cases hnil : href = []
    · rw [if_pos hnil, hnil, relPath_nil]
      rfl
    · rw [if_neg hnil]
      cases relPath root current href with
      | none => rfl
      | some rel => by_cases hcoll : st.isCollection = true <;> simp [hcoll]
  · refine ⟨fun _ => (st.files, st.dirs), fun href => ?_⟩
    rw [ParseState.closed, if_neg (fun h => hin h.2)]

/-- A response that is no collection shows it. -/
lemma files_closed (href : Str) :
    ({ inResponse := true, href := href : ParseState }.closed enc root current
      "response".toList).files.map RemoteEntry.path = (relPath root current href).toList := by
  rw [ParseState.closed, if_pos ⟨rfl, rfl⟩]
  by_cases hnil : href = []
  · rw [if_pos hnil, hnil, relPath_nil]
    rfl
  · rw [if_neg hnil]
    cases relPath root current href <;> rfl

lemma alike_iff_relPath :
    Alike enc root current href href' ↔ relPath root current href = relPath root current href' := by
  constructor
  · intro h
    have hfiles := congrArg (List.map RemoteEntry.path) (h { inResponse := true }).1
    rw [files_closed, files_closed] at hfiles
    revert hfiles
    cases relPath root current href <;> cases relPath root current href' <;> simp
  · intro h st
    obtain ⟨f, hf⟩ := closed_href enc root current st
    exact Prod.mk.inj ((hf href).trans ((congrArg f h).trans (hf href').symm))

/-- Two hrefs come to the same if both are skipped, or neither is and what is left decodes to the
same text. -/
lemma alike_iff_behind : Alike enc root current href href' ↔
    (Skipped root current href ∧ Skipped root current href') ∨
    (¬ Spelled root current href ∧ ¬ Spelled root current href' ∧
      decodeHrefPath (behind root href) = decodeHrefPath (behind root href')) := by
  rw [alike_iff_relPath, relPath_eq, relPath_eq]
  constructor
  · intro h
    by_cases hs : Skipped root current href
    · rw [if_pos hs] at h
      split at h
      · rename_i hs'
        exact .inl ⟨hs, hs'⟩
      · cases h
    · rw [if_neg hs] at h
      split at h
      · cases h
      · rename_i hs'
        exact .inr ⟨fun hsp => hs (.inr hsp), fun hsp => hs' (.inr hsp), Option.some.inj h⟩
  · rintro (⟨hs, hs'⟩ | ⟨hsp, hsp', hbehind⟩)
    · rw [if_pos hs, if_pos hs']
    · have hnil : behind root href = [] ↔ behind root href' = [] := by
        rw [← decodeHrefPath_eq_nil, hbehind, decodeHrefPath_eq_nil]
      have hskipped : Skipped root current href ↔ Skipped root current href' :=
        or_congr hnil (iff_of_false hsp hsp')
      rw [hbehind]
      exact if_congr hskipped rfl rfl

/-- Of hrefs that are cut between two characters, what is left decodes alike exactly if what is
taken off does. -/
lemma behind_alike_iff (hdecode : decodeHrefPath href = decodeHrefPath href')
    (hwhole : CutWhole root href) (hwhole' : CutWhole root href') :
    decodeHrefPath (behind root href) = decodeHrefPath (behind root href') ↔
      decodeHrefPath (front root href) = decodeHrefPath (front root href') := by
  have hparts : decodeHrefPath (front root href) ++ decodeHrefPath (behind root href) =
      decodeHrefPath (front root href') ++ decodeHrefPath (behind root href') := by
    rw [← hwhole, ← hwhole', hdecode]
  constructor
  · intro h
    rw [h] at hparts
    exact List.append_cancel_right hparts
  · intro h
    rw [h] at hparts
    exact List.append_cancel_left hparts

/-- A root that ends inside a character: the two hrefs decode to the same text, and what is left of
them does not. -/
theorem cut_not_alike :
    decodeHrefPath "/dav/100%zz".toList = decodeHrefPath "/dav/100%25zz".toList ∧
      ¬ Alike id "/dav/100%/".toList "/dav/100%/".toList "/dav/100%zz".toList
        "/dav/100%25zz".toList := by
  refine ⟨by decide +kernel, fun h => ?_⟩
  have hfiles := congrArg (List.map RemoteEntry.path) (h { inResponse := true }).1
  revert hfiles
  decide +kernel

end OwncloudSync
