import OwncloudSync.Engine.Requests
import OwncloudSync.Lib.Text
import Mathlib.Data.List.TakeWhile
import Mathlib.Tactic.Common

/-!
# Where the bearer token goes

Which exchanges keep every request with the token at the scheme, host and port of `space_root`
(`confined_iff`).  A URL made by `join_remote_path` has the origin of the space whatever is pushed
to it.  Two requests have not:

**The PATCH of an upload** goes wherever the `Location` header says, be it absolute or glued to the
host name.

**The MKCOL of an ancestor** is the reference `Url::join` makes of a beginning of the path below the
space, and such a text may be a whole URL: with the other web scheme, as `http:evil.com`, or with the
scheme of the space and two slashes, as `https://evil.com` (a name of nothing but a tab is an empty
segment).  A longer ancestor of a whole URL is one too, with the same host, so the first of them
decides (`parents_confined_iff`).
-/

namespace OwncloudSync

open LexicalPath

/-- The characters of the path of a URL: none that the parser ignores or takes for a slash. -/
def PlainText (s : Str) : Prop := ∀ c ∈ s, ' ' < c ∧ c ≠ '\\'

/-- The slashes after the scheme. -/
def slashesOf (text : Str) : Str :=
  (((tidy text).dropWhile (· ≠ ':')).tail).takeWhile (fun c => c ∈ ['/', '\\'])

/-- The reference is a URL of its own: it has another web scheme, or an authority. -/
def isWhole (spaceRoot : Url) (ref : Str) : Bool :=
  isWebText ref && (schemeOf ref ≠ spaceRoot.origin.scheme || 2 ≤ (slashesOf ref).length)

/-- What the engine relies on: the space is a web URL, paths and segments are encoded, the origin of a
web URL is what its scheme and its authority name, and a reference is relative unless it is a whole
URL. -/
structure UrlLaws (crate : UrlCrate) (spaceRoot : Url) : Prop where
  web : spaceRoot.isWeb = true
  root_plain : PlainText spaceRoot.path
  encode_plain : ∀ s, PlainText (crate.encode s)
  authority_scheme : ∀ scheme authority o, crate.authority scheme authority = some o →
    o.scheme = scheme
  /-- a web URL has a host -/
  authority_empty : ∀ scheme, crate.authority scheme [] = none
  parse_origin : ∀ text, isWebText text = true →
    (crate.parse text).map Url.origin = crate.authority (schemeOf text) (authorityOf text)
  join_relative : ∀ ref u, PlainText ref → ref.head? ≠ some '/' → isWhole spaceRoot ref = false →
    crate.join spaceRoot ref = some u → u.isWeb = true → u.origin = spaceRoot.origin
  /-- with the scheme of the space and no authority, it is a path -/
  join_same : ∀ ref, PlainText ref → isWebText ref = true → isWhole spaceRoot ref = false →
    ∃ u, crate.join spaceRoot ref = some u ∧ u.isWeb = true
  join_whole : ∀ ref, PlainText ref → isWhole spaceRoot ref = true →
    crate.join spaceRoot ref = crate.parse ref

/-- If the text names an origin, it is the one of the space. -/
def NamesOnly (crate : UrlCrate) (spaceRoot : Url) (text : Str) : Prop :=
  ∀ o, crate.authority (schemeOf text) (authorityOf text) = some o → o = spaceRoot.origin

/-- The first of the references that is a whole URL names no origin but the one of the space, unless
an MKCOL before it fails.  The first reference has the number `i`. -/
def WholeStays (crate : UrlCrate) (spaceRoot : Url) (mkcol : ℕ → Option ℕ) (refs : List Str)
    (i : ℕ) : Prop :=
  ∀ pre ref post, refs = pre ++ ref :: post → (∀ r ∈ pre, isWhole spaceRoot r = false) →
    isWhole spaceRoot ref = true → (∀ j < pre.length, mkcolSucceeds (mkcol (i + j)) = true) →
    NamesOnly crate spaceRoot ref

variable {crate : UrlCrate} {spaceRoot remote : Url} {a : Answers} {request : Request}

/-! ## Requests below the space -/

lemma mem_sent {m : Method} {u : Url} :
    request ∈ sent m u ↔ u.isWeb = true ∧ request = ⟨m, u⟩ := by
  unfold sent
  split <;> simp_all

lemma origin_of_sent {m : Method} {u : Url} {o : Origin} (hu : u.origin = o)
    (h : request ∈ sent m u) : request.url.origin = o := by
  rw [(mem_sent.mp h).2]
  exact hu

lemma collectionUrl_origin (u : Url) : (collectionUrl u).origin = u.origin := by
  unfold collectionUrl Url.setPath
  split <;> rfl

lemma collectionUrl_isWeb (u : Url) : (collectionUrl u).isWeb = u.isWeb := by
  unfold Url.isWeb
  rw [collectionUrl_origin]

/-! ## Texts of URLs -/

lemma PlainText.start {s t : Str} (h : PlainText t) (hs : s <+: t) : PlainText s :=
  fun c hc => h c (hs.subset hc)

lemma tidy_plain {text : Str} (h : PlainText text) : tidy text = text := by
  have hkeep : ∀ s : Str, (∀ c ∈ s, ' ' < c) → s.dropWhile (· ≤ ' ') = s := by
    intro s hs
    cases s with
    | nil => rfl
    | cons c s =>
        refine List.dropWhile_cons_of_neg ?_
        simpa using hs c List.mem_cons_self
  have hfree : ∀ c ∈ text, decide (c ∉ ['\t', '\n', '\r']) = true := by
    intro c hc
    have hlt := (h c hc).1
    simp only [decide_eq_true_eq, List.mem_cons, List.not_mem_nil, or_false]
    rintro (rfl | rfl | rfl) <;> revert hlt <;> decide
  rw [tidy, hkeep text (fun c hc => (h c hc).1),
    hkeep _ (fun c hc => (h c (List.mem_reverse.mp hc)).1), List.reverse_reverse]
  exact List.filter_eq_self.mpr hfree

section Cut

variable {scheme rest more : Str}

lemma takeWhile_colon (rest : Str) (h : ':' ∉ scheme) :
    (scheme ++ ':' :: rest).takeWhile (· ≠ ':') = scheme ∧
      ((scheme ++ ':' :: rest).dropWhile (· ≠ ':')).tail = rest := by
  have hall : ∀ c ∈ scheme, decide (c ≠ ':') = true := by
    intro c hc
    simp only [decide_eq_true_eq]
    rintro rfl
    exact h hc
  rw [List.takeWhile_append_of_pos hall, List.dropWhile_append_of_pos hall]
  simp

/-- The parts of a text that is cut at its first colon. -/
lemma parts_cut (hplain : PlainText (scheme ++ ':' :: rest)) (h : ':' ∉ scheme) :
    schemeOf (scheme ++ ':' :: rest) = scheme.map Char.toLower ∧
      slashesOf (scheme ++ ':' :: rest) = rest.takeWhile (fun c => c ∈ ['/', '\\']) ∧
      authorityOf (scheme ++ ':' :: rest) =
        (rest.dropWhile (fun c => c ∈ ['/', '\\'])).takeWhile
          (fun c => c ∉ ['/', '\\', '?', '#']) := by
  obtain ⟨htake, hdrop⟩ := takeWhile_colon rest h
  rw [schemeOf, slashesOf, authorityOf, tidy_plain hplain, htake, hdrop]
  exact ⟨rfl, rfl, rfl⟩

/-- What comes behind a host changes neither the slashes before it nor the host. -/
lemma host_append (more : Str) (h : (rest.dropWhile (fun c => c ∈ ['/', '\\'])).takeWhile
      (fun c => c ∉ ['/', '\\', '?', '#']) ≠ []) :
    (rest ++ '/' :: more).takeWhile (fun c => c ∈ ['/', '\\']) =
        rest.takeWhile (fun c => c ∈ ['/', '\\']) ∧
      ((rest ++ '/' :: more).dropWhile (fun c => c ∈ ['/', '\\'])).takeWhile
          (fun c => c ∉ ['/', '\\', '?', '#']) =
        (rest.dropWhile (fun c => c ∈ ['/', '\\'])).takeWhile
          (fun c => c ∉ ['/', '\\', '?', '#']) := by
  have hne : rest.dropWhile (fun c => c ∈ ['/', '\\']) ≠ [] := by
    intro hnil
    rw [hnil] at h
    exact h rfl
  have hlen : (rest.takeWhile (fun c => c ∈ ['/', '\\'])).length ≠ rest.length := by
    intro hlen
    have hall := List.takeWhile_append_dropWhile (p := fun c => c ∈ ['/', '\\']) (l := rest)
    have hsum := congrArg List.length hall
    rw [List.length_append, hlen] at hsum
    exact hne (List.length_eq_zero_iff.mp (by omega))
  rw [List.takeWhile_append, if_neg hlen, List.dropWhile_append, if_neg (by simpa using hne),
    List.takeWhile_append]
  refine ⟨rfl, ?_⟩
  split
  · rename_i hfull
    have hstop : ('/' :: more).takeWhile (fun c => c ∉ ['/', '\\', '?', '#']) = [] := by simp
    rw [hstop, List.append_nil]
    exact (List.takeWhile_prefix _).eq_of_length hfull |>.symm
  · rfl

end Cut

/-- A web scheme has no slash in it, so it is that of every part up to a slash. -/
lemma isWebText_of_append {text more : Str} (hplain : PlainText (text ++ '/' :: more))
    (h : isWebText (text ++ '/' :: more) = true) :
    isWebText text = true ∧ schemeOf (text ++ '/' :: more) = schemeOf text := by
  have hweb := h
  rw [isWebText, tidy_plain hplain] at hweb
  simp only [Bool.and_eq_true, decide_eq_true_eq, Bool.or_eq_true] at hweb
  obtain ⟨hcolon, hscheme⟩ := hweb
  have hmem : ':' ∈ text := by
    by_contra hno
    have hall : ∀ c ∈ text ++ ['/'], decide (c ≠ ':') = true := by
      intro c hc
      simp only [decide_eq_true_eq]
      rintro rfl
      simp [hno] at hc
    have hslash : '/' ∈ schemeOf (text ++ '/' :: more) := by
      have hsplit : text ++ '/' :: more = (text ++ ['/']) ++ more := by simp
      rw [schemeOf, tidy_plain hplain, hsplit, List.takeWhile_append_of_pos hall]
      simp only [List.map_append, List.mem_append]
      exact .inl (.inr (by decide))
    rcases hscheme with hs | hs <;> rw [hs] at hslash <;> revert hslash <;> decide
  obtain ⟨scheme, rest, rfl, hno⟩ := List.eq_append_cons_of_mem hmem
  have hshort := hplain.start (List.prefix_append _ _)
  have hsame : schemeOf (scheme ++ ':' :: rest ++ '/' :: more) = schemeOf (scheme ++ ':' :: rest) := by
    rw [(parts_cut hshort hno).1, List.append_assoc, List.cons_append]
    rw [List.append_assoc, List.cons_append] at hplain
    exact (parts_cut hplain hno).1
  refine ⟨?_, hsame⟩
  rw [isWebText, tidy_plain hshort, ← hsame]
  simp only [Bool.and_eq_true, decide_eq_true_eq, Bool.or_eq_true]
  exact ⟨hmem, hscheme⟩

lemma isWebText_of_isWhole {text : Str} (h : isWhole spaceRoot text = true) :
    isWebText text = true := by
  rw [isWhole, Bool.and_eq_true] at h
  exact h.1

/-- A longer text than a URL with a host is one too, with the same host. -/
lemma isWhole_append {text more : Str} (hplain : PlainText (text ++ '/' :: more))
    (h : isWhole spaceRoot text = true) (hhost : authorityOf text ≠ []) :
    isWhole spaceRoot (text ++ '/' :: more) = true ∧
      schemeOf (text ++ '/' :: more) = schemeOf text ∧
      authorityOf (text ++ '/' :: more) = authorityOf text := by
  have hshort := hplain.start (List.prefix_append _ _)
  have hweb := isWebText_of_isWhole h
  have hmem : ':' ∈ text := by
    rw [isWebText, tidy_plain hshort] at hweb
    simp only [Bool.and_eq_true, decide_eq_true_eq] at hweb
    exact hweb.1
  obtain ⟨scheme, rest, rfl, hno⟩ := List.eq_append_cons_of_mem hmem
  obtain ⟨hscheme, hslashes, hauthority⟩ := parts_cut hshort hno
  rw [hauthority] at hhost
  obtain ⟨htake, hdrop⟩ := host_append more hhost
  have htext : scheme ++ ':' :: rest ++ '/' :: more = scheme ++ ':' :: (rest ++ '/' :: more) := by
    rw [List.append_assoc, List.cons_append]
  rw [htext] at hplain ⊢
  obtain ⟨hscheme', hslashes', hauthority'⟩ := parts_cut hplain hno
  have hsame : schemeOf (scheme ++ ':' :: (rest ++ '/' :: more)) = schemeOf (scheme ++ ':' :: rest) :=
    hscheme'.trans hscheme.symm
  refine ⟨?_, hsame, ?_⟩
  · rw [isWhole, isWebText, tidy_plain hshort, hslashes] at h
    rw [isWhole, isWebText, tidy_plain hplain, hslashes', htake, hsame]
    simpa using h
  · rw [hauthority', hdrop, hauthority]

/-! ## The ancestors of a path -/

lemma mem_pathText {segs : List Str} {c : Char} (h : c ∈ pathText segs) :
    c = '/' ∨ ∃ s ∈ segs, c ∈ s := by
  obtain ⟨s, hs, hc⟩ := List.mem_flatMap.mp h
  exact (List.mem_cons.mp hc).imp_right (fun hc => ⟨s, hs, hc⟩)

lemma mem_appendSegment {segs : List Str} {s text : Str} (h : s ∈ appendSegment segs text) :
    s ∈ segs ∨ s = text := by
  unfold appendSegment at h
  split at h
  · exact .inr (List.mem_singleton.mp h)
  · exact (List.mem_append.mp h).imp_right List.mem_singleton.mp

/-- A segment is one of the space, or empty, or encoded. -/
lemma mem_pushSegment {enc : Str → Str} {segs : List Str} {s name : Str}
    (h : s ∈ pushSegment enc segs name) : s ∈ segs ∨ s = [] ∨ ∃ name, s = enc name := by
  unfold pushSegment at h
  split_ifs at h
  · exact .inl h
  · exact (mem_appendSegment h).imp_right .inl
  · rcases List.mem_append.mp h with h | h
    · exact .inl (List.mem_of_mem_dropLast h)
    · exact .inr (.inl (List.mem_singleton.mp h))
  · exact (mem_appendSegment h).imp_right (fun h => .inr ⟨_, h⟩)

lemma mem_joinSegments {enc : Str → Str} {segs : List Str} {rel s : Str}
    (h : s ∈ joinSegments enc segs rel) : s ∈ segs ∨ s = [] ∨ ∃ name, s = enc name := by
  have hpopped : ∀ s ∈ popIfEmpty segs, s ∈ segs := by
    intro s hs
    unfold popIfEmpty at hs
    split at hs
    · exact List.mem_of_mem_dropLast hs
    · exact hs
  have hpushed : ∀ (names : List Str) (segs' : List Str),
      s ∈ names.foldl (pushSegment enc) segs' → s ∈ segs' ∨ s = [] ∨ ∃ name, s = enc name := by
    intro names
    induction names with
    | nil => exact fun _ hs => .inl hs
    | cons name names ih =>
        intro segs' hs
        rcases ih _ hs with hs | hs
        · exact mem_pushSegment hs
        · exact .inr hs
  unfold joinSegments at h
  dsimp only at h
  split at h
  · rcases mem_pushSegment h with h | h
    · exact (hpushed _ _ h).imp_left (hpopped s)
    · exact .inr h
  · exact (hpushed _ _ h).imp_left (hpopped s)

/-- The URL of a path is a plain text. -/
lemma UrlLaws.plain_remote (h : UrlLaws crate spaceRoot) (rel : Str) :
    PlainText (remoteUrl crate spaceRoot rel).path := by
  intro c hc
  rcases mem_pathText hc with rfl | ⟨s, hs, hc⟩
  · decide
  · rcases mem_joinSegments hs with hs | rfl | ⟨name, rfl⟩
    · have hsub := Text.sublist_of_mem_splitOn (List.mem_of_mem_tail hs)
      exact h.root_plain c (hsub.subset hc)
    · cases hc
    · exact h.encode_plain name c hc

/-- The path of a file below the space. -/
def belowSpace (spaceRoot remote : Url) : Str :=
  trimStartSlash ((stripPrefix (trimEndSlash spaceRoot.path) remote.path).getD remote.path)

lemma UrlLaws.plain_below (h : UrlLaws crate spaceRoot) (rel : Str) :
    PlainText (belowSpace spaceRoot (remoteUrl crate spaceRoot rel)) := by
  have hsuffix : belowSpace spaceRoot (remoteUrl crate spaceRoot rel) <:+
      (remoteUrl crate spaceRoot rel).path := by
    unfold belowSpace trimStartSlash
    refine (List.dropWhile_suffix _).trans ?_
    cases hstrip : stripPrefix (trimEndSlash spaceRoot.path) (remoteUrl crate spaceRoot rel).path with
    | none => exact List.suffix_refl _
    | some rest =>
        rw [Option.getD_some, eq_append_of_stripPrefix hstrip]
        exact List.suffix_append _ _
  exact fun c hc => h.plain_remote rel c (hsuffix.subset hc)

lemma head_trimStartSlash (s : Str) : (trimStartSlash s).head? ≠ some '/' := by
  intro h
  have hhead := List.head?_dropWhile_not (· == '/') s
  unfold trimStartSlash at h
  rw [h] at hhead
  cases hhead

/-- An ancestor begins the path below the space. -/
lemma ancestorRef_prefix {ref : Str} (h : ref ∈ ancestorRefs spaceRoot remote) :
    ref <+: belowSpace spaceRoot remote := by
  simp only [ancestorRefs, List.mem_map, List.mem_range] at h
  obtain ⟨i, hi, rfl⟩ := h
  have hwhole : List.intercalate ['/'] ((belowSpace spaceRoot remote).splitOn '/') =
      belowSpace spaceRoot remote := List.intercalate_splitOn '/'
  have hsplit := List.take_append_drop (i + 1) ((belowSpace spaceRoot remote).splitOn '/')
  conv_rhs => rw [← hwhole, ← hsplit]
  have hlen : i + 1 < ((belowSpace spaceRoot remote).splitOn '/').length := by
    have := hi
    simp only [belowSpace]
    omega
  rw [Text.intercalate_append]
  · exact List.prefix_append _ _
  · intro hnil
    have hzero := congrArg List.length hnil
    rw [List.length_take, List.length_nil] at hzero
    omega
  · intro hnil
    have hzero := congrArg List.length hnil
    rw [List.length_drop, List.length_nil] at hzero
    omega

/-- Each ancestor goes on where a shorter one ends. -/
lemma ancestorRefs_pairwise (spaceRoot remote : Url) :
    (ancestorRefs spaceRoot remote).Pairwise (fun r r' => ∃ more, r' = r ++ '/' :: more) := by
  simp only [ancestorRefs, List.pairwise_map]
  refine List.pairwise_lt_range.imp_of_mem ?_
  intro i j hi hj hlt
  have hj := List.mem_range.mp hj
  generalize (trimStartSlash ((stripPrefix (trimEndSlash spaceRoot.path) remote.path).getD
    remote.path)).splitOn '/' = parts at hj
  have hsplit : parts.take (j + 1) = parts.take (i + 1) ++ (parts.take (j + 1)).drop (i + 1) := by
    have hshort := List.take_append_drop (i + 1) (parts.take (j + 1))
    rwa [List.take_take, Nat.min_eq_left (by omega), eq_comm] at hshort
  refine ⟨['/'].intercalate ((parts.take (j + 1)).drop (i + 1)), ?_⟩
  conv_lhs => rw [hsplit]
  refine Text.intercalate_append ?_ ?_
  · intro hnil
    have hzero := congrArg List.length hnil
    rw [List.length_take, List.length_nil] at hzero
    omega
  · intro hnil
    have hzero := congrArg List.length hnil
    rw [List.length_drop, List.length_take, List.length_nil] at hzero
    omega

/-! ## The MKCOLs of an upload -/

lemma UrlLaws.parse_names (h : UrlLaws crate spaceRoot) {text : Str} {o : Origin}
    (hweb : isWebText text = true)
    (ho : crate.authority (schemeOf text) (authorityOf text) = some o) :
    ∃ u, crate.parse text = some u ∧ u.origin = o ∧ u.isWeb = true := by
  have hparse := h.parse_origin text hweb
  rw [ho, Option.map_eq_some_iff] at hparse
  obtain ⟨u, hu, hou⟩ := hparse
  refine ⟨u, hu, hou, ?_⟩
  have hscheme : u.origin.scheme = schemeOf text := by
    rw [hou]
    exact h.authority_scheme _ _ o ho
  simp only [isWebText, Bool.and_eq_true] at hweb
  simpa [Url.isWeb, hscheme] using hweb.2

/-- What a web text that parses names. -/
lemma UrlLaws.authority_of_parse (h : UrlLaws crate spaceRoot) {text : Str} {u : Url}
    (hweb : isWebText text = true) (hu : crate.parse text = some u) :
    crate.authority (schemeOf text) (authorityOf text) = some u.origin := by
  have hparse := h.parse_origin text hweb
  rw [hu] at hparse
  exact hparse.symm

/-- A URL that parses has the origin of the space if the text names no other. -/
lemma UrlLaws.origin_of_parse (h : UrlLaws crate spaceRoot) {text : Str} {u : Url}
    (hweb : isWebText text = true) (hnames : NamesOnly crate spaceRoot text)
    (hu : crate.parse text = some u) : u.origin = spaceRoot.origin :=
  hnames u.origin (h.authority_of_parse hweb hu)

lemma parents_origin {mkcol : ℕ → Option ℕ} {refs : List Str} {i : ℕ}
    (hrefs : ∀ ref ∈ refs, ∀ u, crate.join spaceRoot ref = some u → u.isWeb = true →
      u.origin = spaceRoot.origin)
    (hreq : request ∈ (parentCollectionRequests crate spaceRoot mkcol refs i).1) :
    request.url.origin = spaceRoot.origin := by
  induction refs generalizing i with
  | nil => cases hreq
  | cons ref refs ih =>
      obtain ⟨hhead, htail⟩ := List.forall_mem_cons.mp hrefs
      simp only [parentCollectionRequests] at hreq
      split at hreq
      · cases hreq
      · rename_i u hu
        have hfirst : request ∈ sent .mkcol (collectionUrl u) →
            request.url.origin = spaceRoot.origin := by
          intro hs
          have hweb := (mem_sent.mp hs).1
          rw [collectionUrl_isWeb] at hweb
          exact origin_of_sent ((collectionUrl_origin u).trans (hhead u hu hweb)) hs
        split at hreq
        · rcases List.mem_append.mp hreq with hs | hs
          · exact hfirst hs
          · exact ih htail hs
        · exact hfirst hreq

/-- The first MKCOL is sent, whatever becomes of the others. -/
lemma mem_parents_first {mkcol : ℕ → Option ℕ} {ref : Str} {refs : List Str} {i : ℕ} {u : Url}
    (hu : crate.join spaceRoot ref = some u) (hweb : u.isWeb = true) :
    (⟨.mkcol, collectionUrl u⟩ : Request) ∈
      (parentCollectionRequests crate spaceRoot mkcol (ref :: refs) i).1 := by
  have hsent : (⟨.mkcol, collectionUrl u⟩ : Request) ∈ sent .mkcol (collectionUrl u) :=
    mem_sent.mpr ⟨(collectionUrl_isWeb u).trans hweb, rfl⟩
  simp only [parentCollectionRequests, hu]
  split
  · exact List.mem_append_left _ hsent
  · exact hsent

/-- A reference that cannot be joined, or not asked for, ends the loop without a request. -/
lemma parents_of_not_join {mkcol : ℕ → Option ℕ} {ref : Str} {refs : List Str} {i : ℕ}
    (h : ¬ ∃ u, crate.join spaceRoot ref = some u ∧ u.isWeb = true) :
    (parentCollectionRequests crate spaceRoot mkcol (ref :: refs) i).1 = [] := by
  cases hu : crate.join spaceRoot ref with
  | none => simp only [parentCollectionRequests, hu]
  | some u =>
      have huweb : u.isWeb = false := Bool.eq_false_iff.mpr (fun hweb => h ⟨u, hu, hweb⟩)
      simp only [parentCollectionRequests, hu, huweb, Bool.false_and, sent, collectionUrl_isWeb]
      rfl

section Parents

variable {mkcol : ℕ → Option ℕ} {ref : Str} {refs : List Str} {i : ℕ}

/-- What the loop is given: texts of URL paths, each the beginning of those behind it. -/
structure Nested (refs : List Str) : Prop where
  plain : ∀ ref ∈ refs, PlainText ref ∧ ref.head? ≠ some '/'
  longer : refs.Pairwise (fun r r' => ∃ more, r' = r ++ '/' :: more)

lemma Nested.tail (h : Nested (ref :: refs)) : Nested refs :=
  ⟨(List.forall_mem_cons.mp h.plain).2, (List.pairwise_cons.mp h.longer).2⟩

lemma wholeStays_of_isWhole (h : isWhole spaceRoot ref = true) :
    WholeStays crate spaceRoot mkcol (ref :: refs) i ↔ NamesOnly crate spaceRoot ref := by
  constructor
  · intro hstays
    exact hstays [] ref refs rfl (by simp) h (by simp)
  · intro hnames pre ref' post heq hpre _ _
    cases pre with
    | nil =>
        obtain ⟨rfl, -⟩ := List.cons.inj heq
        exact hnames
    | cons r pre =>
        obtain ⟨rfl, -⟩ := List.cons.inj heq
        rw [hpre _ List.mem_cons_self] at h
        cases h

lemma wholeStays_of_relative (h : isWhole spaceRoot ref = false) :
    WholeStays crate spaceRoot mkcol (ref :: refs) i ↔
      (mkcolSucceeds (mkcol i) = true → WholeStays crate spaceRoot mkcol refs (i + 1)) := by
  constructor
  · intro hstays hfirst pre ref' post heq hpre hwhole hmkcols
    refine hstays (ref :: pre) ref' post (by rw [heq]; rfl) ?_ hwhole ?_
    · exact List.forall_mem_cons.mpr ⟨h, hpre⟩
    · rintro (_ | j) hj
      · exact hfirst
      · rw [← Nat.add_assoc, Nat.add_right_comm]
        exact hmkcols j (Nat.lt_of_succ_lt_succ hj)
  · intro hstays pre ref' post heq hpre hwhole hmkcols
    cases pre with
    | nil =>
        obtain ⟨rfl, -⟩ := List.cons.inj heq
        rw [h] at hwhole
        cases hwhole
    | cons r pre =>
        obtain ⟨rfl, rfl⟩ := List.cons.inj heq
        refine hstays (hmkcols 0 (Nat.succ_pos _)) pre ref' post rfl
          (List.forall_mem_cons.mp hpre).2 hwhole (fun j hj => ?_)
        have hlater := hmkcols (j + 1) (Nat.succ_lt_succ hj)
        rwa [← Nat.add_assoc, Nat.add_right_comm] at hlater

/-- A reference that is not joined is no beginning of a whole URL. -/
lemma not_isWhole_of_join (h : UrlLaws crate spaceRoot) (hnested : Nested (ref :: refs))
    (hrel : isWhole spaceRoot ref = false)
    (hjoin : ¬ ∃ u, crate.join spaceRoot ref = some u ∧ u.isWeb = true) :
    ∀ r ∈ refs, isWhole spaceRoot r = false := by
  intro r hr
  obtain ⟨more, rfl⟩ := (List.pairwise_cons.mp hnested.longer).1 r hr
  by_contra hwhole
  have hplain := (hnested.plain _ (List.mem_cons_of_mem _ hr)).1
  have hweb := isWebText_of_isWhole (Bool.not_eq_false _ |>.mp hwhole)
  exact hjoin (h.join_same ref (hnested.plain _ List.mem_cons_self).1
    (isWebText_of_append hplain hweb).1 hrel)

lemma UrlLaws.nested_ancestorRefs (h : UrlLaws crate spaceRoot) (rel : Str) :
    Nested (ancestorRefs spaceRoot (remoteUrl crate spaceRoot rel)) where
  plain ref href := by
    have hprefix := ancestorRef_prefix href
    refine ⟨(h.plain_below rel).start hprefix, fun hslash => ?_⟩
    obtain ⟨rest, hrest⟩ := hprefix
    refine head_trimStartSlash ((stripPrefix (trimEndSlash spaceRoot.path)
      (remoteUrl crate spaceRoot rel).path).getD (remoteUrl crate spaceRoot rel).path) ?_
    rw [← belowSpace, ← hrest, List.head?_append, hslash]
    rfl
  longer := ancestorRefs_pairwise spaceRoot _

/-- **The MKCOLs of the ancestors** stay with the space exactly if the first of them that is a whole
URL does. -/
lemma parents_confined_iff (h : UrlLaws crate spaceRoot) (hnested : Nested refs) :
    (∀ request ∈ (parentCollectionRequests crate spaceRoot mkcol refs i).1,
      request.url.origin = spaceRoot.origin) ↔ WholeStays crate spaceRoot mkcol refs i := by
  induction refs generalizing i with
  | nil =>
      refine iff_of_true (fun _ hreq => absurd hreq List.not_mem_nil) ?_
      intro pre ref post heq
      cases pre <;> cases heq
  | cons ref refs ih =>
      obtain ⟨hplain, hhead⟩ := hnested.plain ref List.mem_cons_self
      cases hwhole : isWhole spaceRoot ref with
      | true =>
          rw [wholeStays_of_isWhole hwhole]
          have hweb := isWebText_of_isWhole hwhole
          have hjoin := h.join_whole ref hplain hwhole
          constructor
          · intro hall o ho
            obtain ⟨u, hu, rfl, huweb⟩ := h.parse_names hweb ho
            have hfirst := hall _ (mem_parents_first (hjoin.trans hu) huweb)
            rwa [collectionUrl_origin] at hfirst
          · intro hnames request hreq
            cases hparse : crate.parse ref with
            | none =>
                simp only [parentCollectionRequests, hjoin, hparse] at hreq
                cases hreq
            | some u =>
                -- the longer ones name the same
                refine parents_origin ?_ hreq
                intro r hr u' hu' _
                have hnamed := h.authority_of_parse hweb hparse
                have hhost : authorityOf ref ≠ [] := by
                  intro hnil
                  rw [hnil, h.authority_empty] at hnamed
                  cases hnamed
                rcases List.mem_cons.mp hr with rfl | hr
                · exact h.origin_of_parse hweb hnames (hjoin.symm.trans hu')
                · obtain ⟨more, rfl⟩ := (List.pairwise_cons.mp hnested.longer).1 r hr
                  have hlong := (hnested.plain _ (List.mem_cons_of_mem _ hr)).1
                  obtain ⟨hwhole', hscheme, hauthority⟩ := isWhole_append hlong hwhole hhost
                  refine h.origin_of_parse (isWebText_of_isWhole hwhole') ?_
                    ((h.join_whole _ hlong hwhole').symm.trans hu')
                  rw [NamesOnly, hscheme, hauthority]
                  exact hnames
      | false =>
          rw [wholeStays_of_relative hwhole]
          by_cases hjoin : ∃ u, crate.join spaceRoot ref = some u ∧ u.isWeb = true
          · obtain ⟨u, hu, huweb⟩ := hjoin
            have hown := h.join_relative ref u hplain hhead hwhole hu huweb
            have hfirst : ∀ request ∈ sent .mkcol (collectionUrl u),
                request.url.origin = spaceRoot.origin := fun request hs =>
              origin_of_sent ((collectionUrl_origin u).trans hown) hs
            simp only [parentCollectionRequests, hu, huweb, Bool.true_and]
            cases hmkcol : mkcolSucceeds (mkcol i) with
            | true =>
                simp only [if_true, List.forall_mem_append, forall_const]
                rw [ih hnested.tail]
                exact and_iff_right hfirst
            | false => exact iff_of_true hfirst (fun hfalse => absurd hfalse Bool.false_ne_true)
          · -- the loop ends here, and nothing behind it would be a whole URL
            have hlater := not_isWhole_of_join h hnested hwhole hjoin
            refine iff_of_true ?_ ?_
            · rw [parents_of_not_join hjoin]
              exact fun _ hreq => absurd hreq List.not_mem_nil
            · intro _ pre r post heq _ hr _
              rw [hlater r (by rw [heq]; simp)] at hr
              cases hr

end Parents

/-! ## The PATCH of an upload -/

/-- What stands before the end of a text is not trimmed. -/
lemma tidy_append {w t : Str} (hhead : ∃ c w', w = c :: w' ∧ ¬ c ≤ ' ')
    (hlast : ∃ w' c, w = w' ++ [c] ∧ ¬ c ≤ ' ')
    (hfilter : w.filter (fun c => c ∉ ['\t', '\n', '\r']) = w) :
    ∃ t', tidy (w ++ t) = w ++ t' := by
  have hstart : (w ++ t).dropWhile (· ≤ ' ') = w ++ t := by
    obtain ⟨c, w', rfl, hc⟩ := hhead
    simp [hc]
  have hend : (t.reverse ++ w.reverse).dropWhile (· ≤ ' ') =
      t.reverse.dropWhile (· ≤ ' ') ++ w.reverse := by
    obtain ⟨w', c, rfl, hc⟩ := hlast
    rw [List.dropWhile_append]
    split
    · rename_i hempty
      rw [List.isEmpty_iff.mp hempty]
      simp [hc]
    · rfl
  unfold tidy
  rw [hstart, List.reverse_append, hend, List.reverse_append, List.reverse_reverse,
    List.filter_append, hfilter]
  exact ⟨_, rfl⟩

lemma patchText_eq {u v : Url} (h : u.origin = v.origin) (location : Str) :
    patchText u location = patchText v location := by
  unfold patchText
  rw [h]

/-- The text of the PATCH URL begins with a web scheme. -/
lemma isWebText_patchText (hremote : remote.isWeb = true) (location : Str) :
    isWebText (patchText remote location) = true := by
  have hhttp : ∀ t, isWebText ("http://".toList ++ t) = true := by
    intro t
    obtain ⟨t', ht⟩ := tidy_append (w := "http://".toList) (t := t) ⟨_, _, rfl, by decide⟩
      ⟨"http:/".toList, '/', rfl, by decide⟩ (by decide)
    rw [isWebText, schemeOf, ht]
    rfl
  have hhttps : ∀ t, isWebText ("https://".toList ++ t) = true := by
    intro t
    obtain ⟨t', ht⟩ := tidy_append (w := "https://".toList) (t := t) ⟨_, _, rfl, by decide⟩
      ⟨"https:/".toList, '/', rfl, by decide⟩ (by decide)
    rw [isWebText, schemeOf, ht]
    rfl
  have hown : ∀ t, isWebText (remote.origin.scheme ++ "://".toList ++ t) = true := by
    intro t
    simp only [Url.isWeb, Bool.or_eq_true, decide_eq_true_eq] at hremote
    rcases hremote with hs | hs
    · rw [hs]; exact hhttp t
    · rw [hs]; exact hhttps t
  unfold patchText
  by_cases habs : "http://".toList <+: location ∨ "https://".toList <+: location
  · rw [if_pos habs]
    rcases habs with ⟨t, rfl⟩ | ⟨t, rfl⟩
    · exact hhttp t
    · exact hhttps t
  · rw [if_neg habs]
    cases remote.origin.port with
    | none => simpa only [List.append_assoc] using hown (remote.origin.host ++ location)
    | some port =>
        simpa only [List.append_assoc] using
          hown (remote.origin.host ++ ':' :: Nat.toDigits 10 port ++ location)

lemma tus_confined_iff (h : UrlLaws crate spaceRoot) (hremote : remote.origin = spaceRoot.origin) :
    (∀ request ∈ uploadTusRequests crate remote a, request.url.origin = spaceRoot.origin) ↔
      (a.readable = true → ∀ location, a.post = some (201, some location) →
        NamesOnly crate spaceRoot (patchText remote location)) := by
  have hweb : remote.isWeb = true := by
    have := h.web
    unfold Url.isWeb at this ⊢
    rwa [hremote]
  unfold uploadTusRequests
  constructor
  · intro hall hread location hpost o ho
    obtain ⟨u, hu, rfl, huweb⟩ := h.parse_names (isWebText_patchText hweb location) ho
    refine hall ⟨.patch, u⟩ (List.mem_append_right _ ?_)
    simp only [hpost, hread, if_true, hu]
    exact mem_sent.mpr ⟨huweb, rfl⟩
  · intro hnames request hreq
    rcases List.mem_append.mp hreq with hs | hs
    · exact origin_of_sent hremote hs
    · split at hs
      · rename_i location hpost
        split at hs
        · rename_i hread
          split at hs
          · rename_i u hu
            exact origin_of_sent (h.origin_of_parse (isWebText_patchText hweb location)
              (hnames hread location hpost) hu) hs
          · cases hs
        · cases hs
      · cases hs

lemma put_confined_iff (h : UrlLaws crate spaceRoot) (rel : Str) :
    (∀ request ∈ uploadPutRequests crate spaceRoot (remoteUrl crate spaceRoot rel) a,
      request.url.origin = spaceRoot.origin) ↔
    (a.readable = true → a.put = some 409 →
      WholeStays crate spaceRoot a.mkcol
        (ancestorRefs spaceRoot (remoteUrl crate spaceRoot rel)) 0) := by
  have hnested := h.nested_ancestorRefs rel
  have hremote : (remoteUrl crate spaceRoot rel).origin = spaceRoot.origin := rfl
  unfold uploadPutRequests
  by_cases hread : a.readable = true
  · by_cases hput : a.put = some 409
    · rw [if_pos hread, if_pos hput]
      constructor
      · intro hall _ _
        refine (parents_confined_iff h hnested).mp (fun request hreq => ?_)
        exact hall request (List.mem_append_right _ (List.mem_append_left _ hreq))
      · intro hparents request hreq
        have hmkcols := (parents_confined_iff h hnested).mpr (hparents hread hput)
        rcases List.mem_append.mp hreq with hs | hs
        · exact origin_of_sent hremote hs
        · rcases List.mem_append.mp hs with hs | hs
          · exact hmkcols request hs
          · split at hs
            · exact origin_of_sent hremote hs
            · cases hs
    · rw [if_pos hread, if_neg hput, List.append_nil]
      exact ⟨fun _ _ hc => absurd hc hput, fun _ request hreq => origin_of_sent hremote hreq⟩
  · simp [hread]

/-! ## Confinement -/

/-- Only an upload of a file has requests to other URLs than its own. -/
lemma task_sent {tusThreshold : UInt64} {isDir : Bool} {instr : SyncInstruction}
    (hup : (isDir, instr) ≠ (false, .upload))
    (hreq : request ∈ taskRequests crate spaceRoot remote tusThreshold a isDir instr) :
    ∃ m, request ∈ sent m remote := by
  unfold taskRequests at hreq
  split at hreq
  · exact ⟨_, hreq⟩
  · exact ⟨_, hreq⟩
  · cases hreq
  · exact absurd rfl hup
  · exact ⟨_, hreq⟩
  · split at hreq
    · exact ⟨_, hreq⟩
    · cases hreq
  · exact ⟨_, hreq⟩
  · cases hreq

namespace Exchange

/-- The file at the key is uploaded. -/
def Uploads (x : Exchange) (key : List Component) : Prop :=
  ∃ entries, discoverRemote x.crate.encode x.spaceRoot.path x.replies = .ok entries ∧
    x.planned entries key = (false, .upload)

/-- Every request goes to the scheme, host and port of the space. -/
def Confined (x : Exchange) : Prop :=
  ∀ request, x.Sends request → request.url.origin = x.spaceRoot.origin

/-- If the file at the key is uploaded, the `Location` it gets names no other origin, and if its PUT
is answered 409, the first ancestor of its path that is a whole URL names none. -/
def StaysHome (x : Exchange) (key : List Component) : Prop :=
  (x.answers key).readable = true →
    if x.tusThreshold ≤ (x.answers key).size then
      ∀ location, (x.answers key).post = some (201, some location) →
        NamesOnly x.crate x.spaceRoot (patchText (x.remote key) location)
    else
      (x.answers key).put = some 409 →
        WholeStays x.crate x.spaceRoot (x.answers key).mkcol
          (ancestorRefs x.spaceRoot (x.remote key)) 0

/-- The requests of every upload stay with the server. -/
def HomeBound (x : Exchange) : Prop := ∀ key, x.Uploads key → x.StaysHome key

lemma upload_confined_iff {x : Exchange} (h : UrlLaws x.crate x.spaceRoot)
    (key : List Component) :
    (∀ request ∈ uploadRequests x.crate x.spaceRoot (x.remote key) x.tusThreshold (x.answers key),
      request.url.origin = x.spaceRoot.origin) ↔ x.StaysHome key := by
  unfold uploadRequests StaysHome
  by_cases hsize : x.tusThreshold ≤ (x.answers key).size
  · rw [if_pos hsize, if_pos hsize]
    exact tus_confined_iff h rfl
  · rw [if_neg hsize, if_neg hsize]
    exact put_confined_iff h (relText key)

lemma staysHome_of_location {x : Exchange} {key : List Component} {location : Str}
    (hsize : x.tusThreshold ≤ (x.answers key).size)
    (hpost : (x.answers key).post = some (201, some location))
    (hnames : NamesOnly x.crate x.spaceRoot (patchText x.spaceRoot location)) :
    x.StaysHome key := by
  intro _
  rw [if_pos hsize]
  intro location' hlocation
  rw [hpost] at hlocation
  obtain rfl := Option.some.inj (Prod.mk.inj (Option.some.inj hlocation)).2
  have hown : (x.remote key).origin = x.spaceRoot.origin := rfl
  rwa [patchText_eq hown]

end Exchange

/-- The token stays with the space exactly if the `Location` headers and the ancestors do. -/
theorem confined_iff (x : Exchange) (h : UrlLaws x.crate x.spaceRoot) :
    x.Confined ↔ x.HomeBound := by
  constructor
  · rintro hconf key ⟨entries, hok, hplan⟩
    refine (Exchange.upload_confined_iff h key).mp (fun request hreq => ?_)
    refine hconf request (Or.inr ⟨entries, key, hok, ?_⟩)
    rw [Exchange.ofKey, hplan]
    exact hreq
  · rintro hhome request (hreq | ⟨entries, key, hok, hreq⟩)
    · obtain ⟨r, -, hs⟩ := List.mem_flatMap.mp hreq
      have hown : (x.spaceRoot.setPath r.1).origin = x.spaceRoot.origin := rfl
      exact origin_of_sent hown hs
    · by_cases hplan : x.planned entries key = (false, .upload)
      · rw [Exchange.ofKey, hplan] at hreq
        have hstays := hhome key ⟨entries, hok, hplan⟩
        exact (Exchange.upload_confined_iff h key).mpr hstays request hreq
      · obtain ⟨m, hs⟩ := task_sent hplan hreq
        have hown : (x.remote key).origin = x.spaceRoot.origin := rfl
        exact origin_of_sent hown hs

/-! ## A plain URL library -/

/-- Characters that need it are encoded, the exact digits apart. -/
def plainEncode (s : Str) : Str :=
  s.flatMap (fun c => if ' ' < c ∧ c ≠ '/' ∧ c ≠ '\\' then [c] else ['%', '2', '0'])

/-- Host and port behind the last `@`.  The default port is no port. -/
def plainAuthority (scheme authority : Str) : Option Origin :=
  let hostPort := (authority.reverse.takeWhile (· ≠ '@')).reverse
  let host := hostPort.takeWhile (· ≠ ':')
  let digits := (hostPort.dropWhile (· ≠ ':')).tail
  if host = [] then none
  else if digits = [] then some ⟨scheme, host, none⟩
  else
    match parseU64 digits with
    | none => none
    | some port =>
        if scheme = "https".toList ∧ port = 443 ∨ scheme = "http".toList ∧ port = 80 then
          some ⟨scheme, host, none⟩
        else some ⟨scheme, host, some port.toNat⟩

/-- `Url::parse` on the texts of the example. -/
def plainParse (text : Str) : Option Url :=
  if isWebText text then
    (plainAuthority (schemeOf text) (authorityOf text)).map (fun o => { origin := o, path := ['/'] })
  else none

/-- A reference that is a whole URL is parsed, any other is put behind the base. -/
def plainCrate : UrlCrate where
  encode := plainEncode
  parse := plainParse
  join base ref :=
    if isWhole base ref then plainParse ref else some (base.setPath (base.path ++ ref))
  authority := plainAuthority

lemma plainEncode_plain (s : Str) : PlainText (plainEncode s) := by
  intro d hd
  obtain ⟨c, -, hd⟩ := List.mem_flatMap.mp hd
  split at hd
  · rename_i hc
    rw [List.mem_singleton.mp hd]
    exact ⟨hc.1, hc.2.2⟩
  · simp only [List.mem_cons, List.not_mem_nil, or_false] at hd
    rcases hd with rfl | rfl | rfl <;> decide

lemma plainAuthority_scheme {scheme authority : Str} {o : Origin}
    (h : plainAuthority scheme authority = some o) : o.scheme = scheme := by
  simp only [plainAuthority] at h
  split at h
  · cases h
  · split at h
    · rw [← Option.some.inj h]
    · split at h
      · cases h
      · split at h <;> rw [← Option.some.inj h]

lemma plainCrate_laws {spaceRoot : Url} (hweb : spaceRoot.isWeb = true)
    (hplain : PlainText spaceRoot.path) : UrlLaws plainCrate spaceRoot where
  web := hweb
  root_plain := hplain
  encode_plain := plainEncode_plain
  authority_scheme _ _ _ h := plainAuthority_scheme h
  authority_empty _ := rfl
  parse_origin text htext := by
    simp only [plainCrate, plainParse, htext, if_true, Option.map_map]
    exact Option.map_id'
  join_relative ref u _ _ hrel hu _ := by
    simp only [plainCrate, hrel] at hu
    rw [← Option.some.inj hu]
    rfl
  join_same ref _ _ hrel := by
    refine ⟨spaceRoot.setPath (spaceRoot.path ++ ref), ?_, hweb⟩
    simp only [plainCrate, hrel]
    rfl
  join_whole ref _ hwhole := by
    simp only [plainCrate, hwhole, if_true]

/-! ## Four uploads -/

/-- One new file, the space empty, and one set of answers for everything. -/
def newUpload (file : Path) (tusThreshold : UInt64) (a : Answers) : Exchange where
  crate := plainCrate
  spaceRoot :=
    { origin := ⟨"https".toList, "ocis.example.com".toList, none⟩, path := "/dav/x/".toList }
  tusThreshold := tusThreshold
  localRoot := ["data".toList]
  host :=
    { freshHost ["data".toList] with
      listing := fun p =>
        if !p.isEmpty && p.isSuffixOf file then
          some { path := pathStr p, mtime := 0, size := 1, isDir := p != file }
        else none }
  replies := [.answer 207 []]
  answers _ := a

/-- The server answers the POST with 201 and a `Location`. -/
def located (location : Str) : Answers where
  readable := true
  size := 1
  setAside := true
  put := none
  mkcol _ := none
  post := some (201, some location)

/-- The server misses the parent of the file, and creates what it is asked for. -/
def parentMissing : Answers where
  readable := true
  size := 1
  setAside := true
  put := some 409
  mkcol _ := some 201
  post := none

lemma newUpload_discovered (file : Path) (tusThreshold : UInt64) (a : Answers) :
    let x := newUpload file tusThreshold a
    discoverRemote x.crate.encode x.spaceRoot.path x.replies = .ok [] := by
  simp [newUpload, discoverRemote, discoverLoop, parsePropfind, parseEvents, pushNew, enqueueNew]

/-- A `Location` that is a path on the server. -/
theorem located_confined :
    (newUpload ["a.txt".toList] 0 (located "/tus/upload/abc123".toList)).Confined := by
  rw [confined_iff _ (plainCrate_laws (by decide) (by simp [PlainText, newUpload]))]
  intro key _
  have hsize : (0 : UInt64) ≤ 1 := by decide
  have hown : plainAuthority (schemeOf "https://ocis.example.com/tus/upload/abc123".toList)
      (authorityOf "https://ocis.example.com/tus/upload/abc123".toList) =
        some ⟨"https".toList, "ocis.example.com".toList, none⟩ := by decide
  refine Exchange.staysHome_of_location hsize rfl ?_
  intro o ho
  exact Option.some.inj (ho.symm.trans hown)

/-- The token goes elsewhere with an absolute `Location`, with one that changes the host name, and
to a host that directories are named after. -/
theorem token_leaves :
    ¬ (newUpload ["a.txt".toList] 0 (located "https://evil.example/up".toList)).Confined ∧
    ¬ (newUpload ["a.txt".toList] 0 (located "@evil.example/up".toList)).Confined ∧
    ¬ (newUpload ["a.txt".toList, "http:evil.example".toList] 10 parentMissing).Confined ∧
    ¬ (newUpload ["a.txt".toList, "evil.example".toList, "\t".toList, "https:".toList] 10
      parentMissing).Confined := by
  refine ⟨fun h => ?_, fun h => ?_, fun h => ?_, fun h => ?_⟩
  · have hevil := h
      ⟨.patch, { origin := ⟨"https".toList, "evil.example".toList, none⟩, path := ['/'] }⟩
      (Or.inr ⟨[], [.normal "a.txt".toList], newUpload_discovered _ _ _, by decide⟩)
    revert hevil
    decide
  · have hevil := h
      ⟨.patch, { origin := ⟨"https".toList, "evil.example".toList, none⟩, path := ['/'] }⟩
      (Or.inr ⟨[], [.normal "a.txt".toList], newUpload_discovered _ _ _, by decide⟩)
    revert hevil
    decide
  · have hevil := h
      ⟨.mkcol, { origin := ⟨"http".toList, "evil.example".toList, none⟩, path := ['/'] }⟩
      (Or.inr ⟨[], [.normal "http:evil.example".toList, .normal "a.txt".toList],
        newUpload_discovered _ _ _, by decide⟩)
    revert hevil
    decide
  · have hevil := h
      ⟨.mkcol, { origin := ⟨"https".toList, "evil.example".toList, none⟩, path := ['/'] }⟩
      (Or.inr ⟨[], [.normal "https:".toList, .normal "\t".toList, .normal "evil.example".toList,
        .normal "a.txt".toList], newUpload_discovered _ _ _, by decide⟩)
    revert hevil
    decide

end OwncloudSync
