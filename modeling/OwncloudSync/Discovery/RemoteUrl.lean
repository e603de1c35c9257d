import OwncloudSync.Discovery.Encoding
import Mathlib.Tactic.Common

/-!
# The URL of a path

`join_remote_path` on the whole URL: the components of a relative path are pushed to the path segments
of `space_root`, and the rest of the URL stays.  The rules for a segment are those of the `url` crate:

* `.` and `..` are not pushed;
* **tab, line feed and carriage return are dropped**, wherever they stand in the segment;
* what is then `.` is an empty segment, and what is then `..` takes the segment before it away;
* everything else is percent-encoded and put behind the last segment, or in its place if the path was
  nothing but a slash.

For names without the three characters the way there and back is exact (`join_round_trip`).  For the
others it is not: two files whose names differ in such a character only have the same URL
(`join_ne_iff`).  And since a component ends at a slash only, a path with another separator is one
single segment (`separatorFree_iff`).
-/

namespace OwncloudSync

/-! ## URLs -/

/-- The path of a URL: its segments, each with a slash before it, or a text that has none. -/
inductive UrlPath where
  | segments (segs : List Str)
  | cannotBeABase (text : Str)
  deriving DecidableEq

/-- `url::Url`, in its parts. -/
structure ParsedUrl where
  scheme : Str
  authority : Option Str
  path : UrlPath
  query : Option Str
  fragment : Option Str
  deriving DecidableEq

/-- `url::ParseError`, as far as a join can give it. -/
inductive UrlParseError where
  | relativeUrlWithCannotBeABaseBase
  deriving DecidableEq

/-- `join_remote_path`. -/
def ParsedUrl.joinRemotePath (β : SegmentBytes) (spaceRoot : ParsedUrl) (rel : Str) :
    Except UrlParseError ParsedUrl :=
  match spaceRoot.path with
  | .cannotBeABase _ => .error .relativeUrlWithCannotBeABaseBase
  | .segments segs =>
      .ok { spaceRoot with path := .segments (joinSegments (encodeSegment β) segs rel) }

/-- What `parse_propfind` leaves of a path: without the path of the space and the slashes after it. -/
def below (root : List Str) (path : Str) : Str :=
  trimStartSlash ((stripPrefix (trimEndSlash (pathText root)) path).getD path)

/-! ## Names -/

/-- The name of a file: no slash in it, and neither `.` nor `..`. -/
structure EntryName (c : Str) : Prop where
  ne_nil : c ≠ []
  slash : '/' ∉ c
  dot : c ≠ ['.']
  dotdot : c ≠ ['.', '.']

/-- Without the three characters it is still a name. -/
structure Solid (c : Str) : Prop where
  ne_nil : cleaned c ≠ []
  dot : cleaned c ≠ ['.']
  dotdot : cleaned c ≠ ['.', '.']

/-- The three characters are not in it. -/
def TabFree (c : Str) : Prop := ∀ x ∈ c, isTabOrNewline x = false

instance (c : Str) : Decidable (TabFree c) := List.decidableBAll _ c

variable {β : SegmentBytes} {c : Str} {cs segs : List Str} {root : ParsedUrl}

lemma cleaned_eq_self : cleaned c = c ↔ TabFree c := by
  rw [cleaned, List.filter_eq_self, TabFree]
  simp

lemma EntryName.solid (h : EntryName c) (hfree : TabFree c) : Solid c := by
  have hself := cleaned_eq_self.mpr hfree
  exact ⟨hself.symm ▸ h.ne_nil, hself.symm ▸ h.dot, hself.symm ▸ h.dotdot⟩

/-! ## Pushing names -/

/-- The segments of the space that stay. -/
def rootSegments (segs : List Str) : List Str :=
  if popIfEmpty segs = [[]] then [] else popIfEmpty segs

lemma encodeSegment_ne_nil (h : c ≠ []) : encodeSegment β c ≠ [] := by
  intro hnil
  have hempty : encodeSegment β [] = [] := rfl
  exact h (encodeSegment_injective (hnil.trans hempty.symm))

lemma pushSegment_solid (hname : EntryName c) (hsolid : Solid c) :
    pushSegment (encodeSegment β) segs c = appendSegment segs (encodeSegment β (cleaned c)) := by
  rw [pushSegment, if_neg (not_or.mpr ⟨hname.dot, hname.dotdot⟩), if_neg hsolid.dot,
    if_neg hsolid.dotdot]

/-- Once there is a name, the next ones come behind it. -/
lemma foldl_pushSegment_append (hnames : ∀ c ∈ cs, EntryName c) (hsolid : ∀ c ∈ cs, Solid c)
    (hsegs : segs ≠ [[]]) : cs.foldl (pushSegment (encodeSegment β)) segs =
      segs ++ cs.map (fun c => encodeSegment β (cleaned c)) := by
  induction cs generalizing segs with
  | nil => simp
  | cons c cs ih =>
      obtain ⟨hc, hcs⟩ := List.forall_mem_cons.mp hnames
      obtain ⟨hsc, hscs⟩ := List.forall_mem_cons.mp hsolid
      have hne : segs ++ [encodeSegment β (cleaned c)] ≠ [[]] := by
        intro h
        have hsplit : segs ++ [encodeSegment β (cleaned c)] = [] ++ [[]] := h
        have hlast := (List.append_inj' hsplit rfl).2
        exact encodeSegment_ne_nil hsc.ne_nil (List.singleton_inj.mp hlast)
      rw [List.foldl_cons, pushSegment_solid hc hsc, appendSegment, if_neg hsegs, ih hcs hscs hne,
        List.append_assoc]
      rfl

/-- **What is pushed.** -/
lemma foldl_pushSegment (hnames : ∀ c ∈ cs, EntryName c) (hsolid : ∀ c ∈ cs, Solid c)
    (hne : cs ≠ []) : cs.foldl (pushSegment (encodeSegment β)) (popIfEmpty segs) =
      rootSegments segs ++ cs.map (fun c => encodeSegment β (cleaned c)) := by
  rw [rootSegments]
  split
  · -- the path is nothing but a slash: the first name takes its place
    rename_i hroot
    obtain ⟨c, cs, rfl⟩ := List.exists_cons_of_ne_nil hne
    obtain ⟨hc, hcs⟩ := List.forall_mem_cons.mp hnames
    obtain ⟨hsc, hscs⟩ := List.forall_mem_cons.mp hsolid
    have hfirst : [encodeSegment β (cleaned c)] ≠ [[]] := fun h =>
      encodeSegment_ne_nil hsc.ne_nil (List.singleton_inj.mp h)
    rw [List.foldl_cons, pushSegment_solid hc hsc, appendSegment, if_pos hroot,
      foldl_pushSegment_append hcs hscs hfirst]
    rfl
  · rename_i hroot
    exact foldl_pushSegment_append hnames hsolid hroot

/-- A path of names neither begins nor ends with a slash. -/
lemma ends_intercalate {ts : List Str} (hts : ∀ t ∈ ts, t ≠ [] ∧ '/' ∉ t) :
    (List.intercalate ['/'] ts).head? ≠ some '/' ∧
      (List.intercalate ['/'] ts).getLast? ≠ some '/' := by
  cases ts with
  | nil => simp
  | cons t ts =>
      rw [List.forall_mem_cons] at hts
      obtain ⟨ht, hts⟩ := hts
      constructor
      · obtain ⟨d, ds, rfl⟩ := List.exists_cons_of_ne_nil ht.1
        have hd : d ≠ '/' := fun h => ht.2 (h ▸ List.mem_cons_self)
        cases ts with
        | nil => simpa using hd
        | cons u ts =>
            rw [List.intercalate_cons_cons]
            simpa using hd
      · suffices hlast : ∃ x, (List.intercalate ['/'] (t :: ts)).getLast? = some x ∧ x ≠ '/' by
          obtain ⟨x, hx, hne⟩ := hlast
          rw [hx]
          exact fun h => hne (Option.some.inj h)
        induction ts generalizing t with
        | nil =>
            rw [List.intercalate_singleton, List.getLast?_eq_some_getLast ht.1]
            exact ⟨_, rfl, fun h => ht.2 (h ▸ List.getLast_mem ht.1)⟩
        | cons u ts ih =>
            rw [List.forall_mem_cons] at hts
            obtain ⟨x, hx, hne⟩ := ih u hts.1 hts.2
            rw [List.intercalate_cons_cons, List.getLast?_append, hx]
            exact ⟨x, rfl, hne⟩

/-- The components of a path, read off its text. -/
lemma segments_intercalate (hnames : ∀ c ∈ cs, EntryName c) (hne : cs ≠ []) :
    segments (List.intercalate ['/'] cs) = cs := by
  rw [segments, List.splitOn_intercalate '/' (fun c hc => (hnames c hc).slash) hne,
    List.filter_eq_self]
  intro c hc
  simpa using (hnames c hc).ne_nil

/-- **The URL of a path**, for names that stay names. -/
lemma joinRemotePath_intercalate (hpath : root.path = .segments segs)
    (hnames : ∀ c ∈ cs, EntryName c) (hsolid : ∀ c ∈ cs, Solid c) (hne : cs ≠ []) :
    root.joinRemotePath β (List.intercalate ['/'] cs) =
      .ok { root with
        path := .segments (rootSegments segs ++ cs.map (fun c => encodeSegment β (cleaned c))) } := by
  have hlast := (ends_intercalate (fun c hc => ⟨(hnames c hc).ne_nil, (hnames c hc).slash⟩)).2
  rw [ParsedUrl.joinRemotePath, hpath]
  dsimp only [joinSegments]
  rw [if_neg hlast, segments_intercalate hnames hne, foldl_pushSegment hnames hsolid hne]

lemma pathText_append (ss ts : List Str) : pathText (ss ++ ts) = pathText ss ++ pathText ts :=
  List.flatMap_append

lemma rootSegments_of_slash (hslash : segs.getLast? = some []) (h : segs ≠ [[], []]) :
    rootSegments segs = segs.dropLast := by
  have hlast : segs.dropLast ++ [[]] = segs := List.dropLast_append_getLast? _ hslash
  by_cases hlen : 2 ≤ segs.length
  · have hpop : popIfEmpty segs = segs.dropLast := if_pos ⟨hlen, hslash⟩
    rw [rootSegments, hpop, if_neg]
    intro hdrop
    rw [hdrop] at hlast
    exact h hlast.symm
  · have hone : segs = [[]] := by
      have hdrop : segs.dropLast = [] := by
        rw [← List.length_eq_zero_iff, List.length_dropLast]
        omega
      rw [hdrop] at hlast
      exact hlast.symm
    rw [hone]
    rfl

/-! ## Back again -/

/-- What stays of the space begins with its path, without the slashes at the end. -/
lemma pathText_rootSegments (segs : List Str) :
    ∃ n, pathText (rootSegments segs) = trimEndSlash (pathText segs) ++ List.replicate n '/' := by
  have hpopped : trimEndSlash (pathText (popIfEmpty segs)) = trimEndSlash (pathText segs) := by
    rw [popIfEmpty]
    split
    · rename_i h
      have hlast : segs.dropLast ++ [[]] = segs := List.dropLast_append_getLast? _ h.2
      have htext : pathText segs = pathText segs.dropLast ++ ['/'] := by
        have happend := pathText_append segs.dropLast [[]]
        rw [hlast] at happend
        exact happend
      rw [htext, trimEndSlash_concat]
    · rfl
  rw [rootSegments, ← hpopped]
  split
  · rename_i hroot
    rw [hroot]
    exact ⟨0, rfl⟩
  · exact eq_trimEndSlash _

/-- **The encoded names are found again** behind the path of the space. -/
lemma below_pathText {ts : List Str} (hts : ∀ t ∈ ts, t ≠ [] ∧ '/' ∉ t) (hne : ts ≠ []) :
    below segs (pathText (rootSegments segs ++ ts)) = List.intercalate ['/'] ts := by
  obtain ⟨n, hroot⟩ := pathText_rootSegments segs
  obtain ⟨hhead, -⟩ := ends_intercalate hts
  obtain ⟨t, ts, rfl⟩ := List.exists_cons_of_ne_nil hne
  have hslash : pathText (t :: ts) = '/' :: List.intercalate ['/'] (t :: ts) := by
    have htext := flatMap_slash id t ts
    rw [List.map_id] at htext
    exact htext
  rw [pathText_append, hroot, hslash, below, List.append_assoc, stripPrefix_append,
    Option.getD_some, trimStartSlash_slashes]
  exact trimStartSlash_of_head hhead

lemma encodedNames (hsolid : ∀ c ∈ cs, Solid c) :
    ∀ t ∈ cs.map (fun c => encodeSegment β (cleaned c)), t ≠ [] ∧ '/' ∉ t := by
  intro t ht
  obtain ⟨c, hc, rfl⟩ := List.mem_map.mp ht
  exact ⟨encodeSegment_ne_nil (hsolid c hc).ne_nil, slash_not_mem_encodeSegment _⟩

lemma filter_rootSegments (segs : List Str) :
    (rootSegments segs).filter (· ≠ []) = segs.filter (· ≠ []) := by
  have hpopped : (popIfEmpty segs).filter (· ≠ []) = segs.filter (· ≠ []) := by
    rw [popIfEmpty]
    split
    · rename_i h
      have hlast : segs.dropLast ++ [[]] = segs := List.dropLast_append_getLast? _ h.2
      conv_rhs => rw [← hlast, List.filter_append]
      simp
    · rfl
  rw [rootSegments, ← hpopped]
  split
  · rename_i hroot
    rw [hroot]
    rfl
  · rfl

/-- **There and back.**  For names without tab, line feed and carriage return the URL is that of the
space with as many segments more as there are names, and what stands behind the path of the space
decodes to the path. -/
theorem join_round_trip (hpath : root.path = .segments segs) (hslash : segs.getLast? = some [])
    (hne : cs ≠ []) (hnames : ∀ c ∈ cs, EntryName c) (hfree : ∀ c ∈ cs, TabFree c) :
    ∃ url segs', root.joinRemotePath β (List.intercalate ['/'] cs) = .ok url ∧
      url.scheme = root.scheme ∧ url.authority = root.authority ∧ url.query = root.query ∧
      url.fragment = root.fragment ∧ url.path = .segments segs' ∧
      (segs'.filter (· ≠ [])).length = (segs.filter (· ≠ [])).length + cs.length ∧
      (segs ≠ [[], []] → segs'.length = segs.dropLast.length + cs.length ∧
        segs.dropLast <+: segs') ∧
      decodeHrefPath (below segs (pathText segs')) = List.intercalate ['/'] cs := by
  have hsolid : ∀ c ∈ cs, Solid c := fun c hc => (hnames c hc).solid (hfree c hc)
  have hcleaned : cs.map (fun c => encodeSegment β (cleaned c)) = cs.map (encodeSegment β) :=
    List.map_congr_left (fun c hc => by rw [cleaned_eq_self.mpr (hfree c hc)])
  have hnonempty := encodedNames (β := β) hsolid
  have hjoin := joinRemotePath_intercalate (β := β) hpath hnames hsolid hne
  rw [hcleaned] at hnonempty hjoin
  refine ⟨_, _, hjoin, rfl, rfl, rfl, rfl, rfl, ?_, ?_, ?_⟩
  · have hall : (cs.map (encodeSegment β)).filter (· ≠ []) = cs.map (encodeSegment β) :=
      List.filter_eq_self.mpr (fun t ht => by simpa using (hnonempty t ht).1)
    rw [List.filter_append, filter_rootSegments, hall, List.length_append, List.length_map]
  · intro h
    rw [rootSegments_of_slash hslash h, List.length_append, List.length_map]
    exact ⟨rfl, List.prefix_append _ _⟩
  · rw [below_pathText hnonempty (by simpa using hne), decodeHrefPath_encodeSegments]

/-- The legal bytes of the crate for a web URL. -/
def specialPathSegment : SegmentBytes where
  legal b := 0x20 < b && b < 0x7F &&
    b ∉ [0x22, 0x23, 0x25, 0x2F, 0x3C, 0x3E, 0x3F, 0x5C, 0x60, 0x7B, 0x7D]
  ascii b h := by
    have hb : b < 0x7F := by simp_all
    exact Nat.lt_trans (UInt8.lt_iff_toNat_lt.mp hb) (by decide)
  percent := by decide
  slash := by decide
  question := by decide
  hash := by decide
  backslash := by decide

/-- `https://host/dav/` -/
def spaceDav : ParsedUrl where
  scheme := "https".toList
  authority := some "host".toList
  path := .segments ["dav".toList, []]
  query := none
  fragment := none

instance (c : Str) : Decidable (EntryName c) :=
  decidable_of_iff (c ≠ [] ∧ '/' ∉ c ∧ c ≠ ['.'] ∧ c ≠ ['.', '.'])
    ⟨fun h => ⟨h.1, h.2.1, h.2.2.1, h.2.2.2⟩, fun h => ⟨h.1, h.2, h.3, h.4⟩⟩

instance (c : Str) : Decidable (Solid c) :=
  decidable_of_iff (cleaned c ≠ [] ∧ cleaned c ≠ ['.'] ∧ cleaned c ≠ ['.', '.'])
    ⟨fun h => ⟨h.1, h.2.1, h.2.2⟩, fun h => ⟨h.1, h.2, h.3⟩⟩

/-- A name of bytes that a URL has to escape comes back. -/
theorem join_round_trip_percent :
    ∃ url segs', spaceDav.joinRemotePath specialPathSegment "ü%41/b#\\?".toList = .ok url ∧
      url.path = .segments segs' ∧
      decodeHrefPath (below ["dav".toList, []] (pathText segs')) = "ü%41/b#\\?".toList := by
  obtain ⟨url, segs', hjoin, -, -, -, -, hpath, -, -, hback⟩ :=
    @join_round_trip specialPathSegment ["ü%41".toList, "b#\\?".toList] ["dav".toList, []]
      spaceDav rfl rfl (by decide) (by decide) (by decide)
  exact ⟨url, segs', hjoin, hpath, hback⟩

/-! ## Two files -/

/-- A name is pushed without the three characters, whatever it is. -/
lemma pushSegment_congr {d : Str} (hc : EntryName c) (hd : EntryName d)
    (h : cleaned c = cleaned d) :
    pushSegment (encodeSegment β) segs c = pushSegment (encodeSegment β) segs d := by
  rw [pushSegment, pushSegment, if_neg (not_or.mpr ⟨hc.dot, hc.dotdot⟩),
    if_neg (not_or.mpr ⟨hd.dot, hd.dotdot⟩), h]

lemma foldl_pushSegment_congr {ds : List Str} (hcs : ∀ c ∈ cs, EntryName c)
    (hds : ∀ d ∈ ds, EntryName d) (h : cs.map cleaned = ds.map cleaned) :
    cs.foldl (pushSegment (encodeSegment β)) segs = ds.foldl (pushSegment (encodeSegment β)) segs := by
  induction cs generalizing ds segs with
  | nil =>
      rw [List.map_nil, eq_comm, List.map_eq_nil_iff] at h
      rw [h]
  | cons c cs ih =>
      cases ds with
      | nil => cases h
      | cons d ds =>
          obtain ⟨hhead, htail⟩ := List.cons.inj h
          obtain ⟨hc, hcs⟩ := List.forall_mem_cons.mp hcs
          obtain ⟨hd, hds⟩ := List.forall_mem_cons.mp hds
          rw [List.foldl_cons, List.foldl_cons, pushSegment_congr hc hd hhead, ih hcs hds htail]

/-- **When two files have different URLs.**  Their paths must differ in more than tabs, line feeds and
carriage returns; and if each name is still one without these, that is enough. -/
theorem join_ne_iff {ds : List Str} (hpath : root.path = .segments segs)
    (hcs : ∀ c ∈ cs, EntryName c) (hds : ∀ d ∈ ds, EntryName d) (hcne : cs ≠ []) (hdne : ds ≠ []) :
    (root.joinRemotePath β (List.intercalate ['/'] cs) ≠
        root.joinRemotePath β (List.intercalate ['/'] ds) →
      cs.map cleaned ≠ ds.map cleaned) ∧
    ((∀ c ∈ cs ++ ds, Solid c) → cs.map cleaned ≠ ds.map cleaned →
      root.joinRemotePath β (List.intercalate ['/'] cs) ≠
        root.joinRemotePath β (List.intercalate ['/'] ds)) := by
  constructor
  · intro hurl heq
    have hlast : ∀ {es : List Str}, (∀ e ∈ es, EntryName e) →
        (List.intercalate ['/'] es).getLast? ≠ some '/' := fun hes =>
      (ends_intercalate (fun e he => ⟨(hes e he).ne_nil, (hes e he).slash⟩)).2
    refine hurl ?_
    rw [ParsedUrl.joinRemotePath, ParsedUrl.joinRemotePath, hpath]
    dsimp only [joinSegments]
    rw [if_neg (hlast hcs), if_neg (hlast hds), segments_intercalate hcs hcne,
      segments_intercalate hds hdne, foldl_pushSegment_congr hcs hds heq]
  · intro hsolid hne heq
    rw [joinRemotePath_intercalate hpath hcs (fun c hc => hsolid c (List.mem_append_left _ hc)) hcne,
      joinRemotePath_intercalate hpath hds (fun d hd => hsolid d (List.mem_append_right _ hd)) hdne]
      at heq
    have hsegs := UrlPath.segments.inj (congrArg ParsedUrl.path (Except.ok.inj heq))
    have hcomp : ∀ es : List Str, es.map (fun c => encodeSegment β (cleaned c)) =
        (es.map cleaned).map (encodeSegment β) := fun es => by rw [List.map_map]; rfl
    have hmap := List.append_cancel_left hsegs
    rw [hcomp, hcomp] at hmap
    exact hne (List.map_injective_iff.mpr encodeSegment_injective hmap)

/-- Two names that differ in an umlaut have two URLs. -/
theorem join_ne_umlaut : spaceDav.joinRemotePath specialPathSegment "a/ü".toList ≠
    spaceDav.joinRemotePath specialPathSegment "a/u".toList :=
  (@join_ne_iff specialPathSegment ["a".toList, "ü".toList] ["dav".toList, []] spaceDav
    ["a".toList, "u".toList] rfl (by decide) (by decide) (by decide) (by decide)).2 (by decide)
    (by decide)

/-- Two files of one directory, and one URL. -/
theorem tab_shares_url : EntryName "a\tb".toList ∧ EntryName "ab".toList ∧
    "a\tb".toList ≠ "ab".toList ∧ spaceDav.joinRemotePath specialPathSegment "a\tb".toList =
      spaceDav.joinRemotePath specialPathSegment "ab".toList := by
  decide

/-! ## Separators -/

/-- The relative path of a local file, as `strip_prefix` leaves it: it is also the key under which
the file is in the journal. -/
def localKey (sep : Char) (cs : List Str) : Str := List.intercalate [sep] cs

/-- The key of the same path when the server has listed it, with the names of the path encoded. -/
def remoteKey (β : SegmentBytes) (segs cs : List Str) : Str :=
  decodeHrefPath (below segs (pathText (rootSegments segs ++ cs.map (encodeSegment β))))

/-- The URL and the key of a path do not depend on the separator: the URL has the names as its segments
below the space, and the key is the one of the path on the server. -/
structure SeparatorFree (β : SegmentBytes) (root : ParsedUrl) (segs : List Str) (sep : Char)
    (cs : List Str) : Prop where
  url : ∃ url segs', root.joinRemotePath β (localKey sep cs) = .ok url ∧
    url.path = .segments segs' ∧
      ((below segs (pathText segs')).splitOn '/').map decodeHrefPath = cs
  key : localKey sep cs = remoteKey β segs cs

lemma remoteKey_eq (hnames : ∀ c ∈ cs, EntryName c) (hne : cs ≠ []) :
    remoteKey β segs cs = List.intercalate ['/'] cs := by
  have hencoded : ∀ t ∈ cs.map (encodeSegment β), t ≠ [] ∧ '/' ∉ t := by
    intro t ht
    obtain ⟨c, hc, rfl⟩ := List.mem_map.mp ht
    exact ⟨encodeSegment_ne_nil (hnames c hc).ne_nil, slash_not_mem_encodeSegment _⟩
  rw [remoteKey, below_pathText hencoded (by simpa using hne), decodeHrefPath_encodeSegments]

/-- The keys agree if the separator is the slash, or there is none. -/
lemma localKey_eq_iff {sep : Char} (hne : cs ≠ []) :
    localKey sep cs = List.intercalate ['/'] cs ↔ sep = '/' ∨ cs.length = 1 := by
  obtain ⟨c, cs, rfl⟩ := List.exists_cons_of_ne_nil hne
  cases cs with
  | nil => simp [localKey]
  | cons d cs =>
      constructor
      · intro h
        rw [localKey, List.intercalate_cons_cons, List.intercalate_cons_cons, List.append_assoc,
          List.append_assoc, List.append_right_inj] at h
        exact .inl (List.cons.inj h).1
      · rintro (rfl | hlen)
        · rfl
        · simp at hlen

/-- **The condition.** -/
theorem separatorFree_iff {sep : Char} (hpath : root.path = .segments segs) (hne : cs ≠ [])
    (hnames : ∀ c ∈ cs, EntryName c) (hsolid : ∀ c ∈ cs, Solid c) :
    SeparatorFree β root segs sep cs ↔
      (sep = '/' ∨ cs.length = 1) ∧ ∀ c ∈ cs, TabFree c := by
  -- with the slash the segments decode to the names, without the three characters
  have hsegments : ((below segs (pathText (rootSegments segs ++
      cs.map (fun c => encodeSegment β (cleaned c))))).splitOn '/').map decodeHrefPath =
        cs.map cleaned := by
    have hencoded := encodedNames (β := β) hsolid
    rw [below_pathText hencoded (by simpa using hne),
      List.splitOn_intercalate '/' (fun t ht => (hencoded t ht).2) (by simpa using hne),
      List.map_map]
    exact List.map_congr_left (fun c _ => decodeHrefPath_encodeSegment _)
  have hcleaned : cs.map cleaned = cs ↔ ∀ c ∈ cs, TabFree c := by
    have hid := List.map_inj_left (f := cleaned) (g := id) (l := cs)
    rw [List.map_id] at hid
    exact hid.trans (forall₂_congr (fun c _ => cleaned_eq_self))
  constructor
  · rintro ⟨⟨url, segs', hjoin, hurl, hmap⟩, hkey⟩
    rw [remoteKey_eq hnames hne] at hkey
    refine ⟨(localKey_eq_iff hne).mp hkey, hcleaned.mp ?_⟩
    rw [hkey, joinRemotePath_intercalate hpath hnames hsolid hne] at hjoin
    obtain rfl := Except.ok.inj hjoin
    obtain rfl := UrlPath.segments.inj hurl
    exact hsegments.symm.trans hmap
  · rintro ⟨hsep, hfree⟩
    have hkey := (localKey_eq_iff hne).mpr hsep
    have hjoin := joinRemotePath_intercalate (β := β) hpath hnames hsolid hne
    rw [← hkey] at hjoin
    refine ⟨⟨_, _, hjoin, rfl, hsegments.trans (hcleaned.mpr hfree)⟩, ?_⟩
    rw [hkey, remoteKey_eq hnames hne]

/-- With "/" between the names the URL is what the other functions make it. -/
theorem separatorFree_slash :
    SeparatorFree specialPathSegment spaceDav ["dav".toList, []] '/' ["a".toList, "ü".toList] :=
  (separatorFree_iff (β := specialPathSegment) (show spaceDav.path = _ from rfl)
    (by decide) (by decide) (by decide)).mpr (by decide)

/-- A path of two components as Windows writes it is one segment, and has another key. -/
theorem backslash_not_separatorFree :
    spaceDav.joinRemotePath specialPathSegment "a\\b".toList =
        .ok { spaceDav with path := .segments ["dav".toList, "a%5Cb".toList] } ∧
      ¬ SeparatorFree specialPathSegment spaceDav ["dav".toList, []] '\\'
        ["a".toList, "b".toList] := by
  refine ⟨by decide, ?_⟩
  rintro ⟨-, hkey⟩
  revert hkey
  decide

end OwncloudSync
