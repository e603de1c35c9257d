import OwncloudSync.Discovery.RemoteWalk
import OwncloudSync.Lib.Text
import Mathlib.Tactic.Common

/-!
# The parents of a file

When the PUT of a file is answered with 409, `ensure_parent_collections` (`propagate/upload.rs`) sends a
MKCOL for every collection above it.  The URL of the file was made by pushing its components; those of
the collections are made by **`Url::join` on the encoded path**, which reads a text with a colon as an
absolute URL and takes away the query of the space.

`mkcolsExact_plain` says for which spaces and files the URLs are those of `join_remote_path`.

`Url::join` is a parameter (`JoinsReferences`).
-/

namespace OwncloudSync

/-! ## The requests -/

/-- The URL with a slash at the end of its path, by `set_path`. -/
def ParsedUrl.asCollection (u : ParsedUrl) : ParsedUrl :=
  match u.path with
  | .segments segs =>
      if segs.getLast? = some [] then u else { u with path := .segments (segs ++ [[]]) }
  | .cannotBeABase text =>
      if text.getLast? = some '/' then u else { u with path := .cannotBeABase (text ++ ['/']) }

/-- What is joined for each ancestor: the first parts of the path below the space. -/
def parentRefs (spaceRoot remote : ParsedUrl) : List Str :=
  let rootPath := trimEndSlash spaceRoot.path.text
  let filePath := remote.path.text
  let rel := trimStartSlash ((stripPrefix rootPath filePath).getD filePath)
  let parts := rel.splitOn '/'
  (List.range' 1 (parts.length - 1)).map (fun i => ['/'].intercalate (parts.take i))

/-- The loop: the URLs of the MKCOLs, and whether all of them were accepted. -/
def mkdirAll (join : ParsedUrl → Str → Option ParsedUrl) (accepted : ℕ → Bool)
    (spaceRoot : ParsedUrl) : List Str → ℕ → List ParsedUrl × Bool
  | [], _ => ([], true)
  | ref :: refs, i =>
      match join spaceRoot ref with
      | none => ([], false)
      | some u =>
          if accepted i then
            let r := mkdirAll join accepted spaceRoot refs (i + 1)
            (u.asCollection :: r.1, r.2)
          else ([u.asCollection], false)

/-- `ensure_parent_collections`. -/
def ParsedUrl.ensureParentCollections (join : ParsedUrl → Str → Option ParsedUrl) (accepted : ℕ → Bool)
    (spaceRoot remote : ParsedUrl) : List ParsedUrl × Bool :=
  mkdirAll join accepted spaceRoot (parentRefs spaceRoot remote) 0

/-! ## References -/

/-- A character of a URL's scheme. -/
def isSchemeChar (c : Char) : Bool := c.isAlphanum || c ∈ ['+', '-', '.']

/-- The scheme that a reference begins with, and what stands behind its colon. -/
def schemePart (ref : Str) : Option (Str × Str) :=
  match Text.splitOnce ':' ref with
  | some (scheme, rest) =>
      if scheme.head?.any Char.isAlpha && scheme.all isSchemeChar then some (scheme, rest) else none
  | none => none

/-- A segment in the place of the last one. -/
def resolveSegment (segs : List Str) (s : Str) : List Str :=
  if s = [] then segs
  else if s = ['.'] then segs.dropLast ++ [[]]
  else if s = ['.', '.'] then segs.dropLast.dropLast ++ [[]]
  else segs.dropLast ++ [s]

/-- What the URL library makes of encoded segments behind one URL: a reference without a scheme takes
the place of the last segment and of query and fragment; one that begins with a scheme has that scheme,
and is what stands behind its colon if it is the scheme of the URL itself. -/
structure JoinsAt (β : SegmentBytes) (join : ParsedUrl → Str → Option ParsedUrl) (root : ParsedUrl) :
    Prop where
  relative : ∀ segs ds, root.path = .segments segs → ds ≠ [] → ds.head? ≠ some [] →
    (∀ d ∈ ds, d ≠ ['.'] ∧ d ≠ ['.', '.']) →
    schemePart (['/'].intercalate (ds.map (encodeSegment β))) = none →
    join root (['/'].intercalate (ds.map (encodeSegment β))) =
      some { root with
        path := .segments (segs.dropLast ++ ds.map (encodeSegment β)), query := none, fragment := none }
  scheme : ∀ segs d scheme rest u segs', root.path = .segments segs →
    schemePart (encodeSegment β d) = some (scheme, rest) → join root (encodeSegment β d) = some u →
    u.scheme = root.scheme → u.path = .segments segs' → segs' = resolveSegment segs rest

/-- The URLs of spaces; `reqwest` sends nothing to any other. -/
def ParsedUrl.Web (root : ParsedUrl) : Prop :=
  root.scheme = "http".toList ∨ root.scheme = "https".toList

instance (root : ParsedUrl) : Decidable root.Web := inferInstanceAs (Decidable (_ ∨ _))

/-- The law, for every root with an http or https URL. -/
def JoinsReferences (β : SegmentBytes) (join : ParsedUrl → Str → Option ParsedUrl) : Prop :=
  ∀ root : ParsedUrl, root.Web → JoinsAt β join root

/-! ## What is wanted -/

/-- The first of the list, up to the one that is refused. -/
def upToRefused {α : Type} (accepted : ℕ → Bool) : List α → ℕ → List α
  | [], _ => []
  | u :: us, i => u :: if accepted i then upToRefused accepted us (i + 1) else []

/-- **A MKCOL for each ancestor**, from the top, at the URL that `join_remote_path` gives for it with a
slash at its end, up to the first that is refused. -/
def MkcolsExact (β : SegmentBytes) (join : ParsedUrl → Str → Option ParsedUrl) (root : ParsedUrl)
    (cs : List Str) : Prop :=
  ∃ remote urls, root.joinRemotePath β (['/'].intercalate cs) = .ok remote ∧
    List.Forall₂ (fun k u => root.joinRemotePath β (['/'].intercalate (cs.take k) ++ ['/']) = .ok u)
      (List.range' 1 (cs.length - 1)) urls ∧
    ∀ accepted, (ParsedUrl.ensureParentCollections join accepted root remote).1 = upToRefused accepted urls 0

/-- The space has no query, no fragment and not the path `//`; the names of the collections stay names
without tabs, line feeds and carriage returns, and the first of them does not begin with a scheme. -/
structure PlainParents (β : SegmentBytes) (root : ParsedUrl) (segs cs : List Str) : Prop where
  query : root.query = none
  fragment : root.fragment = none
  path : segs ≠ [[], []]
  solid : ∀ c ∈ cs.dropLast, Solid c
  scheme : ∀ c, cs.head? = some c → schemePart (encodeSegment β (cleaned c)) = none

/-- No name is `..` without the three characters, and the file is at the top or its parents are plain. -/
structure PlainFile (β : SegmentBytes) (root : ParsedUrl) (segs cs : List Str) : Prop where
  dots : ∀ c ∈ cs, cleaned c ≠ ['.', '.']
  parents : cs.length = 1 ∨ PlainParents β root segs cs

variable {β : SegmentBytes} {join : ParsedUrl → Str → Option ParsedUrl} {root u : ParsedUrl}
  {c : Str} {segs cs xs ys ds : List Str}

/-! ## The segments of a file -/

/-- What is left of a name: it may be nothing. -/
def kept (c : Str) : Str := if cleaned c = ['.'] then [] else cleaned c

lemma pushSegment_kept (hname : EntryName c) (hdots : cleaned c ≠ ['.', '.']) :
    pushSegment (encodeSegment β) segs c = appendSegment segs (encodeSegment β (kept c)) := by
  rw [pushSegment, if_neg (not_or.mpr ⟨hname.dot, hname.dotdot⟩), if_neg hdots, kept]
  split <;> rfl

/-- The segments of names. -/
def keptSegments (β : SegmentBytes) (cs : List Str) : List Str :=
  cs.map (fun c => encodeSegment β (kept c))

lemma foldl_appendSegment (hne : segs ≠ []) (hroot : segs ≠ [[]]) :
    xs.foldl appendSegment segs = segs ++ xs := by
  induction xs generalizing segs with
  | nil => rw [List.append_nil]; rfl
  | cons x xs ih =>
      have hlong : segs ++ [x] ≠ [[]] := by
        intro h
        have hlength := congrArg List.length h
        rw [List.length_append, List.length_singleton, List.length_singleton] at hlength
        exact hne (List.length_eq_zero_iff.mp (Nat.succ.inj hlength))
      rw [List.foldl_cons, appendSegment, if_neg hroot, ih (List.append_ne_nil_of_right_ne_nil _
        (List.cons_ne_nil _ _)) hlong, List.append_assoc]
      rfl

/-- Behind a path that is a slash, empty segments are lost. -/
lemma foldl_appendSegment_slash : xs.foldl appendSegment [[]] =
    if xs.dropWhile (· = []) = [] then [[]] else xs.dropWhile (· = []) := by
  induction xs with
  | nil => rfl
  | cons x xs ih =>
      by_cases hx : x = []
      · rw [hx]
        exact ih
      · have hkeep : (x :: xs).dropWhile (· = []) = x :: xs :=
          List.dropWhile_cons_of_neg (by simpa using hx)
        rw [hkeep, if_neg (List.cons_ne_nil _ _), List.foldl_cons, appendSegment, if_pos rfl,
          foldl_appendSegment (List.cons_ne_nil _ _) (fun h => hx (List.singleton_inj.mp h))]
        rfl

lemma foldl_pushSegment_kept (hnames : ∀ c ∈ cs, EntryName c)
    (hdots : ∀ c ∈ cs, cleaned c ≠ ['.', '.']) :
    cs.foldl (pushSegment (encodeSegment β)) segs = (keptSegments β cs).foldl appendSegment segs := by
  induction cs generalizing segs with
  | nil => rfl
  | cons c cs ih =>
      rw [List.forall_mem_cons] at hnames hdots
      rw [List.foldl_cons, pushSegment_kept hnames.1 hdots.1, ih hnames.2 hdots.2]
      rfl

lemma slash_not_mem_keptSegments : ∀ x ∈ keptSegments β cs, '/' ∉ x := by
  intro x hx
  obtain ⟨c, -, rfl⟩ := List.mem_map.mp hx
  exact slash_not_mem_encodeSegment _

/-- The path without the slashes before it. -/
lemma trimStartSlash_pathText (hys : ∀ y ∈ ys, '/' ∉ y) :
    trimStartSlash (pathText ys) = ['/'].intercalate (ys.dropWhile (· = [])) := by
  induction ys with
  | nil => rfl
  | cons y ys ih =>
      rw [List.forall_mem_cons] at hys
      by_cases hy : y = []
      · rw [hy]
        exact ih hys.2
      · have hkeep : (y :: ys).dropWhile (· = []) = y :: ys :=
          List.dropWhile_cons_of_neg (by simpa using hy)
        have htext : pathText (y :: ys) = '/' :: ['/'].intercalate (y :: ys) := by
          have hslash := flatMap_slash id y ys
          rw [List.map_id] at hslash
          exact hslash
        have hhead : (['/'].intercalate (y :: ys)).head? ≠ some '/' := by
          obtain ⟨a, y, rfl⟩ := List.exists_cons_of_ne_nil hy
          have ha : a ≠ '/' := fun h => hys.1 (h ▸ List.mem_cons_self)
          cases ys with
          | nil => simpa using ha
          | cons z ys =>
              rw [List.intercalate_cons_cons]
              simpa using ha
        rw [hkeep, htext]
        exact trimStartSlash_of_head hhead

/-- What stands below the space. -/
lemma below_pathText_append (hys : ∀ y ∈ ys, '/' ∉ y) :
    below segs (pathText (rootSegments segs ++ ys)) =
      ['/'].intercalate (ys.dropWhile (· = [])) := by
  obtain ⟨n, hroot⟩ := pathText_rootSegments segs
  rw [pathText_append, hroot, below, List.append_assoc, stripPrefix_append, Option.getD_some,
    trimStartSlash_slashes, trimStartSlash_pathText hys]

lemma popIfEmpty_ne_nil (hslash : segs.getLast? = some []) : popIfEmpty segs ≠ [] := by
  have hne : segs ≠ [] := by
    rintro rfl
    cases hslash
  rw [popIfEmpty]
  split
  · rename_i h
    rw [← List.length_pos_iff, List.length_dropLast]
    omega
  · exact hne

/-- **The parts of the path below the space** are the segments of the file, without the empty ones
before them. -/
lemma below_foldl (hslash : segs.getLast? = some []) (hxs : ∀ x ∈ xs, '/' ∉ x) :
    below segs (pathText (xs.foldl appendSegment (popIfEmpty segs))) =
      ['/'].intercalate (xs.dropWhile (· = [])) := by
  by_cases hroot : popIfEmpty segs = [[]]
  · have hempty : rootSegments segs = [] := by rw [rootSegments, if_pos hroot]
    rw [hroot, foldl_appendSegment_slash]
    split
    · rename_i hnone
      have hbelow := @below_pathText_append segs [[]] (by simp)
      rw [hempty] at hbelow
      rw [hnone]
      exact hbelow
    · have hsome := @below_pathText_append segs (xs.dropWhile (· = []))
        (fun x hx => hxs x ((List.dropWhile_sublist _).subset hx))
      rw [hempty, List.nil_append, List.dropWhile_idempotent] at hsome
      exact hsome
  · have hkept : rootSegments segs = popIfEmpty segs := by rw [rootSegments, if_neg hroot]
    rw [foldl_appendSegment (popIfEmpty_ne_nil hslash) hroot, ← hkept]
    exact below_pathText_append hxs

/-- The first segment comes behind those of the space. -/
lemma foldl_popIfEmpty (hslash : segs.getLast? = some []) (hne : xs ≠ []) (hhead : xs.head? ≠ some []) :
    xs.foldl appendSegment (popIfEmpty segs) = rootSegments segs ++ xs := by
  rw [rootSegments]
  split
  · rename_i hroot
    obtain ⟨x, xs, rfl⟩ := List.exists_cons_of_ne_nil hne
    have hx : x ≠ [] := fun h => hhead (congrArg some h)
    have hkeep : (x :: xs).dropWhile (· = []) = x :: xs :=
      List.dropWhile_cons_of_neg (by simpa using hx)
    rw [hroot, foldl_appendSegment_slash, hkeep, if_neg (List.cons_ne_nil _ _), List.nil_append]
  · rename_i hroot
    exact foldl_appendSegment (popIfEmpty_ne_nil hslash) hroot

/-- The URL of the file. -/
def fileUrl (β : SegmentBytes) (root : ParsedUrl) (segs cs : List Str) : ParsedUrl :=
  { root with path := .segments ((keptSegments β cs).foldl appendSegment (popIfEmpty segs)) }

lemma joinRemotePath_kept (hpath : root.path = .segments segs) (hnames : ∀ c ∈ cs, EntryName c)
    (hdots : ∀ c ∈ cs, cleaned c ≠ ['.', '.']) (hne : cs ≠ []) :
    root.joinRemotePath β (['/'].intercalate cs) = .ok (fileUrl β root segs cs) := by
  have hlast := (ends_intercalate (fun c hc => ⟨(hnames c hc).ne_nil, (hnames c hc).slash⟩)).2
  rw [ParsedUrl.joinRemotePath, hpath]
  dsimp only [joinSegments]
  rw [if_neg hlast, segments_intercalate hnames hne, foldl_pushSegment_kept hnames hdots, fileUrl]

/-- The URL of a collection. -/
lemma joinRemotePath_collection (hpath : root.path = .segments segs) (hnames : ∀ c ∈ cs, EntryName c)
    (hdots : ∀ c ∈ cs, cleaned c ≠ ['.', '.']) (hne : cs ≠ []) :
    root.joinRemotePath β (['/'].intercalate cs ++ ['/']) = .ok { root with
      path := .segments (appendSegment
        ((keptSegments β cs).foldl appendSegment (popIfEmpty segs)) []) } := by
  have hsegs : segments (['/'].intercalate cs ++ ['/']) = cs := by
    have hcs := segments_intercalate hnames hne
    rw [segments] at hcs ⊢
    rw [List.splitOn_append_cons_self, List.filter_append, hcs]
    exact List.append_nil cs
  rw [ParsedUrl.joinRemotePath, hpath]
  dsimp only [joinSegments]
  rw [if_pos List.getLast?_concat, hsegs, foldl_pushSegment_kept hnames hdots]
  rfl

/-! ## The loop -/

/-- What is joined. -/
lemma parentRefs_fileUrl (hpath : root.path = .segments segs) (hslash : segs.getLast? = some []) :
    parentRefs root (fileUrl β root segs cs) =
      (List.range' 1 (((keptSegments β cs).dropWhile (· = [])).length - 1)).map
        (fun i => ['/'].intercalate (((keptSegments β cs).dropWhile (· = [])).take i)) := by
  have hrel : trimStartSlash ((stripPrefix (trimEndSlash root.path.text)
      (fileUrl β root segs cs).path.text).getD (fileUrl β root segs cs).path.text) =
        ['/'].intercalate ((keptSegments β cs).dropWhile (· = [])) := by
    rw [hpath]
    exact below_foldl hslash slash_not_mem_keptSegments
  rw [parentRefs, hrel]
  by_cases hnone : (keptSegments β cs).dropWhile (· = []) = []
  · rw [hnone]
    rfl
  · rw [List.splitOn_intercalate '/' (fun x hx => slash_not_mem_keptSegments x
      ((List.dropWhile_sublist _).subset hx)) hnone]

lemma length_mkdirAll_le (accepted : ℕ → Bool) (refs : List Str) (i : ℕ) :
    (mkdirAll join accepted root refs i).1.length ≤ refs.length := by
  induction refs generalizing i with
  | nil => exact le_refl 0
  | cons ref refs ih =>
      rw [mkdirAll]
      split
      · exact Nat.zero_le _
      · split
        · exact Nat.succ_le_succ (ih (i + 1))
        · exact Nat.succ_le_succ (Nat.zero_le _)

lemma upToRefused_true {α : Type} (us : List α) (i : ℕ) : upToRefused (fun _ => true) us i = us := by
  induction us generalizing i with
  | nil => rfl
  | cons u us ih => rw [upToRefused, if_pos rfl, ih]

/-- The URL of a MKCOL. -/
def Joins (join : ParsedUrl → Str → Option ParsedUrl) (root : ParsedUrl) (ref : Str) (v : ParsedUrl) :
    Prop :=
  ∃ u, join root ref = some u ∧ u.asCollection = v

lemma mkdirAll_of_joins {refs : List Str} {vs : List ParsedUrl}
    (h : List.Forall₂ (Joins join root) refs vs) (accepted : ℕ → Bool) (i : ℕ) :
    (mkdirAll join accepted root refs i).1 = upToRefused accepted vs i := by
  induction h generalizing i with
  | nil => rfl
  | cons hhead _ ih =>
      obtain ⟨u, hu, rfl⟩ := hhead
      rw [mkdirAll, hu, upToRefused]
      dsimp only
      split
      · rw [ih]
      · rfl

/-- If there are as many requests as references, all of them could be joined. -/
lemma joins_of_mkdirAll {refs : List Str} {i : ℕ}
    (h : (mkdirAll join (fun _ => true) root refs i).1.length = refs.length) :
    List.Forall₂ (Joins join root) refs (mkdirAll join (fun _ => true) root refs i).1 := by
  induction refs generalizing i with
  | nil => exact .nil
  | cons ref refs ih =>
      rw [mkdirAll] at h ⊢
      cases hu : join root ref with
      | none =>
          rw [hu] at h
          cases h
      | some u =>
          rw [hu] at h
          exact .cons ⟨u, hu, rfl⟩ (ih (Nat.succ.inj h))

/-! ## Schemes -/

lemma takeWhile_append_of_neg {α : Type} {P : α → Bool} {a : α} (l r : List α) (ha : P a = false) :
    (l ++ a :: r).takeWhile P = l.takeWhile P := by
  induction l with
  | nil => simp [ha]
  | cons b l ih =>
      rw [List.cons_append, List.takeWhile_cons, List.takeWhile_cons, ih]

/-- When a text does not begin with a scheme. -/
lemma schemePart_eq_none {ref : Str} : schemePart ref = none ↔
    (':' ∈ ref → ((ref.takeWhile (· ≠ ':')).head?.any Char.isAlpha &&
      (ref.takeWhile (· ≠ ':')).all isSchemeChar) = false) := by
  rw [schemePart]
  by_cases hcolon : ':' ∈ ref
  · obtain ⟨l, r, rfl⟩ := List.append_of_mem hcolon
    obtain ⟨rest, hsplit⟩ := Text.splitOnce_takeWhile ':' l r
    rw [hsplit, takeWhile_append_of_neg l r (by decide)]
    dsimp only
    constructor
    · intro h _
      by_contra hvalid
      rw [Bool.not_eq_false] at hvalid
      rw [if_pos hvalid] at h
      cases h
    · intro h
      rw [h hcolon]
      rfl
  · rw [Text.splitOnce_eq_none.mpr hcolon]
    exact iff_of_true rfl (fun h => absurd h hcolon)

/-- Only the first segment can make a scheme. -/
lemma schemePart_intercalate {x : Str} (h : schemePart x = none) (xs : List Str) :
    schemePart (['/'].intercalate (x :: xs)) = none := by
  cases xs with
  | nil => rwa [List.intercalate_singleton]
  | cons y xs =>
      rw [List.intercalate_cons_cons, schemePart_eq_none]
      rw [schemePart_eq_none] at h
      intro hcolon
      by_cases hx : ':' ∈ x
      · obtain ⟨l, r, rfl⟩ := List.append_of_mem hx
        rw [List.append_assoc, List.append_assoc, List.cons_append,
          takeWhile_append_of_neg l _ (by decide)]
        rw [takeWhile_append_of_neg l r (by decide)] at h
        exact h hx
      · -- what stands before the colon has a slash
        have htake : (x ++ ['/'] ++ ['/'].intercalate (y :: xs)).takeWhile (· ≠ ':') =
            x ++ '/' :: (['/'].intercalate (y :: xs)).takeWhile (· ≠ ':') := by
          rw [List.append_assoc, List.takeWhile_append_of_pos]
          · rfl
          · intro a ha
            have hne : a ≠ ':' := fun hcol => hx (hcol ▸ ha)
            simpa using hne
        have hslash : (x ++ '/' :: (['/'].intercalate (y :: xs)).takeWhile (· ≠ ':')).all
            isSchemeChar = false := by
          rw [List.all_eq_false]
          exact ⟨'/', List.mem_append_right _ List.mem_cons_self, by decide⟩
        rw [htake, hslash, Bool.and_false]

/-! ## The theorem -/

lemma asCollection_of_ne {segs' : List Str} (hpath : u.path = .segments segs')
    (hlast : segs'.getLast? ≠ some []) :
    u.asCollection = { u with path := .segments (segs' ++ [[]]) } := by
  rw [ParsedUrl.asCollection, hpath]
  exact if_neg hlast

lemma asCollection_of_eq {segs' : List Str} (hpath : u.path = .segments segs')
    (hlast : segs'.getLast? = some []) : u.asCollection = u := by
  rw [ParsedUrl.asCollection, hpath]
  exact if_pos hlast

/-- What is joined for the first segments, if they make no scheme. -/
lemma join_kept (hjoin : JoinsAt β join root) (hpath : root.path = .segments segs)
    (hdots : ∀ c ∈ cs, cleaned c ≠ ['.', '.']) (hne : cs ≠ [])
    (hhead : (keptSegments β cs).head? ≠ some [])
    (hscheme : ∀ x, (keptSegments β cs).head? = some x → schemePart x = none) :
    join root (['/'].intercalate (keptSegments β cs)) = some { root with
      path := .segments (segs.dropLast ++ keptSegments β cs), query := none, fragment := none } := by
  have hmap : keptSegments β cs = (cs.map kept).map (encodeSegment β) := by
    rw [keptSegments, List.map_map]
    rfl
  obtain ⟨c, cs, rfl⟩ := List.exists_cons_of_ne_nil hne
  have hnone := schemePart_intercalate (hscheme _ rfl) (keptSegments β cs)
  rw [hmap]
  refine hjoin.relative segs _ hpath (List.cons_ne_nil _ _) ?_ ?_ (by rw [← hmap]; exact hnone)
  · intro h
    refine hhead ?_
    rw [hmap, List.head?_map, h]
    rfl
  · intro d hd
    obtain ⟨b, hb, rfl⟩ := List.mem_map.mp hd
    rw [kept]
    split
    · decide
    · exact ⟨‹_›, hdots b hb⟩

/-- The URL that is wanted for the first `k` names. -/
def parentUrl (β : SegmentBytes) (root : ParsedUrl) (segs cs : List Str) (k : ℕ) : ParsedUrl :=
  { root with path := .segments (rootSegments segs ++ keptSegments β (cs.take k) ++ [[]]) }

lemma keptSegments_take_head {k : ℕ} (hk : k ≠ 0) :
    (keptSegments β (cs.take k)).head? = (keptSegments β cs).head? := by
  rw [keptSegments, keptSegments, List.head?_map, List.head?_map, List.head?_take, if_neg hk]

lemma joinRemotePath_parent (hpath : root.path = .segments segs) (hslash : segs.getLast? = some [])
    (hnames : ∀ c ∈ cs, EntryName c) (hdots : ∀ c ∈ cs, cleaned c ≠ ['.', '.']) (hne : cs ≠ [])
    (hhead : (keptSegments β cs).head? ≠ some []) {k : ℕ} (hk : k ≠ 0) :
    root.joinRemotePath β (['/'].intercalate (cs.take k) ++ ['/']) =
      .ok (parentUrl β root segs cs k) := by
  have htake : cs.take k ≠ [] := by
    rw [Ne, List.take_eq_nil_iff]
    exact not_or.mpr ⟨hk, hne⟩
  have hkept : keptSegments β (cs.take k) ≠ [] := by
    rw [keptSegments, Ne, List.map_eq_nil_iff]
    exact htake
  rw [← keptSegments_take_head hk] at hhead
  rw [joinRemotePath_collection hpath (fun c hc => hnames c (List.mem_of_mem_take hc))
    (fun c hc => hdots c (List.mem_of_mem_take hc)) htake, foldl_popIfEmpty hslash hkept hhead,
    appendSegment, if_neg]
  · rfl
  · -- the first name is not lost
    intro h
    obtain ⟨x, xs, hxs⟩ := List.exists_cons_of_ne_nil hkept
    rw [hxs] at h hhead
    obtain ⟨-, hx⟩ := List.append_inj' (h.trans (List.nil_append _).symm) (by
      have hlength := congrArg List.length h
      rw [List.length_append, List.length_cons, List.length_singleton] at hlength
      rw [List.length_cons, List.length_singleton]
      omega)
    exact hhead (congrArg List.head? hx)

lemma PlainParents.solid_take (h : PlainParents β root segs cs) {k : ℕ} (hlt : k < cs.length) :
    ∀ c ∈ cs.take k, Solid c := by
  intro c hc
  refine h.solid c ?_
  rw [List.dropLast_eq_take]
  exact List.take_subset_take_left cs (Nat.le_pred_of_lt hlt) hc

lemma PlainParents.ne_nil (h : PlainParents β root segs cs) {k : ℕ} (hlt : k < cs.length) :
    ∀ x ∈ keptSegments β (cs.take k), x ≠ [] := by
  intro x hx
  obtain ⟨c, hc, rfl⟩ := List.mem_map.mp hx
  rw [kept, if_neg (h.solid_take hlt c hc).dot]
  exact encodeSegment_ne_nil (h.solid_take hlt c hc).ne_nil

/-- **Enough**: for names that stay names the URLs are the same. -/
lemma joins_parentUrl (hjoin : JoinsAt β join root) (hpath : root.path = .segments segs)
    (hslash : segs.getLast? = some []) (hdots : ∀ c ∈ cs, cleaned c ≠ ['.', '.'])
    (hplain : PlainParents β root segs cs) {k : ℕ} (hk : k ≠ 0) (hlt : k < cs.length) :
    Joins join root (['/'].intercalate (keptSegments β (cs.take k))) (parentUrl β root segs cs k) := by
  have hsolid := hplain.solid_take hlt
  have hnonempty := hplain.ne_nil hlt
  have htake : cs.take k ≠ [] := by
    rw [Ne, List.take_eq_nil_iff]
    exact not_or.mpr ⟨hk, List.ne_nil_of_length_pos (Nat.zero_lt_of_lt hlt)⟩
  have hurl := join_kept hjoin hpath (fun c hc => hdots c (List.mem_of_mem_take hc)) htake
    (fun h => hnonempty [] (List.mem_of_head? h) rfl) (by
      intro x hx
      rw [keptSegments, List.head?_map, Option.map_eq_some_iff] at hx
      obtain ⟨c, hc, rfl⟩ := hx
      rw [kept, if_neg (hsolid c (List.mem_of_head? hc)).dot]
      rw [List.head?_take, if_neg hk] at hc
      exact hplain.scheme c hc)
  have hlast : (segs.dropLast ++ keptSegments β (cs.take k)).getLast? ≠ some [] := by
    rw [List.getLast?_append_of_ne_nil _ (by rwa [keptSegments, Ne, List.map_eq_nil_iff])]
    exact fun h => hnonempty [] (List.mem_of_getLast? h) rfl
  refine ⟨_, hurl, ?_⟩
  rw [asCollection_of_ne rfl hlast, parentUrl, rootSegments_of_slash hslash hplain.path, hplain.query,
    hplain.fragment]

/-- The segments of the space that stay are as many as there are before the last, or none. -/
lemma rootSegments_length (hslash : segs.getLast? = some []) :
    rootSegments segs = segs.dropLast ∨ rootSegments segs = [] ∧ segs = [[], []] := by
  by_cases h : segs = [[], []]
  · exact .inr ⟨by rw [h]; rfl, h⟩
  · exact .inl (rootSegments_of_slash hslash h)

lemma asCollection_scheme (u : ParsedUrl) : u.asCollection.scheme = u.scheme := by
  rw [ParsedUrl.asCollection]
  split
  · split <;> rfl
  · split <;> rfl

lemma segments_of_asCollection (h : u.asCollection.path = .segments xs) :
    ∃ segs', u.path = .segments segs' := by
  cases hpath : u.path with
  | segments segs' => exact ⟨segs', rfl⟩
  | cannotBeABase text =>
      rw [ParsedUrl.asCollection, hpath] at h
      dsimp only at h
      split at h
      · rw [hpath] at h
        cases h
      · cases h

/-- What stands behind the colon is shorter. -/
lemma rest_ne_of_schemePart {x rest scheme : Str} (h : schemePart x = some (scheme, rest)) : rest ≠ x := by
  intro heq
  rw [schemePart] at h
  split at h
  · rename_i hsplit
    split at h
    · obtain ⟨rfl, rfl⟩ := Prod.mk.inj (Option.some.inj h)
      have hlength := congrArg List.length ((Text.eq_of_splitOnce hsplit).1.symm.trans heq.symm)
      rw [List.length_append, List.length_cons] at hlength
      omega
    · cases h
  · cases h

/-- A collection in the space is not the space. -/
lemma collection_ne_root {x : Str} (hslash : segs.getLast? = some []) (hx : x ≠ []) :
    segs ≠ rootSegments segs ++ [x] ++ [[]] := by
  have hlast : segs.dropLast ++ [[]] = segs := List.dropLast_append_getLast? _ hslash
  intro h
  have hdrop := (List.append_inj' (hlast.trans h) rfl).1
  rcases rootSegments_length hslash with hroot | ⟨hroot, hsegs⟩
  · rw [hroot] at hdrop
    exact List.cons_ne_nil _ _ (List.append_right_eq_self.mp hdrop.symm)
  · rw [hroot, hsegs] at hdrop
    exact hx (List.singleton_inj.mp hdrop.symm)

/-- A reference with the scheme of the space itself is not the first parent. -/
lemma resolveSegment_ne {x rest scheme : Str} (hslash : segs.getLast? = some []) (hx : x ≠ [])
    (hrest : schemePart x = some (scheme, rest)) (hu : u.path = .segments (resolveSegment segs rest)) :
    u.asCollection.path ≠ .segments (rootSegments segs ++ [x] ++ [[]]) := by
  have hlast : segs.dropLast ++ [[]] = segs := List.dropLast_append_getLast? _ hslash
  have hself := collection_ne_root hslash hx
  intro hpath
  by_cases hempty : (resolveSegment segs rest).getLast? = some []
  · rw [asCollection_of_eq hu hempty, hu] at hpath
    have hsegs := UrlPath.segments.inj hpath
    rw [resolveSegment] at hsegs hempty
    split at hsegs
    · exact hself hsegs
    split at hsegs
    · exact hself (hlast.symm.trans hsegs)
    split at hsegs
    · -- the segment before is gone
      have hdrop := congrArg List.length (List.append_inj' hsegs rfl).1
      rw [List.length_dropLast, List.length_dropLast, List.length_append, List.length_singleton]
        at hdrop
      rcases rootSegments_length hslash with hroot | ⟨hroot, hsegs'⟩
      · rw [hroot, List.length_dropLast] at hdrop
        omega
      · rw [hsegs'] at hdrop
        cases hdrop
    · rename_i hnil hdot hdots
      rw [if_neg hnil, if_neg hdot, if_neg hdots, List.getLast?_concat] at hempty
      exact hnil (Option.some.inj hempty)
  · rw [asCollection_of_ne hu hempty] at hpath
    have hsegs := (List.append_inj' (UrlPath.segments.inj hpath) rfl).1
    rw [resolveSegment] at hsegs hempty
    split at hsegs
    · rename_i hnil
      rw [if_pos hnil] at hempty
      exact hempty hslash
    split at hsegs
    · rename_i hnil hdot
      rw [if_neg hnil, if_pos hdot, List.getLast?_concat] at hempty
      exact hempty rfl
    split at hsegs
    · rename_i hnil hdot hdots
      rw [if_neg hnil, if_neg hdot, if_pos hdots, List.getLast?_concat] at hempty
      exact hempty rfl
    · exact rest_ne_of_schemePart hrest (List.singleton_inj.mp (List.append_inj' hsegs rfl).2)

/-- **Needed**: the first parent has the URL that is wanted only without a scheme. -/
lemma first_parent (hjoin : JoinsAt β join root) (hpath : root.path = .segments segs)
    (hslash : segs.getLast? = some []) (hdots : cleaned c ≠ ['.', '.'])
    (hkept : encodeSegment β (kept c) ≠ [])
    (h : Joins join root (encodeSegment β (kept c)) (parentUrl β root segs (c :: cs) 1)) :
    schemePart (encodeSegment β (kept c)) = none ∧ root.query = none ∧ root.fragment = none ∧
      segs ≠ [[], []] := by
  obtain ⟨u, hu, hcoll⟩ := h
  have hnone : schemePart (encodeSegment β (kept c)) = none := by
    cases hpart : schemePart (encodeSegment β (kept c)) with
    | none => rfl
    | some part =>
        obtain ⟨scheme, rest⟩ := part
        have hscheme : u.scheme = root.scheme := by
          rw [← asCollection_scheme, hcoll]
          rfl
        obtain ⟨segs', hsegs⟩ := segments_of_asCollection (congrArg ParsedUrl.path hcoll)
        have hres := hjoin.scheme segs _ scheme rest u segs' hpath hpart hu hscheme hsegs
        refine absurd ?_ (resolveSegment_ne hslash hkept hpart (hres ▸ hsegs))
        rw [hcoll]
        rfl
  refine ⟨hnone, ?_⟩
  have hone : ∀ b ∈ [c], cleaned b ≠ ['.', '.'] := by
    rintro b hb
    rwa [List.mem_singleton.mp hb]
  have hjoined := join_kept hjoin hpath hone (List.cons_ne_nil _ _)
    (fun h => hkept (Option.some.inj h)) (fun x hx => Option.some.inj hx ▸ hnone)
  have hsingle : ['/'].intercalate (keptSegments β [c]) = encodeSegment β (kept c) :=
    List.intercalate_singleton
  rw [hsingle, hu] at hjoined
  have hlast : (segs.dropLast ++ keptSegments β [c]).getLast? ≠ some [] := by
    have hconcat : (segs.dropLast ++ keptSegments β [c]).getLast? = some (encodeSegment β (kept c)) :=
      List.getLast?_concat
    rw [hconcat]
    exact fun h => hkept (Option.some.inj h)
  rw [Option.some.inj hjoined, asCollection_of_ne rfl hlast] at hcoll
  have hsegs := UrlPath.segments.inj (congrArg ParsedUrl.path hcoll)
  have hroot : segs.dropLast = rootSegments segs :=
    (List.append_inj' (List.append_inj' hsegs rfl).1 rfl).1
  refine ⟨(congrArg ParsedUrl.query hcoll).symm, (congrArg ParsedUrl.fragment hcoll).symm, ?_⟩
  rintro rfl
  exact absurd hroot (by decide)

/-- A parent after the first has the URL that is wanted only if its own name is not lost. -/
lemma later_parent (hjoin : JoinsAt β join root) (hpath : root.path = .segments segs)
    (hdots : ∀ c ∈ cs, cleaned c ≠ ['.', '.']) (hne : cs ≠ [])
    (hhead : (keptSegments β cs).head? ≠ some [])
    (hscheme : ∀ x, (keptSegments β cs).head? = some x → schemePart x = none)
    (hroot : rootSegments segs = segs.dropLast) {k : ℕ} (hk : k ≠ 0)
    (h : Joins join root (['/'].intercalate (keptSegments β (cs.take k))) (parentUrl β root segs cs k)) :
    (keptSegments β (cs.take k)).getLast? ≠ some [] := by
  obtain ⟨u, hu, hcoll⟩ := h
  have htake : cs.take k ≠ [] := by
    rw [Ne, List.take_eq_nil_iff]
    exact not_or.mpr ⟨hk, hne⟩
  have hjoined := join_kept hjoin hpath (fun c hc => hdots c (List.mem_of_mem_take hc)) htake
    (by rwa [keptSegments_take_head hk]) (by rwa [keptSegments_take_head hk])
  rw [hu] at hjoined
  intro hlast
  have hlast' : (segs.dropLast ++ keptSegments β (cs.take k)).getLast? = some [] := by
    rw [List.getLast?_append_of_ne_nil _ (by rwa [keptSegments, Ne, List.map_eq_nil_iff]), hlast]
  rw [Option.some.inj hjoined, asCollection_of_eq rfl hlast'] at hcoll
  have hsegs := congrArg List.length (UrlPath.segments.inj (congrArg ParsedUrl.path hcoll))
  rw [hroot, List.length_append, List.length_append, List.length_append, List.length_singleton]
    at hsegs
  omega

lemma eq_map_of_forall₂ {α γ ε : Type} {f : α → Except ε γ} {g : α → γ} {as : List α} {bs : List γ}
    (h : List.Forall₂ (fun a b => f a = .ok b) as bs) (hg : ∀ a ∈ as, f a = .ok (g a)) :
    bs = as.map g := by
  induction h with
  | nil => rfl
  | cons hhead _ ih =>
      rw [List.forall_mem_cons] at hg
      rw [List.map_cons, ← ih hg.2, Except.ok.inj (hhead.symm.trans hg.1)]

lemma solid_of_kept (hdots : cleaned c ≠ ['.', '.']) (hkept : encodeSegment β (kept c) ≠ []) : Solid c := by
  rw [kept] at hkept
  split at hkept
  · exact absurd rfl hkept
  · rename_i hdot
    exact ⟨fun h => hkept (by rw [h]; rfl), hdot, hdots⟩

lemma getLast?_take_succ {α : Type} {as : List α} {i : ℕ} (h : i < as.length) :
    (as.take (i + 1)).getLast? = some as[i] := by
  rw [List.take_succ_eq_append_getElem h, List.getLast?_concat]

/-- If there are as many requests as parents, the first names are not lost. -/
lemma whole_of_mkcols (hpath : root.path = .segments segs) (hslash : segs.getLast? = some [])
    (hone : cs.length ≠ 1) (hcount : (mkdirAll join (fun _ => true) root
      (parentRefs root (fileUrl β root segs cs)) 0).1.length = cs.length - 1) (hne : cs ≠ []) :
    (keptSegments β cs).dropWhile (· = []) = keptSegments β cs := by
  have hlength : (keptSegments β cs).length = cs.length := List.length_map _
  have hpos := List.length_pos_iff.mpr hne
  have hle := @length_mkdirAll_le join root (fun _ => true) (parentRefs root (fileUrl β root segs cs)) 0
  rw [hcount, parentRefs_fileUrl hpath hslash, List.length_map, List.length_range'] at hle
  refine (List.dropWhile_sublist _).eq_of_length_le ?_
  rw [hlength]
  omega

/-- If the requests are those that are wanted, every parent is joined and has its URL. -/
lemma joins_of_mkcols (hpath : root.path = .segments segs) (hslash : segs.getLast? = some [])
    (hne : cs ≠ []) (hnames : ∀ c ∈ cs, EntryName c) (hdots : ∀ c ∈ cs, cleaned c ≠ ['.', '.'])
    (hhead : (keptSegments β cs).head? ≠ some [])
    (hwhole : (keptSegments β cs).dropWhile (· = []) = keptSegments β cs) {urls : List ParsedUrl}
    (hurls : List.Forall₂
      (fun k u => root.joinRemotePath β (['/'].intercalate (cs.take k) ++ ['/']) = .ok u)
      (List.range' 1 (cs.length - 1)) urls)
    (hcalls : (mkdirAll join (fun _ => true) root (parentRefs root (fileUrl β root segs cs)) 0).1 =
      urls) {k : ℕ} (hk : 1 ≤ k) (hlt : k < cs.length) :
    Joins join root (['/'].intercalate (keptSegments β (cs.take k))) (parentUrl β root segs cs k) := by
  have hmap : urls = (List.range' 1 (cs.length - 1)).map (parentUrl β root segs cs) :=
    eq_map_of_forall₂ hurls fun k hk => joinRemotePath_parent hpath hslash hnames hdots hne hhead
      (Nat.one_le_iff_ne_zero.mp (List.mem_range'_1.mp hk).1)
  have hrefs : parentRefs root (fileUrl β root segs cs) = (List.range' 1 (cs.length - 1)).map
      (fun k => ['/'].intercalate (keptSegments β (cs.take k))) := by
    rw [parentRefs_fileUrl hpath hslash, hwhole, keptSegments, List.length_map]
    refine List.map_congr_left fun k _ => ?_
    rw [keptSegments, List.map_take]
  have hall := @joins_of_mkdirAll join root (parentRefs root (fileUrl β root segs cs)) 0
    (by rw [hcalls, hmap, hrefs, List.length_map, List.length_map])
  rw [hcalls, hrefs, hmap, List.forall₂_map_left_iff, List.forall₂_map_right_iff,
    List.forall₂_same] at hall
  exact hall k (List.mem_range'_1.mpr ⟨hk, by omega⟩)

/-- If every parent has the URL that is wanted, no name is lost and the first is no scheme. -/
lemma plainParents_of_mkcols (hjoin : JoinsAt β join root) (hpath : root.path = .segments segs)
    (hslash : segs.getLast? = some []) (hne : cs ≠ []) (hnames : ∀ c ∈ cs, EntryName c)
    (hdots : ∀ c ∈ cs, cleaned c ≠ ['.', '.']) (hone : cs.length ≠ 1) {urls : List ParsedUrl}
    (hurls : List.Forall₂
      (fun k u => root.joinRemotePath β (['/'].intercalate (cs.take k) ++ ['/']) = .ok u)
      (List.range' 1 (cs.length - 1)) urls)
    (hcalls : (mkdirAll join (fun _ => true) root (parentRefs root (fileUrl β root segs cs)) 0).1 =
      urls) : PlainParents β root segs cs := by
  have hpos := List.length_pos_iff.mpr hne
  have hwhole := whole_of_mkcols hpath hslash hone
    (by rw [hcalls, ← hurls.length_eq, List.length_range']) hne
  have hhead : (keptSegments β cs).head? ≠ some [] := by
    intro h
    obtain ⟨xs, hxs⟩ := List.head?_eq_some_iff.mp h
    have hle := (List.dropWhile_sublist (l := xs) (· = [])).length_le
    rw [hxs, List.dropWhile_cons_of_pos (by rfl)] at hwhole
    rw [hwhole, List.length_cons] at hle
    omega
  have hjoins : ∀ k, 1 ≤ k → k < cs.length →
      Joins join root (['/'].intercalate (keptSegments β (cs.take k))) (parentUrl β root segs cs k) :=
    fun k => joins_of_mkcols hpath hslash hne hnames hdots hhead hwhole hurls hcalls
  obtain ⟨c, rest, rfl⟩ := List.exists_cons_of_ne_nil hne
  have hsingle : ['/'].intercalate (keptSegments β ((c :: rest).take 1)) = encodeSegment β (kept c) :=
    List.intercalate_singleton
  have hfirst := hjoins 1 (le_refl 1) (by omega)
  rw [hsingle] at hfirst
  have hkept : encodeSegment β (kept c) ≠ [] := fun h => hhead (congrArg some h)
  obtain ⟨hscheme, hquery, hfragment, hroot⟩ := first_parent hjoin hpath hslash
    (hdots c List.mem_cons_self) hkept hfirst
  refine ⟨hquery, hfragment, hroot, ?_, ?_⟩
  · intro b hb
    obtain ⟨i, hi, rfl⟩ := List.mem_iff_getElem.mp hb
    rw [List.length_dropLast] at hi
    have hlast := later_parent hjoin hpath hdots hne hhead
      (fun x hx => Option.some.inj hx ▸ hscheme) (rootSegments_of_slash hslash hroot)
      (Nat.succ_ne_zero i) (hjoins (i + 1) (Nat.le_add_left 1 i) (by omega))
    rw [List.getElem_dropLast]
    exact solid_of_kept (hdots _ (List.getElem_mem _))
      (fun h => hlast (by
        rw [keptSegments, List.map_take, getLast?_take_succ (by rw [List.length_map]; omega),
          List.getElem_map, h]))
  · intro b hb
    obtain rfl := Option.some.inj hb
    rwa [kept, if_neg (solid_of_kept (hdots c List.mem_cons_self) hkept).dot] at hscheme

/-- A file at the top has no parents. -/
lemma mkcols_of_single (hpath : root.path = .segments segs) (hslash : segs.getLast? = some [])
    (hnames : ∀ c ∈ cs, EntryName c) (hdots : ∀ c ∈ cs, cleaned c ≠ ['.', '.'])
    (hone : cs.length = 1) : MkcolsExact β join root cs := by
  have hne : cs ≠ [] := List.ne_nil_of_length_pos (hone ▸ Nat.one_pos)
  refine ⟨_, [], joinRemotePath_kept hpath hnames hdots hne, ?_, fun accepted => ?_⟩
  · rw [hone]
    exact .nil
  · have hle := (List.dropWhile_sublist (l := keptSegments β cs) (· = [])).length_le
    rw [keptSegments, List.length_map, hone] at hle
    rw [ParsedUrl.ensureParentCollections, parentRefs_fileUrl hpath hslash, keptSegments,
      Nat.sub_eq_zero_of_le hle]
    rfl

lemma mkcols_of_plainParents (hjoin : JoinsAt β join root) (hpath : root.path = .segments segs)
    (hslash : segs.getLast? = some []) (hne : cs ≠ []) (hnames : ∀ c ∈ cs, EntryName c)
    (hdots : ∀ c ∈ cs, cleaned c ≠ ['.', '.']) (hone : cs.length ≠ 1)
    (hplain : PlainParents β root segs cs) : MkcolsExact β join root cs := by
  have hpos := List.length_pos_iff.mpr hne
  have hhead : (keptSegments β cs).head? ≠ some [] := by
    rw [← keptSegments_take_head Nat.one_ne_zero]
    exact fun h => hplain.ne_nil (k := 1) (by omega) [] (List.mem_of_head? h) rfl
  have hwhole : (keptSegments β cs).dropWhile (· = []) = keptSegments β cs := by
    obtain ⟨c, cs, rfl⟩ := List.exists_cons_of_ne_nil hne
    refine List.dropWhile_cons_of_neg ?_
    rw [decide_eq_true_iff]
    exact fun h => hhead (congrArg some h)
  have hrange : ∀ k ∈ List.range' 1 (cs.length - 1), k ≠ 0 ∧ k < cs.length := by
    intro k hk
    rw [List.mem_range'_1] at hk
    omega
  refine ⟨_, (List.range' 1 (cs.length - 1)).map (parentUrl β root segs cs),
    joinRemotePath_kept hpath hnames hdots hne, ?_, fun accepted => ?_⟩
  · rw [List.forall₂_map_right_iff, List.forall₂_same]
    exact fun k hk => joinRemotePath_parent hpath hslash hnames hdots hne hhead (hrange k hk).1
  · rw [ParsedUrl.ensureParentCollections]
    refine mkdirAll_of_joins ?_ accepted 0
    rw [parentRefs_fileUrl hpath hslash, hwhole, keptSegments, List.length_map,
      List.forall₂_map_left_iff, List.forall₂_map_right_iff, List.forall₂_same]
    intro k hk
    rw [← List.map_take]
    exact joins_parentUrl hjoin hpath hslash hdots hplain (hrange k hk).1 (hrange k hk).2

lemma plainFile_of_mkcols (hjoin : JoinsAt β join root) (hpath : root.path = .segments segs)
    (hslash : segs.getLast? = some []) (hne : cs ≠ []) (hnames : ∀ c ∈ cs, EntryName c)
    (hdots : ∀ c ∈ cs, cleaned c ≠ ['.', '.']) (h : MkcolsExact β join root cs) :
    PlainFile β root segs cs := by
  obtain ⟨remote, urls, hremote, hurls, hcalls⟩ := h
  obtain rfl := Except.ok.inj ((joinRemotePath_kept hpath hnames hdots hne).symm.trans hremote)
  refine ⟨hdots, ?_⟩
  by_cases hone : cs.length = 1
  · exact .inl hone
  · refine .inr (plainParents_of_mkcols hjoin hpath hslash hne hnames hdots hone hurls ?_)
    have htrue := hcalls (fun _ => true)
    rwa [upToRefused_true] at htrue

/-- **The parents of a file are created at their own URLs** if it is a plain file, for every web space
and every path, whatever the server accepts; and, where no name is `..` without the three characters,
only then. -/
theorem mkcolsExact_plain (hjoin : JoinsReferences β join) (hweb : root.Web)
    (hpath : root.path = .segments segs) (hslash : segs.getLast? = some []) (hne : cs ≠ [])
    (hnames : ∀ c ∈ cs, EntryName c) :
    (PlainFile β root segs cs → MkcolsExact β join root cs) ∧
      ((∀ c ∈ cs, cleaned c ≠ ['.', '.']) → MkcolsExact β join root cs → PlainFile β root segs cs) := by
  refine ⟨fun hplain => ?_, plainFile_of_mkcols (hjoin root hweb) hpath hslash hne hnames⟩
  by_cases hone : cs.length = 1
  · exact mkcols_of_single hpath hslash hnames hplain.dots hone
  · exact mkcols_of_plainParents (hjoin root hweb) hpath hslash hne hnames hplain.dots hone
      (hplain.parents.resolve_left hone)

/-! ## A library that joins -/

/-- What becomes of a reference without query and fragment, where the URL has a path. -/
def webJoin (root : ParsedUrl) (ref : Str) : Option ParsedUrl :=
  match root.path, schemePart ref with
  | .segments segs, none =>
      some { root with
        path := .segments (segs.dropLast ++ ref.splitOn '/'), query := none, fragment := none }
  | .segments segs, some (scheme, rest) =>
      if scheme.map Char.toLower = root.scheme then
        some { root with
          path := .segments (resolveSegment segs rest), query := none, fragment := none }
      else
        some {
          scheme := scheme.map Char.toLower
          authority := none
          path := .cannotBeABase rest
          query := none
          fragment := none }
  | .cannotBeABase _, _ => none

lemma joinsAt_webJoin (root : ParsedUrl) : JoinsAt β webJoin root where
  relative segs ds hpath hne _ _ hscheme := by
    have hslash : ∀ x ∈ ds.map (encodeSegment β), '/' ∉ x := by
      intro x hx
      obtain ⟨d, -, rfl⟩ := List.mem_map.mp hx
      exact slash_not_mem_encodeSegment _
    have hsplit := List.splitOn_intercalate '/' hslash (by rwa [Ne, List.map_eq_nil_iff])
    rw [webJoin, hpath, hscheme]
    dsimp only
    rw [hsplit]
  scheme segs d scheme rest u segs' hpath hpart hu hsame hsegs := by
    rw [webJoin, hpath, hpart] at hu
    dsimp only at hu
    split at hu
    · rw [← Option.some.inj hu] at hsegs
      exact (UrlPath.segments.inj hsegs).symm
    · rename_i hother
      rw [← Option.some.inj hu] at hsame
      exact absurd hsame hother

private lemma spaceDav_path : spaceDav.path = .segments ["dav".toList, []] := rfl

/-- The theorem at `a/b.txt`. -/
theorem mkcolsExact_notes : MkcolsExact specialPathSegment webJoin spaceDav ["a".toList, "b.txt".toList] :=
  (mkcolsExact_plain (fun root _ => joinsAt_webJoin root) (by decide) spaceDav_path rfl (by decide)
    (by decide)).1
    ⟨by decide, .inr ⟨rfl, rfl, by decide, by decide, fun c hc => by
      rw [← Option.some.inj hc]
      decide⟩⟩

/-- `x:` is read as a scheme. -/
theorem colon_not_mkcolsExact :
    ¬ MkcolsExact specialPathSegment webJoin spaceDav ["x:y".toList, "z".toList] := by
  intro h
  have hplain := plainFile_of_mkcols (joinsAt_webJoin spaceDav) spaceDav_path rfl (by decide)
    (by decide) (by decide) h
  rcases hplain.parents with hone | hparents
  · exact absurd hone (by decide)
  · exact absurd (hparents.scheme _ rfl) (by decide)

end OwncloudSync
