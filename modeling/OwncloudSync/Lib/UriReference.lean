import OwncloudSync.Lib.Text
import Mathlib.Tactic.Common

/-!
# References

The generic syntax of URIs: `parse` cuts a text in scheme, authority, path, query and fragment, and
`resolve` is the standard algorithm that makes a URI of a reference and a base.

`removeDots` takes the segments `.` and `..` out of a path.  It does so once and for all
(`removeDots_idem`), and a path without them stays as it is (`removeDots_of_plain`).

`Same` is equality up to what the generic syntax allows: the case of the scheme, segments that are dots,
and a path that is empty behind an authority.  What an authority names is a parameter.
-/

namespace Uri

/-! ## Components -/

/-- A URI reference, taken apart. -/
structure Reference where
  scheme : Option (List Char)
  authority : Option (List Char)
  path : List Char
  query : Option (List Char)
  fragment : Option (List Char)
  deriving DecidableEq

/-- No authority goes on behind one of these. -/
def endsAuthority (c : Char) : Bool := c == '/' || c == '?' || c == '#'

/-- A path ends before the query or the fragment. -/
def endsPath (c : Char) : Bool := c == '?' || c == '#'

/-- The path that a text begins with. -/
def pathOf (s : List Char) : List Char := s.takeWhile (fun c => !endsPath c)

/-- The query of a text, if it has one. -/
def queryOf (s : List Char) : Option (List Char) :=
  match s.dropWhile (fun c => !endsPath c) with
  | '?' :: t => some (t.takeWhile (· ≠ '#'))
  | _ => none

/-- The fragment of a text, if it has one. -/
def fragmentOf (s : List Char) : Option (List Char) :=
  match s.dropWhile (· ≠ '#') with
  | _ :: t => some t
  | [] => none

/-- The reference of a text that begins with an authority. -/
def withAuthority (scheme : Option (List Char)) (s : List Char) : Reference where
  scheme := scheme
  authority := some (s.takeWhile (fun c => !endsAuthority c))
  path := pathOf (s.dropWhile (fun c => !endsAuthority c))
  query := queryOf (s.dropWhile (fun c => !endsAuthority c))
  fragment := fragmentOf (s.dropWhile (fun c => !endsAuthority c))

/-- What stands behind the scheme. -/
def parseRest (scheme : Option (List Char)) (s : List Char) : Reference :=
  match s with
  | '/' :: '/' :: t => withAuthority scheme t
  | _ => ⟨scheme, none, pathOf s, queryOf s, fragmentOf s⟩

/-- The scheme, and what stands behind its colon. -/
def cutScheme (s : List Char) : Option (List Char × List Char) :=
  match s.dropWhile (fun c => !(c == ':' || endsAuthority c)) with
  | ':' :: t =>
      let scheme := s.takeWhile (fun c => !(c == ':' || endsAuthority c))
      if scheme = [] then none else some (scheme, t)
  | _ => none

/-- The parts of a text. -/
def parse (s : List Char) : Reference :=
  match cutScheme s with
  | some (scheme, t) => parseRest (some scheme) t
  | none => parseRest none s

/-! ## Dots -/

/-- A dot segment. -/
def isDots (s : List Char) : Bool := s = ['.'] || s = ['.', '.']

/-- No part between the slashes is dots. -/
def Plain (path : List Char) : Prop := ∀ s ∈ path.splitOn '/', isDots s = false

/-- The segments behind a slash, one after the other, with what was put out before them. -/
def putOut (out : List (List Char)) : List (List Char) → List (List Char)
  | [] => out
  | [s] =>
      if s = ['.'] then out ++ [['/']]
      else if s = ['.', '.'] then out.dropLast ++ [['/']]
      else out ++ ['/' :: s]
  | s :: t :: segs =>
      if s = ['.'] then putOut out (t :: segs)
      else if s = ['.', '.'] then putOut out.dropLast (t :: segs)
      else putOut (out ++ ['/' :: s]) (t :: segs)

/-- The path without dot segments. -/
def removeDots (path : List Char) : List Char :=
  match path with
  | '/' :: p => (putOut [] (p.splitOn '/')).flatten
  | p =>
      match (p.splitOn '/').dropWhile isDots with
      | [] => []
      | s :: segs => (putOut [s] segs).flatten

/-! ## Resolution -/

/-- A relative path is put in the place of what stands behind the last slash of the base. -/
def mergePath (base : Reference) (path : List Char) : List Char :=
  if base.authority ≠ none ∧ base.path = [] then '/' :: path
  else base.path.rdropWhile (· ≠ '/') ++ path

/-- The path of the target, for a reference without an authority. -/
def resolvePath (base : Reference) (path : List Char) : List Char :=
  if path = [] then base.path
  else if path.head? = some '/' then removeDots path
  else removeDots (mergePath base path)

/-- The target of a reference against a base. -/
def resolve (base r : Reference) : Reference :=
  if r.scheme ≠ none then { r with path := removeDots r.path }
  else if r.authority ≠ none then { r with scheme := base.scheme, path := removeDots r.path }
  else
    { scheme := base.scheme
      authority := base.authority
      path := resolvePath base r.path
      query := if r.path = [] ∧ r.query = none then base.query else r.query
      fragment := r.fragment }

/-! ## Equality -/

/-- A path without dots; behind an authority there is at least a slash. -/
def plainPath (authority : Option (List Char)) (path : List Char) : List Char :=
  if authority ≠ none ∧ removeDots path = [] then ['/'] else removeDots path

/-- The same URI; `named` is what an authority names under a scheme. -/
structure Same {α : Type} (named : Option (List Char) → List Char → α) (r r' : Reference) : Prop where
  scheme : r.scheme.map (List.map Char.toLower) = r'.scheme.map (List.map Char.toLower)
  authority : r.authority.map (named (r.scheme.map (List.map Char.toLower))) =
    r'.authority.map (named (r'.scheme.map (List.map Char.toLower)))
  path : plainPath r.authority r.path = plainPath r'.authority r'.path
  query : r.query = r'.query
  fragment : r.fragment = r'.fragment

variable {s t auth path : List Char} {scheme : Option (List Char)} {out segs : List (List Char)}

/-! ## Cutting -/

lemma cutScheme_append {name : List Char} (hne : name ≠ [])
    (hname : name.all (fun c => !(c == ':' || endsAuthority c)) = true) (t : List Char) :
    cutScheme (name ++ ':' :: t) = some (name, t) := by
  have hall := List.all_eq_true.mp hname
  have hcolon : (!(':' == ':' || endsAuthority ':')) = false := by decide
  have htake : (name ++ ':' :: t).takeWhile (fun c => !(c == ':' || endsAuthority c)) = name := by
    rw [List.takeWhile_append_of_pos hall, List.takeWhile_cons_of_neg (by rw [hcolon]; decide),
      List.append_nil]
  rw [cutScheme, List.dropWhile_append_of_pos hall,
    List.dropWhile_cons_of_neg (by rw [hcolon]; decide)]
  dsimp only
  rw [htake]
  exact if_neg hne

lemma eq_of_cutScheme {name : List Char} (h : cutScheme s = some (name, t)) :
    (∀ c ∈ name, endsAuthority c = false) ∧ s = name ++ ':' :: t := by
  rw [cutScheme] at h
  split at h
  · rename_i rest hrest
    dsimp only at h
    split at h
    · cases h
    obtain ⟨rfl, rfl⟩ := Prod.mk.inj (Option.some.inj h)
    refine ⟨fun c hc => ?_, ?_⟩
    · have hneg := List.mem_takeWhile_imp hc
      rw [Bool.not_eq_true', Bool.or_eq_false_iff] at hneg
      exact hneg.2
    · rw [← hrest, List.takeWhile_append_dropWhile]
  · cases h

/-- What is cut off an authority that goes on. -/
lemma withAuthority_append (hauth : ∀ c ∈ auth, endsAuthority c = false) (s : List Char) :
    withAuthority scheme (auth ++ s) = { withAuthority scheme s with
      authority := some (auth ++ s.takeWhile (fun c => !endsAuthority c)) } := by
  have hall : ∀ c ∈ auth, (!endsAuthority c) = true := by
    intro c hc
    rw [hauth c hc]
    rfl
  rw [withAuthority, withAuthority, List.takeWhile_append_of_pos hall,
    List.dropWhile_append_of_pos hall]

lemma endsPath_of_endsAuthority {c : Char} (h : endsAuthority c = false) : endsPath c = false := by
  rw [endsAuthority, Bool.or_assoc, Bool.or_eq_false_iff] at h
  exact h.2

/-- Before the first delimiter there is nothing but path. -/
lemma tail_append (hauth : ∀ c ∈ auth, endsAuthority c = false) (s : List Char) :
    pathOf (auth ++ s) = auth ++ pathOf s ∧ queryOf (auth ++ s) = queryOf s ∧
      fragmentOf (auth ++ s) = fragmentOf s := by
  have hpath : ∀ c ∈ auth, (!endsPath c) = true := by
    intro c hc
    rw [endsPath_of_endsAuthority (hauth c hc)]
    rfl
  have hhash : ∀ c ∈ auth, decide (c ≠ '#') = true := by
    intro c hc
    rw [decide_eq_true_iff]
    rintro rfl
    exact absurd (hauth _ hc) (by decide)
  refine ⟨?_, ?_, ?_⟩
  · rw [pathOf, pathOf, List.takeWhile_append_of_pos hpath]
  · rw [queryOf, queryOf, List.dropWhile_append_of_pos hpath]
  · rw [fragmentOf, fragmentOf, List.dropWhile_append_of_pos hhash]

/-- What stands behind the first delimiter. -/
lemma tail_dropWhile (s : List Char) :
    pathOf s = s.takeWhile (fun c => !endsAuthority c) ++
        pathOf (s.dropWhile (fun c => !endsAuthority c)) ∧
      queryOf s = queryOf (s.dropWhile (fun c => !endsAuthority c)) ∧
      fragmentOf s = fragmentOf (s.dropWhile (fun c => !endsAuthority c)) := by
  have htake : ∀ c ∈ s.takeWhile (fun c => !endsAuthority c), endsAuthority c = false := by
    intro c hc
    have hneg := List.mem_takeWhile_imp hc
    rwa [Bool.not_eq_true'] at hneg
  have happend := tail_append htake (s.dropWhile (fun c => !endsAuthority c))
  rwa [List.takeWhile_append_dropWhile] at happend

/-- The path behind an authority is empty or begins with a slash. -/
lemma pathOf_dropWhile (s : List Char) :
    pathOf (s.dropWhile (fun c => !endsAuthority c)) = [] ∨
      ∃ t, pathOf (s.dropWhile (fun c => !endsAuthority c)) = '/' :: t := by
  cases h : s.dropWhile (fun c => !endsAuthority c) with
  | nil => exact .inl rfl
  | cons c t =>
      have hends : endsAuthority c = true := by
        have hhead := List.head_dropWhile_not (fun c => !endsAuthority c) (l := s)
          (by rw [h]; exact List.cons_ne_nil _ _)
        simpa [h] using hhead
      by_cases hc : c = '/'
      · subst hc
        exact .inr ⟨_, List.takeWhile_cons_of_pos (by decide)⟩
      · refine .inl (List.takeWhile_cons_of_neg ?_)
        rw [endsAuthority, Bool.or_assoc, Bool.or_eq_true, beq_iff_eq] at hends
        have hpath : endsPath c = true := hends.resolve_left hc
        rw [hpath]
        decide

/-! ## Paths without dots -/

lemma putOut_of_plain (h : ∀ s ∈ segs, isDots s = false) :
    putOut out segs = out ++ segs.map (List.cons '/') := by
  induction segs generalizing out with
  | nil => exact (List.append_nil out).symm
  | cons s segs ih =>
      rw [List.forall_mem_cons] at h
      have hdots := h.1
      rw [isDots, Bool.or_eq_false_iff, decide_eq_false_iff_not, decide_eq_false_iff_not] at hdots
      cases segs with
      | nil => rw [putOut, if_neg hdots.1, if_neg hdots.2]; rfl
      | cons t segs =>
          rw [putOut, if_neg hdots.1, if_neg hdots.2, ih h.2, List.append_assoc]
          rfl

/-- A slash before each segment is a slash before the text. -/
lemma flatten_slash (h : segs ≠ []) :
    (segs.map (List.cons '/')).flatten = '/' :: ['/'].intercalate segs := by
  obtain ⟨s, segs, rfl⟩ := List.exists_cons_of_ne_nil h
  clear h
  induction segs generalizing s with
  | nil => simp
  | cons t segs ih =>
      rw [List.map_cons, List.flatten_cons, ih, List.intercalate_cons_cons]
      simp

lemma plain_append_slash : Plain (s ++ '/' :: t) ↔ Plain s ∧ Plain t := by
  rw [Plain, List.splitOn_append_cons_self, List.forall_mem_append]
  rfl

lemma plain_slash : Plain ('/' :: t) ↔ Plain t :=
  plain_append_slash (s := []).trans (and_iff_right (by unfold Plain; decide))

/-- A path without dots stays as it is. -/
lemma removeDots_of_plain (h : Plain t) : removeDots ('/' :: t) = '/' :: t := by
  rw [removeDots, putOut_of_plain h, List.nil_append, flatten_slash (List.splitOn_ne_nil '/' t),
    List.intercalate_splitOn]

/-- What is put out: a slash and a segment that is not dots. -/
def IsPart (t : List Char) : Prop := ∃ s, t = '/' :: s ∧ '/' ∉ s ∧ isDots s = false

lemma putOut_parts (hout : ∀ t ∈ out, IsPart t) (hsegs : ∀ s ∈ segs, '/' ∉ s) :
    ∀ t ∈ putOut out segs, IsPart t := by
  have hslash : IsPart ['/'] := ⟨[], rfl, List.not_mem_nil, rfl⟩
  have hconcat : ∀ {out : List (List Char)} {t}, (∀ t ∈ out, IsPart t) → IsPart t →
      ∀ u ∈ out ++ [t], IsPart u := by
    intro out t hout ht u hu
    rcases List.mem_append.mp hu with hu | hu
    · exact hout u hu
    · exact List.mem_singleton.mp hu ▸ ht
  have hdrop : ∀ {out : List (List Char)}, (∀ t ∈ out, IsPart t) → ∀ t ∈ out.dropLast, IsPart t :=
    fun hout t ht => hout t (List.dropLast_subset _ ht)
  have hpart : ∀ {s : List Char}, '/' ∉ s → s ≠ ['.'] → s ≠ ['.', '.'] → IsPart ('/' :: s) := by
    intro s hs hdot hdots
    exact ⟨s, rfl, hs, by rw [isDots, decide_eq_false hdot, decide_eq_false hdots]; rfl⟩
  induction segs generalizing out with
  | nil => exact hout
  | cons s segs ih =>
      rw [List.forall_mem_cons] at hsegs
      cases segs with
      | nil =>
          rw [putOut]
          split
          · exact hconcat hout hslash
          split
          · exact hconcat (hdrop hout) hslash
          · exact hconcat hout (hpart hsegs.1 ‹_› ‹_›)
      | cons t segs =>
          rw [putOut]
          split
          · exact ih hout hsegs.2
          split
          · exact ih (hdrop hout) hsegs.2
          · exact ih (hconcat hout (hpart hsegs.1 ‹_› ‹_›)) hsegs.2

lemma exists_segments (h : ∀ t ∈ out, IsPart t) :
    ∃ segs : List (List Char), out = segs.map (List.cons '/') ∧ ∀ s ∈ segs, '/' ∉ s ∧ isDots s = false := by
  induction out with
  | nil => exact ⟨[], rfl, by simp⟩
  | cons t out ih =>
      rw [List.forall_mem_cons] at h
      obtain ⟨s, rfl, hs⟩ := h.1
      obtain ⟨segs, rfl, hsegs⟩ := ih h.2
      exact ⟨s :: segs, rfl, List.forall_mem_cons.mpr ⟨hs, hsegs⟩⟩

lemma putOut_ne_nil (h : segs ≠ []) : putOut out segs ≠ [] := by
  induction segs generalizing out with
  | nil => exact absurd rfl h
  | cons s segs ih =>
      cases segs with
      | nil =>
          rw [putOut]
          split
          · exact List.append_ne_nil_of_right_ne_nil _ (List.cons_ne_nil _ _)
          split
          · exact List.append_ne_nil_of_right_ne_nil _ (List.cons_ne_nil _ _)
          · exact List.append_ne_nil_of_right_ne_nil _ (List.cons_ne_nil _ _)
      | cons t segs =>
          rw [putOut]
          split
          · exact ih (List.cons_ne_nil _ _)
          split
          · exact ih (List.cons_ne_nil _ _)
          · exact ih (List.cons_ne_nil _ _)

/-- The dots are removed **once and for all**. -/
lemma removeDots_idem (h : path = [] ∨ ∃ p, path = '/' :: p) :
    removeDots (removeDots path) = removeDots path := by
  rcases h with rfl | ⟨p, rfl⟩
  · rfl
  have hparts : ∀ t ∈ putOut [] (p.splitOn '/'), IsPart t :=
    putOut_parts (by simp) (fun s hs => Text.not_mem_of_mem_splitOn hs)
  obtain ⟨segs, hsegs, hplain⟩ := exists_segments hparts
  have hne : segs ≠ [] := by
    rintro rfl
    exact putOut_ne_nil (List.splitOn_ne_nil '/' p) hsegs
  have hout : removeDots ('/' :: p) = '/' :: ['/'].intercalate segs := by
    rw [removeDots, hsegs, flatten_slash hne]
  rw [hout]
  refine removeDots_of_plain ?_
  rw [Plain, List.splitOn_intercalate '/' (fun s hs => (hplain s hs).1) hne]
  exact fun s hs => (hplain s hs).2

lemma plainPath_removeDots (auth : Option (List Char)) (h : path = [] ∨ ∃ t, path = '/' :: t) :
    plainPath auth (removeDots path) = plainPath auth path := by
  rw [plainPath, removeDots_idem h]
  rfl

lemma plainPath_of_plain (auth : Option (List Char)) (h : Plain t) :
    plainPath auth ('/' :: t) = '/' :: t := by
  rw [plainPath, removeDots_of_plain h, if_neg (fun h => List.cons_ne_nil _ _ h.2)]

lemma length_plainPath_le (auth : Option (List Char)) (hpath : path = [] ∨ ∃ t, path = '/' :: t)
    (h : Plain path) : (plainPath auth path).length ≤ max 1 path.length := by
  rcases hpath with rfl | ⟨t, rfl⟩
  · rw [plainPath]
    split
    · exact le_refl 1
    · exact Nat.zero_le _
  · rw [plainPath_of_plain auth (plain_slash.mp h)]
    exact le_max_right _ _

/-- If the path goes on with a slash or not at all, what goes on has no dots either. -/
lemma plain_of_append (h : Plain (s ++ path)) (hpath : path = [] ∨ ∃ t, path = '/' :: t) : Plain path := by
  rcases hpath with rfl | ⟨t, rfl⟩
  · unfold Plain
    decide
  · exact plain_slash.mpr (plain_append_slash.mp h).2

/-- The directory of a path is what stands before its last slash. -/
lemma exists_directory (hslash : '/' ∈ path) :
    ∃ dir file, path = dir ++ '/' :: file ∧ path.rdropWhile (· ≠ '/') = dir ++ ['/'] := by
  have hne : path.rdropWhile (· ≠ '/') ≠ [] := by
    rw [Ne, List.rdropWhile_eq_nil_iff]
    exact fun h => absurd (h '/' hslash) (by decide)
  have hlast : (path.rdropWhile (· ≠ '/')).getLast hne = '/' := by
    have hstop := List.rdropWhile_last_not _ _ hne
    rwa [decide_eq_true_iff, not_not] at hstop
  have hdir : (path.rdropWhile (· ≠ '/')).dropLast ++ ['/'] = path.rdropWhile (· ≠ '/') := by
    have hconcat := List.dropLast_append_getLast hne
    rwa [hlast] at hconcat
  refine ⟨_, path.rtakeWhile (· ≠ '/'), ?_, hdir.symm⟩
  rw [List.append_cons, hdir]
  exact List.rdropWhile_append_rtakeWhile.symm

/-- A path that begins with a slash has no name before it. -/
lemma takeWhile_of_pathOf (h : pathOf s = '/' :: t) : s.takeWhile (fun c => !endsAuthority c) = [] := by
  cases s with
  | nil => cases h
  | cons c s =>
      rw [pathOf, List.takeWhile_cons] at h
      split at h
      · obtain rfl := (List.cons.inj h).1
        exact List.takeWhile_cons_of_neg (by decide)
      · cases h

/-! ## Resolving -/

variable {base ref : Reference}

lemma resolve_of_scheme (h : ref.scheme ≠ none) :
    resolve base ref = { ref with path := removeDots ref.path } := if_pos h

lemma resolve_of_authority (hscheme : ref.scheme = none) (h : ref.authority ≠ none) :
    resolve base ref = { ref with scheme := base.scheme, path := removeDots ref.path } := by
  rw [resolve, if_neg (not_not.mpr hscheme), if_pos h]

lemma resolve_relative (hscheme : ref.scheme = none) (h : ref.authority = none) :
    resolve base ref =
      { scheme := base.scheme
        authority := base.authority
        path := resolvePath base ref.path
        query := if ref.path = [] ∧ ref.query = none then base.query else ref.query
        fragment := ref.fragment } := by
  rw [resolve, if_neg (not_not.mpr hscheme), if_neg (not_not.mpr h)]

/-- Behind the scheme, behind two slashes, or neither. -/
lemma parse_cases (s : List Char) :
    (parse s = ⟨none, none, pathOf s, queryOf s, fragmentOf s⟩) ∨
    (∃ t, s = '/' :: '/' :: t ∧ parse s = withAuthority none t) ∨
    (∃ name t, parse s = ⟨some name, none, pathOf t, queryOf t, fragmentOf t⟩) ∨
    (∃ name t, (∀ c ∈ name, endsAuthority c = false) ∧ s = name ++ ':' :: '/' :: '/' :: t ∧
      parse s = withAuthority (some name) t) := by
  rw [parse]
  cases hcut : cutScheme s with
  | none =>
      dsimp only
      by_cases hslash : ∃ t, s = '/' :: '/' :: t
      · obtain ⟨t, rfl⟩ := hslash
        exact .inr (.inl ⟨t, rfl, rfl⟩)
      · refine .inl ?_
        rw [parseRest]
        intro t ht
        exact hslash ⟨t, ht⟩
  | some cut =>
      obtain ⟨name, t⟩ := cut
      obtain ⟨hname, rfl⟩ := eq_of_cutScheme hcut
      dsimp only
      by_cases hslash : ∃ u, t = '/' :: '/' :: u
      · obtain ⟨u, rfl⟩ := hslash
        exact .inr (.inr (.inr ⟨name, u, hname, rfl, rfl⟩))
      · refine .inr (.inr (.inl ⟨name, t, ?_⟩))
        rw [parseRest]
        intro u hu
        exact hslash ⟨u, hu⟩

end Uri
