import OwncloudSync.Engine.Requests
import OwncloudSync.Lib.UriReference
import Mathlib.Tactic.Common

/-!
# The Location of an upload

The server answers the POST of `upload_tus` with the place where the file goes.  `patchText` takes the
place as it is if it begins with `http://` or `https://`, and otherwise writes scheme, host and port of
the POST before it, **whatever kind of reference it is**.

`resolves_plain` compares this with the standard algorithm: the two agree for web URLs and absolute
paths, and for little else.
-/

namespace OwncloudSync

/-- Host and port, as a URL is written. -/
def Origin.authority (o : Origin) : Str :=
  match o.port with
  | some port => o.host ++ ':' :: Nat.toDigits 10 port
  | none => o.host

/-- The URL of the POST: a web URL, as the parser leaves it. -/
structure CreationUrl where
  origin : Origin
  /-- name and password before the host -/
  userinfo : Option Str
  path : Str
  query : Option Str
  fragment : Option Str
  web : origin.scheme = "http".toList ∨ origin.scheme = "https".toList
  named : ∀ c ∈ origin.host, Uri.endsAuthority c = false
  rooted : path.head? = some '/'
  plain : Uri.Plain path

/-- The URL as a request goes by it. -/
def CreationUrl.url (u : CreationUrl) : Url := ⟨u.origin, u.path⟩

/-- The URL as a base that references are resolved against. -/
def CreationUrl.reference (u : CreationUrl) : Uri.Reference where
  scheme := some u.origin.scheme
  authority := some (match u.userinfo with
    | some user => user ++ '@' :: u.origin.authority
    | none => u.origin.authority)
  path := u.path
  query := u.query
  fragment := u.fragment

/-- **The PATCH goes to the URI that the reference stands for**; `named` is what an authority names. -/
def Resolves {α : Type} (named : Option Str → Str → α) (u : CreationUrl) (location : Str) : Prop :=
  Uri.Same named (Uri.parse (patchText u.url location))
    (Uri.resolve u.reference (Uri.parse location))

/-- A web URL with its scheme in small letters; or an absolute path, or what keeps the path, the latter
only where the path of the POST is a slash. -/
def PlainLocation (u : CreationUrl) (location : Str) : Prop :=
  "http://".toList <+: location ∨ "https://".toList <+: location ∨
    (Uri.parse location).scheme = none ∧ (Uri.parse location).authority = none ∧ u.userinfo = none ∧
      ((Uri.parse location).path.head? = some '/' ∨
        (Uri.parse location).path = [] ∧ u.path = ['/'] ∧
          ((Uri.parse location).query = none → u.query = none))

variable {α : Type} {named : Option Str → Str → α} {u : CreationUrl} {location : Str}

/-! ## The text of the PATCH -/

lemma patchText_web (h : "http://".toList <+: location ∨ "https://".toList <+: location) :
    patchText u.url location = location := if_pos h

lemma patchText_written (h : ¬ ("http://".toList <+: location ∨ "https://".toList <+: location)) :
    patchText u.url location =
      u.origin.scheme ++ ':' :: '/' :: '/' :: (u.origin.authority ++ location) := by
  rw [patchText, if_neg h, Origin.authority]
  cases hport : u.origin.port <;> simp [CreationUrl.url, hport]

lemma endsAuthority_authority (u : CreationUrl) :
    ∀ c ∈ u.origin.authority, Uri.endsAuthority c = false := by
  intro c hc
  rw [Origin.authority] at hc
  split at hc
  · rename_i port hport
    rcases List.mem_append.mp hc with hc | hc
    · exact u.named c hc
    rcases List.mem_cons.mp hc with rfl | hc
    · rfl
    · have hdigit := Nat.isDigit_of_mem_toDigits (by decide) (by decide) hc
      by_contra hends
      rw [Bool.not_eq_false, Uri.endsAuthority, Bool.or_eq_true, Bool.or_eq_true, beq_iff_eq,
        beq_iff_eq, beq_iff_eq] at hends
      rcases hends with (rfl | rfl) | rfl
      · exact absurd hdigit (by decide)
      · exact absurd hdigit (by decide)
      · exact absurd hdigit (by decide)
  · exact u.named c hc

lemma cutScheme_web (u : CreationUrl) (t : Str) :
    Uri.cutScheme (u.origin.scheme ++ ':' :: t) = some (u.origin.scheme, t) := by
  rcases u.web with h | h <;> rw [h] <;> exact Uri.cutScheme_append (by decide) (by decide) t

/-- What the text names: whatever goes before the first slash of the place belongs to the authority. -/
lemma parse_written (h : ¬ ("http://".toList <+: location ∨ "https://".toList <+: location)) :
    Uri.parse (patchText u.url location) = { Uri.withAuthority (some u.origin.scheme) location with
      authority := some (u.origin.authority ++
        location.takeWhile (fun c => !Uri.endsAuthority c)) } := by
  rw [patchText_written h, Uri.parse, cutScheme_web]
  exact Uri.withAuthority_append (endsAuthority_authority u) location

/-! ## References that are resolved -/

lemma resolves_web (h : "http://".toList <+: location ∨ "https://".toList <+: location) :
    Resolves named u location := by
  have hparse : ∃ name t, Uri.parse location = Uri.withAuthority (some name) t := by
    rcases h with ⟨t, rfl⟩ | ⟨t, rfl⟩
    · exact ⟨"http".toList, t, by
        rw [Uri.parse, show "http://".toList ++ t = "http".toList ++ ':' :: '/' :: '/' :: t from rfl,
          Uri.cutScheme_append (by decide) (by decide)]
        rfl⟩
    · exact ⟨"https".toList, t, by
        rw [Uri.parse, show "https://".toList ++ t = "https".toList ++ ':' :: '/' :: '/' :: t from rfl,
          Uri.cutScheme_append (by decide) (by decide)]
        rfl⟩
  obtain ⟨name, t, hparse⟩ := hparse
  rw [Resolves, patchText_web h, hparse, Uri.resolve_of_scheme (Option.some_ne_none name)]
  exact ⟨rfl, rfl, (Uri.plainPath_removeDots _ (Uri.pathOf_dropWhile t)).symm, rfl, rfl⟩

/-- A reference without scheme and authority, whose path does not begin with a name. -/
lemma resolves_relative
    (hnot : ¬ ("http://".toList <+: location ∨ "https://".toList <+: location))
    (hparse : Uri.parse location =
      ⟨none, none, Uri.pathOf location, Uri.queryOf location, Uri.fragmentOf location⟩)
    (hname : location.takeWhile (fun c => !Uri.endsAuthority c) = []) (huser : u.userinfo = none)
    (hpath : Uri.plainPath u.reference.authority (Uri.pathOf location) =
      Uri.plainPath u.reference.authority (Uri.resolvePath u.reference (Uri.pathOf location)))
    (hquery : Uri.pathOf location = [] ∧ Uri.queryOf location = none → u.query = none) :
    Resolves named u location := by
  have hauth : u.reference.authority = some u.origin.authority := by
    rw [CreationUrl.reference, huser]
  obtain ⟨hrest, hq, hf⟩ := Uri.tail_dropWhile location
  rw [hname, List.nil_append] at hrest
  rw [Resolves, parse_written hnot, hparse, Uri.resolve_relative rfl rfl, hname, List.append_nil]
  refine ⟨rfl, ?_, ?_, ?_, hf.symm⟩
  · rw [hauth]
    rfl
  · rw [hauth] at hpath
    rw [hauth, ← hpath, hrest]
    rfl
  · dsimp only
    rw [show (Uri.withAuthority (some u.origin.scheme) location).query = _ from hq.symm]
    split
    · rename_i h
      rw [h.2]
      exact (hquery h).symm
    · rfl

/-- **Enough.** -/
lemma resolves_of_plain (h : PlainLocation u location) : Resolves named u location := by
  by_cases hweb : "http://".toList <+: location ∨ "https://".toList <+: location
  · exact resolves_web hweb
  rcases h with h | h | ⟨hscheme, hauth, huser, hpath⟩
  · exact absurd (.inl h) hweb
  · exact absurd (.inr h) hweb
  have hparse : Uri.parse location =
      ⟨none, none, Uri.pathOf location, Uri.queryOf location, Uri.fragmentOf location⟩ := by
    rcases Uri.parse_cases location with hparse | ⟨t, -, hparse⟩ | ⟨name, t, hparse⟩ |
      ⟨name, t, -, -, hparse⟩
    · exact hparse
    · rw [hparse] at hauth
      cases hauth
    · rw [hparse] at hscheme
      cases hscheme
    · rw [hparse] at hscheme
      cases hscheme
  rw [hparse] at hpath
  dsimp only at hpath
  rcases hpath with hrooted | ⟨hnil, hslash, hquery⟩
  · obtain ⟨t, ht⟩ := List.head?_eq_some_iff.mp hrooted
    refine resolves_relative hweb hparse (Uri.takeWhile_of_pathOf ht) huser ?_ fun h => ?_
    · rw [Uri.resolvePath, if_neg (by rw [ht]; exact List.cons_ne_nil _ _), if_pos hrooted,
        Uri.plainPath_removeDots _ (.inr ⟨t, ht⟩)]
    · rw [h.1] at ht
      cases ht
  · obtain ⟨hrest, -, -⟩ := Uri.tail_dropWhile location
    rw [hnil, eq_comm, List.append_eq_nil_iff] at hrest
    refine resolves_relative hweb hparse hrest.1 huser ?_ fun h => ?_
    · rw [hnil, Uri.resolvePath, if_pos rfl, CreationUrl.reference, huser, hslash]
      rfl
    · exact hquery h.2

/-! ## References that are not -/

/-- The path of the text that is written. -/
lemma path_written (hnot : ¬ ("http://".toList <+: location ∨ "https://".toList <+: location))
    {r : Uri.Reference} (h : Uri.Same named (Uri.parse (patchText u.url location)) r) :
    Uri.plainPath (some (u.origin.authority ++ location.takeWhile (fun c => !Uri.endsAuthority c)))
      (Uri.pathOf (location.dropWhile (fun c => !Uri.endsAuthority c))) =
        Uri.plainPath r.authority r.path := by
  have hpath := h.path
  rwa [parse_written hnot] at hpath

/-- Behind an authority of its own the path is shorter than the one of the PATCH. -/
lemma path_ne_of_authority {pre t : Str} {a b : Option Str}
    (hpre : ∀ c ∈ pre, Uri.endsAuthority c = false)
    (hplain : Uri.Plain (Uri.pathOf (pre ++ '/' :: '/' :: t))) :
    Uri.plainPath a (Uri.pathOf ((pre ++ '/' :: '/' :: t).dropWhile
        (fun c => !Uri.endsAuthority c))) ≠
      Uri.plainPath b (Uri.removeDots (Uri.pathOf (t.dropWhile (fun c => !Uri.endsAuthority c)))) := by
  have hall : ∀ c ∈ pre, (!Uri.endsAuthority c) = true := by
    intro c hc
    rw [hpre c hc]
    rfl
  have hwhole : ∀ t, Uri.pathOf ('/' :: t) = '/' :: Uri.pathOf t :=
    fun t => List.takeWhile_cons_of_pos (by decide)
  obtain ⟨hpath, -, -⟩ := Uri.tail_dropWhile t
  have hrooted := Uri.pathOf_dropWhile t
  rw [(Uri.tail_append hpre _).1, hwhole, hwhole, Uri.plain_append_slash, Uri.plain_slash] at hplain
  have hrest : Uri.Plain (Uri.pathOf (t.dropWhile (fun c => !Uri.endsAuthority c))) := by
    rcases hrooted with hnil | ⟨v, hv⟩
    · rw [hnil]
      unfold Uri.Plain
      decide
    · have hsplit := hplain.2
      rw [hpath, hv, Uri.plain_append_slash] at hsplit
      rw [hv, Uri.plain_slash]
      exact hsplit.2
  rw [List.dropWhile_append_of_pos hall, List.dropWhile_cons_of_neg (by decide), hwhole, hwhole,
    Uri.plainPath_of_plain a (Uri.plain_slash.mpr hplain.2), Uri.plainPath_removeDots b hrooted]
  intro h
  have hle := Uri.length_plainPath_le b hrooted hrest
  rw [← h, hpath, List.length_cons, List.length_cons, List.length_append] at hle
  omega

/-- A name is not put behind the directory of the POST but behind its host. -/
lemma path_ne_of_name {a b : Option Str} {base : Uri.Reference} (hbase : base.path = u.path)
    (hname : location.takeWhile (fun c => !Uri.endsAuthority c) ≠ [])
    (hplain : Uri.Plain (Uri.pathOf location)) :
    Uri.plainPath a (Uri.pathOf (location.dropWhile (fun c => !Uri.endsAuthority c))) ≠
      Uri.plainPath b (Uri.resolvePath base (Uri.pathOf location)) := by
  obtain ⟨hpath, -, -⟩ := Uri.tail_dropWhile location
  have hrooted := Uri.pathOf_dropWhile location
  have hrest := Uri.plain_of_append (hpath ▸ hplain) hrooted
  obtain ⟨p, hp⟩ := List.head?_eq_some_iff.mp u.rooted
  -- the path begins with a name
  obtain ⟨c, name, hc⟩ := List.exists_cons_of_ne_nil hname
  have hne : Uri.pathOf location ≠ [] := by
    rw [hpath, hc]
    exact List.cons_ne_nil _ _
  have hhead : (Uri.pathOf location).head? ≠ some '/' := by
    intro h
    obtain ⟨t, ht⟩ := List.head?_eq_some_iff.mp h
    exact hname (Uri.takeWhile_of_pathOf ht)
  -- it comes behind the directory of the POST
  obtain ⟨dir, file, hsplit, hdir⟩ := Uri.exists_directory (hp ▸ List.mem_cons_self : '/' ∈ u.path)
  have hmerge : Uri.mergePath base (Uri.pathOf location) = dir ++ '/' :: Uri.pathOf location := by
    rw [Uri.mergePath, hbase, if_neg (fun h => List.cons_ne_nil _ _ (hp.symm.trans h.2)), hdir,
      List.append_assoc]
    rfl
  have hslash : ∃ m, dir ++ '/' :: Uri.pathOf location = '/' :: m := by
    cases dir with
    | nil => exact ⟨_, rfl⟩
    | cons x dir =>
        rw [hp] at hsplit
        obtain rfl := (List.cons.inj hsplit).1
        exact ⟨_, rfl⟩
  obtain ⟨m, hm⟩ := hslash
  have hfull : Uri.Plain (dir ++ '/' :: Uri.pathOf location) :=
    Uri.plain_append_slash.mpr ⟨(Uri.plain_append_slash.mp (hsplit ▸ u.plain)).1, hplain⟩
  rw [hm, Uri.plain_slash] at hfull
  rw [Uri.resolvePath, if_neg hne, if_neg hhead, hmerge, hm, Uri.removeDots_of_plain hfull,
    Uri.plainPath_of_plain b hfull, ← hm]
  intro h
  have hle := Uri.length_plainPath_le a hrooted hrest
  rw [h, List.length_append, List.length_cons, hpath, hc, List.length_append, List.length_cons] at hle
  omega

/-- The authority is that of the POST, so there is no user in it. -/
lemma userinfo_of_resolves
    (hnot : ¬ ("http://".toList <+: location ∨ "https://".toList <+: location))
    (hnamed : ∀ scheme user, u.userinfo = some user →
      named scheme (user ++ '@' :: u.origin.authority) ≠ named scheme u.origin.authority)
    (hscheme : (Uri.parse location).scheme = none) (hauth : (Uri.parse location).authority = none)
    (hname : location.takeWhile (fun c => !Uri.endsAuthority c) = []) (h : Resolves named u location) :
    u.userinfo = none := by
  cases huser : u.userinfo with
  | none => rfl
  | some user =>
      have hsame := h.authority
      rw [parse_written hnot, Uri.resolve_relative hscheme hauth, hname, List.append_nil,
        CreationUrl.reference, huser] at hsame
      exact absurd (Option.some.inj hsame).symm (hnamed _ user huser)

/-- A reference that keeps the path gives the root of the server. -/
lemma path_of_resolves
    (hnot : ¬ ("http://".toList <+: location ∨ "https://".toList <+: location))
    (hparse : Uri.parse location =
      ⟨none, none, Uri.pathOf location, Uri.queryOf location, Uri.fragmentOf location⟩)
    (hnil : Uri.pathOf location = []) (h : Resolves named u location) :
    u.path = ['/'] ∧ (Uri.queryOf location = none → u.query = none) := by
  obtain ⟨hrest, hquery, -⟩ := Uri.tail_dropWhile location
  rw [hnil, eq_comm, List.append_eq_nil_iff] at hrest
  rw [Resolves, hparse, Uri.resolve_relative rfl rfl] at h
  constructor
  · obtain ⟨p, hp⟩ := List.head?_eq_some_iff.mp u.rooted
    have hplain : Uri.Plain p := Uri.plain_slash.mp (hp ▸ u.plain)
    have hpath := path_written hnot h
    dsimp only at hpath
    rw [hrest.2, hnil, Uri.resolvePath, if_pos rfl, CreationUrl.reference, hp,
      Uri.plainPath_of_plain _ hplain] at hpath
    rw [hp]
    exact hpath.symm
  · intro hnone
    have hsame := h.query
    rw [parse_written hnot] at hsame
    dsimp only at hsame
    rw [if_pos ⟨hnil, hnone⟩] at hsame
    exact hsame.symm.trans (hquery.symm.trans hnone)

/-- **Needed.** -/
lemma plain_of_resolves
    (hnamed : ∀ scheme user, u.userinfo = some user →
      named scheme (user ++ '@' :: u.origin.authority) ≠ named scheme u.origin.authority)
    (hplain : Uri.Plain (Uri.pathOf location)) (h : Resolves named u location) :
    PlainLocation u location := by
  by_cases hweb : "http://".toList <+: location ∨ "https://".toList <+: location
  · exact hweb.imp_right .inl
  refine .inr (.inr ?_)
  have hpath := path_written hweb h
  rcases Uri.parse_cases location with hparse | ⟨t, rfl, hparse⟩ | ⟨name, t, hparse⟩ |
    ⟨name, t, hname, rfl, hparse⟩
  · rw [hparse, Uri.resolve_relative rfl rfl] at hpath
    have hname : location.takeWhile (fun c => !Uri.endsAuthority c) = [] := by
      by_contra hname
      exact path_ne_of_name rfl hname hplain hpath
    have hscheme : (Uri.parse location).scheme = none := by rw [hparse]
    have hauth : (Uri.parse location).authority = none := by rw [hparse]
    refine ⟨hscheme, hauth, userinfo_of_resolves hweb hnamed hscheme hauth hname h, ?_⟩
    obtain ⟨hrest, -, -⟩ := Uri.tail_dropWhile location
    rw [hname, List.nil_append] at hrest
    rw [hparse]
    rcases Uri.pathOf_dropWhile location with hnil | ⟨t, ht⟩
    · exact .inr ⟨hrest.trans hnil, path_of_resolves hweb hparse (hrest.trans hnil) h⟩
    · exact .inl (by rw [hrest, ht]; rfl)
  · rw [hparse, Uri.resolve_of_authority rfl (Option.some_ne_none _)] at hpath
    have hnone : ∀ c ∈ ([] : Str), Uri.endsAuthority c = false := by simp
    exact absurd hpath (path_ne_of_authority hnone hplain)
  · -- the reference has no authority
    have hauth := h.authority
    rw [parse_written hweb, hparse, Uri.resolve_of_scheme (Option.some_ne_none _)] at hauth
    cases hauth
  · rw [hparse, Uri.resolve_of_scheme (Option.some_ne_none _)] at hpath
    have hpre : ∀ c ∈ name ++ [':'], Uri.endsAuthority c = false := by
      intro c hc
      rcases List.mem_append.mp hc with hc | hc
      · exact hname c hc
      · rw [List.mem_singleton.mp hc]
        rfl
    rw [List.append_cons name] at hplain hpath
    exact absurd hpath (path_ne_of_authority hpre hplain)

/-- **The PATCH goes to the URI of the reference** if it is plain, for every creation URL and every
`Location`; and, where no part between its slashes is dots, only then.  The URL with a user is another
than the one without. -/
theorem resolves_plain
    (hnamed : ∀ scheme user, u.userinfo = some user →
      named scheme (user ++ '@' :: u.origin.authority) ≠ named scheme u.origin.authority) :
    (PlainLocation u location → Resolves named u location) ∧
      (Uri.Plain (Uri.pathOf location) → Resolves named u location → PlainLocation u location) :=
  ⟨resolves_of_plain, plain_of_resolves hnamed⟩

/-! ## Two places -/

/-- `https://host/dav/a.txt` -/
def creationDav : CreationUrl where
  origin := ⟨"https".toList, "host".toList, none⟩
  userinfo := none
  path := "/dav/a.txt".toList
  query := none
  fragment := none
  web := .inr rfl
  named c hc := by
    have hall : "host".toList.all (fun c => !Uri.endsAuthority c) = true := by decide
    have hone := List.all_eq_true.mp hall c hc
    rwa [Bool.not_eq_true'] at hone
  rooted := rfl
  plain := by unfold Uri.Plain; decide

/-- The authority in small letters. -/
def lowerAuthority (_ : Option Str) (authority : Str) : Str := authority.map Char.toLower

/-- `https://bob@host/dav/a.txt` -/
def creationBob : CreationUrl := { creationDav with userinfo := some "bob".toList }

/-- A path at the server is resolved where there is no user, and not where there is one; another web
URL is resolved for both. -/
theorem resolves_uploads : Resolves lowerAuthority creationDav "/uploads/1".toList ∧
    ¬ Resolves lowerAuthority creationBob "/uploads/1".toList ∧
    Resolves lowerAuthority creationBob "https://other/uploads/1".toList := by
  have hnamed : ∀ scheme user, creationBob.userinfo = some user →
      lowerAuthority scheme (user ++ '@' :: creationBob.origin.authority) ≠
        lowerAuthority scheme creationBob.origin.authority := by
    intro scheme user _ hsame
    have hlength := congrArg List.length hsame
    simp only [lowerAuthority, List.length_map, List.length_append, List.length_cons] at hlength
    omega
  refine ⟨(resolves_plain (by intro _ _ h; cases h)).1 (.inr (.inr ⟨rfl, rfl, rfl, .inl rfl⟩)),
    fun h => ?_, (resolves_plain hnamed).1 (.inr (.inl (by decide)))⟩
  rcases (resolves_plain hnamed).2 (by unfold Uri.Plain; decide) h with hweb | hweb | ⟨-, -, hno, -⟩
  · revert hweb
    decide
  · revert hweb
    decide
  · cases hno

/-- The other server becomes a folder of this one. -/
theorem other_server_not_resolved :
    ¬ Resolves lowerAuthority creationDav "//other/uploads/1".toList := fun h =>
  absurd h.authority (by decide)

end OwncloudSync
