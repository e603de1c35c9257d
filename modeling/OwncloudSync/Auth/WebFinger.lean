import OwncloudSync.Engine.Types
import OwncloudSync.Lib.PublicSuffix
import OwncloudSync.Lib.Text
import Mathlib.Data.List.Infix
import Mathlib.Tactic.Common

/-!
# Which instance WebFinger may name

`select_server_instance` (`webfinger.rs`): the host the user has entered may name another one, and
tokens go there.  It is followed if it is `https` and ends with the **last two labels** of the entered
host, which stand for its registrable domain.  Below a public suffix of two labels, as `co.uk`, they
are the public suffix itself, and every host below it is trusted; of a name that ends with the dot of
the root they are the top-level domain, of an IPv4 address its last two numbers.

`neverWidens_iff` is the exact condition: the entered host is a domain name **two labels of which are
its registrable domain**, or an IPv6 address, which has no dots.

The URL library is a parameter (`ReadsHosts`).  What is assumed of it is about web URLs; the entered
URL is one, since the descriptor has been fetched from it.
-/

namespace OwncloudSync

namespace WebFinger

open DomainName

/-! ## URLs -/

/-- `url::Host`. -/
inductive Host where
  | domain (name : Str)
  | ipv4 (a b c d : UInt8)
  | ipv6 (text : Str)
  deriving DecidableEq

/-- `host_str`. -/
def Host.text : Host → Str
  | domain name => name
  | ipv4 a b c d => ['.'].intercalate ([a, b, c, d].map (fun n => Nat.toDigits 10 n.toNat))
  | ipv6 text => '[' :: text ++ [']']

/-- A URL, as far as it matters here. -/
structure ServerUrl where
  scheme : Str
  host : Option Host
  deriving DecidableEq

/-- A URL of the web.  Of other schemes any text is a host. -/
def ServerUrl.Web (u : ServerUrl) : Prop := u.scheme = "https".toList ∨ u.scheme = "http".toList

/-- `to_ascii_lowercase`. -/
def lower (s : Str) : Str := s.map Char.toLower

/-! ## The selection -/

/-- A link of the document. -/
structure JrdLink where
  rel : Str
  href : Option Str

/-- `Jrd`, the document that webfinger gives. -/
structure Jrd where
  links : List JrdLink

/-- `REL_SERVER_INSTANCE`. -/
def relServerInstance : Str := "http://webfinger.owncloud/rel/server-instance".toList

/-- `registrable_domain`. -/
def registrableDomain (host : Str) : Str :=
  let labels := (lower host).splitOn '.'
  if labels.length ≤ 2 then lower host else ['.'].intercalate (labels.drop (labels.length - 2))

/-- `instance_host_is_trusted`. -/
def instanceHostIsTrusted (baseHost : Str) (u : ServerUrl) : Bool :=
  match u.host with
  | none => false
  | some h =>
      if lower h.text = lower baseHost then true
      else lower h.text = registrableDomain baseHost ||
        ('.' :: registrableDomain baseHost).isSuffixOf (lower h.text)

/-- `select_server_instance`. -/
def selectServerInstance (parse : Str → Option ServerUrl) (base : ServerUrl) (jrd : Jrd) :
    Option ServerUrl :=
  match base.host with
  | none => none
  | some h =>
      (((jrd.links.filter (fun l => l.rel = relServerInstance)).filterMap JrdLink.href).filterMap
        parse).find? (fun u => u.scheme = "https".toList && instanceHostIsTrusted h.text u)

/-! ## Trust -/

/-- The labels of a domain name, without the empty one of the root. -/
def domainLabels (name : Str) : List Str :=
  let labels := (lower name).splitOn '.'
  if labels.getLast? = some [] ∧ 2 ≤ labels.length then labels.dropLast else labels

/-- The hosts the entered one may name: itself, and those of its registrable domain. -/
def Trusted (isSuffix : List Str → Bool) (base inst : Host) : Prop :=
  lower inst.text = lower base.text ∨
  ∃ b i r, base = .domain b ∧ inst = .domain i ∧
    registrable isSuffix (domainLabels b) = some r ∧ r <:+ domainLabels i

/-- Whatever the entered host says, an instance that is followed is trusted. -/
def NeverWidens (parse : Str → Option ServerUrl) (isSuffix : List Str → Bool) (base : ServerUrl) :
    Prop :=
  ∀ jrd u, selectServerInstance parse base jrd = some u →
    u.scheme = "https".toList ∧ ∃ h h', base.host = some h ∧ u.host = some h' ∧
      Trusted isSuffix h h'

/-- The last two labels are the registrable domain. -/
def TwoLabelDomain (isSuffix : List Str → Bool) : Host → Prop
  | .domain b => ((lower b).splitOn '.').getLast? ≠ some [] ∧
      ∃ r, registrable isSuffix (domainLabels b) = some r ∧ r.length = 2
  | .ipv4 _ _ _ _ => False
  | .ipv6 _ => True

/-- What the URL library does with the text of a host in a web URL: a name whose last label is a
number is no domain name, brackets belong to IPv6 addresses, which have no dots; the last labels of a
domain name with a short label before them are a domain name, and any four bytes are an IPv4
address. -/
structure ReadsHosts (parse : Str → Option ServerUrl) (base : ServerUrl) : Prop where
  number : ∀ t u n, parse t = some u → u.Web → u.host = some (.domain n) →
    ∀ l, (domainLabels n).getLast? = some l → l = [] ∨ ∃ c ∈ l, c.isDigit = false
  bracket : ∀ t u n, parse t = some u → u.Web → u.host = some (.domain n) → ']' ∉ n
  colons : ∀ t u s, parse t = some u → u.Web → u.host = some (.ipv6 s) → '.' ∉ s
  sibling : ∀ b front back z, base.host = some (.domain b) → (lower b).splitOn '.' = front ++ back →
    back ≠ [] → z = ['x'] ∨ z = ['x', 'x'] →
    ∃ t, parse t = some ⟨"https".toList, some (.domain (['.'].intercalate (z :: back)))⟩
  address : ∀ a b c d a', base.host = some (.ipv4 a b c d) →
    ∃ t, parse t = some ⟨"https".toList, some (.ipv4 a' b c d)⟩

variable {parse : Str → Option ServerUrl} {isSuffix : List Str → Bool} {base u : ServerUrl}
  {h h' : Host} {b s t : Str}

/-! ## The last two labels -/

/-- What the code takes for the registrable domain. -/
def lastTwo (host : Str) : List Str :=
  ((lower host).splitOn '.').drop (((lower host).splitOn '.').length - 2)

lemma lastTwo_ne_nil (s : Str) : lastTwo s ≠ [] := by
  have hpos := List.length_pos_iff.mpr (List.splitOn_ne_nil '.' (lower s))
  rw [lastTwo, ← List.length_pos_iff, List.length_drop]
  omega

lemma registrableDomain_eq (s : Str) : registrableDomain s = ['.'].intercalate (lastTwo s) := by
  rw [registrableDomain, lastTwo]
  split
  · rename_i hle
    rw [Nat.sub_eq_zero_of_le hle, List.drop_zero, List.intercalate_splitOn]
  · rfl

/-- **Which hosts are followed**: the entered one, and those with the same last two labels. -/
lemma instanceHostIsTrusted_iff (hhost : u.host = some h') :
    instanceHostIsTrusted s u = true ↔
      lower h'.text = lower s ∨ lastTwo s <:+ (lower h'.text).splitOn '.' := by
  have hparts : ∀ p ∈ lastTwo s, '.' ∉ p := fun p hp =>
    Text.not_mem_of_mem_splitOn (List.mem_of_mem_drop hp)
  rw [Text.splitOn_suffix_iff hparts (lastTwo_ne_nil s), ← registrableDomain_eq,
    instanceHostIsTrusted, hhost]
  dsimp only
  split
  · rename_i heq
    exact iff_of_true rfl (.inl heq)
  · rename_i hne
    rw [Bool.or_eq_true, decide_eq_true_iff, List.isSuffixOf_iff_suffix]
    exact (or_iff_right hne).symm

/-- The only link of a descriptor. -/
def namesInstance (t : Str) : Jrd := ⟨[⟨relServerInstance, some t⟩]⟩

/-- An entered host may widen trust exactly if some URL it can name does. -/
lemma neverWidens_iff_forall (hhost : base.host = some h) : NeverWidens parse isSuffix base ↔
    ∀ t u h', parse t = some u → u.scheme = "https".toList → u.host = some h' →
      instanceHostIsTrusted h.text u = true → Trusted isSuffix h h' := by
  constructor
  · intro hnever t u h' hparse hscheme hu htrusted
    have hselect : selectServerInstance parse base (namesInstance t) = some u := by
      rw [selectServerInstance, hhost]
      simp [namesInstance, hparse, hscheme, htrusted]
    obtain ⟨-, k, k', hk, hk', htrust⟩ := hnever _ u hselect
    obtain rfl := Option.some.inj (hhost.symm.trans hk)
    obtain rfl := Option.some.inj (hu.symm.trans hk')
    exact htrust
  · intro hall jrd u hselect
    rw [selectServerInstance, hhost] at hselect
    dsimp only at hselect
    have hfound := List.find?_some hselect
    rw [Bool.and_eq_true, decide_eq_true_iff] at hfound
    obtain ⟨hscheme, htrusted⟩ := hfound
    obtain ⟨t, -, hparse⟩ := List.mem_filterMap.mp (List.mem_of_find?_eq_some hselect)
    cases hu : u.host with
    | none => simp [instanceHostIsTrusted, hu] at htrusted
    | some h' => exact ⟨hscheme, h, h', hhost, rfl, hall t u h' hparse hscheme hu htrusted⟩

/-! ## Labels of addresses -/

lemma isUpper_iff {c : Char} : c.isUpper = true ↔ 'A'.val ≤ c.val ∧ c.val ≤ 'Z'.val :=
  decide_eq_true_iff

lemma isLower_iff {c : Char} : c.isLower = true ↔ 'a'.val ≤ c.val ∧ c.val ≤ 'z'.val := by
  change (decide ('a'.val ≤ c.val) && decide (c.val ≤ 'z'.val)) = true ↔ _
  rw [Bool.and_eq_true, decide_eq_true_eq, decide_eq_true_eq]

lemma isDigit_iff {c : Char} : c.isDigit = true ↔ '0'.val ≤ c.val ∧ c.val ≤ '9'.val := by
  change (decide ('0'.val ≤ c.val) && decide (c.val ≤ '9'.val)) = true ↔ _
  rw [Bool.and_eq_true, decide_eq_true_eq, decide_eq_true_eq]

lemma not_isUpper_of_isLower {c : Char} (h : c.isLower = true) : c.isUpper = false := by
  refine Bool.eq_false_iff.mpr (fun hupper => ?_)
  exact absurd (UInt32.le_trans (isLower_iff.mp h).1 (isUpper_iff.mp hupper).2) (by decide)

lemma toLower_of_not_isUpper {c : Char} (h : c.isUpper = false) : c.toLower = c :=
  dif_neg (fun hupper => Bool.eq_false_iff.mp h (isUpper_iff.mpr hupper))

lemma isLower_toLower_of_isUpper {c : Char} (h : c.isUpper = true) : c.toLower.isLower = true := by
  have hrange := isUpper_iff.mp h
  have hlow : c.toLower.val = c.val + ('a'.val - 'A'.val) :=
    congrArg Char.val (dif_pos (c := c.val ≥ 'A'.val ∧ c.val ≤ 'Z'.val) hrange)
  rw [isLower_iff, hlow]
  simp only [UInt32.le_iff_toNat_le, UInt32.toNat_add] at hrange ⊢
  simp at hrange ⊢
  omega

lemma toLower_toLower (c : Char) : c.toLower.toLower = c.toLower := by
  by_cases h : c.isUpper = true
  · exact toLower_of_not_isUpper (not_isUpper_of_isLower (isLower_toLower_of_isUpper h))
  · have hself : c.toLower = c := toLower_of_not_isUpper (by simpa using h)
    rw [hself, hself]

/-- What is no small letter was there before. -/
lemma eq_of_toLower_eq {c x : Char} (hx : x.isLower = false) (h : c.toLower = x) : c = x := by
  by_cases hc : c.isUpper = true
  · rw [← h, isLower_toLower_of_isUpper hc] at hx
    cases hx
  · rwa [toLower_of_not_isUpper (by simpa using hc)] at h

lemma mem_of_mem_lower {x : Char} (hx : x.isLower = false) (hmem : x ∈ lower s) : x ∈ s := by
  obtain ⟨c, hc, hlow⟩ := List.mem_map.mp hmem
  exact eq_of_toLower_eq hx hlow ▸ hc

lemma lower_eq_self (hs : ∀ c ∈ s, c.toLower = c) : lower s = s := by
  rw [lower]
  conv_rhs => rw [← List.map_id s]
  exact List.map_congr_left hs

lemma toLower_of_isDigit {c : Char} (h : c.isDigit = true) : c.toLower = c := by
  refine toLower_of_not_isUpper (Bool.eq_false_iff.mpr fun hupper => ?_)
  exact absurd (UInt32.le_trans (isUpper_iff.mp hupper).1 (isDigit_iff.mp h).2) (by decide)

/-- The digits of the bytes of an address. -/
lemma labels_ipv4 (a b c d : UInt8) : (lower (Host.ipv4 a b c d).text).splitOn '.' =
    [a, b, c, d].map (fun n => Nat.toDigits 10 n.toNat) := by
  have hdigits : ∀ n : UInt8, ∀ c ∈ Nat.toDigits 10 n.toNat, c.isDigit = true := fun n c hc =>
    Nat.isDigit_of_mem_toDigits (by decide) (by decide) hc
  have htext : lower (Host.ipv4 a b c d).text = (Host.ipv4 a b c d).text := by
    refine lower_eq_self (fun x hx => ?_)
    rcases Text.mem_of_mem_intercalate hx with rfl | ⟨l, hl, hx⟩
    · rfl
    · obtain ⟨n, -, rfl⟩ := List.mem_map.mp hl
      exact toLower_of_isDigit (hdigits n x hx)
  rw [htext, Host.text, List.splitOn_intercalate]
  · intro l hl hdot
    obtain ⟨n, -, rfl⟩ := List.mem_map.mp hl
    exact absurd (hdigits n '.' hdot) (by decide)
  · exact List.cons_ne_nil _ _

lemma splitOn_ipv6 (hdots : '.' ∉ s) :
    (lower (Host.ipv6 s).text).splitOn '.' = [lower (Host.ipv6 s).text] := by
  refine List.splitOn_eq_singleton (fun hmem => ?_)
  have htext := mem_of_mem_lower (by decide) hmem
  simp only [Host.text, List.cons_append, List.mem_cons, List.mem_append, List.not_mem_nil,
    or_false] at htext
  rcases htext with hopen | hdot | hclose
  · exact absurd hopen (by decide)
  · exact hdots hdot
  · exact absurd hclose (by decide)

/-! ## Where trust is not widened -/

lemma getLast?_of_suffix {α : Type} {xs ys : List α} (h : xs <:+ ys) (hne : xs ≠ []) :
    ys.getLast? = xs.getLast? := by
  obtain ⟨front, rfl⟩ := h
  exact List.getLast?_append_of_ne_nil _ hne

lemma domainLabels_of_getLast? (hlast : ((lower s).splitOn '.').getLast? ≠ some []) :
    domainLabels s = (lower s).splitOn '.' := by
  rw [domainLabels, if_neg (fun h => hlast h.1)]

/-- The registrable domain of two labels is what the code takes for it. -/
lemma TwoLabelDomain.lastTwo (hsafe : TwoLabelDomain isSuffix (.domain b)) :
    domainLabels b = (lower b).splitOn '.' ∧ registrable isSuffix (domainLabels b) = some (lastTwo b) ∧
      (WebFinger.lastTwo b).length = 2 := by
  obtain ⟨hroot, r, hr, hlength⟩ := hsafe
  have hlabels := domainLabels_of_getLast? hroot
  have hdrop := List.suffix_iff_eq_drop.mp (registrable_spec hr).1
  rw [hlength, hlabels] at hdrop
  have heq : r = WebFinger.lastTwo b := hdrop
  exact ⟨hlabels, heq ▸ hr, heq ▸ hlength⟩

/-- **A registrable domain of two labels**: what ends with them is within it. -/
lemma trusted_of_twoLabelDomain (hreads : ReadsHosts parse base) {t₀ : Str}
    (hbase : parse t₀ = some base) (hweb : base.Web) (hhost : base.host = some (.domain b))
    (hsafe : TwoLabelDomain isSuffix (.domain b)) (hparse : parse t = some u) (huweb : u.Web)
    (hu : u.host = some h') (hlast : WebFinger.lastTwo b <:+ (lower h'.text).splitOn '.') :
    Trusted isSuffix (.domain b) h' := by
  obtain ⟨hlabels, hr, hlength⟩ := hsafe.lastTwo
  have hend := getLast?_of_suffix hlast (lastTwo_ne_nil b)
  have hbend : (domainLabels b).getLast? = (WebFinger.lastTwo b).getLast? :=
    getLast?_of_suffix (registrable_spec hr).1 (lastTwo_ne_nil b)
  cases h' with
  | domain i =>
      refine .inr ⟨b, i, _, rfl, rfl, hr, ?_⟩
      have hroot : ((lower i).splitOn '.').getLast? ≠ some [] := by
        have hi : ((lower i).splitOn '.').getLast? = (WebFinger.lastTwo b).getLast? := hend
        rw [hi, ← hbend, hlabels]
        exact hsafe.1
      rw [domainLabels_of_getLast? hroot]
      exact hlast
  | ipv4 x y z w =>
      -- the last label would be a number
      rw [labels_ipv4, ← hbend] at hend
      have hnumber := hreads.number t₀ base b hbase hweb hhost _ hend.symm
      rcases hnumber with hnil | ⟨c, hc, hdigit⟩
      · exact absurd hnil Nat.toDigits_ne_nil
      · have hall := Nat.isDigit_of_mem_toDigits (by decide) (by decide) hc
        rw [hall] at hdigit
        cases hdigit
  | ipv6 s =>
      rw [splitOn_ipv6 (hreads.colons t u s hparse huweb hu)] at hlast
      have hle := hlast.length_le
      rw [hlength, List.length_singleton] at hle
      exact absurd hle (by decide)

/-- **An IPv6 address has no dots**: nothing but itself ends with it. -/
lemma eq_of_ipv6 (hreads : ReadsHosts parse base) {t₀ : Str} (hbase : parse t₀ = some base)
    (hweb : base.Web) (hhost : base.host = some (.ipv6 s)) (hparse : parse t = some u)
    (huweb : u.Web) (hu : u.host = some h')
    (hlast : lastTwo (Host.ipv6 s).text <:+ (lower h'.text).splitOn '.') :
    lower h'.text = lower (Host.ipv6 s).text := by
  have htwo : lastTwo (Host.ipv6 s).text = [lower (Host.ipv6 s).text] := by
    rw [lastTwo, splitOn_ipv6 (hreads.colons t₀ base s hbase hweb hhost)]
    rfl
  rw [htwo] at hlast
  have hmem := hlast.subset (List.mem_singleton_self _)
  have hbracket : ']' ∈ lower (Host.ipv6 s).text :=
    List.mem_map.mpr ⟨']', by simp [Host.text], rfl⟩
  cases h' with
  | domain i =>
      -- the name would end with a bracket
      have hdots : '.' ∉ lower (Host.ipv6 s).text := Text.not_mem_of_mem_splitOn hmem
      have hlower : ']' ∈ lower i := by
        rcases (Text.splitOn_suffix_iff (by simpa using hdots) (List.cons_ne_nil _ _)).mp hlast with
          heq | hsuffix
        · rw [List.intercalate_singleton] at heq
          exact heq ▸ hbracket
        · rw [List.intercalate_singleton] at hsuffix
          exact hsuffix.subset (List.mem_cons_of_mem _ hbracket)
      exact absurd (mem_of_mem_lower (by decide) hlower) (hreads.bracket t u i hparse huweb hu)
  | ipv4 x y z w =>
      rw [labels_ipv4] at hmem
      obtain ⟨n, -, hn⟩ := List.mem_map.mp hmem
      rw [← hn] at hbracket
      exact absurd (Nat.isDigit_of_mem_toDigits (by decide) (by decide) hbracket) (by decide)
  | ipv6 s' =>
      rw [splitOn_ipv6 (hreads.colons t u s' hparse huweb hu)] at hmem
      exact (List.mem_singleton.mp hmem).symm

/-! ## Where it is -/

/-- A short label, other than the one a name has before its last two. -/
def strangeLabel (name : Str) : Str :=
  let labels := (lower name).splitOn '.'
  if (labels.take (labels.length - 2)).getLast? = some ['x'] then ['x', 'x'] else ['x']

lemma strangeLabel_short (b : Str) : strangeLabel b = ['x'] ∨ strangeLabel b = ['x', 'x'] := by
  unfold strangeLabel
  dsimp only
  split
  · exact .inr rfl
  · exact .inl rfl

lemma strangeLabel_ne (b : Str) :
    (((lower b).splitOn '.').take (((lower b).splitOn '.').length - 2)).getLast? ≠
      some (strangeLabel b) := by
  unfold strangeLabel
  dsimp only
  split
  · rename_i heq
    rw [heq]
    decide
  · rename_i hne
    exact hne

/-- A name with another label before the last two. -/
def siblingName (b : Str) : Str := ['.'].intercalate (strangeLabel b :: lastTwo b)

lemma labels_siblingName (b : Str) :
    (lower (siblingName b)).splitOn '.' = strangeLabel b :: lastTwo b := by
  have hlast : ∀ l ∈ lastTwo b, l ∈ (lower b).splitOn '.' := fun l hl => List.mem_of_mem_drop hl
  have hx : ∀ c ∈ strangeLabel b, c = 'x' := by
    intro c hc
    rcases strangeLabel_short b with h | h
    · rw [h] at hc
      simpa using hc
    · rw [h] at hc
      simpa using hc
  have hlower : lower (siblingName b) = siblingName b := by
    refine lower_eq_self (fun x hmem => ?_)
    rcases Text.mem_of_mem_intercalate hmem with rfl | ⟨l, hl, hmem⟩
    · rfl
    · rcases List.mem_cons.mp hl with rfl | hl
      · rw [hx x hmem]
        rfl
      · obtain ⟨c, -, rfl⟩ := List.mem_map.mp
          ((Text.sublist_of_mem_splitOn (hlast l hl)).subset hmem)
        exact toLower_toLower c
  rw [hlower, siblingName, List.splitOn_intercalate]
  · intro l hl
    rcases List.mem_cons.mp hl with rfl | hl
    · exact fun hdot => absurd (hx _ hdot) (by decide)
    · exact Text.not_mem_of_mem_splitOn (hlast l hl)
  · exact List.cons_ne_nil _ _

lemma length_lastTwo_le (b : Str) : (lastTwo b).length ≤ 2 := by
  rw [lastTwo, List.length_drop]
  omega

/-- The labels of a name are those before the last two and the last two. -/
lemma take_append_lastTwo (b : Str) :
    ((lower b).splitOn '.').take (((lower b).splitOn '.').length - 2) ++ lastTwo b =
      (lower b).splitOn '.' := List.take_append_drop _ _

/-- The strange label does not stand before the last two. -/
lemma not_strange_suffix (b : Str) : ¬ strangeLabel b :: lastTwo b <:+ (lower b).splitOn '.' := by
  rintro ⟨front, hfront⟩
  rw [← take_append_lastTwo b, List.append_cons] at hfront
  have hsame := List.append_cancel_right hfront
  refine strangeLabel_ne b ?_
  rw [← hsame, List.getLast?_concat]

/-- Another name with the same last labels is not trusted, unless they are the registrable domain. -/
lemma not_trusted_siblingName (hsafe : ¬ TwoLabelDomain isSuffix (.domain b)) :
    ¬ Trusted isSuffix (.domain b) (.domain (siblingName b)) := by
  have hstrange := not_strange_suffix b
  have hraw := labels_siblingName b
  rintro (heq | ⟨b', i, r, hb, hi, hr, hsuffix⟩)
  · -- the entered name has another label there
    have hlabels := congrArg (List.splitOn '.') heq
    rw [Host.text, Host.text, hraw] at hlabels
    exact hstrange (hlabels ▸ List.suffix_refl _)
  · obtain rfl := Host.domain.inj hb
    obtain rfl := Host.domain.inj hi
    obtain ⟨hr', htwo⟩ := registrable_spec hr
    have hle := length_lastTwo_le b
    by_cases hroot : (strangeLabel b :: lastTwo b).getLast? = some []
    · -- without the dot of the root two labels are left, the first of them strange
      have hmany : 2 ≤ (strangeLabel b :: lastTwo b).length :=
        Nat.succ_le_succ (List.length_pos_iff.mpr (lastTwo_ne_nil b))
      rw [domainLabels, hraw, if_pos ⟨hroot, hmany⟩,
        List.dropLast_cons_of_ne_nil (lastTwo_ne_nil b)] at hsuffix
      rcases List.suffix_cons_iff.mp hsuffix with rfl | hbehind
      · have hlast : (lastTwo b).getLast? = some [] := by
          rwa [List.getLast?_cons_of_ne_nil (lastTwo_ne_nil b)] at hroot
        have hend : ((lower b).splitOn '.').getLast? = some [] := by
          rw [getLast?_of_suffix (List.drop_suffix _ _) (lastTwo_ne_nil b)]
          exact hlast
        have hpos : 2 ≤ ((lower b).splitOn '.').length := by
          have hlen := hr'.length_le
          rw [domainLabels] at hlen
          split at hlen
          · rename_i h
            exact h.2
          · exact htwo.trans hlen
        rw [domainLabels, if_pos ⟨hend, hpos⟩] at hr'
        refine hstrange ?_
        obtain ⟨front, hfront⟩ := hr'
        refine ⟨front, ?_⟩
        rw [← List.dropLast_append_getLast? _ hend, ← hfront, List.append_assoc, List.cons_append,
          List.dropLast_append_getLast? _ hlast]
      · have hlength := hbehind.length_le
        rw [List.length_dropLast] at hlength
        omega
    · rw [domainLabels_of_getLast? (by rw [hraw]; exact hroot), hraw] at hsuffix
      have hend : ((lower b).splitOn '.').getLast? = (lastTwo b).getLast? :=
        getLast?_of_suffix (List.drop_suffix _ _) (lastTwo_ne_nil b)
      have hb : ((lower b).splitOn '.').getLast? ≠ some [] := by
        rw [hend, ← getLast?_of_suffix (List.suffix_cons (strangeLabel b) (lastTwo b))
          (lastTwo_ne_nil b)]
        exact hroot
      rcases List.suffix_cons_iff.mp hsuffix with rfl | hbehind
      · rw [domainLabels_of_getLast? hb] at hr'
        exact hstrange hr'
      · have hlength := hbehind.length_le
        exact hsafe ⟨hb, r, hr, by omega⟩

/-- Another address with the same last two numbers. -/
lemma not_trusted_address (isSuffix : List Str → Bool) (a b c d : UInt8) :
    ∃ a', lastTwo (Host.ipv4 a b c d).text <:+ (lower (Host.ipv4 a' b c d).text).splitOn '.' ∧
      ¬ Trusted isSuffix (.ipv4 a b c d) (.ipv4 a' b c d) := by
  refine ⟨if a = 0 then 1 else 0, ?_, ?_⟩
  · rw [lastTwo, labels_ipv4, labels_ipv4]
    exact List.suffix_append [_, _] [_, _]
  · rintro (heq | ⟨b', i, r, hb, -⟩)
    · have hlabels := congrArg (List.splitOn '.') heq
      rw [labels_ipv4, labels_ipv4] at hlabels
      have hdigits := (List.cons.inj hlabels).1
      have hnat := congrArg (fun l => Nat.ofDigitChars 10 l 0) hdigits
      dsimp only at hnat
      rw [Nat.ofDigitChars_toDigits (by decide) (by decide),
        Nat.ofDigitChars_toDigits (by decide) (by decide), UInt8.toNat_inj] at hnat
      split at hnat
      · rename_i hzero
        rw [hzero] at hnat
        exact absurd hnat (by decide)
      · rename_i hne
        exact hne hnat.symm
    · cases hb

/-- **Trust is not widened** exactly if the last two labels of the entered host are its registrable
domain, or it is an IPv6 address: for every base URL, every descriptor and every set of public
suffixes. -/
theorem neverWidens_iff {t₀ : Str} (hreads : ReadsHosts parse base) (hbase : parse t₀ = some base)
    (hweb : base.Web) :
    NeverWidens parse isSuffix base ↔ ∀ h, base.host = some h → TwoLabelDomain isSuffix h := by
  cases hhost : base.host with
  | none =>
      refine iff_of_true (fun jrd u hselect => ?_) (fun h hh => nomatch hh)
      rw [selectServerInstance, hhost] at hselect
      cases hselect
  | some h =>
      rw [neverWidens_iff_forall hhost]
      constructor
      · rintro hall h' hh'
        obtain rfl := Option.some.inj hh'
        cases h with
        | domain b =>
            by_contra hsafe
            obtain ⟨t, ht⟩ := hreads.sibling b _ (lastTwo b) (strangeLabel b) hhost
              (List.take_append_drop _ _).symm (lastTwo_ne_nil b) (strangeLabel_short b)
            refine not_trusted_siblingName hsafe (hall t _ _ ht rfl rfl ?_)
            refine (instanceHostIsTrusted_iff rfl).mpr (.inr ?_)
            show lastTwo b <:+ (lower (siblingName b)).splitOn '.'
            rw [labels_siblingName]
            exact List.suffix_cons _ _
        | ipv4 a b c d =>
            obtain ⟨a', hlast, hnot⟩ := not_trusted_address isSuffix a b c d
            obtain ⟨t, ht⟩ := hreads.address a b c d a' hhost
            exact hnot (hall t _ _ ht rfl rfl ((instanceHostIsTrusted_iff rfl).mpr (.inr hlast)))
        | ipv6 s => trivial
      · rintro hsafe t u h' hparse hscheme hu htrusted
        have hsafe' := hsafe h rfl
        rcases (instanceHostIsTrusted_iff hu).mp htrusted with heq | hlast
        · exact .inl heq
        · cases h with
          | domain b =>
              exact trusted_of_twoLabelDomain hreads hbase hweb hhost hsafe' hparse (.inl hscheme) hu
                hlast
          | ipv4 a b c d => exact hsafe'.elim
          | ipv6 s => exact .inl (eq_of_ipv6 hreads hbase hweb hhost hparse (.inl hscheme) hu hlast)

/-! ### A parser of some URLs -/

/-- What the names of the example hosts are made of. -/
def isNameChar (c : Char) : Bool := c.isLower || c == '.'

/-- `https` URLs of names of small letters and dots. -/
def letterParser (t : Str) : Option ServerUrl :=
  let name := t.drop 8
  if t.take 8 == "https://".toList && !name.isEmpty && name.all isNameChar then
    some ⟨"https".toList, some (.domain name)⟩
  else none

/-- The server the user has entered. -/
def exampleBase : ServerUrl := ⟨"https".toList, some (.domain "drive.example.com".toList)⟩

lemma letterParser_https {name : Str} (hne : name ≠ []) (hname : ∀ c ∈ name, isNameChar c = true) :
    letterParser ("https://".toList ++ name) = some ⟨"https".toList, some (.domain name)⟩ := by
  have hempty : name.isEmpty = false := by
    cases name with
    | nil => exact absurd rfl hne
    | cons c name => rfl
  refine if_pos ?_
  show (_ && !name.isEmpty && name.all isNameChar) = true
  rw [hempty, List.all_eq_true.mpr hname]
  rfl

lemma letterParser_domain (h : letterParser t = some u) :
    ∃ name, u.host = some (.domain name) ∧ ∀ c ∈ name, isNameChar c = true := by
  rw [letterParser] at h
  split at h
  · rename_i hletters
    obtain rfl := Option.some.inj h
    rw [Bool.and_eq_true, List.all_eq_true] at hletters
    exact ⟨_, rfl, hletters.2⟩
  · cases h

lemma toLower_of_isNameChar {c : Char} (h : isNameChar c = true) : c.toLower = c := by
  rw [isNameChar, Bool.or_eq_true, beq_iff_eq] at h
  rcases h with h | rfl
  · exact toLower_of_not_isUpper (not_isUpper_of_isLower h)
  · rfl

lemma isDigit_of_isNameChar {c : Char} (h : isNameChar c = true) : c.isDigit = false := by
  rw [isNameChar, Bool.or_eq_true, beq_iff_eq] at h
  rcases h with h | rfl
  · refine Bool.eq_false_iff.mpr (fun hdigit => ?_)
    exact absurd (UInt32.le_trans (isLower_iff.mp h).1 (isDigit_iff.mp hdigit).2) (by decide)
  · rfl

lemma readsHosts_letterParser : ReadsHosts letterParser exampleBase where
  number := by
    rintro t u n hparse - hu l hl
    obtain ⟨name, hname, hletters⟩ := letterParser_domain hparse
    obtain rfl := Host.domain.inj (Option.some.inj (hu.symm.trans hname))
    have hlower : lower n = n := lower_eq_self (fun c hc => toLower_of_isNameChar (hletters c hc))
    have hmem : l ∈ n.splitOn '.' := by
      have hlabels := List.mem_of_getLast? hl
      rw [domainLabels, hlower] at hlabels
      split at hlabels
      · exact List.mem_of_mem_dropLast hlabels
      · exact hlabels
    cases l with
    | nil => exact .inl rfl
    | cons c rest =>
        have hc := hletters c ((Text.sublist_of_mem_splitOn hmem).subset List.mem_cons_self)
        exact .inr ⟨c, List.mem_cons_self, isDigit_of_isNameChar hc⟩
  bracket := by
    rintro t u n hparse - hu hmem
    obtain ⟨name, hname, hletters⟩ := letterParser_domain hparse
    obtain rfl := Host.domain.inj (Option.some.inj (hu.symm.trans hname))
    exact absurd (hletters _ hmem) (by decide)
  colons := by
    rintro t u s hparse - hu
    obtain ⟨name, hname, -⟩ := letterParser_domain hparse
    exact nomatch hu.symm.trans hname
  sibling := by
    intro b front back z hb hparts hback hz
    obtain rfl := Host.domain.inj (Option.some.inj hb)
    have hx : ∀ c ∈ z, c = 'x' := by
      rcases hz with rfl | rfl <;> simp
    refine ⟨_, letterParser_https ?_ ?_⟩
    · obtain ⟨l, ls, rfl⟩ := List.exists_cons_of_ne_nil hback
      rcases hz with rfl | rfl
      · exact List.cons_ne_nil _ _
      · exact List.cons_ne_nil _ _
    · intro c hc
      rcases Text.mem_of_mem_intercalate hc with rfl | ⟨l, hl, hc⟩
      · rfl
      · rcases List.mem_cons.mp hl with hl | hl
        · rw [hx c (hl ▸ hc)]
          rfl
        · have hname : l ∈ (lower "drive.example.com".toList).splitOn '.' :=
            hparts ▸ List.mem_append_right _ hl
          have hletters : (lower "drive.example.com".toList).all isNameChar = true := rfl
          exact List.all_eq_true.mp hletters c ((Text.sublist_of_mem_splitOn hname).subset hc)
  address := fun a b c d a' hb => nomatch hb

/-- `com` is the public suffix of `drive.example.com`. -/
theorem example_neverWidens :
    NeverWidens letterParser (fun ls => ls == ["com".toList]) exampleBase :=
  (neverWidens_iff readsHosts_letterParser
    (by decide : letterParser "https://drive.example.com".toList = some exampleBase)
    (.inl rfl)).mpr (by
      rintro h hh
      obtain rfl := Option.some.inj hh
      exact ⟨by decide, ["example".toList, "com".toList], by decide, rfl⟩)

/-- Below `co.uk` any host is followed. -/
theorem shop_widened :
    ¬ NeverWidens letterParser (fun ls => ls == ["uk".toList] || ls == ["co".toList, "uk".toList])
      ⟨"https".toList, some (.domain "shop.co.uk".toList)⟩ := by
  intro hnever
  have hselect : selectServerInstance letterParser
      ⟨"https".toList, some (.domain "shop.co.uk".toList)⟩ (namesInstance "https://evil.co.uk".toList) =
      some ⟨"https".toList, some (.domain "evil.co.uk".toList)⟩ := by
    decide
  obtain ⟨-, h, h', hb, hi, htrust⟩ := hnever _ _ hselect
  obtain rfl := Option.some.inj hb
  obtain rfl := Option.some.inj hi
  rcases htrust with heq | ⟨b, i, r, hb, hi, hr, hsuffix⟩
  · exact absurd heq (by decide)
  · obtain rfl := Host.domain.inj hb
    obtain rfl := Host.domain.inj hi
    have hr' : r = ["shop".toList, "co".toList, "uk".toList] :=
      Option.some.inj (hr.symm.trans (by decide))
    rw [hr'] at hsuffix
    exact absurd hsuffix (by decide)

end WebFinger

end OwncloudSync
