import OwncloudSync.Daemon.Coherence
import OwncloudSync.Engine.Requests
import Mathlib.Tactic.Common

/-!
# Two accounts for one user

A sign-in is refused if the configuration has an account "with the same url and user_id".  The URL
is compared **as text**, and the text depends on how it was entered: the GUI trims it and strips
its scheme in any case of letters, the daemon strips a scheme in lower case and puts `https://`
before it, and where WebFinger resolves an instance the text is the one the URL library writes.
Neither a trailing slash nor the letters of the host are brought to one form.

`accounts_unique_iff` says what this is enough for: a run keeps the accounts apart exactly when no
sign-in ends while the same user has an account under **another spelling** of the same URL.
-/

namespace OwncloudSync

/-! ## The text that is kept -/

/-- The characters `str::trim` removes. -/
def isWhiteSpace (c : Char) : Bool :=
  (9 ≤ c.toNat && c.toNat ≤ 13) || (0x2000 ≤ c.toNat && c.toNat ≤ 0x200a) ||
    c.toNat ∈ [0x20, 0x85, 0xa0, 0x1680, 0x2028, 0x2029, 0x202f, 0x205f, 0x3000]

/-- `str::trim`. -/
def trim (s : Str) : Str :=
  ((s.dropWhile isWhiteSpace).reverse.dropWhile isWhiteSpace).reverse

/-- `strip_url_schema` of the GUI. -/
def stripUrlSchema (s : Str) : Str :=
  if (s.take 8).map Char.toLower = "https://".toList then s.drop 8
  else if (s.take 7).map Char.toLower = "http://".toList then s.drop 7
  else s

/-- What the GUI sends for an entered URL; nothing if it is empty. -/
def addAccountSubmit (urlInput : Str) : Option Str :=
  let normalized := stripUrlSchema (trim urlInput)
  if normalized = [] then none else some normalized

/-! ## Accounts of the same user on the same server -/

/-- A path without the slash at its end. -/
def withoutTrailingSlash (path : Str) : Str :=
  if path.getLast? = some '/' then path.dropLast else path

/-- Both texts parse, to the same origin and the same path up to a trailing slash. -/
def SameServer (parse : Str → Option Url) (u v : Str) : Prop :=
  ∃ x y, parse u = some x ∧ parse v = some y ∧ x.origin = y.origin ∧
    withoutTrailingSlash x.path = withoutTrailingSlash y.path

instance (parse : Str → Option Url) (u v : Str) : Decidable (SameServer parse u v) :=
  match hu : parse u, hv : parse v with
  | none, _ => isFalse (by rintro ⟨x, y, hx, -⟩; rw [hu] at hx; cases hx)
  | some _, none => isFalse (by rintro ⟨x, y, -, hy, -⟩; rw [hv] at hy; cases hy)
  | some x, some y =>
      decidable_of_iff
        (x.origin = y.origin ∧ withoutTrailingSlash x.path = withoutTrailingSlash y.path)
        ⟨fun h => ⟨x, y, hu, hv, h⟩, by
          rintro ⟨x', y', hx, hy, h⟩
          rw [hu] at hx
          rw [hv] at hy
          cases hx
          cases hy
          exact h⟩

/-- URL and user of an account. -/
def AccountConfig.login (a : AccountConfig) : Str × Str := (a.url, a.userId)

/-- The same user on the same server. -/
def SameLogin (parse : Str → Option Url) (x y : Str × Str) : Prop :=
  x.2 = y.2 ∧ SameServer parse x.1 y.1

instance (parse : Str → Option Url) (x y : Str × Str) : Decidable (SameLogin parse x y) :=
  inferInstanceAs (Decidable (_ ∧ _))

/-- No two accounts are of the same user on the same server. -/
def AppConfig.Unique (parse : Str → Option Url) (cfg : AppConfig) : Prop :=
  (cfg.account.map AccountConfig.login).Pairwise (fun x y => ¬ SameLogin parse x y)

instance (parse : Str → Option Url) (cfg : AppConfig) : Decidable (cfg.Unique parse) :=
  inferInstanceAs (Decidable (List.Pairwise _ _))

namespace Process

/-- If the step adds an account, no account of the same user has its URL in another spelling. -/
def NotRespelled (parse : Str → Option Url) (p p' : Process) : Prop :=
  ∀ account, p'.config = p.config.pushAccount account → ∀ b ∈ p.config.account,
    b.userId = account.userId → SameServer parse b.url account.url → b.url = account.url

variable {parse : Str → Option Url} {p p' : Process} {cfg : AppConfig} {account : AccountConfig}

lemma unique_pushAccount (h : cfg.Unique parse) :
    (cfg.pushAccount account).Unique parse ↔
      ∀ b ∈ cfg.account, ¬ SameLogin parse b.login account.login := by
  unfold AppConfig.Unique AppConfig.pushAccount
  rw [List.map_append, List.pairwise_append]
  simp only [List.map_cons, List.map_nil, List.pairwise_singleton, List.mem_map,
    List.mem_singleton, forall_exists_index, and_imp, forall_apply_eq_imp_iff₂, forall_eq, true_and]
  exact and_iff_right h

lemma unique_modifyAccount {accountId : Uuid} {g : AccountConfig → AccountConfig}
    (hg : ∀ a, (g a).login = a.login) :
    (cfg.modifyAccount accountId g).Unique parse ↔ cfg.Unique parse := by
  unfold AppConfig.Unique AppConfig.modifyAccount
  rw [Keyed.map_modify _ hg]

/-- One step: only a sign-in can add a second account, and only under another spelling. -/
lemma unique_step (h : p.config.Unique parse) (hnext : Next p p') :
    p'.config.Unique parse ↔ NotRespelled parse p p' := by
  constructor
  · intro hunique account hcfg b hb huser hserver
    rw [hcfg, unique_pushAccount h] at hunique
    exact absurd ⟨huser, hserver⟩ (hunique b hb)
  · intro hspell
    obtain ⟨act, hs⟩ := hnext
    cases step_config hs with
    | none hcfg => rw [hcfg]; exact h
    | pushFolder accountId folder todo _ _ hcfg =>
        rw [hcfg, AppConfig.pushFolder, unique_modifyAccount (fun _ => by rfl)]
        exact h
    | removeAccount accountId _ hcfg =>
        rw [hcfg]
        exact List.Pairwise.sublist (List.filter_sublist.map _) h
    | dismissSpace accountId spaceId hcfg =>
        rw [hcfg, AppConfig.dismissSpace, unique_modifyAccount (fun _ => by split <;> rfl)]
        exact h
    | pushAccount flow account _ _ _ _ hdup hcfg =>
        rw [hcfg, unique_pushAccount h]
        rintro b hb ⟨huser, hserver⟩
        exact hdup b hb ⟨hspell account hcfg b hb huser hserver, huser⟩
    | removeFolders accountId ids _ hcfg =>
        rw [hcfg, SpacePoller.remove, AppConfig.retainFolders,
          unique_modifyAccount (fun _ => by rfl)]
        exact h

/-- **Exactly when the accounts stay unique**, over every run of the daemon and whatever the URL
library parses. -/
theorem accounts_unique_iff (parse : Str → Option Url) (p : Process) (l : List Process)
    (h : p.config.Unique parse) (hrun : List.IsChain Next (p :: l)) :
    (∀ q ∈ l, q.config.Unique parse) ↔ List.IsChain (NotRespelled parse) (p :: l) :=
  Runs.forall_iff_guarded (I := fun _ => True) (P := fun q => q.config.Unique parse)
    (fun _ _ _ _ => trivial) (fun _ _ _ hq hnext => unique_step hq hnext) trivial h hrun

/-! ## Two sign-ins of one user -/

/-- The URL library on an `https` URL without user, port, query and fragment: the letters of the
host do not count, and an empty path is `/`. -/
def hostParse (text : Str) : Option Url :=
  match stripPrefix "https://".toList text with
  | none => none
  | some rest =>
      some {
        origin := ⟨"https".toList, (rest.takeWhile (· ≠ '/')).map Char.toLower, none⟩
        path := if rest.dropWhile (· ≠ '/') = [] then ['/'] else rest.dropWhile (· ≠ '/') }

/-- Alice has an account. -/
def aliceSignedIn : AppConfig where
  account := [⟨1, "https://a.example".toList, "alice".toList, [], [], .ocis, [], []⟩]

/-- She is about to sign in at another server. -/
def aliceSigningIn : Process :=
  { start aliceSignedIn (fun _ => true) with
    signIns := [⟨2, "https://b.example".toList⟩]
    usedAccounts := [1, 2] }

/-- The theorem where she does. -/
theorem two_servers_unique : ∃ q : Process,
    q.config.account.map AccountConfig.login =
      [("https://a.example".toList, "alice".toList),
        ("https://b.example".toList, "alice".toList)] ∧
    q.config.Unique hostParse := by
  have hadd : Step (start aliceSignedIn (fun _ => true))
      (.addAccount 2 "b.example".toList none) aliceSigningIn := .addAccount 2 _ none rfl (by decide)
  have hsigned := @Step.signedIn aliceSigningIn ⟨2, "https://b.example".toList⟩ "alice".toList []
    .ocis .ok List.mem_cons_self (by decide)
  have hrun : List.IsChain Next [_, _, _] := .cons_cons ⟨_, hadd⟩ (.cons_cons ⟨_, hsigned⟩
    (.singleton _))
  have hchain : List.IsChain (NotRespelled hostParse) [_, _, _] :=
    .cons_cons ((unique_step (by decide) ⟨_, hadd⟩).mp (by decide))
      (.cons_cons ((unique_step (by decide) ⟨_, hsigned⟩).mp (by decide)) (.singleton _))
  exact ⟨_, rfl, (accounts_unique_iff hostParse _ _ (by decide) hrun).mpr hchain _
    (.tail _ (.head _))⟩

/-- Alice enters the URL of one server twice, the second time with a slash at its end. -/
theorem slash_makes_second_account : ∃ p : Process, Reachable p ∧
    addAccountSubmit "https://ocis.example.com".toList = some "ocis.example.com".toList ∧
    addAccountSubmit "https://ocis.example.com/".toList = some "ocis.example.com/".toList ∧
    p.config.account.map AccountConfig.login =
      [("https://ocis.example.com".toList, "alice".toList),
        ("https://ocis.example.com/".toList, "alice".toList)] ∧
    ¬ p.config.Unique hostParse := by
  have hstart := starts_start {} (fun _ => true) (by decide) (by decide)
  have hrun : Relation.ReflTransGen Next (start {} (fun _ => true)) _ :=
    (((Relation.ReflTransGen.refl.tail
    ⟨_, .addAccount 1 "ocis.example.com".toList none rfl (by decide)⟩).tail
    ⟨_, @Step.signedIn _ ⟨1, "https://ocis.example.com".toList⟩ "alice".toList [] .ocis .ok
      (by decide) (by decide)⟩).tail
    ⟨_, .addAccount 2 "ocis.example.com/".toList none rfl (by decide)⟩).tail
    ⟨_, @Step.signedIn _ ⟨2, "https://ocis.example.com/".toList⟩ "alice".toList [] .ocis .ok
      (by decide) (by decide)⟩
  exact ⟨_, ⟨_, hstart, hrun⟩, by decide, by decide, rfl, by decide⟩

end Process

end OwncloudSync
