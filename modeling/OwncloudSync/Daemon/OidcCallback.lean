import OwncloudSync.Daemon.SpacePoller
import Mathlib.Tactic.Common

/-!
# A sign-in

`handle_callback` (`oidc_callback.rs`), with the part of `AddAccount` before it and `run_callback`
around it.  A sign-in writes to four stores one after another — the keychain, the token managers,
the configuration and its file — and each of its awaits can fail, or be the one at which
`SIGN_IN_TIMEOUT` ends it.  What the outside answers is given beforehand (`Answers`); of the page
for the browser and of the lock only the time matters.  A blocking task that the timeout cuts off
runs on by itself, so the answer says what it has done in the end.

Three of the exits clean up (`abort`): a URL that does not parse, a failed identity lookup, and a
configuration that has the account or cannot be saved.  **Not cleaned up** are the entry in the
configuration when the save fails, and anything at a timeout.

Nothing before the lock reads the configuration, so the one given here is the one found under the
lock.  How the request is read, before anything is written, is in `Daemon/CallbackRequest.lean`.
-/

namespace OwncloudSync

namespace OidcCallback

/-- What an await of the sign-in comes to. -/
inductive Await (α : Type) where
  | done (result : Except String α)
  | timeout

/-- The call has succeeded. -/
def Await.isOk {α : Type} : Await α → Bool
  | .done (.ok _) => true
  | _ => false

/-- What becomes of the blocking `KeychainStore::save`; `left` tells whether there is an entry in
the end. -/
inductive KeychainSave where
  | saved
  | failed (e : String)
  | panicked (e : String) (left : Bool)
  | timeout (left : Bool)

/-- What becomes of the blocking `KeychainStore::delete`; its error is logged only. -/
inductive KeychainDelete where
  | deleted
  | kept
  | timeout (left : Bool)
  deriving DecidableEq

/-- What a sign-in meets. -/
structure Answers where
  /-- callback port, WebFinger, discovery and PKCE, before `run_callback` -/
  prepared : Except String Unit
  accept : Await Unit
  code : Await Str
  exchange : Await Unit
  keychainSave : KeychainSave
  /-- the error of `Url::parse` -/
  parseError : Option String
  identity : Await (Str × Str × ServerType)
  lockInTime : Bool
  /-- a failed save leaves what the file can be loaded as -/
  saveConfig : Except (String × Option AppConfig) Unit
  /-- the page for the browser is written in time -/
  pageInTime : Bool
  keychainDelete : KeychainDelete

/-- The stores, and what the GUI is told. -/
structure World where
  keychain : Uuid → Bool
  tokens : Uuid → Bool
  config : AppConfig
  file : Option AppConfig
  events : List AccountEvent

namespace World

/-- The keychain has an entry for the account, or none. -/
def setKeychain (w : World) (a : Uuid) (b : Bool) : World :=
  { w with keychain := fun x => if x = a then b else w.keychain x }

/-- The daemon has a token manager for the account, or none. -/
def setTokens (w : World) (a : Uuid) (b : Bool) : World :=
  { w with tokens := fun x => if x = a then b else w.tokens x }

/-- An event goes to every GUI. -/
def broadcast (w : World) (e : AccountEvent) : World := { w with events := w.events ++ [e] }

end World

/-- How `handle_callback` ends. -/
inductive Exit where
  | ok
  | failed (reason : String)
  | timedOut
  deriving DecidableEq

/-- `.await.map_err(..)?` under the timeout. -/
def await {α : Type} (r : Await α) (context : String) (w : World) (k : α → World × Exit) :
    World × Exit :=
  match r with
  | .timeout => (w, .timedOut)
  | .done (.error e) => (w, .failed (context ++ e))
  | .done (.ok x) => k x

/-- The exits that clean up: the error page, then the token manager, then the keychain. -/
def abort (o : Answers) (a : Uuid) (reason : String) (w : World) : World × Exit :=
  if o.pageInTime then
    match o.keychainDelete with
    | .deleted => ((w.setTokens a false).setKeychain a false, .failed reason)
    | .kept => (w.setTokens a false, .failed reason)
    | .timeout left => ((w.setTokens a false).setKeychain a left, .timedOut)
  else (w, .timedOut)

/-- The check for a duplicate and the push, under one lock, and what follows. -/
def finish (o : Answers) (a : Uuid) (url userId displayName : Str) (serverType : ServerType)
    (w : World) : World × Exit :=
  if w.config.account.any (fun b => b.url = url ∧ b.userId = userId) then
    abort o a ("account already exists for user '" ++ String.ofList userId ++ "' on " ++
      String.ofList url) w
  else
    let cfg := w.config.pushAccount ⟨a, url, userId, [], displayName, serverType, [], []⟩
    match o.saveConfig with
    | .error (e, left) =>
        abort o a ("failed to save config: " ++ e) { w with config := cfg, file := left }
    | .ok () =>
        (World.broadcast { w with config := cfg, file := some cfg }
          (.accountAddCompleted a userId displayName url),
          if o.pageInTime then .ok else .timedOut)

/-- `handle_callback` after the keychain save. -/
def afterKeychain (o : Answers) (a : Uuid) (url : Str) (w : World) : World × Exit :=
  match o.parseError with
  | some e => abort o a ("invalid server URL: " ++ e) w
  | none =>
      match o.identity with
      | .timeout => (w, .timedOut)
      | .done (.error e) => abort o a ("identity lookup failed: " ++ e) w
      | .done (.ok (userId, displayName, serverType)) =>
          if o.lockInTime then finish o a url userId displayName serverType w else (w, .timedOut)

/-- `handle_callback`. -/
def handleCallback (o : Answers) (a : Uuid) (url : Str) (w : World) : World × Exit :=
  await o.accept "" w fun _ =>
  await o.code "" w fun _ =>
  await o.exchange "token exchange failed: " w fun _ =>
  match o.keychainSave with
  | .timeout left => (w.setKeychain a left, .timedOut)
  | .panicked e left => (w.setKeychain a left, .failed ("keychain task panicked: " ++ e))
  | .failed e => (w, .failed ("keychain save failed: " ++ e))
  | .saved => afterKeychain o a url ((w.setKeychain a true).setTokens a true)

/-- What `run_callback` tells the GUI. -/
def told (a : Uuid) : World × Exit → World
  | (w, .ok) => w
  | (w, .failed reason) => w.broadcast (.accountAddFailed a reason)
  | (w, .timedOut) => w.broadcast (.accountAddFailed a "sign-in timed out")

/-- `run_callback`. -/
def runCallback (o : Answers) (a : Uuid) (url : Str) (w : World) : World :=
  told a (handleCallback o a url w)

/-- `AddAccount`, once its account has an id. -/
def addAccount (o : Answers) (a : Uuid) (url : Str) (w : World) : World :=
  match o.prepared with
  | .error reason => w.broadcast (.accountAddFailed a reason)
  | .ok () => runCallback o a url w

/-! ## What is left behind -/

/-- The config does not have the account. -/
def NoAccount (cfg : AppConfig) (a : Uuid) : Prop := ∀ b ∈ cfg.account, b.id ≠ a

/-- No store has an entry for the account, and it was not told to be complete. -/
structure NothingLeft (a : Uuid) (w : World) : Prop where
  keychain : w.keychain a = false
  tokens : w.tokens a = false
  config : NoAccount w.config a
  file : ∀ cfg, w.file = some cfg → NoAccount cfg a
  events : ∀ u n url, .accountAddCompleted a u n url ∉ w.events

/-- If the sign-in is told to have failed, nothing is left behind. -/
def LeavesNothing (a : Uuid) (w : World) : Prop :=
  (∃ reason, .accountAddFailed a reason ∈ w.events) → NothingLeft a w

/-- Before the sign-in: the id is new. -/
structure Fresh (a : Uuid) (w : World) : Prop where
  nothing : NothingLeft a w
  unfailed : ∀ reason, .accountAddFailed a reason ∉ w.events

/-- The cleaning up gets through: the page is written in time, and the keychain entry goes. -/
def CleansUp (o : Answers) : Prop :=
  o.pageInTime = true ∧ (o.keychainDelete = .deleted ∨ o.keychainDelete = .timeout false)

/-- What a sign-in must meet once its tokens are in the keychain: if it is refused, the cleaning up
gets through; otherwise neither the lock nor a page times out and the save succeeds. -/
def EndsWell (o : Answers) (url : Str) (cfg : AppConfig) : Prop :=
  match o.parseError, o.identity with
  | some _, _ => CleansUp o
  | none, .timeout => False
  | none, .done (.error _) => CleansUp o
  | none, .done (.ok (userId, _, _)) => o.lockInTime = true ∧
      if cfg.account.any (fun b => b.url = url ∧ b.userId = userId) then CleansUp o
      else o.saveConfig = .ok () ∧ o.pageInTime = true

/-- The condition for a whole sign-in: it ends before the keychain is asked, or the keychain is
left without an entry, or it ends well. -/
def Clean (o : Answers) (url : Str) (cfg : AppConfig) : Prop :=
  o.prepared = .ok () → o.accept.isOk = true → o.code.isOk = true → o.exchange.isOk = true →
    match o.keychainSave with
    | .saved => EndsWell o url cfg
    | .failed _ => True
    | .panicked _ left => left = false
    | .timeout left => left = false

/-- After the keychain save: the tokens are stored, and nothing else is. -/
structure Stored (a : Uuid) (w : World) : Prop where
  keychain : w.keychain a = true
  tokens : w.tokens a = true
  config : NoAccount w.config a
  file : ∀ cfg, w.file = some cfg → NoAccount cfg a
  events : ∀ u n url, .accountAddCompleted a u n url ∉ w.events

/-- The sign-in has succeeded, or nothing is left of it. -/
def Tidy (a : Uuid) (r : World × Exit) : Prop := r.2 = .ok ∨ NothingLeft a r.1

variable {o : Answers} {a : Uuid} {url userId displayName : Str} {serverType : ServerType}
  {w : World} {reason : String} {r : World × Exit}

/-! ## The GUI is told -/

lemma nothingLeft_broadcast :
    NothingLeft a (w.broadcast (.accountAddFailed a reason)) ↔ NothingLeft a w := by
  have hevents : ∀ u n url, .accountAddCompleted a u n url ∉
      (w.broadcast (.accountAddFailed a reason)).events ↔
        .accountAddCompleted a u n url ∉ w.events := by
    intro u n url
    simp [World.broadcast]
  constructor
  · intro h
    exact ⟨h.keychain, h.tokens, h.config, h.file,
      fun u n url => (hevents u n url).mp (h.events u n url)⟩
  · intro h
    exact ⟨h.keychain, h.tokens, h.config, h.file,
      fun u n url => (hevents u n url).mpr (h.events u n url)⟩

lemma leavesNothing_broadcast :
    LeavesNothing a (w.broadcast (.accountAddFailed a reason)) ↔ NothingLeft a w := by
  rw [LeavesNothing, nothingLeft_broadcast]
  exact ⟨fun h => h ⟨reason, by simp [World.broadcast]⟩, fun h _ => h⟩

lemma leavesNothing_told (h : ∀ reason, .accountAddFailed a reason ∉ r.1.events) :
    LeavesNothing a (told a r) ↔ Tidy a r := by
  obtain ⟨w, exit⟩ := r
  cases exit with
  | ok => exact iff_of_true (fun ⟨reason, hr⟩ => absurd hr (h reason)) (Or.inl rfl)
  | failed reason => exact leavesNothing_broadcast.trans (by simp [Tidy])
  | timedOut => exact leavesNothing_broadcast.trans (by simp [Tidy])

/-! ## Nobody else tells of a failure -/

/-- All that cleaning up can do. -/
lemma abort_cases : ∃ keychain tokens exit, exit ≠ .ok ∧
    abort o a reason w = ({ w with keychain := keychain, tokens := tokens }, exit) := by
  unfold abort
  split
  · split
    · exact ⟨_, _, _, by simp, rfl⟩
    · exact ⟨_, _, _, by simp, rfl⟩
    · exact ⟨_, _, _, by simp, rfl⟩
  · exact ⟨_, _, _, by simp, rfl⟩

lemma abort_events : (abort o a reason w).1.events = w.events := by
  obtain ⟨keychain, tokens, exit, -, heq⟩ := abort_cases (o := o) (a := a) (w := w)
  rw [heq]

lemma finish_events (h : .accountAddFailed a reason ∈
    (finish o a url userId displayName serverType w).1.events) :
    .accountAddFailed a reason ∈ w.events := by
  unfold finish at h
  split at h
  · rwa [abort_events] at h
  · dsimp only at h
    split at h
    · rwa [abort_events] at h
    · simpa [World.broadcast] using h

lemma afterKeychain_events (h : .accountAddFailed a reason ∈ (afterKeychain o a url w).1.events) :
    .accountAddFailed a reason ∈ w.events := by
  unfold afterKeychain at h
  split at h
  · rwa [abort_events] at h
  · split at h
    · exact h
    · rwa [abort_events] at h
    · split at h
      · exact finish_events h
      · exact h

lemma handleCallback_events (h : .accountAddFailed a reason ∈ (handleCallback o a url w).1.events) :
    .accountAddFailed a reason ∈ w.events := by
  unfold handleCallback await at h
  split at h
  · exact h
  · exact h
  · split at h
    · exact h
    · exact h
    · split at h
      · exact h
      · exact h
      · split at h
        · exact h
        · exact h
        · exact h
        · exact afterKeychain_events (w := (w.setKeychain a true).setTokens a true) h

/-! ## The exits -/

lemma abort_config : (abort o a reason w).1.config = w.config := by
  obtain ⟨keychain, tokens, exit, -, heq⟩ := abort_cases (o := o) (a := a) (w := w)
  rw [heq]

lemma abort_not_ok : (abort o a reason w).2 ≠ .ok := by
  obtain ⟨keychain, tokens, exit, hexit, heq⟩ := abort_cases (o := o) (a := a) (w := w)
  rwa [heq]

/-- An exit that cleans up is tidy exactly when the cleaning up gets through. -/
lemma tidy_abort (h : Stored a w) : Tidy a (abort o a reason w) ↔ CleansUp o := by
  rw [Tidy, or_iff_right abort_not_ok, CleansUp, abort]
  by_cases hpage : o.pageInTime = true
  · rw [if_pos hpage]
    cases hdel : o.keychainDelete with
    | deleted =>
        exact iff_of_true ⟨if_pos rfl, if_pos rfl, h.config, h.file, h.events⟩
          ⟨hpage, Or.inl rfl⟩
    | kept =>
        refine iff_of_false (fun hn => ?_) (by simp)
        exact absurd (h.keychain.symm.trans hn.keychain) (by simp)
    | timeout left =>
        have hleft : ((w.setTokens a false).setKeychain a left).keychain a = left := if_pos rfl
        constructor
        · intro hn
          exact ⟨hpage, Or.inr (congrArg _ (hleft.symm.trans hn.keychain))⟩
        · rintro ⟨-, hd | hd⟩
          · cases hd
          · cases hd
            exact ⟨hleft, if_pos rfl, h.config, h.file, h.events⟩
  · rw [if_neg hpage]
    refine iff_of_false (fun hn => ?_) (fun hc => hpage hc.1)
    exact absurd (h.keychain.symm.trans hn.keychain) (by simp)

lemma not_tidy_of_config (hok : r.2 ≠ .ok) (h : ¬ NoAccount r.1.config a) : ¬ Tidy a r := by
  rintro (hr | hr)
  · exact hok hr
  · exact h hr.config

lemma not_noAccount_push {cfg : AppConfig} : ¬ NoAccount (cfg.pushAccount
    ⟨a, url, userId, [], displayName, serverType, [], []⟩) a :=
  fun h => h _ (List.mem_append_right _ (List.mem_singleton_self _)) rfl

lemma not_tidy_timedOut (h : Stored a w) : ¬ Tidy a (w, .timedOut) := by
  rintro (hr | hr)
  · cases hr
  · exact absurd (h.keychain.symm.trans hr.keychain) (by simp)

/-- Under the lock: a failed save is never tidy, since the account stays in the configuration. -/
lemma tidy_finish (h : Stored a w) :
    Tidy a (finish o a url userId displayName serverType w) ↔
      if w.config.account.any (fun b => b.url = url ∧ b.userId = userId) then CleansUp o
      else o.saveConfig = .ok () ∧ o.pageInTime = true := by
  unfold finish
  split
  · exact tidy_abort h
  · dsimp only
    cases hsave : o.saveConfig with
    | error e =>
        refine iff_of_false (not_tidy_of_config abort_not_ok ?_) (by simp)
        rw [abort_config]
        exact not_noAccount_push
    | ok u =>
        by_cases hpage : o.pageInTime = true
        · exact iff_of_true (Or.inl (if_pos hpage)) ⟨rfl, hpage⟩
        · refine iff_of_false (not_tidy_of_config ?_ not_noAccount_push) (fun hc => hpage hc.2)
          simp [hpage]

lemma tidy_afterKeychain (h : Stored a w) :
    Tidy a (afterKeychain o a url w) ↔ EndsWell o url w.config := by
  unfold afterKeychain EndsWell
  cases o.parseError with
  | some e => exact tidy_abort h
  | none =>
      cases o.identity with
      | timeout => exact iff_of_false (not_tidy_timedOut h) not_false
      | done result =>
          cases result with
          | error e => exact tidy_abort h
          | ok who =>
              obtain ⟨userId, displayName, serverType⟩ := who
              dsimp only
              by_cases hlock : o.lockInTime = true
              · rw [if_pos hlock, and_iff_right hlock]
                exact tidy_finish h
              · rw [if_neg hlock]
                exact iff_of_false (not_tidy_timedOut h) (fun hc => hlock hc.1)

/-- A world in which only the keychain may have an entry. -/
lemma tidy_setKeychain (h : NothingLeft a w) {left : Bool} {exit : Exit} (hexit : exit ≠ .ok) :
    Tidy a (w.setKeychain a left, exit) ↔ left = false := by
  have hleft : (w.setKeychain a left).keychain a = left := if_pos rfl
  rw [Tidy, or_iff_right hexit]
  constructor
  · exact fun hn => hleft.symm.trans hn.keychain
  · rintro rfl
    exact ⟨hleft, h.tokens, h.config, h.file, h.events⟩

lemma stored_of_nothingLeft (h : NothingLeft a w) :
    Stored a ((w.setKeychain a true).setTokens a true) :=
  ⟨if_pos rfl, if_pos rfl, h.config, h.file, h.events⟩

/-- An await that is not the end of the sign-in. -/
lemma tidy_await {α : Type} {x : Await α} {context : String} {k : α → World × Exit} {P : Prop}
    (h : NothingLeft a w) (hk : ∀ y, Tidy a (k y) ↔ P) :
    Tidy a (await x context w k) ↔ (x.isOk = true → P) := by
  cases x with
  | timeout => exact iff_of_true (Or.inr h) (fun hx => by cases hx)
  | done result =>
      cases result with
      | error e => exact iff_of_true (Or.inr h) (fun hx => by cases hx)
      | ok y => exact (hk y).trans ⟨fun hP _ => hP, fun hP => hP rfl⟩

lemma tidy_handleCallback (h : NothingLeft a w) : Tidy a (handleCallback o a url w) ↔
    (o.accept.isOk = true → o.code.isOk = true → o.exchange.isOk = true →
      match o.keychainSave with
      | .saved => EndsWell o url w.config
      | .failed _ => True
      | .panicked _ left => left = false
      | .timeout left => left = false) := by
  refine tidy_await h (fun _ => tidy_await h (fun _ => tidy_await h (fun _ => ?_)))
  cases o.keychainSave with
  | saved => exact tidy_afterKeychain (stored_of_nothingLeft h)
  | failed e => exact iff_of_true (Or.inr h) trivial
  | panicked e left => exact tidy_setKeychain h (by simp)
  | timeout left => exact tidy_setKeychain h (by simp)

/-- **Exactly when a failed sign-in leaves nothing behind**, at every failure and at every await the
timeout can end it at. -/
theorem leavesNothing_iff_clean (o : Answers) (a : Uuid) (url : Str) (w : World)
    (h : Fresh a w) : LeavesNothing a (addAccount o a url w) ↔ Clean o url w.config := by
  unfold addAccount Clean
  cases hprep : o.prepared with
  | error reason => exact iff_of_true (leavesNothing_broadcast.mpr h.nothing) (fun hp => by cases hp)
  | ok u =>
      have htold := leavesNothing_told (a := a) (r := handleCallback o a url w)
        (fun reason hr => h.unfailed reason (handleCallback_events hr))
      refine htold.trans ((tidy_handleCallback h.nothing).trans ?_)
      exact ⟨fun hP _ => hP, fun hP => hP rfl⟩

/-! ## A sign-in of the first account -/

/-- Before the first account. -/
def firstStart : World where
  keychain _ := false
  tokens _ := false
  config := {}
  file := none
  events := []

lemma fresh_firstStart (a : Uuid) : Fresh a firstStart where
  nothing :=
    { keychain := rfl
      tokens := rfl
      config := fun _ hb => nomatch hb
      file := fun _ hcfg => nomatch hcfg
      events := fun _ _ _ he => nomatch he }
  unfailed _ he := nomatch he

/-- All goes well but for what the identity lookup and the save of the configuration come to. -/
def signIn (identity : Await (Str × Str × ServerType))
    (saveConfig : Except (String × Option AppConfig) Unit) : Answers where
  prepared := .ok ()
  accept := .done (.ok ())
  code := .done (.ok "c0de".toList)
  exchange := .done (.ok ())
  keychainSave := .saved
  parseError := none
  identity := identity
  lockInTime := true
  saveConfig := saveConfig
  pageInTime := true
  keychainDelete := .deleted

/-- A failed identity lookup is cleaned up. -/
theorem failed_lookup_leaves_nothing : LeavesNothing 1 (addAccount
    (signIn (.done (.error "503 Service Unavailable")) (.ok ())) 1
    "https://ocis.example.com".toList firstStart) :=
  (leavesNothing_iff_clean _ _ _ _ (fresh_firstStart 1)).mpr
    (fun _ _ _ _ => ⟨rfl, Or.inl rfl⟩)

/-- **The account stays in the configuration** when the disk is full. -/
theorem failed_save_leaves_account : ¬ LeavesNothing 1 (addAccount
    (signIn (.done (.ok ("alice".toList, "Alice".toList, .ocis)))
      (.error ("No space left on device", none))) 1
    "https://ocis.example.com".toList firstStart) := by
  intro h
  have hleft := h ⟨"failed to save config: No space left on device", List.mem_singleton_self _⟩
  exact hleft.config _ (List.mem_singleton_self _) rfl

end OidcCallback

end OwncloudSync
