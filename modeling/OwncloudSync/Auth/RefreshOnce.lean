import OwncloudSync.Auth.TokenManager
import OwncloudSync.Lib.Runs
import Mathlib.Logic.Function.Basic
import Mathlib.Tactic.Common

/-!
# Calls of `get_valid_token` at the same time

The folders of an account share one `TokenManager`.  A call holds a lock while it looks at the token
and while it stores a new one, and **none in between**: after the second look it has a copy of the
refresh token (`took`), sends it (`sent`), and has a reply to store (`got`).  Any number of calls may
stand anywhere.

The second look is there because another call may have refreshed meanwhile.  It does not see a
refresh that is still on its way, so two calls can take and send the same refresh token, and store
their replies in either order.

`used_once_iff` says exactly when this goes well, for a server that rotates refresh tokens: every
request is sent while the stored refresh token is still the one that was taken and no other request
is on its way or waiting to be stored.
-/

namespace OwncloudSync

namespace Auth

/-- Where a call of `get_valid_token` stands. -/
inductive Call where
  | entered
  /-- the first look has found the token expired -/
  | checked
  /-- so has the second, and this is the refresh token -/
  | took (refreshToken : Str)
  /-- the request is on its way -/
  | sent (refreshToken : Str)
  /-- the reply is to be stored -/
  | got (new : TokenSet)
  | returned (result : Except String Str)

/-- A request has been sent, and its reply is not stored. -/
def Call.inFlight : Call → Bool
  | .sent _ => true
  | .got _ => true
  | _ => false

/-- What is seen at the token endpoint. -/
inductive Exchange (ι : Type) where
  | sent (i : ι) (refreshToken : Str)
  | accepted (i : ι) (refreshToken : Str) (new : TokenSet)
  | refused (i : ι) (refreshToken : Str) (error : String)

/-- The call that an exchange belongs to. -/
def Exchange.caller {ι : Type} : Exchange ι → ι
  | .sent i _ => i
  | .accepted i _ _ => i
  | .refused i _ _ => i

/-- A token manager and the calls of it. -/
structure Manager (ι : Type) where
  token : TokenSet
  now : Int64
  calls : ι → Call
  log : List (Exchange ι)

namespace Manager

variable {ι : Type} [DecidableEq ι]

/-- A manager with a token, before any call has looked at it. -/
def start (t : TokenSet) (now : Int64) : Manager ι where
  token := t
  now := now
  calls _ := .entered
  log := []

/-- A call is somewhere else. -/
def put (m : Manager ι) (i : ι) (c : Call) : Manager ι :=
  { m with calls := Function.update m.calls i c }

/-- One step of one call, or the passing of time. -/
inductive Step : Manager ι → Manager ι → Prop
  | pass {m : Manager ι} (now : Int64) : Step m { m with now := now }
  -- under the read lock
  | checkValid {m : Manager ι} (i : ι) (h : m.calls i = .entered)
      (hv : m.token.isExpired m.now = false) :
      Step m (m.put i (.returned (.ok m.token.accessToken)))
  | checkExpired {m : Manager ι} (i : ι) (h : m.calls i = .entered)
      (hv : m.token.isExpired m.now = true) : Step m (m.put i .checked)
  -- under the write lock
  | recheckValid {m : Manager ι} (i : ι) (h : m.calls i = .checked)
      (hv : m.token.isExpired m.now = false) :
      Step m (m.put i (.returned (.ok m.token.accessToken)))
  | recheckNone {m : Manager ι} (i : ι) (h : m.calls i = .checked)
      (hv : m.token.isExpired m.now = true) (hrt : m.token.refreshToken = none) :
      Step m (m.put i (.returned (.error noRefreshToken)))
  | recheckSome {m : Manager ι} (i : ι) (rt : Str) (h : m.calls i = .checked)
      (hv : m.token.isExpired m.now = true) (hrt : m.token.refreshToken = some rt) :
      Step m (m.put i (.took rt))
  -- outside of any lock
  | send {m : Manager ι} (i : ι) (rt : Str) (h : m.calls i = .took rt) :
      Step m { m.put i (.sent rt) with log := m.log ++ [.sent i rt] }
  | accept {m : Manager ι} (i : ι) (rt : Str) (resp : TokenResponse) (h : m.calls i = .sent rt) :
      Step m { m.put i (.got (tokenResponseToSet resp m.now)) with
        log := m.log ++ [.accepted i rt (tokenResponseToSet resp m.now)] }
  | refuse {m : Manager ι} (i : ι) (rt : Str) (e : String) (h : m.calls i = .sent rt) :
      Step m { m.put i (.returned (.error e)) with log := m.log ++ [.refused i rt e] }
  -- under the write lock
  | store {m : Manager ι} (i : ι) (new : TokenSet) (h : m.calls i = .got new) :
      Step m { m.put i (.returned (.ok new.accessToken)) with token := new }

/-- The set of the latest successful refresh. -/
def latest (t : TokenSet) (log : List (Exchange ι)) : TokenSet :=
  log.foldl (fun t e => match e with
    | .accepted _ _ new => new
    | _ => t) t

/-- When a refresh token is sent, all earlier requests with it have failed. -/
def Once (log : List (Exchange ι)) : Prop :=
  ∀ pre x post, log = pre ++ x :: post → ∀ i rt, x = .sent i rt →
    ∀ j, .sent j rt ∈ pre → ∃ e, .refused j rt e ∈ pre

/-- No request fails after another one with the same refresh token has succeeded. -/
def Unharmed (log : List (Exchange ι)) : Prop :=
  ∀ pre x post, log = pre ++ x :: post → ∀ i rt e, x = .refused i rt e →
    ∀ j new, .accepted j rt new ∉ pre

/-- Refresh tokens are used once, the latest set is stored as soon as all replies are, and no call
fails because of another. -/
structure UsedOnce (t : TokenSet) (m : Manager ι) : Prop where
  once : Once m.log
  stored : (∀ i new, m.calls i ≠ .got new) → m.token = latest t m.log
  unharmed : Unharmed m.log

/-- The server rotates: a refresh token it issues has never been sent. -/
def Rotates (m m' : Manager ι) : Prop :=
  ∀ i rt new, m'.log = m.log ++ [.accepted i rt new] → ∀ rt', new.refreshToken = some rt' →
    ∀ j, .sent j rt' ∉ m.log

/-- If the step sends a request, its refresh token is the stored one, and no other request is on its
way or waiting to be stored. -/
def SentAlone (m m' : Manager ι) : Prop :=
  ∀ i rt, m'.log = m.log ++ [.sent i rt] →
    m.token.refreshToken = some rt ∧ ∀ j, (m.calls j).inFlight = false

/-- A step against a server that rotates. -/
def Next (m m' : Manager ι) : Prop := Step m m' ∧ Rotates m m'

variable {m m' : Manager ι} {t : TokenSet} {i j : ι} {rt : Str} {log : List (Exchange ι)}

/-! ## The log of one call -/

/-- What the endpoint sees of a call. -/
def mine (i : ι) (log : List (Exchange ι)) : List (Exchange ι) :=
  log.filter (fun x => x.caller = i)

/-- What the endpoint has seen of a call that stands here. -/
def Trace (i : ι) : Call → List (Exchange ι) → Prop
  | .entered, l => l = []
  | .checked, l => l = []
  | .took _, l => l = []
  | .sent rt, l => l = [.sent i rt]
  | .got new, l => ∃ rt, l = [.sent i rt, .accepted i rt new]
  | .returned _, l => l = [] ∨ (∃ rt new, l = [.sent i rt, .accepted i rt new]) ∨
      ∃ rt e, l = [.sent i rt, .refused i rt e]

/-- The log holds of each call what its place implies. -/
def Traced (m : Manager ι) : Prop := ∀ i, Trace i (m.calls i) (mine i m.log)

@[simp] lemma put_calls_self {c : Call} : (m.put i c).calls i = c := Function.update_self ..

lemma put_calls_ne {c : Call} (h : j ≠ i) : (m.put i c).calls j = m.calls j :=
  Function.update_of_ne h ..

@[simp] lemma put_log {c : Call} : (m.put i c).log = m.log := rfl

lemma mem_mine {x : Exchange ι} (h : x ∈ log) : x ∈ mine x.caller log :=
  List.mem_filter.mpr ⟨h, decide_eq_true rfl⟩

lemma mem_of_mine {x : Exchange ι} (h : x ∈ mine i log) : x ∈ log := (List.mem_filter.mp h).1

lemma mine_append_self {x : Exchange ι} (h : x.caller = i) :
    mine i (log ++ [x]) = mine i log ++ [x] := by
  simp [mine, h]

lemma mine_append_ne {x : Exchange ι} (h : j ≠ x.caller) : mine j (log ++ [x]) = mine j log := by
  simp [mine, Ne.symm h]

/-- A step that moves one call and adds nothing to the log. -/
lemma traced_put {c : Call} (h : Traced m) (hc : Trace i c (mine i m.log)) : Traced (m.put i c) := by
  intro j
  by_cases hj : j = i
  · subst hj
    rw [put_calls_self]
    exact hc
  · rw [put_calls_ne hj]
    exact h j

/-- A step that moves one call and adds to the log what the endpoint sees of it. -/
lemma traced_log {c : Call} {x : Exchange ι} (h : Traced m) (hx : x.caller = i)
    (hc : Trace i c (mine i m.log ++ [x])) :
    Traced { m.put i c with log := m.log ++ [x] } := by
  intro j
  by_cases hj : j = i
  · subst hj
    rw [mine_append_self hx]
    simpa using hc
  · rw [mine_append_ne (by rw [hx]; exact hj)]
    change Trace j ((m.put i c).calls j) _
    rw [put_calls_ne hj]
    exact h j

lemma traced_step (h : Traced m) (hs : Step m m') : Traced m' := by
  cases hs with
  | pass now => exact h
  | checkValid i hc hv =>
      have hi := h i
      rw [hc] at hi
      exact traced_put h (Or.inl hi)
  | checkExpired i hc hv =>
      have hi := h i
      rw [hc] at hi
      exact traced_put h hi
  | recheckValid i hc hv =>
      have hi := h i
      rw [hc] at hi
      exact traced_put h (Or.inl hi)
  | recheckNone i hc hv hrt =>
      have hi := h i
      rw [hc] at hi
      exact traced_put h (Or.inl hi)
  | recheckSome i rt hc hv hrt =>
      have hi := h i
      rw [hc] at hi
      exact traced_put h hi
  | send i rt hc =>
      have hi := h i
      rw [hc] at hi
      refine traced_log h rfl ?_
      rw [show mine i m.log = [] from hi]
      rfl
  | accept i rt resp hc =>
      have hi := h i
      rw [hc] at hi
      refine traced_log h rfl ⟨rt, ?_⟩
      rw [show mine i m.log = _ from hi]
      rfl
  | refuse i rt e hc =>
      have hi := h i
      rw [hc] at hi
      refine traced_log h rfl (Or.inr (Or.inr ⟨rt, e, ?_⟩))
      rw [show mine i m.log = _ from hi]
      rfl
  | store i new hc =>
      have hi := h i
      rw [hc] at hi
      obtain ⟨rt, hi⟩ := hi
      exact traced_put h (Or.inr (Or.inl ⟨rt, new, hi⟩))

/-- A request that was accepted had been sent, and was not refused. -/
lemma Traced.of_accepted {new : TokenSet} (h : Traced m) (hacc : .accepted i rt new ∈ m.log) :
    .sent i rt ∈ m.log ∧ ∀ rt' e, .refused i rt' e ∉ m.log := by
  have hi := h i
  have hmem : .accepted i rt new ∈ mine i m.log := mem_mine hacc
  have hsplit : ∃ rt' new', mine i m.log = [.sent i rt', .accepted i rt' new'] := by
    cases hc : m.calls i with
    | got new' =>
        rw [hc] at hi
        obtain ⟨rt', hi⟩ := hi
        exact ⟨rt', new', hi⟩
    | returned result =>
        rw [hc] at hi
        rcases hi with hi | hi | ⟨rt', e, hi⟩
        · rw [hi] at hmem; cases hmem
        · exact hi
        · rw [hi] at hmem; simp at hmem
    | _ =>
        rw [hc] at hi
        rw [show mine i m.log = _ from hi] at hmem
        simp at hmem
  obtain ⟨rt', new', hmine⟩ := hsplit
  rw [hmine] at hmem
  obtain ⟨rfl, rfl⟩ : rt = rt' ∧ new = new' := by simpa using hmem
  refine ⟨mem_of_mine (i := i) (by rw [hmine]; simp), ?_⟩
  intro rt' e hrefused
  have hmem' : .refused i rt' e ∈ mine i m.log := mem_mine hrefused
  rw [hmine] at hmem'
  simp at hmem'

/-- A request that is in flight was sent, and was not refused. -/
lemma Traced.of_sent (h : Traced m) (hc : m.calls i = .sent rt) :
    .sent i rt ∈ m.log ∧ ∀ rt' e, .refused i rt' e ∉ m.log := by
  have hi := h i
  rw [hc] at hi
  refine ⟨mem_of_mine (i := i) (by rw [show mine i m.log = _ from hi]; simp), ?_⟩
  intro rt' e hrefused
  have hmem : .refused i rt' e ∈ mine i m.log := mem_mine hrefused
  rw [show mine i m.log = _ from hi] at hmem
  simp at hmem

/-! ## The log as a whole -/

omit [DecidableEq ι] in
lemma once_append {x : Exchange ι} : Once (log ++ [x]) ↔ Once log ∧
    ∀ i rt, x = .sent i rt → ∀ j, .sent j rt ∈ log → ∃ e, .refused j rt e ∈ log :=
  Runs.forall_split_concat

omit [DecidableEq ι] in
lemma unharmed_append {x : Exchange ι} : Unharmed (log ++ [x]) ↔ Unharmed log ∧
    ∀ i rt e, x = .refused i rt e → ∀ j new, .accepted j rt new ∉ log :=
  Runs.forall_split_concat

omit [DecidableEq ι] in
lemma latest_append {x : Exchange ι} : latest t (log ++ [x]) =
    match x with
    | .accepted _ _ new => new
    | _ => latest t log := by
  rw [latest, List.foldl_append]
  cases x <;> rfl

/-! ## One request at a time -/

/-- What holds as long as no refresh token is used twice. -/
structure Solo (t : TokenSet) (m : Manager ι) : Prop where
  alone : ∀ i j, (m.calls i).inFlight = true → (m.calls j).inFlight = true → i = j
  sent : ∀ i rt, m.calls i = .sent rt → m.token.refreshToken = some rt
  got : ∀ i new, m.calls i = .got new →
    (∃ rt, .accepted i rt new ∈ m.log ∧ m.token.refreshToken = some rt) ∧
      latest t m.log = new ∧ ∀ rt, new.refreshToken = some rt → ∀ j, .sent j rt ∉ m.log
  stored : (∀ i new, m.calls i ≠ .got new) → m.token = latest t m.log
  spent : ∀ rt, m.token.refreshToken = some rt → ∀ j, .sent j rt ∈ m.log →
    (∃ e, .refused j rt e ∈ m.log) ∨ (m.calls j).inFlight = true
  took : ∀ i rt, m.calls i = .took rt →
    m.token.refreshToken = some rt ∨ ∃ j new, .accepted j rt new ∈ m.log

omit [DecidableEq ι] in
lemma solo_start (now : Int64) : Solo t (start t now : Manager ι) where
  alone _ _ h := nomatch h
  sent _ _ h := nomatch h
  got _ _ h := nomatch h
  stored _ := rfl
  spent _ _ _ h := nomatch h
  took _ _ h := nomatch h

/-- A request that is in flight has neither failed nor has its token been used before. -/
lemma Solo.of_inFlight (hsolo : Solo t m) (htr : Traced m) (hj : (m.calls j).inFlight = true) :
    ∃ rt, m.token.refreshToken = some rt ∧ .sent j rt ∈ m.log ∧ ∀ rt' e, .refused j rt' e ∉ m.log := by
  cases hc : m.calls j with
  | sent rt => exact ⟨rt, hsolo.sent j rt hc, htr.of_sent hc⟩
  | got new =>
      obtain ⟨⟨rt, hacc, hrt⟩, -⟩ := hsolo.got j new hc
      exact ⟨rt, hrt, htr.of_accepted hacc⟩
  | _ => rw [hc] at hj; cases hj

/-- **A request that uses no token a second time is sent alone.** -/
lemma Solo.sentAlone (hsolo : Solo t m) (htr : Traced m) (hc : m.calls i = .took rt)
    (honce : ∀ j, .sent j rt ∈ m.log → ∃ e, .refused j rt e ∈ m.log) :
    m.token.refreshToken = some rt ∧ ∀ j, (m.calls j).inFlight = false := by
  have hstored : m.token.refreshToken = some rt := by
    rcases hsolo.took i rt hc with h | ⟨j, new, hacc⟩
    · exact h
    · -- the token was taken before another call refreshed
      obtain ⟨hsent, hno⟩ := htr.of_accepted hacc
      obtain ⟨e, hrefused⟩ := honce j hsent
      exact absurd hrefused (hno rt e)
  refine ⟨hstored, fun j => ?_⟩
  cases hj : (m.calls j).inFlight with
  | false => rfl
  | true =>
      obtain ⟨rt', hrt', hsent, hno⟩ := hsolo.of_inFlight htr hj
      obtain rfl := Option.some.inj (hstored.symm.trans hrt')
      obtain ⟨e, hrefused⟩ := honce j hsent
      exact absurd hrefused (hno rt e)

/-- A call that has sent nothing moves, and sends nothing. -/
lemma Solo.put {c : Call} (hsolo : Solo t m) (hold : (m.calls i).inFlight = false)
    (hnew : c.inFlight = false)
    (htook : ∀ rt, c = .took rt → m.token.refreshToken = some rt) : Solo t (m.put i c) where
  alone j k hj hk := by
    by_cases hji : j = i
    · rw [hji, put_calls_self, hnew] at hj; cases hj
    by_cases hki : k = i
    · rw [hki, put_calls_self, hnew] at hk; cases hk
    rw [put_calls_ne hji] at hj
    rw [put_calls_ne hki] at hk
    exact hsolo.alone j k hj hk
  sent j rt hc := by
    by_cases hji : j = i
    · rw [hji, put_calls_self] at hc
      rw [hc] at hnew
      cases hnew
    · rw [put_calls_ne hji] at hc
      exact hsolo.sent j rt hc
  got j new hc := by
    by_cases hji : j = i
    · rw [hji, put_calls_self] at hc
      rw [hc] at hnew
      cases hnew
    · rw [put_calls_ne hji] at hc
      exact hsolo.got j new hc
  stored hno := by
    refine hsolo.stored (fun j new hc => ?_)
    by_cases hji : j = i
    · rw [hji] at hc
      rw [hc] at hold
      cases hold
    · exact hno j new (by rw [put_calls_ne hji]; exact hc)
  spent rt hrt j hsent := by
    refine (hsolo.spent rt hrt j hsent).imp_right (fun hj => ?_)
    by_cases hji : j = i
    · rw [hji, hold] at hj; cases hj
    · rw [put_calls_ne hji]
      exact hj
  took j rt hc := by
    by_cases hji : j = i
    · rw [hji, put_calls_self] at hc
      exact Or.inl (htook rt hc)
    · rw [put_calls_ne hji] at hc
      exact hsolo.took j rt hc

/-- What a call has taken stays accounted for while another one goes on. -/
lemma Solo.took_put {c : Call} {x : Exchange ι} (hsolo : Solo t m) (hc : ∀ rt, c ≠ .took rt)
    (hj : (m.put i c).calls j = .took rt) : m.token.refreshToken = some rt ∨
      ∃ k new, .accepted k rt new ∈ m.log ++ [x] := by
  by_cases hji : j = i
  · subst hji
    exact absurd (put_calls_self.symm.trans hj) (hc rt)
  · rcases hsolo.took j rt ((put_calls_ne hji).symm.trans hj) with h | ⟨k, new, h⟩
    · exact Or.inl h
    · exact Or.inr ⟨k, new, List.mem_append_left _ h⟩

/-- A request goes out that uses no token a second time. -/
lemma Solo.send (hsolo : Solo t m) (hstored : m.token.refreshToken = some rt)
    (hnone : ∀ j, (m.calls j).inFlight = false) :
    Solo t { m.put i (.sent rt) with log := m.log ++ [.sent i rt] } := by
  have hflight : ∀ j, ((m.put i (.sent rt)).calls j).inFlight = true → j = i := by
    intro j hj
    by_contra hji
    rw [put_calls_ne hji, hnone j] at hj
    cases hj
  have hnogot : ∀ j new, m.calls j ≠ .got new := by
    intro j new hj
    have h := hnone j
    rw [hj] at h
    cases h
  refine ⟨fun j k hj hk => (hflight j hj).trans (hflight k hk).symm, ?_, ?_, ?_, ?_, ?_⟩
  · intro j rt' hj
    obtain rfl : j = i := hflight j (congrArg Call.inFlight hj)
    obtain rfl := Call.sent.inj (put_calls_self.symm.trans hj)
    exact hstored
  · intro j new hj
    obtain rfl : j = i := hflight j (congrArg Call.inFlight hj)
    cases put_calls_self.symm.trans hj
  · intro _
    rw [latest_append]
    exact hsolo.stored hnogot
  · intro rt' hrt' j hsent
    rcases List.mem_append.mp hsent with hsent | hsent
    · rcases hsolo.spent rt' hrt' j hsent with ⟨e, he⟩ | hj
      · exact Or.inl ⟨e, List.mem_append_left _ he⟩
      · rw [hnone j] at hj; cases hj
    · obtain ⟨rfl, rfl⟩ : j = i ∧ rt' = rt := by simpa using hsent
      exact Or.inr (congrArg Call.inFlight put_calls_self)
  · intro j rt' hj
    refine hsolo.took_put ?_ hj
    intro _ h
    cases h

/-- The request of a call succeeds. -/
lemma Solo.accept {new : TokenSet} (hsolo : Solo t m) (hc : m.calls i = .sent rt)
    (hfresh : ∀ rt', new.refreshToken = some rt' → ∀ j, .sent j rt' ∉ m.log) :
    Solo t { m.put i (.got new) with log := m.log ++ [.accepted i rt new] } := by
  have hi : (m.calls i).inFlight = true := by rw [hc]; rfl
  have hflight : ∀ j, ((m.put i (.got new)).calls j).inFlight = true → j = i := by
    intro j hj
    by_contra hji
    rw [put_calls_ne hji] at hj
    exact hji (hsolo.alone j i hj hi)
  refine ⟨fun j k hj hk => (hflight j hj).trans (hflight k hk).symm, ?_, ?_, ?_, ?_, ?_⟩
  · intro j rt' hj
    obtain rfl : j = i := hflight j (congrArg Call.inFlight hj)
    cases put_calls_self.symm.trans hj
  · intro j new' hj
    obtain rfl : j = i := hflight j (congrArg Call.inFlight hj)
    obtain rfl := Call.got.inj (put_calls_self.symm.trans hj)
    refine ⟨⟨rt, by simp, hsolo.sent j rt hc⟩, latest_append, fun rt' hrt' k hsent => ?_⟩
    rcases List.mem_append.mp hsent with hsent | hsent
    · exact hfresh rt' hrt' k hsent
    · simp at hsent
  · intro hno
    exact absurd put_calls_self (hno i new)
  · intro rt' hrt' j hsent
    rcases List.mem_append.mp hsent with hsent | hsent
    · rcases hsolo.spent rt' hrt' j hsent with ⟨e, he⟩ | hj
      · exact Or.inl ⟨e, List.mem_append_left _ he⟩
      · obtain rfl := hsolo.alone j i hj hi
        exact Or.inr (congrArg Call.inFlight put_calls_self)
    · simp at hsent
  · intro j rt' hj
    refine hsolo.took_put ?_ hj
    intro _ h
    cases h

/-- The only request in flight comes to its end; `m'` stores the latest set, and nothing that was
sent with its refresh token is pending. -/
lemma Solo.settle (hsolo : Solo t m) (hi : (m.calls i).inFlight = true)
    (hcalls : ∀ j, j ≠ i → m'.calls j = m.calls j)
    (hend : ∃ result, m'.calls i = .returned result) (hstored : m'.token = latest t m'.log)
    (hspent : ∀ rt, m'.token.refreshToken = some rt → ∀ j, .sent j rt ∈ m'.log →
      ∃ e, .refused j rt e ∈ m'.log)
    (htook : ∀ rt, m.token.refreshToken = some rt ∨ (∃ j new, .accepted j rt new ∈ m.log) →
      m'.token.refreshToken = some rt ∨ ∃ j new, .accepted j rt new ∈ m'.log) : Solo t m' := by
  obtain ⟨result, hend⟩ := hend
  have hnone : ∀ j, (m'.calls j).inFlight ≠ true := by
    intro j hj
    by_cases hji : j = i
    · rw [hji, hend] at hj; cases hj
    · rw [hcalls j hji] at hj
      exact hji (hsolo.alone j i hj hi)
  refine ⟨fun j _ hj => absurd hj (hnone j), ?_, ?_, fun _ => hstored, ?_, ?_⟩
  · intro j rt hj
    exact absurd (congrArg Call.inFlight hj) (hnone j)
  · intro j new hj
    exact absurd (congrArg Call.inFlight hj) (hnone j)
  · intro rt hrt j hsent
    exact Or.inl (hspent rt hrt j hsent)
  · intro j rt hj
    have hji : j ≠ i := by
      rintro rfl
      rw [hend] at hj
      cases hj
    exact htook rt (hsolo.took j rt ((hcalls j hji).symm.trans hj))

/-- The request of a call fails. -/
lemma Solo.refuse {e : String} (hsolo : Solo t m) (hc : m.calls i = .sent rt) :
    Solo t { m.put i (.returned (.error e)) with log := m.log ++ [.refused i rt e] } := by
  have hi : (m.calls i).inFlight = true := by rw [hc]; rfl
  have hnogot : ∀ j new, m.calls j ≠ .got new := by
    intro j new hj
    obtain rfl := hsolo.alone j i (by rw [hj]; rfl) hi
    cases hj.symm.trans hc
  refine hsolo.settle hi (fun j hj => put_calls_ne hj) ⟨_, put_calls_self⟩ ?_ ?_ ?_
  · rw [latest_append]
    exact hsolo.stored hnogot
  · intro rt' hrt' j hsent
    rcases List.mem_append.mp hsent with hsent | hsent
    · rcases hsolo.spent rt' hrt' j hsent with ⟨e', he⟩ | hj
      · exact ⟨e', List.mem_append_left _ he⟩
      · -- the request that fails here
        obtain rfl := hsolo.alone j i hj hi
        obtain rfl := Option.some.inj ((hsolo.sent j rt hc).symm.trans hrt')
        exact ⟨e, by simp⟩
    · simp at hsent
  · rintro rt' (h | ⟨j, new, h⟩)
    · exact Or.inl h
    · exact Or.inr ⟨j, new, List.mem_append_left _ h⟩

/-- The reply is stored. -/
lemma Solo.store {new : TokenSet} (hsolo : Solo t m) (hc : m.calls i = .got new) :
    Solo t { m.put i (.returned (.ok new.accessToken)) with token := new } := by
  obtain ⟨⟨rt, hacc, hrt⟩, hlatest, hfresh⟩ := hsolo.got i new hc
  refine hsolo.settle (by rw [hc]; rfl) (fun j hj => put_calls_ne hj) ⟨_, put_calls_self⟩
    hlatest.symm ?_ ?_
  · intro rt' hrt' j hsent
    exact absurd hsent (hfresh rt' hrt' j)
  · rintro rt' (h | h)
    · obtain rfl := Option.some.inj (hrt.symm.trans h)
      exact Or.inr ⟨i, new, hacc⟩
    · exact Or.inr h

lemma solo_step (hsolo : Solo t m) (htr : Traced m) (hs : Next m m') (honce : Once m'.log) :
    Solo t m' := by
  obtain ⟨hs, hrot⟩ := hs
  cases hs with
  | pass now => exact ⟨hsolo.alone, hsolo.sent, hsolo.got, hsolo.stored, hsolo.spent, hsolo.took⟩
  | checkValid i hc hv =>
      exact hsolo.put (by rw [hc]; rfl) rfl (fun rt h => nomatch h)
  | checkExpired i hc hv =>
      exact hsolo.put (by rw [hc]; rfl) rfl (fun rt h => nomatch h)
  | recheckValid i hc hv =>
      exact hsolo.put (by rw [hc]; rfl) rfl (fun rt h => nomatch h)
  | recheckNone i hc hv hrt =>
      exact hsolo.put (by rw [hc]; rfl) rfl (fun rt h => nomatch h)
  | recheckSome i rt hc hv hrt =>
      refine hsolo.put (by rw [hc]; rfl) rfl (fun rt' h => ?_)
      cases h
      exact hrt
  | send i rt hc =>
      obtain ⟨hstored, hnone⟩ := hsolo.sentAlone htr hc ((once_append.mp honce).2 i rt rfl)
      exact hsolo.send hstored hnone
  | accept i rt resp hc => exact hsolo.accept hc (hrot i rt _ rfl)
  | refuse i rt e hc => exact hsolo.refuse hc
  | store i new hc => exact hsolo.store hc

/-- What holds in every state; the rest of it as long as no refresh token was used twice. -/
def Sound (t : TokenSet) (m : Manager ι) : Prop :=
  Traced m ∧ (Once m.log → Solo t m ∧ Unharmed m.log)

lemma sound_start (now : Int64) : Sound t (start t now : Manager ι) := by
  refine ⟨fun i => rfl, fun _ => ⟨solo_start now, ?_⟩⟩
  intro pre x post h
  exact absurd h (by simp [start])

/-- What a step adds to the log. -/
lemma log_step (hs : Step m m') : m'.log = m.log ∨
    (∃ i rt, m.calls i = .took rt ∧ m'.log = m.log ++ [.sent i rt]) ∨
    (∃ i rt new, m.calls i = .sent rt ∧ m'.log = m.log ++ [.accepted i rt new]) ∨
    ∃ i rt e, m.calls i = .sent rt ∧ m'.log = m.log ++ [.refused i rt e] := by
  cases hs with
  | send i rt hc => exact Or.inr (Or.inl ⟨i, rt, hc, rfl⟩)
  | accept i rt resp hc => exact Or.inr (Or.inr (Or.inl ⟨i, rt, _, hc, rfl⟩))
  | refuse i rt e hc => exact Or.inr (Or.inr (Or.inr ⟨i, rt, e, hc, rfl⟩))
  | _ => exact Or.inl rfl

lemma once_of_step (hs : Step m m') (h : Once m'.log) : Once m.log := by
  rcases log_step hs with hl | ⟨i, rt, -, hl⟩ | ⟨i, rt, new, -, hl⟩ | ⟨i, rt, e, -, hl⟩
  · exact hl ▸ h
  all_goals
    rw [hl] at h
    exact (once_append.mp h).1

/-- A request that fails while the others are solo is not one whose token is used up. -/
lemma Solo.not_accepted {new : TokenSet} (hsolo : Solo t m) (htr : Traced m)
    (hc : m.calls i = .sent rt) : .accepted j rt new ∉ m.log := by
  intro hacc
  obtain ⟨hsent, hno⟩ := htr.of_accepted hacc
  rcases hsolo.spent rt (hsolo.sent i rt hc) j hsent with ⟨e, he⟩ | hj
  · exact hno rt e he
  · obtain rfl := hsolo.alone j i hj (by rw [hc]; rfl)
    have hmine : mine j m.log = [.sent j rt] := by
      have h := htr j
      rwa [hc] at h
    have hmem : .accepted j rt new ∈ mine j m.log := mem_mine hacc
    rw [hmine] at hmem
    simp at hmem

lemma unharmed_step (hsolo : Solo t m) (htr : Traced m) (hs : Step m m') (h : Unharmed m.log) :
    Unharmed m'.log := by
  rcases log_step hs with hl | ⟨i, rt, -, hl⟩ | ⟨i, rt, new, -, hl⟩ | ⟨i, rt, e, hc, hl⟩
  · exact hl ▸ h
  · rw [hl]
    exact unharmed_append.mpr ⟨h, fun _ _ _ hx => nomatch hx⟩
  · rw [hl]
    exact unharmed_append.mpr ⟨h, fun _ _ _ hx => nomatch hx⟩
  · rw [hl]
    refine unharmed_append.mpr ⟨h, fun i' rt' e' hx j new => ?_⟩
    cases hx
    exact hsolo.not_accepted htr hc

lemma sound_step (h : Sound t m) (hs : Next m m') : Sound t m' := by
  refine ⟨traced_step h.1 hs.1, fun honce => ?_⟩
  obtain ⟨hsolo, hun⟩ := h.2 (once_of_step hs.1 honce)
  exact ⟨solo_step hsolo h.1 hs honce, unharmed_step hsolo h.1 hs.1 hun⟩

lemma Sound.usedOnce_iff (h : Sound t m) : UsedOnce t m ↔ Once m.log :=
  ⟨fun hu => hu.once, fun honce => ⟨honce, (h.2 honce).1.stored, (h.2 honce).2⟩⟩

/-- One step: no token is used a second time exactly when what is sent is sent alone. -/
lemma once_step_iff (h : Sound t m) (honce : Once m.log) (hs : Step m m') :
    Once m'.log ↔ SentAlone m m' := by
  obtain ⟨htr, hsound⟩ := h
  obtain ⟨hsolo, -⟩ := hsound honce
  have hother : ∀ x : Exchange ι, (∀ i rt, x ≠ .sent i rt) → m'.log = m.log ++ [x] →
      (Once m'.log ↔ SentAlone m m') := by
    intro x hx hl
    refine iff_of_true ?_ ?_
    · rw [hl]
      exact once_append.mpr ⟨honce, fun i rt he => absurd he (hx i rt)⟩
    · intro i rt he
      rw [hl, List.append_cancel_left_eq, List.cons.injEq] at he
      exact absurd he.1 (hx i rt)
  rcases log_step hs with hl | ⟨i, rt, hc, hl⟩ | ⟨i, rt, new, -, hl⟩ | ⟨i, rt, e, -, hl⟩
  · refine iff_of_true (hl ▸ honce) (fun i rt he => ?_)
    rw [hl] at he
    simp at he
  · have hsent : SentAlone m m' ↔
        m.token.refreshToken = some rt ∧ ∀ j, (m.calls j).inFlight = false := by
      refine ⟨fun h => h i rt hl, fun h i' rt' he => ?_⟩
      rw [hl, List.append_cancel_left_eq, List.cons.injEq] at he
      cases he.1
      exact h
    rw [hsent, hl, once_append]
    constructor
    · rintro ⟨-, h⟩
      exact hsolo.sentAlone htr hc (h i rt rfl)
    · rintro ⟨hstored, hnone⟩
      refine ⟨honce, fun i' rt' he j hj => ?_⟩
      cases he
      rcases hsolo.spent rt hstored j hj with h | h
      · exact h
      · rw [hnone j] at h; cases h
  · exact hother (.accepted i rt new) (fun _ _ he => nomatch he) hl
  · exact hother (.refused i rt e) (fun _ _ he => nomatch he) hl

/-- **Refresh tokens are used once exactly as long as requests are sent alone.**  Any number of
calls, in any interleaving, against a server that rotates. -/
theorem used_once_iff (t : TokenSet) (now : Int64) (l : List (Manager ι))
    (hrun : List.IsChain Next (start t now :: l)) :
    (∀ m ∈ l, UsedOnce t m) ↔ List.IsChain SentAlone (start t now :: l) := by
  refine Runs.forall_iff_guarded (I := Sound t) (fun _ _ h hs => sound_step h hs) ?_
    (sound_start now) ?_ hrun
  · intro m m' hsound hu hs
    rw [(sound_step hsound hs).usedOnce_iff]
    exact once_step_iff hsound hu.once hs.1
  · rw [(sound_start now).usedOnce_iff]
    intro pre x post h
    exact absurd h (by simp [start])

/-! ## One call that no other disturbs -/

/-- The steps of a call that runs alone are those of `getValidToken`. -/
lemma getValidToken_run (v : Visit) (hc : m.calls i = .entered) :
    ∃ m', Relation.ReflTransGen Step m m' ∧
      m'.calls i = .returned (getValidToken m.token v).1 ∧ m'.token = (getValidToken m.token v).2 := by
  have hpass := Relation.ReflTransGen.single (Step.pass (m := m) v.first)
  unfold getValidToken
  cases h₁ : m.token.isExpired v.first with
  | false => exact ⟨_, hpass.tail (.checkValid i hc h₁), put_calls_self, rfl⟩
  | true =>
      have hchecked := (hpass.tail (.checkExpired i hc h₁)).tail (.pass v.second)
      cases h₂ : m.token.isExpired v.second with
      | false => exact ⟨_, hchecked.tail (.recheckValid i put_calls_self h₂), put_calls_self, rfl⟩
      | true =>
          cases hrt : m.token.refreshToken with
          | none =>
              exact ⟨_, hchecked.tail (.recheckNone i put_calls_self h₂ hrt), put_calls_self, rfl⟩
          | some rt =>
              have hsent := ((hchecked.tail (.recheckSome i rt put_calls_self h₂ hrt)).tail
                (.send i rt put_calls_self)).tail (.pass v.third)
              cases v.reply with
              | error e => exact ⟨_, hsent.tail (.refuse i rt e put_calls_self), put_calls_self, rfl⟩
              | ok resp =>
                  exact ⟨_, (hsent.tail (.accept i rt resp put_calls_self)).tail
                    (.store i _ put_calls_self), put_calls_self, rfl⟩

/-! ## Two folders of an account -/

omit [DecidableEq ι] in
lemma rotates_of_log_eq (h : m'.log = m.log) : Rotates m m' := by
  intro i rt new he
  rw [h] at he
  simp at he

omit [DecidableEq ι] in
lemma rotates_of_sent (h : m'.log = m.log ++ [.sent i rt]) : Rotates m m' := by
  intro j rt' new he
  rw [h] at he
  simp at he

/-- The refresh token of `aging`. -/
def oldRefreshToken : Str := "rt-0".toList

/-- The first folder has found the token expired, and has sent the refresh token. -/
def firstChecked : Manager Bool := (start aging 1000).put false .checked

/-- It finds it expired again under the write lock, … -/
def firstTook : Manager Bool := firstChecked.put false (.took oldRefreshToken)

/-- … and sends its request. -/
def firstSent : Manager Bool :=
  { firstTook.put false (.sent oldRefreshToken) with
    log := firstTook.log ++ [.sent false oldRefreshToken] }

/-- What the reply makes of the token. -/
def renewed : TokenSet := tokenResponseToSet rotated 1000

/-- The second folder finds the token expired as well, but has to wait for the write lock. -/
def bothChecked : Manager Bool := firstChecked.put true .checked

/-- The first folder goes on as before, … -/
def bothTook : Manager Bool := bothChecked.put false (.took oldRefreshToken)

/-- … sends its request, … -/
def bothSent : Manager Bool :=
  { bothTook.put false (.sent oldRefreshToken) with
    log := bothTook.log ++ [.sent false oldRefreshToken] }

/-- … gets the reply, … -/
def bothGot : Manager Bool :=
  { bothSent.put false (.got renewed) with
    log := bothSent.log ++ [.accepted false oldRefreshToken renewed] }

/-- … and stores it. -/
def bothStored : Manager Bool :=
  { bothGot.put false (.returned (.ok renewed.accessToken)) with token := renewed }

/-- Its second look finds the token that the first has stored. -/
def bothServed : Manager Bool := bothStored.put true (.returned (.ok renewed.accessToken))

/-- The second folder comes along before the reply. -/
def secondChecked : Manager Bool := firstSent.put true .checked

/-- The stored token is still the old one, … -/
def secondTook : Manager Bool := secondChecked.put true (.took oldRefreshToken)

/-- … and so the same refresh token is sent. -/
def secondSent : Manager Bool :=
  { secondTook.put true (.sent oldRefreshToken) with
    log := secondTook.log ++ [.sent true oldRefreshToken] }

lemma firstSent_run :
    List.IsChain Next [start aging 1000, firstChecked, firstTook, firstSent] := by
  refine .cons_cons ⟨.checkExpired false rfl (by decide), rotates_of_log_eq rfl⟩ ?_
  refine .cons_cons ⟨.recheckSome false _ put_calls_self (by decide) rfl, rotates_of_log_eq rfl⟩ ?_
  refine .cons_cons ⟨.send false _ put_calls_self, rotates_of_sent rfl⟩ ?_
  exact .singleton _

lemma bothServed_run : List.IsChain Next [start aging 1000, firstChecked, bothChecked, bothTook,
    bothSent, bothGot, bothStored, bothServed] := by
  refine .cons_cons ⟨.checkExpired false rfl (by decide), rotates_of_log_eq rfl⟩ ?_
  refine .cons_cons ⟨.checkExpired true rfl (by decide), rotates_of_log_eq rfl⟩ ?_
  refine .cons_cons ⟨.recheckSome false _ rfl (by decide) rfl, rotates_of_log_eq rfl⟩ ?_
  refine .cons_cons ⟨.send false _ put_calls_self, rotates_of_sent rfl⟩ ?_
  refine .cons_cons ⟨.accept false _ rotated rfl, ?_⟩ ?_
  · intro i rt new h rt' hrt' j hsent
    cases h
    obtain rfl := Option.some.inj hrt'
    simp [bothSent, bothTook, bothChecked, firstChecked, start, oldRefreshToken] at hsent
  refine .cons_cons ⟨.store false _ rfl, rotates_of_log_eq rfl⟩ ?_
  refine .cons_cons ⟨.recheckValid true rfl (by decide), rotates_of_log_eq rfl⟩ ?_
  exact .singleton _

/-- Two folders, of which the second waits: one request, and both have the new token. -/
theorem first_used_once : UsedOnce aging bothSent ∧ UsedOnce aging bothServed ∧
    ∀ i, bothServed.calls i = .returned (.ok renewed.accessToken) := by
  have hall := (used_once_iff aging 1000 _ bothServed_run).mpr (by
    refine .cons_cons ?_ (.cons_cons ?_ (.cons_cons ?_ (.cons_cons ?_ (.cons_cons ?_ (.cons_cons ?_
      (.cons_cons ?_ (.singleton _)))))))
    · intro i rt h
      cases h
    · intro i rt h
      cases h
    · intro i rt h
      cases h
    · intro i rt h
      cases h
      exact ⟨rfl, by decide⟩
    · intro i rt h
      cases h
    · intro i rt h
      cases h
    · intro i rt h
      cases h)
  refine ⟨hall bothSent (by simp), hall bothServed (by simp), fun i => ?_⟩
  cases i
  · rfl
  · rfl

/-- **Both folders send the same refresh token**, and neither request has failed. -/
theorem second_used_twice :
    ¬ ∀ l : List (Manager Bool), List.IsChain Next (start aging 1000 :: l) →
      ∀ m ∈ l, UsedOnce aging m := by
  intro h
  have hrun : List.IsChain Next (start aging 1000 ::
      [firstChecked, firstTook, firstSent, secondChecked, secondTook, secondSent]) := by
    have hfirst : List.IsChain Next ([start aging 1000, firstChecked, firstTook] ++ [firstSent]) :=
      firstSent_run
    have hsecond : List.IsChain Next ([firstSent] ++ [secondChecked, secondTook, secondSent]) := by
      refine .cons_cons ⟨.checkExpired true rfl (by decide), rotates_of_log_eq rfl⟩ ?_
      refine .cons_cons
        ⟨.recheckSome true _ put_calls_self (by decide) rfl, rotates_of_log_eq rfl⟩ ?_
      refine .cons_cons ⟨.send true _ put_calls_self, rotates_of_sent rfl⟩ ?_
      exact .singleton _
    exact hfirst.append_overlap hsecond (by simp)
  have honce := (h _ hrun secondSent (by simp)).once
  obtain ⟨e, he⟩ := honce [.sent false oldRefreshToken] _ [] rfl true _ rfl false (by simp)
  simp at he

end Manager

end Auth

end OwncloudSync
