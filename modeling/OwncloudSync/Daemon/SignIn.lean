import OwncloudSync.Daemon.CallbackRequest
import OwncloudSync.Lib.Base64
import Mathlib.Tactic.Common

/-!
# Whose account is added

The listener of a sign-in takes the first request with a code, from whomever (`bound_iff`).  What
keeps others' codes out is PKCE: the URL for the browser carries the challenge of a verifier that
only the flow has (`start_pkce_flow`), and the form of the exchange shows the verifier
(`exchange_code`).

The server that authorizes is not part of this repository.  `Redeems` is what RFC 6749 and RFC 7636
ask of its token endpoint; users and programs may otherwise open any URL, with any parameters, and
send any code to any listener.  **Then a flow gets tokens only for an authorization that was asked for
with its own challenge, which no other flow's URL carries** (`signInBound`).  So a code that somebody
was given elsewhere is of no use on a listener, nor this flow's code elsewhere.
-/

namespace OwncloudSync

namespace OidcCallback

/-! ## The verifier -/

/-- The alphabet of `URL_SAFE_NO_PAD`. -/
def urlSafe : Base64.Alphabet where
  char n := base64Alphabet.getD n 'A'
  value c := base64Alphabet.idxOf? c
  value_char := by decide +kernel
  value_pad := by decide

lemma base64Char_eq {n k : ℕ} (h : n % 64 = k % 64) (hk : k < 64) :
    base64Char n = urlSafe.char k := by
  rw [base64Char, h, Nat.mod_eq_of_lt hk]
  rfl

/-- What `NO_PAD` leaves out. -/
lemma encode_eq_padded (bs : List UInt8) : Base64.encode urlSafe bs =
    base64Encode bs ++ List.replicate ((4 - (base64Encode bs).length % 4) % 4) '=' := by
  fun_induction base64Encode bs with
  | case1 a b c rest n ih =>
      have ha := a.toNat_lt
      have hb := b.toNat_lt
      have hc := c.toNat_lt
      rw [Base64.encode, ih]
      simp only [List.cons_append, List.length_cons]
      rw [base64Char_eq (k := a.toNat / 4) (by omega) (by omega),
        base64Char_eq (k := a.toNat % 4 * 16 + b.toNat / 16) (by omega) (by omega),
        base64Char_eq (k := b.toNat % 16 * 4 + c.toNat / 64) (by omega) (by omega),
        base64Char_eq (k := c.toNat % 64) (by omega) (by omega)]
      congr 6
      omega
  | case2 a b n =>
      have ha := a.toNat_lt
      have hb := b.toNat_lt
      rw [base64Char_eq (k := a.toNat / 4) (by omega) (by omega),
        base64Char_eq (k := a.toNat % 4 * 16 + b.toNat / 16) (by omega) (by omega),
        base64Char_eq (k := b.toNat % 16 * 4) (by omega) (by omega)]
      rfl
  | case3 a =>
      have ha := a.toNat_lt
      rw [base64Char_eq (k := a.toNat / 4) (by omega) (by omega),
        base64Char_eq (k := a.toNat % 4 * 16) (by omega) (by omega)]
      rfl
  | case4 => rfl

/-- Other bytes are another verifier. -/
lemma base64Encode_injective : Function.Injective base64Encode := by
  intro bs cs h
  have hencode : Base64.encode urlSafe bs = Base64.encode urlSafe cs := by
    rw [encode_eq_padded, encode_eq_padded, h]
  have hdecode := congrArg (Base64.decode urlSafe) hencode
  rw [Base64.decode_encode, Base64.decode_encode] at hdecode
  exact Option.some.inj hdecode

/-! ## The server that authorizes -/

/-- The value of the last pair of that name. -/
def lastValue (name : String) (pairs : List (String × Str)) : Option Str :=
  (pairs.reverse.find? (fun pair => pair.1 == name)).map (·.2)

/-- A code, the URL it was asked for with, and who has agreed. -/
structure Authorization where
  code : Str
  asked : QueryUrl
  user : Str

/-- The challenge in the URL. -/
def Authorization.challenge (auth : Authorization) : Option Str :=
  lastValue "code_challenge" auth.asked.query

variable (sha256 : List UInt8 → List UInt8) (utf8Error : List UInt8 → String)

/-- `S256`. -/
def challengeOf (verifier : Str) : Str :=
  base64Encode (sha256 (verifier.flatMap String.utf8EncodeChar))

/-- The form fits the authorization, as the token endpoint must see before it gives tokens. -/
structure Redeems (form : List (String × Str)) (auth : Authorization) : Prop where
  code : lastValue "code" form = some auth.code
  client : lastValue "client_id" form = lastValue "client_id" auth.asked.query
  redirect : lastValue "redirect_uri" form = lastValue "redirect_uri" auth.asked.query
  verifier : (lastValue "code_verifier" form).map (challengeOf sha256) = auth.challenge

/-! ## Sign-ins with the server -/

/-- The daemon's flows and what the server has granted. -/
structure SignIns where
  flows : Flows
  /-- the flows there have been, and their random bytes; no step of the code reads these -/
  started : Uuid → Option Flow
  drawn : List (List UInt8)
  granted : List Authorization
  redeemed : List Authorization
  /-- the exchanges that gave tokens, and for which authorization -/
  signedIn : List (Exchanged × Authorization)

namespace SignIns

/-- No sign-in has begun. -/
def init : SignIns := ⟨⟨fun _ => none, []⟩, fun _ => none, [], [], [], []⟩

/-- A step of a sign-in, of the server that authorizes, or of whoever sends a request. -/
inductive Step : SignIns → SignIns → Prop
  /-- `AddAccount`: the id is new, and so are the random bytes -/
  | signIn {w : SignIns} (a : Uuid) (config : OidcConfig) (raw rawState : List UInt8)
      (hnew : w.started a = none) (hraw : raw ∉ w.drawn) :
      Step w { w with
        flows := w.flows.step sha256 utf8Error (.signIn a config raw rawState)
        started := Function.update w.started a (some ⟨config,
          (startPkceFlow sha256 config raw rawState).1, (startPkceFlow sha256 config raw rawState).2⟩)
        drawn := raw :: w.drawn }
  /-- somebody opens a URL and agrees -/
  | authorize {w : SignIns} (auth : Authorization) (hcode : ∀ x ∈ w.granted, x.code ≠ auth.code) :
      Step w { w with granted := w.granted ++ [auth] }
  /-- a connection to the listener of a flow, from whomever -/
  | connection {w : SignIns} (a : Uuid) (reads : List (Except String (List UInt8))) :
      Step w { w with flows := w.flows.step sha256 utf8Error (.connection a reads) }
  | timeout {w : SignIns} (a : Uuid) :
      Step w { w with flows := w.flows.step sha256 utf8Error (.timeout a) }
  /-- the server gives tokens for an exchange, … -/
  | tokens {w : SignIns} (x : Exchanged) (auth : Authorization) (hx : x ∈ w.flows.exchanged)
      (hauth : auth ∈ w.granted) (hunused : auth ∉ w.redeemed) (h : Redeems sha256 x.form auth) :
      Step w { w with
        redeemed := auth :: w.redeemed
        signedIn := w.signedIn ++ [(x, auth)] }
  /-- … or for a form that somebody else has sent -/
  | elsewhere {w : SignIns} (form : List (String × Str)) (auth : Authorization)
      (hauth : auth ∈ w.granted) (hunused : auth ∉ w.redeemed) (h : Redeems sha256 form auth) :
      Step w { w with redeemed := auth :: w.redeemed }

/-- The states of a run of the daemon. -/
def Reachable (w : SignIns) : Prop := Relation.ReflTransGen (Step sha256 utf8Error) init w

/-- No two verifiers have one hash. -/
def CollisionFree (w : SignIns) : Prop :=
  ∀ a b f g, w.started a = some f → w.started b = some g →
    sha256 (f.verifier.flatMap String.utf8EncodeChar) =
      sha256 (g.verifier.flatMap String.utf8EncodeChar) → f.verifier = g.verifier

end SignIns

variable {sha256 : List UInt8 → List UInt8} {utf8Error : List UInt8 → String} {w w' : SignIns}
  {a b : Uuid} {f g : Flow} {x : Exchanged} {auth : Authorization} {config : OidcConfig}

/-! ## What a flow shows -/

variable (sha256) in
/-- The challenge in the URL of a flow is that of its verifier; the URL names its client and where it
listens. -/
structure Flow.Fits (f : Flow) : Prop where
  challenge : lastValue "code_challenge" f.authUrl.query = some (challengeOf sha256 f.verifier)
  client : lastValue "client_id" f.authUrl.query = some f.config.clientId
  redirect : lastValue "redirect_uri" f.authUrl.query = some f.config.redirectUri

lemma fits_startPkceFlow (config : OidcConfig) (raw rawState : List UInt8) :
    Flow.Fits sha256 ⟨config, (startPkceFlow sha256 config raw rawState).1,
      (startPkceFlow sha256 config raw rawState).2⟩ where
  challenge := by simp [startPkceFlow, lastValue, challengeOf]
  client := by simp [startPkceFlow, lastValue]
  redirect := by simp [startPkceFlow, lastValue]

/-- What the form shows. -/
lemma lastValue_exchangeForm (config : OidcConfig) (code verifier : Str) :
    lastValue "code" (exchangeForm config code verifier) = some code ∧
      lastValue "client_id" (exchangeForm config code verifier) = some config.clientId ∧
      lastValue "redirect_uri" (exchangeForm config code verifier) = some config.redirectUri ∧
      lastValue "code_verifier" (exchangeForm config code verifier) = some verifier := by
  unfold exchangeForm
  cases config.clientSecret with
  | none => simp [lastValue]
  | some secret => simp [lastValue]

/-- **A form that fits an authorization asked for by a flow has that flow's verifier.** -/
lemma Redeems.verifier_eq {form : List (String × Str)} (h : Redeems sha256 form auth)
    (hf : f.Fits sha256) (hasked : auth.challenge = lastValue "code_challenge" f.authUrl.query) :
    ∃ v, lastValue "code_verifier" form = some v ∧
      sha256 (v.flatMap String.utf8EncodeChar) =
        sha256 (f.verifier.flatMap String.utf8EncodeChar) := by
  have hv := h.verifier
  rw [hasked, hf.challenge, Option.map_eq_some_iff] at hv
  obtain ⟨v, hv, heq⟩ := hv
  exact ⟨v, hv, base64Encode_injective heq⟩

/-! ## The invariant -/

namespace SignIns

variable (sha256) in
/-- What holds in every state: whose a code is, which bytes were drawn, and what was sent. -/
structure Sound (w : SignIns) : Prop where
  listening : ∀ a f, w.flows.listening a = some f → w.started a = some f
  fits : ∀ a f, w.started a = some f → f.Fits sha256
  drawn : ∀ a f, w.started a = some f → ∃ raw ∈ w.drawn, f.verifier = base64Encode raw
  unique : ∀ a b f g, w.started a = some f → w.started b = some g → f.verifier = g.verifier → a = b
  exchanged : ∀ x ∈ w.flows.exchanged, ∃ a code, w.started a = some x.flow ∧
    extractQueryParam x.request "code".toList = some code ∧
    x.form = exchangeForm x.flow.config code x.flow.verifier
  signedIn : ∀ x auth, (x, auth) ∈ w.signedIn → x ∈ w.flows.exchanged ∧ auth ∈ w.granted ∧
    auth ∈ w.redeemed ∧ Redeems sha256 x.form auth
  once : (w.signedIn.map (·.2)).Nodup
  codes : (w.granted.map Authorization.code).Nodup

lemma sound_init : Sound sha256 init where
  listening a f h := by cases h
  fits a f h := by cases h
  drawn a f h := by cases h
  unique a b f g h := by cases h
  exchanged x h := by cases h
  signedIn x auth h := by cases h
  once := List.nodup_nil
  codes := List.nodup_nil

/-- A flow that is closed. -/
lemma Sound.close (hs : Sound sha256 w) (a : Uuid) : Sound sha256 { w with
    flows := { w.flows with listening := Function.update w.flows.listening a none } } where
  listening b f h := by
    by_cases hb : b = a
    · simp [hb] at h
    · exact hs.listening b f (by simpa [hb] using h)
  fits := hs.fits
  drawn := hs.drawn
  unique := hs.unique
  exchanged := hs.exchanged
  signedIn := hs.signedIn
  once := hs.once
  codes := hs.codes

lemma Sound.connection (hs : Sound sha256 w) (a : Uuid)
    (reads : List (Except String (List UInt8))) :
    Sound sha256 { w with flows := w.flows.step sha256 utf8Error (.connection a reads) } := by
  simp only [Flows.step]
  cases hf : w.flows.listening a with
  | none => exact hs
  | some f =>
      cases hreq : requestCode utf8Error reads with
      | error e => exact hs.close a
      | ok r =>
          obtain ⟨request, code⟩ := r
          obtain ⟨-, -, -, hcode⟩ := requestCode_eq_ok.mp hreq
          have hclosed := hs.close a
          refine { hclosed with
            exchanged := fun x hx => ?_
            signedIn := fun x auth hx => ?_ }
          · rcases List.mem_append.mp hx with hx | hx
            · exact hs.exchanged x hx
            · obtain rfl := List.mem_singleton.mp hx
              exact ⟨a, code, hs.listening a f hf, hcode, rfl⟩
          · obtain ⟨hmem, hrest⟩ := hs.signedIn x auth hx
            exact ⟨List.mem_append_left _ hmem, hrest⟩

/-- A flow is the one that is added, or was there before. -/
lemma started_cases {started : Uuid → Option Flow} {new : Flow}
    (h : Function.update started a (some new) b = some f) :
    (b = a ∧ f = new) ∨ (b ≠ a ∧ started b = some f) := by
  by_cases hb : b = a
  · subst hb
    rw [Function.update_self] at h
    exact Or.inl ⟨rfl, (Option.some.inj h).symm⟩
  · rw [Function.update_of_ne hb] at h
    exact Or.inr ⟨hb, h⟩

lemma Sound.signIn (hs : Sound sha256 w) {raw : List UInt8} (rawState : List UInt8)
    (config : OidcConfig) (hnew : w.started a = none) (hraw : raw ∉ w.drawn) :
    Sound sha256 { w with
      flows := w.flows.step sha256 utf8Error (.signIn a config raw rawState)
      started := Function.update w.started a (some ⟨config,
        (startPkceFlow sha256 config raw rawState).1, (startPkceFlow sha256 config raw rawState).2⟩)
      drawn := raw :: w.drawn } := by
  -- its verifier is unlike all before, as its bytes are
  have hfresh : ∀ b f, w.started b = some f → f.verifier ≠ base64Encode raw := by
    intro b f hf heq
    obtain ⟨old, hold, hv⟩ := hs.drawn b f hf
    rw [hv] at heq
    exact hraw (base64Encode_injective heq ▸ hold)
  constructor
  · intro b f hb
    have hb : Function.update w.flows.listening a (some _) b = some f := hb
    rcases started_cases hb with ⟨rfl, rfl⟩ | ⟨hne, hb⟩
    · exact Function.update_self ..
    · exact (Function.update_of_ne hne ..).trans (hs.listening b f hb)
  · intro b f hb
    rcases started_cases hb with ⟨rfl, rfl⟩ | ⟨-, hb⟩
    · exact fits_startPkceFlow config raw rawState
    · exact hs.fits b f hb
  · intro b f hb
    rcases started_cases hb with ⟨rfl, rfl⟩ | ⟨-, hb⟩
    · exact ⟨raw, List.mem_cons_self, rfl⟩
    · obtain ⟨old, hold, hv⟩ := hs.drawn b f hb
      exact ⟨old, List.mem_cons_of_mem _ hold, hv⟩
  · intro b c f g hb hc hv
    rcases started_cases hb with ⟨rfl, rfl⟩ | ⟨-, hb'⟩
    · rcases started_cases hc with ⟨rfl, rfl⟩ | ⟨-, hc'⟩
      · rfl
      · exact absurd hv.symm (hfresh c g hc')
    · rcases started_cases hc with ⟨rfl, rfl⟩ | ⟨-, hc'⟩
      · exact absurd hv (hfresh b f hb')
      · exact hs.unique b c f g hb' hc' hv
  · intro x hx
    obtain ⟨b, code, hb, hrest⟩ := hs.exchanged x hx
    have hne : b ≠ a := by
      rintro rfl
      rw [hnew] at hb
      cases hb
    exact ⟨b, code, (Function.update_of_ne hne ..).trans hb, hrest⟩
  · exact hs.signedIn
  · exact hs.once
  · exact hs.codes

lemma Sound.step (hs : Sound sha256 w) (h : Step sha256 utf8Error w w') : Sound sha256 w' := by
  cases h with
  | signIn a config raw rawState hnew hraw => exact hs.signIn rawState config hnew hraw
  | connection a reads => exact hs.connection a reads
  | timeout a => exact hs.close a
  | authorize auth hcode =>
      refine { hs with
        signedIn := fun x y hx => ?_
        codes := ?_ }
      · obtain ⟨hmem, hgranted, hrest⟩ := hs.signedIn x y hx
        exact ⟨hmem, List.mem_append_left _ hgranted, hrest⟩
      · rw [List.map_append, List.nodup_append]
        refine ⟨hs.codes, List.nodup_singleton _, ?_⟩
        intro y hy z hz
        obtain ⟨auth', hauth', rfl⟩ := List.mem_map.mp hy
        rw [List.mem_singleton.mp hz]
        exact hcode auth' hauth'
  | tokens x auth hx hauth hunused h =>
      refine { hs with
        signedIn := fun y z hy => ?_
        once := ?_ }
      · rcases List.mem_append.mp hy with hy | hy
        · obtain ⟨hmem, hgranted, hredeemed, hredeems⟩ := hs.signedIn y z hy
          exact ⟨hmem, hgranted, List.mem_cons_of_mem _ hredeemed, hredeems⟩
        · obtain ⟨rfl, rfl⟩ := Prod.mk.inj (List.mem_singleton.mp hy)
          exact ⟨hx, hauth, List.mem_cons_self, h⟩
      · rw [List.map_append, List.nodup_append]
        refine ⟨hs.once, List.nodup_singleton _, ?_⟩
        rintro y hy z hz rfl
        obtain rfl := List.mem_singleton.mp hz
        obtain ⟨p, hp, rfl⟩ := List.mem_map.mp hy
        exact hunused (hs.signedIn p.1 p.2 hp).2.2.1
  | elsewhere form auth hauth hunused h =>
      refine { hs with signedIn := fun y z hy => ?_ }
      obtain ⟨hmem, hgranted, hredeemed, hredeems⟩ := hs.signedIn y z hy
      exact ⟨hmem, hgranted, List.mem_cons_of_mem _ hredeemed, hredeems⟩

lemma Reachable.sound (h : Reachable sha256 utf8Error w) : Sound sha256 w :=
  Runs.invariant (fun _ _ hs hstep => Sound.step hs hstep) sound_init h

end SignIns

/-- **Whose account is added.**  In every run of any number of sign-ins, with anyone opening any URL
and sending anything to any listener:

* tokens are for a flow that was started, and for a code that its listener was sent;
* the code was given for a URL with the challenge, the client and the listener of that very flow,
  and no other flow's URL has the challenge;
* no code gives tokens twice;
* whoever else redeems a code that was asked for with the URL of a flow has that flow's verifier, or
  another one of the same hash. -/
theorem signInBound (sha256 : List UInt8 → List UInt8) (utf8Error : List UInt8 → String)
    (h : w.Reachable sha256 utf8Error) (hfree : w.CollisionFree sha256) :
    (∀ x auth, (x, auth) ∈ w.signedIn → auth ∈ w.granted ∧
      extractQueryParam x.request "code".toList = some auth.code ∧
      ∃ a, w.started a = some x.flow ∧
        lastValue "client_id" auth.asked.query = some x.flow.config.clientId ∧
        lastValue "redirect_uri" auth.asked.query = some x.flow.config.redirectUri ∧
        ∀ b g, w.started b = some g →
          (auth.challenge = lastValue "code_challenge" g.authUrl.query ↔ b = a)) ∧
    (w.signedIn.map (fun p => p.2.code)).Nodup ∧
    (∀ form auth b g, w.started b = some g → Redeems sha256 form auth →
      auth.challenge = lastValue "code_challenge" g.authUrl.query →
      ∃ v, lastValue "code_verifier" form = some v ∧
        (v = g.verifier ∨ v ≠ g.verifier ∧ sha256 (v.flatMap String.utf8EncodeChar) =
          sha256 (g.verifier.flatMap String.utf8EncodeChar))) := by
  have hs := h.sound
  refine ⟨fun x auth hin => ?_, ?_, fun form auth b g hb hredeems hasked => ?_⟩
  · obtain ⟨hx, hgranted, -, hredeems⟩ := hs.signedIn x auth hin
    obtain ⟨a, code, ha, hcode, hform⟩ := hs.exchanged x hx
    obtain ⟨hcode', hclient, hredirect, hverifier⟩ :=
      lastValue_exchangeForm x.flow.config code x.flow.verifier
    rw [← hform] at hcode' hclient hredirect hverifier
    have hchallenge : auth.challenge = some (challengeOf sha256 x.flow.verifier) := by
      rw [← hredeems.verifier, hverifier]
      rfl
    refine ⟨hgranted, ?_, a, ha, hredeems.client.symm.trans hclient,
      hredeems.redirect.symm.trans hredirect, fun b g hb => ⟨fun hc => ?_, ?_⟩⟩
    · rw [hcode, ← hcode', hredeems.code]
    · rw [hchallenge, (hs.fits b g hb).challenge, Option.some.injEq] at hc
      exact (hs.unique a b x.flow g ha hb
        (hfree a b x.flow g ha hb (base64Encode_injective hc))).symm
    · rintro rfl
      obtain rfl := Option.some.inj (ha.symm.trans hb)
      rw [hchallenge, (hs.fits _ _ ha).challenge]
  · have hmap : w.signedIn.map (fun p => p.2.code) =
        (w.signedIn.map (·.2)).map Authorization.code := by
      rw [List.map_map]
      rfl
    have hmem : ∀ auth ∈ w.signedIn.map (·.2), auth ∈ w.granted := by
      intro auth hauth
      obtain ⟨p, hp, rfl⟩ := List.mem_map.mp hauth
      exact (hs.signedIn p.1 p.2 hp).2.1
    rw [hmap]
    refine List.Nodup.map_on ?_ hs.once
    intro auth hauth auth' hauth' heq
    exact List.inj_on_of_nodup_map hs.codes (hmem auth hauth) (hmem auth' hauth') heq
  · obtain ⟨v, hv, heq⟩ := hredeems.verifier_eq (hs.fits b g hb) hasked
    refine ⟨v, hv, ?_⟩
    by_cases hvg : v = g.verifier
    · exact Or.inl hvg
    · exact Or.inr ⟨hvg, heq⟩

/-! ## Two sign-ins -/

/-- The SHA-256 of `CAgICAgICAgICAgICAgICAgICAgICAgICAgICAgICAg` and of
`BwcHBwcHBwcHBwcHBwcHBwcHBwcHBwcHBwcHBwcHBwc`, the verifiers of the flows below. -/
def verifierHash (text : List UInt8) : List UInt8 :=
  if text = (base64Encode (List.replicate 32 8)).flatMap String.utf8EncodeChar then
    [206, 158, 197, 129, 34, 22, 76, 130, 74, 67, 224, 69, 47, 251, 186, 61, 166, 148, 105, 75, 68,
      86, 59, 92, 84, 137, 66, 219, 184, 171, 142, 20]
  else
    [220, 75, 248, 12, 119, 71, 61, 19, 15, 160, 222, 134, 186, 64, 24, 254, 152, 187, 33, 64, 5,
      230, 165, 137, 29, 18, 186, 145, 68, 111, 158, 129]

/-- The flow that the browser answers. -/
def demoFlow : Flow where
  config := demoOidc
  authUrl := (startPkceFlow verifierHash demoOidc (List.replicate 32 7) (List.replicate 16 9)).1
  verifier := (startPkceFlow verifierHash demoOidc (List.replicate 32 7) (List.replicate 16 9)).2

/-- Another account, with a listener of its own. -/
def otherOidc : OidcConfig :=
  { demoOidc with redirectUri := "http://127.0.0.1:8081/callback".toList }

/-- A second flow, begun beside it. -/
def otherFlow : Flow where
  config := otherOidc
  authUrl := (startPkceFlow verifierHash otherOidc (List.replicate 32 8) (List.replicate 16 9)).1
  verifier := (startPkceFlow verifierHash otherOidc (List.replicate 32 8) (List.replicate 16 9)).2

lemma demo_hash_ne : verifierHash (demoFlow.verifier.flatMap String.utf8EncodeChar) ≠
    verifierHash (otherFlow.verifier.flatMap String.utf8EncodeChar) := by decide +kernel

/-- What the server keeps of the code "evil". -/
def demoAuthorization : Authorization := ⟨"evil".toList, demoFlow.authUrl, "alice".toList⟩

/-- The form that `handle_callback` posts for the request without a state. -/
def demoExchanged : Exchanged :=
  ⟨demoFlow, forgedRequest, exchangeForm demoOidc "evil".toList demoFlow.verifier⟩

/-- The theorem while two sign-ins are under way: the code is for the URL of the one, and not of the
other. -/
theorem signInBound_alice : ∃ w, SignIns.Reachable verifierHash (fun _ => "") w ∧
    (demoExchanged, demoAuthorization) ∈ w.signedIn ∧
    (w.signedIn.map (fun p => p.2.code)).Nodup ∧
    (∃ b, w.started b = some otherFlow) ∧
    ∃ a, w.started a = some demoFlow ∧ ∀ b g, w.started b = some g →
      (demoAuthorization.challenge = lastValue "code_challenge" g.authUrl.query ↔ b = a) := by
  have hstart : SignIns.Step verifierHash (fun _ => "") SignIns.init _ :=
    .signIn 1 demoOidc (List.replicate 32 7) (List.replicate 16 9) rfl (by simp [SignIns.init])
  have hother := (Relation.ReflTransGen.single hstart).tail (.signIn 2 otherOidc
    (List.replicate 32 8) (List.replicate 16 9) rfl (by
      show List.replicate 32 8 ∉ [List.replicate 32 7]
      decide))
  have hgrant := hother.tail (.authorize demoAuthorization (by
    intro x hx
    cases hx))
  have hcalled := hgrant.tail (.connection 1 [.ok forgedBytes])
  have hreq : requestCode (fun _ => "") [.ok forgedBytes] = .ok (forgedRequest, "evil".toList) :=
    requestCode_eq_ok.mpr ⟨forgedBytes, by decide, by decide, by decide⟩
  have hredeems : Redeems verifierHash demoExchanged.form demoAuthorization := by
    obtain ⟨hcode, hclient, hredirect, hverifier⟩ :=
      lastValue_exchangeForm demoOidc "evil".toList demoFlow.verifier
    have hfits : demoFlow.Fits verifierHash := fits_startPkceFlow demoOidc _ _
    exact ⟨hcode, hclient.trans hfits.client.symm, hredirect.trans hfits.redirect.symm, by
      rw [demoExchanged, hverifier]
      exact hfits.challenge.symm⟩
  have hdone := hcalled.tail (.tokens demoExchanged demoAuthorization (by
      simp only [Flows.step, hreq]
      exact List.mem_singleton.mpr rfl) (List.mem_singleton.mpr rfl) List.not_mem_nil hredeems)
  have hflow : ∀ a f, Function.update (Function.update SignIns.init.started 1 (some demoFlow)) 2
      (some otherFlow) a = some f → f = otherFlow ∨ f = demoFlow := by
    intro a f hf
    rcases SignIns.started_cases hf with ⟨-, rfl⟩ | ⟨-, hf⟩
    · exact Or.inl rfl
    · rcases SignIns.started_cases hf with ⟨-, rfl⟩ | ⟨-, hf⟩
      · exact Or.inr rfl
      · cases hf
  obtain ⟨hbound, honce, -⟩ := signInBound verifierHash (fun _ => "") hdone (by
    intro a b f g hf hg hsame
    rcases hflow a f hf with rfl | rfl
    · rcases hflow b g hg with rfl | rfl
      · rfl
      · exact absurd hsame.symm demo_hash_ne
    · rcases hflow b g hg with rfl | rfl
      · exact absurd hsame demo_hash_ne
      · rfl)
  obtain ⟨-, -, a, ha, -, -, hothers⟩ := hbound demoExchanged demoAuthorization
    (List.mem_singleton.mpr rfl)
  exact ⟨_, hdone, List.mem_singleton.mpr rfl, honce, ⟨2, rfl⟩, a, ha, hothers⟩

end OidcCallback

end OwncloudSync
