import OwncloudSync.Daemon.Accounts
import OwncloudSync.Daemon.OidcCallback
import OwncloudSync.Lib.Runs
import OwncloudSync.Lib.Text
import Mathlib.Logic.Function.Basic
import Mathlib.Tactic.Common

/-!
# The request that ends a sign-in

`start_pkce_flow` (`oidc.rs`) draws a state and puts it into the URL for the browser; it hands out
the URL and the verifier, **and not the state**.  The listener of the flow takes the first connection
(`oidc_callback.rs`), reads to the first CRLF, and exchanges whatever `code` it finds in the request
line.  So a code is exchanged whatever `state` comes with it, or none (`bound_iff`).

Any number of flows run side by side, each with a listener of its own.  A read returns at most 512
bytes; nothing depends on it.  SHA-256 is a parameter.
-/

namespace OwncloudSync

namespace OidcCallback

/-! ## The authorization URL -/

/-- The alphabet of base64url. -/
def base64Alphabet : Str :=
  "ABCDEFGHIJKLMNOPQRSTUVWXYZabcdefghijklmnopqrstuvwxyz0123456789-_".toList

/-- The digit of a number below 64. -/
def base64Char (n : ℕ) : Char := base64Alphabet.getD (n % 64) 'A'

/-- `URL_SAFE_NO_PAD.encode`. -/
def base64Encode : List UInt8 → Str
  | a :: b :: c :: rest =>
      let n := (a.toNat * 256 + b.toNat) * 256 + c.toNat
      base64Char (n / 2 ^ 18) :: base64Char (n / 2 ^ 12) :: base64Char (n / 2 ^ 6) :: base64Char n ::
        base64Encode rest
  | [a, b] =>
      let n := a.toNat * 256 + b.toNat
      [base64Char (n / 2 ^ 10), base64Char (n / 2 ^ 4), base64Char (n * 4)]
  | [a] => [base64Char (a.toNat / 4), base64Char (a.toNat * 16)]
  | [] => []

/-- A URL as far as it is read here: the pairs of its query. -/
structure QueryUrl where
  base : Str
  query : List (String × Str)

/-- `OidcConfig`, with the endpoint that authorizes. -/
structure OidcConfig where
  clientId : Str
  clientSecret : Option Str
  redirectUri : Str
  authorizationEndpoint : QueryUrl

/-- The state a URL carries: the value of its last `state` pair. -/
def QueryUrl.state (u : QueryUrl) : Option Str :=
  (u.query.reverse.find? (fun pair => pair.1 == "state")).map (·.2)

section

variable (sha256 : List UInt8 → List UInt8)

/-- `OidcAuth::start_pkce_flow`, with the random bytes of the verifier and of the state. -/
def startPkceFlow (config : OidcConfig) (raw rawState : List UInt8) : QueryUrl × Str :=
  let verifier := base64Encode raw
  let challenge := base64Encode (sha256 (verifier.flatMap String.utf8EncodeChar))
  let state := base64Encode rawState
  ({ config.authorizationEndpoint with query := config.authorizationEndpoint.query ++
      [("response_type", "code".toList), ("client_id", config.clientId),
        ("redirect_uri", config.redirectUri),
        ("scope", "openid profile email offline_access".toList), ("code_challenge", challenge),
        ("code_challenge_method", "S256".toList), ("state", state)] }, verifier)

lemma state_startPkceFlow (config : OidcConfig) (raw rawState : List UInt8) :
    (startPkceFlow sha256 config raw rawState).1.state = some (base64Encode rawState) := by
  simp [startPkceFlow, QueryUrl.state]

end

/-- The form that `OidcAuth::exchange_code` posts to the token endpoint. -/
def exchangeForm (config : OidcConfig) (code verifier : Str) : List (String × Str) :=
  [("grant_type", "authorization_code".toList), ("code", code), ("redirect_uri", config.redirectUri),
    ("client_id", config.clientId), ("code_verifier", verifier)] ++
    (config.clientSecret.map (fun secret => ("client_secret", secret))).toList

/-! ## The request -/

/-- There is an end of line in the bytes. -/
def hasCrlf : List UInt8 → Bool
  | a :: b :: rest => (a == 13 && b == 10) || hasCrlf (b :: rest)
  | _ => false

/-- The loop of `handle_callback` that reads the request.  A connection is what its reads return; it
is closed at the end of the list, or when a read returns nothing. -/
def readRequest (buf : List UInt8) : List (Except String (List UInt8)) → Except String (List UInt8)
  | [] => .error "connection closed before request received"
  | .error e :: _ => .error e
  | .ok chunk :: reads =>
      if chunk.isEmpty then .error "connection closed before request received"
      else if hasCrlf (buf ++ chunk) then .ok (buf ++ chunk)
      else if (buf ++ chunk).length > 8192 then .error "request too large"
      else readRequest (buf ++ chunk) reads

/-- `std::str::from_utf8`. -/
def fromUtf8 (buf : List UInt8) : Option Str := (String.fromUTF8? ⟨buf.toArray⟩).map String.toList

/-- Minimal decoding for query values: replace '+' with space. -/
def decodeQueryValue (s : Str) : Str := s.map (fun c => if c = '+' then ' ' else c)

/-- The value of the first pair of that name; a pair without `=` is passed over. -/
def findParam (param : Str) : List Str → Option Str
  | [] => none
  | pair :: pairs =>
      match Text.splitOnce '=' pair with
      | some (k, v) => if k = param then some (decodeQueryValue v) else findParam param pairs
      | none => findParam param pairs

/-- `extract_query_param`. -/
def extractQueryParam (request : Str) (param : Str) : Option Str := do
  let line ← Text.firstLine request
  let path ← (Text.words isWhiteSpace line)[1]?
  let (_, query) ← Text.splitOnce '?' path
  findParam param (query.splitOn '&')

section

-- the text of the `Utf8Error` of these bytes
variable (utf8Error : List UInt8 → String)

/-- The request of a connection, and the code in it. -/
def requestCode (reads : List (Except String (List UInt8))) : Except String (Str × Str) := do
  let buf ← readRequest [] reads
  let request ← (fromUtf8 buf).elim (.error (utf8Error buf)) .ok
  let code ← (extractQueryParam request "code".toList).elim
    (.error "no 'code' parameter in callback") .ok
  .ok (request, code)

/-- A connection without a code ends the sign-in, and nothing has been written. -/
lemma handleCallback_of_error {o : Answers} {reads : List (Except String (List UInt8))} {e : String}
    (haccept : o.accept = .done (.ok ()))
    (hcode : o.code = .done ((requestCode utf8Error reads).map (·.2)))
    (h : requestCode utf8Error reads = .error e) (a : Uuid) (url : Str) (w : World) :
    handleCallback o a url w = (w, .failed e) := by
  rw [h] at hcode
  rw [handleCallback, haccept, hcode]
  simp [await, Except.map]

end

/-! ## Flows side by side -/

/-- A sign-in that waits for its connection: what `run_callback` is given of it, and the URL that the
browser has. -/
structure Flow where
  config : OidcConfig
  authUrl : QueryUrl
  verifier : Str

/-- A code that was exchanged: for which flow, because of which request, and the form. -/
structure Exchanged where
  flow : Flow
  request : Str
  form : List (String × Str)

/-- The sign-ins that wait, and the exchanges there have been. -/
structure Flows where
  listening : Uuid → Option Flow
  exchanged : List Exchanged

/-- What comes from outside. -/
inductive Arrival where
  /-- `AddAccount`, with the random bytes for its flow -/
  | signIn (a : Uuid) (config : OidcConfig) (raw rawState : List UInt8)
  /-- a connection to the listener of a flow, from whomever -/
  | connection (a : Uuid) (reads : List (Except String (List UInt8)))
  /-- `SIGN_IN_TIMEOUT` -/
  | timeout (a : Uuid)

section

variable (sha256 : List UInt8 → List UInt8) (utf8Error : List UInt8 → String)

/-- What an arrival does to the flows. -/
def Flows.step (s : Flows) : Arrival → Flows
  | .signIn a config raw rawState =>
      let (authUrl, verifier) := startPkceFlow sha256 config raw rawState
      { s with listening := Function.update s.listening a (some ⟨config, authUrl, verifier⟩) }
  | .connection a reads =>
      match s.listening a with
      | none => s
      | some flow =>
          -- the listener is dropped after the first connection
          let s := { s with listening := Function.update s.listening a none }
          match requestCode utf8Error reads with
          | .error _ => s
          | .ok (request, code) =>
              { s with exchanged := s.exchanged ++
                  [⟨flow, request, exchangeForm flow.config code flow.verifier⟩] }
  | .timeout a => { s with listening := Function.update s.listening a none }

/-- What a list of arrivals does. -/
def Flows.run (arrivals : List Arrival) : Flows :=
  arrivals.foldl (Flows.step sha256 utf8Error) ⟨fun _ => none, []⟩

/-- Every exchanged code came with the state of its flow's URL. -/
def Flows.Bound (s : Flows) : Prop :=
  ∀ x ∈ s.exchanged, ∃ state, x.flow.authUrl.state = some state ∧
    extractQueryParam x.request "state".toList = some state

/-- If a request with a code is the first to reach a flow, it carries the state of the flow's URL. -/
def Flows.CarriesState (s : Flows) : Arrival → Prop
  | .connection a reads => ∀ flow, s.listening a = some flow → ∀ buf request,
      readRequest [] reads = .ok buf → fromUtf8 buf = some request →
      (extractQueryParam request "code".toList).isSome →
        extractQueryParam request "state".toList = flow.authUrl.state
  | _ => True

variable {sha256 : List UInt8 → List UInt8} {utf8Error : List UInt8 → String} {s : Flows}
  {x : Arrival} {arrivals : List Arrival}

/-- Every flow has a state in its URL. -/
def Flows.Stated (s : Flows) : Prop :=
  ∀ a flow, s.listening a = some flow → ∃ state, flow.authUrl.state = some state

lemma Flows.Stated.close (h : s.Stated) (a : Uuid) :
    Flows.Stated { s with listening := Function.update s.listening a none } := by
  intro b flow hb
  by_cases hba : b = a
  · subst hba
    simp at hb
  · exact h b flow (by simpa [hba] using hb)

lemma requestCode_eq_ok {reads : List (Except String (List UInt8))} {request code : Str} :
    requestCode utf8Error reads = .ok (request, code) ↔ ∃ buf, readRequest [] reads = .ok buf ∧
      fromUtf8 buf = some request ∧ extractQueryParam request "code".toList = some code := by
  unfold requestCode
  cases readRequest [] reads with
  | error e => simp [bind, Except.bind]
  | ok buf =>
      cases hbuf : fromUtf8 buf with
      | none => simp [bind, Except.bind, hbuf]
      | some r =>
          simp only [bind, Except.bind, Option.elim, Except.ok.injEq, exists_eq_left', hbuf,
            Option.some.injEq]
          cases hcode : extractQueryParam r "code".toList with
          | none =>
              refine iff_of_false (by simp) ?_
              rintro ⟨rfl, h⟩
              rw [hcode] at h
              cases h
          | some c =>
              simp only [Except.ok.injEq, Prod.mk.injEq]
              refine and_congr_right (fun hr => ?_)
              rw [← hr, hcode, Option.some.injEq]

lemma stated_step (h : s.Stated) : (s.step sha256 utf8Error x).Stated := by
  cases x with
  | signIn a config raw rawState =>
      intro b flow hb
      by_cases hba : b = a
      · subst hba
        simp only [Flows.step, Function.update_self, Option.some.injEq] at hb
        subst hb
        exact ⟨_, state_startPkceFlow sha256 config raw rawState⟩
      · simp only [Flows.step, Function.update_of_ne hba] at hb
        exact h b flow hb
  | connection a reads =>
      simp only [Flows.step]
      split
      · exact h
      · split
        · exact h.close a
        · exact h.close a
  | timeout a => exact h.close a

/-- One arrival: the codes stay bound exactly when a request that is exchanged carries the state. -/
lemma bound_step_iff (h : s.Stated) :
    (s.step sha256 utf8Error x).Bound ↔ s.Bound ∧ s.CarriesState x := by
  cases x with
  | signIn a config raw rawState => exact ⟨fun hb => ⟨hb, trivial⟩, fun hb => hb.1⟩
  | timeout a => exact ⟨fun hb => ⟨hb, trivial⟩, fun hb => hb.1⟩
  | connection a reads =>
      simp only [Flows.step]
      cases hflow : s.listening a with
      | none =>
          refine ⟨fun hb => ⟨hb, fun flow hl => ?_⟩, fun hb => hb.1⟩
          rw [hflow] at hl
          cases hl
      | some flow =>
          cases hreq : requestCode utf8Error reads with
          | error e =>
              refine ⟨fun hb => ⟨hb, fun _ _ buf request hbuf htext hcode => ?_⟩, fun hb => hb.1⟩
              obtain ⟨code, hcode⟩ := Option.isSome_iff_exists.mp hcode
              rw [requestCode_eq_ok.mpr ⟨buf, hbuf, htext, hcode⟩] at hreq
              cases hreq
          | ok r =>
              obtain ⟨request, code⟩ := r
              obtain ⟨buf, hbuf, htext, hcode⟩ := requestCode_eq_ok.mp hreq
              obtain ⟨state, hstate⟩ := h a flow hflow
              refine List.forall_mem_append.trans (and_congr_right (fun _ => ?_))
              rw [List.forall_mem_singleton]
              constructor
              · rintro ⟨state', hstate', hparam⟩ flow' hl buf' request' hbuf' htext' -
                obtain rfl := Option.some.inj (hflow.symm.trans hl)
                obtain rfl := Except.ok.inj (hbuf.symm.trans hbuf')
                obtain rfl := Option.some.inj (htext.symm.trans htext')
                rw [hparam, hstate']
              · intro hcarries
                refine ⟨state, hstate, ?_⟩
                rw [hcarries flow hflow buf request hbuf htext (by rw [hcode]; rfl), hstate]

lemma run_concat : Flows.run sha256 utf8Error (arrivals ++ [x]) =
    (Flows.run sha256 utf8Error arrivals).step sha256 utf8Error x := by
  rw [Flows.run, List.foldl_append]
  rfl

lemma stated_run : (Flows.run sha256 utf8Error arrivals).Stated := by
  induction arrivals using List.reverseRecOn with
  | nil => exact fun a flow h => nomatch h
  | append_singleton arrivals x ih =>
      rw [run_concat]
      exact stated_step ih

/-- **A code is bound to its flow exactly when the request happens to carry the state**: the daemon
does not look.  Any number of flows, and any connections to their listeners. -/
theorem bound_iff (sha256 : List UInt8 → List UInt8) (utf8Error : List UInt8 → String)
    (arrivals : List Arrival) :
    (Flows.run sha256 utf8Error arrivals).Bound ↔
      ∀ pre x post, arrivals = pre ++ x :: post →
        (Flows.run sha256 utf8Error pre).CarriesState x := by
  induction arrivals using List.reverseRecOn with
  | nil =>
      refine iff_of_true (fun x hx => nomatch hx) (fun pre x post h => ?_)
      simp at h
  | append_singleton arrivals x ih =>
      rw [Runs.forall_split_concat, ← ih, run_concat]
      exact bound_step_iff stated_run

end

/-- A code from someone else. -/
def forgedRequest : Str := "GET /callback?code=evil HTTP/1.1\r\n".toList

/-- Its bytes. -/
def forgedBytes : List UInt8 := forgedRequest.flatMap String.utf8EncodeChar

/-- A client with its listener. -/
def demoOidc : OidcConfig where
  clientId := "client".toList
  clientSecret := none
  redirectUri := "http://127.0.0.1:8080/callback".toList
  authorizationEndpoint := ⟨"https://ocis.example.com/authorize".toList, []⟩

/-- **A code without a state is exchanged.** -/
theorem forged_code_exchanged : ¬ ∃ sha256 utf8Error, (Flows.run sha256 utf8Error
    ([.signIn 1 demoOidc (List.replicate 32 7) (List.replicate 16 9)] ++
      [.connection 1 [.ok forgedBytes]])).Bound := by
  rintro ⟨sha256, utf8Error, h⟩
  rw [run_concat, bound_step_iff stated_run] at h
  have hstate := h.2 _ rfl forgedBytes forgedRequest (by decide) (by decide) (by decide)
  exact absurd (hstate.trans (state_startPkceFlow sha256 demoOidc _ _)) (by decide)

end OidcCallback

end OwncloudSync
