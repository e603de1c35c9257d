import OwncloudSync.Engine.Types
import Mathlib.Data.List.Basic
import Mathlib.Tactic.Common

/-!
# Tokens and their refresh

`TokenSet`, `TokenResponse` and `token_response_to_set` (`oidc.rs`), and one call of
`TokenManager::get_valid_token` (`token_manager.rs`) that no other call disturbs.

The new set is built **from the response alone**.  A server may leave `refresh_token` out of a
response, which says that the old one stays valid; the set that is stored then has none, and the
session ends with the new access token (`refreshable_iff`).

Times are `i64` seconds.  A call reads the clock three times, and the clock may do anything between.
-/

namespace OwncloudSync

namespace Auth

/-- `TokenSet`; the time is in seconds since 1970. -/
structure TokenSet where
  accessToken : Str
  refreshToken : Option Str
  expiresAt : Int64
  deriving DecidableEq

/-- Expired, or about to be within 30 seconds. -/
def TokenSet.isExpired (t : TokenSet) (now : Int64) : Bool := decide (t.expiresAt - 30 ≤ now)

/-- `TokenResponse`, the reply of the token endpoint. -/
structure TokenResponse where
  accessToken : Str
  refreshToken : Option Str
  expiresIn : Option UInt64
  deriving DecidableEq

/-- `token_response_to_set`. -/
def tokenResponseToSet (resp : TokenResponse) (now : Int64) : TokenSet where
  accessToken := resp.accessToken
  refreshToken := resp.refreshToken
  expiresAt := now + (resp.expiresIn.getD 3600).toInt64

/-- The error of a manager that cannot refresh. -/
def noRefreshToken : String := "token expired, no refresh token available"

/-- What a call meets: the clock at the first check, at the second and at the reply, and the
reply. -/
structure Visit where
  first : Int64
  second : Int64
  third : Int64
  reply : Except String TokenResponse

/-- `TokenManager::get_valid_token`: what it returns, and the set that is stored afterwards. -/
def getValidToken (t : TokenSet) (v : Visit) : Except String Str × TokenSet :=
  if !t.isExpired v.first then (.ok t.accessToken, t)
  else if !t.isExpired v.second then (.ok t.accessToken, t)
  else
    match t.refreshToken with
    | none => (.error noRefreshToken, t)
    | some _ =>
        match v.reply with
        | .error e => (.error e, t)
        | .ok resp =>
            let new := tokenResponseToSet resp v.third
            (.ok new.accessToken, new)

/-! ## A session -/

/-- The call finds the token expired, both times, and asks for a new one. -/
def refreshes (t : TokenSet) (v : Visit) : Bool := t.isExpired v.first && t.isExpired v.second

/-- The refresh token a session should have after a call with this response: the new one if there
is one, otherwise the one before. -/
def dueRefreshToken (t : TokenSet) (v : Visit) (resp : TokenResponse) : Option Str :=
  if refreshes t v then resp.refreshToken.or t.refreshToken else t.refreshToken

/-- A call whose refresh, if it makes one, succeeds. -/
structure Grant where
  first : Int64
  second : Int64
  third : Int64
  resp : TokenResponse

/-- A call whose request is granted. -/
def Grant.visit (g : Grant) : Visit := ⟨g.first, g.second, g.third, .ok g.resp⟩

/-- After the call the session has the refresh token it should have, and can be refreshed. -/
def StaysRefreshable (t : TokenSet) (g : Grant) : Prop :=
  (getValidToken t g.visit).2.refreshToken = dueRefreshToken t g.visit g.resp ∧
    (getValidToken t g.visit).2.refreshToken ≠ none

/-- A property of every call of a session, with the set the call finds. -/
def EachCall (P : TokenSet → Grant → Prop) : TokenSet → List Grant → Prop
  | _, [] => True
  | t, g :: session => P t g ∧ EachCall P (getValidToken t g.visit).2 session

/-- If the call refreshes, the response brings a refresh token. -/
def Reissues (t : TokenSet) (g : Grant) : Prop :=
  refreshes t g.visit = true → g.resp.refreshToken ≠ none

instance (t : TokenSet) (g : Grant) : Decidable (Reissues t g) :=
  inferInstanceAs (Decidable (_ → _))

variable {t : TokenSet} {v : Visit} {g : Grant}

lemma getValidToken_of_valid (h : refreshes t v = false) :
    getValidToken t v = (.ok t.accessToken, t) := by
  rw [refreshes, Bool.and_eq_false_iff] at h
  unfold getValidToken
  rcases h with h | h
  · rw [h]
    rfl
  · rw [h]
    split
    · rfl
    · rfl

lemma getValidToken_of_refreshes (h : refreshes t v = true) (hrt : t.refreshToken ≠ none) :
    getValidToken t v =
      match v.reply with
      | .error e => (.error e, t)
      | .ok resp =>
          (.ok (tokenResponseToSet resp v.third).accessToken, tokenResponseToSet resp v.third) := by
  rw [refreshes, Bool.and_eq_true] at h
  obtain ⟨rt, hrt⟩ := Option.ne_none_iff_exists'.mp hrt
  rw [getValidToken, h.1, h.2, hrt]
  rfl

/-- One call: the session can be refreshed afterwards exactly when the response brings the refresh
token along. -/
lemma staysRefreshable_iff (hrt : t.refreshToken ≠ none) :
    StaysRefreshable t g ↔ Reissues t g := by
  unfold StaysRefreshable Reissues dueRefreshToken
  cases h : refreshes t g.visit with
  | false =>
      rw [getValidToken_of_valid h]
      simpa using hrt
  | true =>
      rw [getValidToken_of_refreshes h hrt]
      simp only [Grant.visit, tokenResponseToSet, if_true, forall_const]
      cases g.resp.refreshToken with
      | none => simp
      | some rt => simp

/-- **A session stays refreshable exactly as long as every refresh response brings a refresh
token.** -/
theorem refreshable_iff (t : TokenSet) (calls : List Grant) (hrt : t.refreshToken ≠ none) :
    EachCall StaysRefreshable t calls ↔ EachCall Reissues t calls := by
  induction calls generalizing t with
  | nil => exact Iff.rfl
  | cons g calls ih =>
      rw [EachCall, EachCall, staysRefreshable_iff hrt]
      refine and_congr_right (fun hre => ih _ ?_)
      exact ((staysRefreshable_iff hrt).mpr hre).2

/-- A set with a refresh token, expired at 970. -/
def aging : TokenSet := ⟨"at-0".toList, some "rt-0".toList, 1000⟩

/-- A response that brings the next refresh token, valid for five minutes. -/
def rotated : TokenResponse := ⟨"at-1".toList, some "rt-1".toList, some 300⟩

/-- A response that leaves the refresh token out. -/
def silent : TokenResponse := ⟨"at-1".toList, none, some 300⟩

/-- A session with one refresh, and a call that needs none. -/
theorem rotated_session_refreshable :
    EachCall StaysRefreshable aging [⟨1000, 1000, 1001, rotated⟩, ⟨1010, 1010, 1010, silent⟩] :=
  (refreshable_iff aging _ (by decide)).mpr ⟨by decide, by decide, trivial⟩

/-- **The session is lost** to a response without a refresh token. -/
theorem silent_session_lost :
    ¬ EachCall StaysRefreshable aging [⟨1000, 1000, 1001, silent⟩] := by
  intro h
  exact h.1.2 (by decide)

end Auth

end OwncloudSync
