-- SUMMARY: When logging out and refreshing leave no refresh token behind that still works.
import NestPlatform.Auth.Provenance

/-!
# Revocation

`logout` only logs, and `refreshToken` keeps no record of what it has exchanged: a
refresh token works for as long as its signature and its account last.
-/
namespace Auth

open Js Mongo Nest Common Database Effect Transition

/-! ## The property -/

section Property

variable (M : Mongoose) (jwt : Jwt) (config : AuthConfig)

/-- The account has logged out and was told so. -/
def Completed.LogsOut (e : Completed) (userId : String) : Prop :=
  ∃ dto, e.request.call = .logout dto ∧ dto.get "userId" = .str userId ∧
    ((AuthService.logout dto).exec e.before).1 = .ok true

/-- The call has issued the refresh token to the account. -/
def Completed.IssuesRefresh (e : Completed) (token userId : String) : Prop :=
  ∃ tokens, .issued tokens ∈ e.events ∧ tokens.refreshToken = token ∧
    jwt.claim token "sub" = .str userId

/-- The call was given the refresh token and has exchanged it for new tokens. -/
def Completed.Exchanges (e : Completed) (token : String) : Prop :=
  ∃ dto tokens, e.request.call = .of (.refreshToken dto) ∧ dto.get "refreshToken" = .str token ∧
    ((AuthService.refreshToken M jwt config e.request.env dto).exec e.before).1 = .ok tokens

/-- The account has logged out since the token was issued to it, or the token has been
exchanged. -/
inductive Spent (history : List Completed) (token : String) : Prop where
  | loggedOut {earlier later : List Completed} {e e' : Completed} {userId : String} :
      history = earlier ++ e :: later → e.LogsOut userId → e' ∈ earlier →
      e'.IssuesRefresh jwt token userId → Spent history token
  | exchanged {e : Completed} : e ∈ history → e.Exchanges M jwt config token → Spent history token

/-- No call exchanges a token that is spent. -/
def Revokes (history : List Completed) : Prop :=
  ∀ earlier e, earlier ++ [e] <+: history → ∀ token, Spent M jwt config earlier token →
    ¬ e.Exchanges M jwt config token

/-! ## The condition -/

/-- The token is verified, the account that it names is stored, and new tokens can be signed. -/
def Redeemable (env : AuthEnv) (s : AuthState) (token : String) : Prop :=
  ∃ payload user, jwt.verify (.str token) (config.secretKey config.JWT_REFRESH_SECRET)
      env.env.now = some payload ∧
    Mongo.findOne M UserSchema env.env (byId (payload.get "sub")) [] s.users = .ok (some user) ∧
    Signs jwt config env.env.now user

/-- The token is of no use any more. -/
inductive Lapsed (env : AuthEnv) (s : AuthState) (token : String) : Prop where
  /-- It is not verified, because it has expired. -/
  | expired : jwt.verify (.str token) (config.secretKey config.JWT_REFRESH_SECRET) env.env.now = none →
      Lapsed env s token
  /-- It names no account that is stored. -/
  | accountGone {payload : Entries} :
      jwt.verify (.str token) (config.secretKey config.JWT_REFRESH_SECRET) env.env.now = some payload →
      (∀ user, Mongo.findOne M UserSchema env.env (byId (payload.get "sub")) [] s.users ≠
        .ok (some user)) → Lapsed env s token
  /-- No tokens can be signed for its account. -/
  | unsigned {payload : Entries} {user : Doc} :
      jwt.verify (.str token) (config.secretKey config.JWT_REFRESH_SECRET) env.env.now = some payload →
      Mongo.findOne M UserSchema env.env (byId (payload.get "sub")) [] s.users = .ok (some user) →
      ¬ Signs jwt config env.env.now user → Lapsed env s token

/-- A spent token that is presented has lapsed. -/
def PresentsUnspent (w : Session) (request : SessionRequest) : Prop :=
  ∀ dto token, request.call = .of (.refreshToken dto) → dto.get "refreshToken" = .str token →
    Spent M jwt config w.history token → Lapsed M jwt config request.env w.state token

end Property

/-! ## Exchanges -/

variable {M : Mongoose} {bcrypt : Bcrypt} {jwt : Jwt} {config : AuthConfig} {env : AuthEnv}

/-- Only the token and its account decide whether a token is exchanged, not what was done before. -/
theorem refreshToken_ok_iff {dto : Entries} {token : String} {s : AuthState}
    (hdto : dto.get "refreshToken" = .str token) :
    (∃ tokens, ((AuthService.refreshToken M jwt config env dto).exec s).1 = .ok tokens) ↔
      Redeemable M jwt config env s token := by
  constructor
  · rintro ⟨tokens, hok⟩
    have hrun : (AuthService.refreshToken M jwt config env dto).exec s =
        (.ok tokens, ((AuthService.refreshToken M jwt config env dto).exec s).2) := Prod.ext hok rfl
    obtain ⟨payload, user, hverify, hfound, htokens, -⟩ := refreshToken_eq_ok hrun
    rw [hdto] at hverify
    exact ⟨payload, user, hverify, hfound, exists_generateTokens_iff.mp ⟨tokens, htokens⟩⟩
  · rintro ⟨payload, user, hverify, hfound, hsigns⟩
    obtain ⟨tokens, htokens⟩ := exists_generateTokens_iff.mpr hsigns
    refine ⟨tokens, ?_⟩
    have hpayload : (orThrow (jwt.verify (dto.get "refreshToken")
        (config.secretKey config.JWT_REFRESH_SECRET) env.env.now)).exec s = (.ok payload, s) := by
      rw [hdto, hverify]
      rfl
    have hquery : (onUsers (AuthService.findById M env (payload.get "sub"))).exec s =
        (.ok (some user), s) := by
      unfold AuthService.findById
      rw [exec_onUsers, exec_query, hfound]
    unfold AuthService.refreshToken
    rw [exec_tryCatch, exec_bind_ok hpayload, exec_bind_ok hquery]
    unfold AuthService.tokensFor
    dsimp only
    rw [htokens]
    rfl

/-- Exactly the tokens that have not lapsed are exchanged. -/
theorem lapsed_iff {s : AuthState} {token : String} :
    Lapsed M jwt config env s token ↔ ¬ Redeemable M jwt config env s token := by
  constructor
  · rintro hlapsed ⟨payload, user, hverify, hfound, hsigns⟩
    cases hlapsed with
    | expired hnone => cases hnone.symm.trans hverify
    | accountGone hverify' hgone =>
      cases hverify'.symm.trans hverify
      exact hgone user hfound
    | unsigned hverify' hfound' hunsigned =>
      cases hverify'.symm.trans hverify
      cases hfound'.symm.trans hfound
      exact hunsigned hsigns
  · intro hnot
    cases hverify : jwt.verify (.str token) (config.secretKey config.JWT_REFRESH_SECRET)
        env.env.now with
    | none => exact .expired hverify
    | some payload =>
      by_cases hstored : ∃ user, Mongo.findOne M UserSchema env.env (byId (payload.get "sub")) []
          s.users = .ok (some user)
      · obtain ⟨user, hfound⟩ := hstored
        exact .unsigned hverify hfound fun hsigns => hnot ⟨payload, user, hverify, hfound, hsigns⟩
      · exact .accountGone hverify fun user hfound => hstored ⟨user, hfound⟩

theorem completed_exchanges_iff {request : SessionRequest} {s : AuthState} {token : String} :
    (request.completed M bcrypt jwt config s).Exchanges M jwt config token ↔
      ∃ dto, request.call = .of (.refreshToken dto) ∧ dto.get "refreshToken" = .str token ∧
        Redeemable M jwt config request.env s token := by
  constructor
  · rintro ⟨dto, tokens, hcall, hdto, hok⟩
    exact ⟨dto, hcall, hdto, (refreshToken_ok_iff hdto).mp ⟨tokens, hok⟩⟩
  · rintro ⟨dto, hcall, hdto, hredeemable⟩
    obtain ⟨tokens, hok⟩ := (refreshToken_ok_iff hdto).mpr hredeemable
    exact ⟨dto, tokens, hcall, hdto, hok⟩

/-! ## Runs -/

theorem Revokes.after {w : Session} (h : Revokes M jwt config w.history) {request : SessionRequest}
    (hunspent : PresentsUnspent M jwt config w request) :
    Revokes M jwt config (w.history ++ [request.completed M bcrypt jwt config w.state]) := by
  intro earlier e hprefix token hspent hexchanges
  rcases List.prefix_concat_iff.mp hprefix with heq | hold
  · obtain ⟨rfl, hlast⟩ := List.append_inj' heq rfl
    obtain rfl := List.singleton_inj.mp hlast
    obtain ⟨dto, hcall, hdto, hredeemable⟩ := completed_exchanges_iff.mp hexchanges
    exact lapsed_iff.mp (hunspent dto token hcall hdto hspent) hredeemable
  · exact h earlier e hold token hspent hexchanges

/-- In every run in which the spent tokens that are presented have lapsed, no call exchanges a spent
token. -/
theorem run_revokes {w w' : Session} {requests : List SessionRequest} (hstart : w.history = [])
    (h : Run (Meeting (SessionStep M bcrypt jwt config) (PresentsUnspent M jwt config)) w requests
      w') : Revokes M jwt config w'.history := by
  have hinit : Revokes M jwt config w.history := by
    intro earlier e hprefix
    rw [hstart] at hprefix
    simp at hprefix
  have hstep : ∀ w request w', Revokes M jwt config w.history →
      Meeting (SessionStep M bcrypt jwt config) (PresentsUnspent M jwt config) w request w' →
      Revokes M jwt config w'.history := by
    rintro w request _ hw ⟨rfl, hunspent⟩
    exact hw.after hunspent
  exact h.invariant hstep hinit

/-! ### One account -/

def danaIn : Session := danaNext (.of danaLogin.call) danaSession

/-- Dana logs out, and her refresh token is presented. -/
def danaLeaves : Session :=
  danaNext (.of (.refreshToken [("refreshToken", .str "refresh")]))
    (danaNext (.logout [("userId", .str danaId.toString)]) danaIn)

/-- Dana's refresh token is presented twice. -/
def danaRepeats : Session :=
  danaNext (.of (.refreshToken [("refreshToken", .str "refresh")]))
    (danaNext (.of (.refreshToken [("refreshToken", .str "refresh")])) danaIn)

/-- One key and one payload, until time 10. -/
def Jwt.fleeting (only : Entries) : Jwt :=
  { Jwt.single only with
    verify := fun token key now => if now < 10 then (Jwt.single only).verify token key now else none }

/-- A call at a time. -/
def danaAt (now : ℤ) (call : SessionCall) (w : Session) : Session :=
  SessionRequest.next .plain .plain (.fleeting danaPayload) ⟨"access", some "refresh", none, none, .fin 12⟩
    ⟨{ danaEnv with env := ⟨now, danaId, 0⟩ }, call⟩ w

def danaRefreshes : SessionCall := .of (.refreshToken [("refreshToken", .str "refresh")])

/-- Dana refreshes her tokens and logs out. The old token is presented once when her account is gone,
and once when it has expired. -/
theorem run_revokes_dana :
    let w₃ := danaAt 6 (.logout [("userId", .str danaId.toString)])
      (danaAt 5 danaRefreshes (danaAt 0 (.of danaLogin.call) danaSession))
    let w₆ := danaAt 20 danaRefreshes (danaAt 8 danaRefreshes (danaAt 7 (.edit .empty) w₃))
    Spent .plain (.fleeting danaPayload) ⟨"access", some "refresh", none, none, .fin 12⟩ w₃.history
        "refresh" ∧
      Revokes .plain (.fleeting danaPayload) ⟨"access", some "refresh", none, none, .fin 12⟩
        w₆.history := by
  intro w₃ w₆
  have hlogin : ∀ e ∈ (danaAt 0 (.of danaLogin.call) danaSession).history,
      e.request.call = .of danaLogin.call := by
    intro e he
    obtain rfl := List.mem_singleton.mp he
    rfl
  constructor
  · exact .exchanged (List.mem_append_left _ (List.mem_append_right _ (List.mem_singleton_self _)))
      ⟨_, ⟨"access", "refresh"⟩, rfl, rfl, rfl⟩
  refine run_revokes (w := danaSession) rfl
    (.snoc (.snoc (.snoc (.snoc (.snoc (.snoc (.nil _) ⟨rfl, ?login⟩) ⟨rfl, ?refresh⟩) ⟨rfl, ?logout⟩)
      ⟨rfl, ?edit⟩) ⟨rfl, ?gone⟩) ⟨rfl, ?expired⟩)
  case login | logout | edit =>
    intro dto token hcall
    cases hcall
  case refresh =>
    -- after a login alone no token is spent
    intro dto token _ _ hspent
    cases hspent with
    | @loggedOut earlier later e _ _ hsplit hout =>
      obtain ⟨_, hcall, -⟩ := hout
      have he := hsplit ▸ List.mem_append_right earlier List.mem_cons_self
      cases (hlogin e he).symm.trans hcall
    | @exchanged e he hexchanges =>
      obtain ⟨_, _, hcall, -⟩ := hexchanges
      cases (hlogin e he).symm.trans hcall
  case gone =>
    intro dto token hcall htoken _
    cases hcall
    cases htoken
    refine .accountGone rfl fun user hfound => ?_
    cases hfound
  case expired =>
    intro dto token hcall htoken _
    cases hcall
    cases htoken
    exact .expired rfl

/-- The token still works after the logout, and after it has been exchanged. -/
theorem spent_token_works :
    (∃ requests, Run (SessionStep .plain .plain (.single danaPayload)
        ⟨"access", some "refresh", none, none, .fin 12⟩) danaSession requests danaLeaves) ∧
      ¬ Revokes .plain (.single danaPayload) ⟨"access", some "refresh", none, none, .fin 12⟩
        danaLeaves.history ∧
    (∃ requests, Run (SessionStep .plain .plain (.single danaPayload)
        ⟨"access", some "refresh", none, none, .fin 12⟩) danaSession requests danaRepeats) ∧
      ¬ Revokes .plain (.single danaPayload) ⟨"access", some "refresh", none, none, .fin 12⟩
        danaRepeats.history := by
  refine ⟨⟨_, .snoc (.snoc (.snoc (.nil _) rfl) rfl) rfl⟩, fun h => ?_,
    ⟨_, .snoc (.snoc (.snoc (.nil _) rfl) rfl) rfl⟩, fun h => ?_⟩
  · refine h _ _ (List.prefix_refl _) "refresh" ?_ ⟨_, ⟨"access", "refresh"⟩, rfl, rfl, rfl⟩
    have hsplit : (danaNext (.logout [("userId", .str danaId.toString)]) danaIn).history =
        danaIn.history ++
          (danaNext (.logout [("userId", .str danaId.toString)]) danaIn).history.tail := rfl
    have hlogin : _ ∈ danaIn.history := List.mem_append_right _ (List.mem_singleton_self _)
    exact .loggedOut hsplit ⟨_, rfl, rfl, rfl⟩ hlogin
      ⟨⟨"access", "refresh"⟩, List.mem_singleton_self _, rfl, rfl⟩
  · refine h _ _ (List.prefix_refl _) "refresh" ?_ ⟨_, ⟨"access", "refresh"⟩, rfl, rfl, rfl⟩
    exact .exchanged (List.mem_append_right _ (List.mem_singleton_self _))
      ⟨_, ⟨"access", "refresh"⟩, rfl, rfl, rfl⟩

end Auth
