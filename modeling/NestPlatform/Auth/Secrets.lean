-- SUMMARY: When access and refresh tokens are kept apart, by the secrets of the places that sign and verify.
import NestPlatform.Auth.Login

/-!
# Secrets

The two tokens of a pair carry the same payload, so that only the secrets tell them apart.
`JWT_REFRESH_SECRET` may be missing, and then `JwtService` takes the secret of its module.
-/
namespace Auth

open Js Mongo Nest Effect Transition

/-! ## The property -/

/-- A signed token is verified with the key it was signed with and with no other. -/
def Jwt.Ideal (jwt : Jwt) : Prop :=
  ∀ {payload : Entries} {key expiresIn : String} {now : ℤ} {token : String},
    jwt.sign payload key expiresIn now = some token →
    ∀ key' now', (jwt.verify (.str token) key' now').isSome = true ↔ key' = key

/-- The gateway's `JwtStrategy` on a bearer token. -/
def JwtStrategy.validate (jwt : Jwt) (config : AuthConfig) (token : String) (now : ℤ) :
    Option Entries :=
  jwt.verify (.str token) config.JWT_ACCESS_SECRET now

/-- Neither token of the pair is accepted in the place of the other, at any time and in
any state. -/
structure KeptApart (M : Mongoose) (jwt : Jwt) (config : AuthConfig) (tokens : Tokens) : Prop where
  validateToken : ∀ dto : Entries, dto.get "token" = .str tokens.refreshToken → ∀ env s,
    ((AuthService.validateToken jwt config env dto).exec s).1 = .ok none
  gateway : ∀ now, JwtStrategy.validate jwt config tokens.refreshToken now = none
  refreshToken : ∀ dto : Entries, dto.get "refreshToken" = .str tokens.accessToken → ∀ env s,
    ∃ e, ((AuthService.refreshToken M jwt config env dto).exec s).1 = .error e

/-- The refresh secret is set, and to another text than the access secret. -/
def DistinctSecrets (config : AuthConfig) : Prop :=
  ∃ secret, config.JWT_REFRESH_SECRET = some secret ∧ secret ≠ "" ∧
    secret ≠ config.JWT_ACCESS_SECRET

/-! ## Keys -/

variable {M : Mongoose} {bcrypt : Bcrypt} {jwt : Jwt} {config : AuthConfig}

theorem secretKey_access : config.secretKey (some config.JWT_ACCESS_SECRET) =
    config.JWT_ACCESS_SECRET := ite_self _

/-- The key of refresh tokens is another one exactly if the secrets are distinct. -/
theorem refreshKey_ne_iff :
    config.secretKey config.JWT_REFRESH_SECRET ≠ config.JWT_ACCESS_SECRET ↔
      DistinctSecrets config := by
  unfold DistinctSecrets AuthConfig.secretKey
  cases config.JWT_REFRESH_SECRET with
  | none => simp [orText]
  | some secret =>
    by_cases hempty : secret = ""
    · simp [orText, hempty]
    · simp [orText, hempty]

/-! ## Issued tokens -/

/-- The tokens are signatures with the keys of the service. -/
structure Signed (jwt : Jwt) (config : AuthConfig) (tokens : Tokens) : Prop where
  access : ∃ payload expiresIn now,
    jwt.sign payload config.JWT_ACCESS_SECRET expiresIn now = some tokens.accessToken
  refresh : ∃ payload expiresIn now,
    jwt.sign payload (config.secretKey config.JWT_REFRESH_SECRET) expiresIn now =
      some tokens.refreshToken

theorem generateTokens_signed {now : ℤ} {user : Doc} {tokens : Tokens}
    (h : AuthService.generateTokens jwt config now user = .ok tokens) :
    Signed jwt config tokens := by
  obtain ⟨role, _, _, -, haccess, hrefresh⟩ := generateTokens_eq_ok h
  rw [secretKey_access] at haccess
  exact ⟨⟨_, _, _, haccess⟩, _, _, _, hrefresh⟩

/-- Whatever a call issues, `_generateTokens` has made for some user. -/
theorem AuthRequest.issued_eq {request : AuthRequest} {events : List AuthEvent} {s s' : AuthState}
    (h : (request.run M bcrypt jwt config).exec s = (.ok events, s')) {tokens : Tokens}
    (hissued : .issued tokens ∈ events) :
    ∃ user, AuthService.generateTokens jwt config request.env.env.now user = .ok tokens := by
  have heffect := authEffect h
  obtain ⟨env, call⟩ := request
  cases heffect with
  | silent => cases hissued
  | registered _ _ htokens | loggedIn _ _ _ htokens | refreshed _ _ htokens _ =>
    cases List.mem_singleton.mp hissued
    exact ⟨_, htokens⟩
  | deleted => cases List.mem_singleton.mp hissued

theorem run_signed {w w' : AuthWorld} {requests : List AuthRequest} (hstart : w.log = [])
    (h : Run (AuthStep M bcrypt jwt config) w requests w') {tokens : Tokens}
    (hissued : .issued tokens ∈ w'.log) : Signed jwt config tokens := by
  have hstep : ∀ w request w', (∀ tokens, .issued tokens ∈ w.log → Signed jwt config tokens) →
      AuthStep M bcrypt jwt config w request w' →
      ∀ tokens, .issued tokens ∈ w'.log → Signed jwt config tokens := by
    rintro w request _ hw rfl tokens hmem
    rcases List.mem_append.mp hmem with hold | hnew
    · exact hw tokens hold
    · cases hrun : (request.run M bcrypt jwt config).exec w.state with
      | mk result s' =>
        rw [hrun] at hnew
        cases result with
        | error e => cases hnew
        | ok events =>
          obtain ⟨user, htokens⟩ := AuthRequest.issued_eq hrun hnew
          exact generateTokens_signed htokens
  have hinit : ∀ tokens, .issued tokens ∈ w.log → Signed jwt config tokens := by
    rw [hstart]
    intro tokens hmem
    cases hmem
  exact h.invariant hstep hinit tokens hissued

/-! ## Separation -/

/-- With ideal signatures the secrets decide. -/
theorem Signed.keptApart_iff (hjwt : jwt.Ideal) {tokens : Tokens} (h : Signed jwt config tokens) :
    KeptApart M jwt config tokens ↔ DistinctSecrets config := by
  obtain ⟨⟨_, _, _, haccess⟩, _, _, _, hrefresh⟩ := h
  rw [← refreshKey_ne_iff]
  constructor
  · intro hkept heq
    have hverified : (JwtStrategy.validate jwt config tokens.refreshToken 0).isSome = true :=
      (hjwt hrefresh _ 0).mpr heq.symm
    rw [hkept.gateway 0] at hverified
    cases hverified
  · intro hne
    have hnotAccess : ∀ now, jwt.verify (.str tokens.refreshToken) config.JWT_ACCESS_SECRET now =
        none := by
      intro now
      rw [← Option.not_isSome_iff_eq_none, hjwt hrefresh]
      exact hne.symm
    have hnotRefresh : ∀ now, jwt.verify (.str tokens.accessToken)
        (config.secretKey config.JWT_REFRESH_SECRET) now = none := by
      intro now
      rw [← Option.not_isSome_iff_eq_none, hjwt haccess]
      exact hne
    constructor
    · intro dto hdto env s
      change Except.ok (jwt.verify (dto.get "token") config.JWT_ACCESS_SECRET env.env.now) = .ok none
      rw [hdto, hnotAccess]
    · exact hnotAccess
    · intro dto hdto env s
      cases hrun : (AuthService.refreshToken M jwt config env dto).exec s with
      | mk result s' =>
        cases result with
        | error e => exact ⟨e, rfl⟩
        | ok issued =>
          obtain ⟨payload, -, hverify, -⟩ := refreshToken_eq_ok hrun
          rw [hdto, hnotRefresh] at hverify
          cases hverify

/-- In every run that begins without tokens, every pair that has been issued is kept apart if and
only if the secrets are distinct. -/
theorem run_keptApart_iff (hjwt : jwt.Ideal) {w w' : AuthWorld} {requests : List AuthRequest}
    (hstart : w.log = []) (h : Run (AuthStep M bcrypt jwt config) w requests w') {tokens : Tokens}
    (hissued : .issued tokens ∈ w'.log) :
    KeptApart M jwt config tokens ↔ DistinctSecrets config :=
  (run_signed hstart h hissued).keptApart_iff hjwt

/-! ### One pair -/

theorem Jwt.single_ideal (only : Entries) : (single only).Ideal := by
  intro payload key expiresIn now token h key' now'
  simp only [single] at h ⊢
  split at h
  · cases h
    by_cases hkey : key' = key
    · simp [hkey]
    · simp [hkey, Ne.symm hkey]
  · cases h

def danaPayload : Entries :=
  [("sub", .str danaId.toString), ("email", .str "dana@example.com"), ("role", .str "user")]

/-- Dana logs in with a refresh secret in the environment, or without one. -/
def danaSigned (refreshSecret : Option String) : AuthWorld :=
  danaLogin.after .plain .plain (.single danaPayload) ⟨"access", refreshSecret, none, none, .fin 12⟩
    danaOnly

/-- With a secret of their own, Dana's tokens are kept apart. -/
theorem run_keptApart_dana :
    KeptApart .plain (.single danaPayload) ⟨"access", some "refresh", none, none, .fin 12⟩
      ⟨"access", "refresh"⟩ := by
  have hissued : .issued ⟨"access", "refresh"⟩ ∈ (danaSigned (some "refresh")).log :=
    List.mem_singleton_self _
  exact (run_keptApart_iff (Jwt.single_ideal danaPayload) (w := danaOnly) rfl
    (.snoc (.nil _) rfl) hissued).mpr ⟨"refresh", rfl, by decide, by decide⟩

/-- Without `JWT_REFRESH_SECRET`, Dana's refresh token is an access token. -/
theorem refresh_as_access :
    Run (AuthStep .plain .plain (.single danaPayload) accessOnly) danaOnly [danaLogin]
        (danaSigned none) ∧
      .issued ⟨"access", "access"⟩ ∈ (danaSigned none).log ∧
      ¬ KeptApart .plain (.single danaPayload) accessOnly ⟨"access", "access"⟩ := by
  refine ⟨.snoc (.nil _) rfl, List.mem_singleton_self _, ?_⟩
  intro h
  cases h.gateway 0

end Auth
