-- SUMMARY: What the calls of the auth service return, and what its tokens carry.
import NestPlatform.Auth.Service

/-!
# Tokens

Each call that succeeds, taken apart into its steps.
-/
namespace Auth

open Js Mongo Nest Common Database Effect

variable {M : Mongoose} {bcrypt : Bcrypt} {jwt : Jwt} {config : AuthConfig} {env : AuthEnv}
variable {α : Type}

/-! ## Claims -/

/-- A verified token carries what it decodes to. -/
theorem Jwt.Decodes.claim (h : jwt.Decodes) {token key : String} {now : ℤ} {payload : Entries}
    (hverify : jwt.verify (.str token) key now = some payload) (k : String) :
    jwt.claim token k = payload.get k := by
  unfold Jwt.claim
  rw [h hverify]
  rfl

/-- The two tokens are signatures of one payload, each with its own secret. -/
theorem generateTokens_eq_ok {now : ℤ} {user : Doc} {tokens : Tokens}
    (h : AuthService.generateTokens jwt config now user = .ok tokens) :
    ∃ role expiresIn expiresIn', AuthService.role user = some role ∧
      jwt.sign [("sub", .str user.id.toString), ("email", user.fields "email"), ("role", role)]
        (config.secretKey (some config.JWT_ACCESS_SECRET)) expiresIn now = some tokens.accessToken ∧
      jwt.sign [("sub", .str user.id.toString), ("email", user.fields "email"), ("role", role)]
        (config.secretKey config.JWT_REFRESH_SECRET) expiresIn' now = some tokens.refreshToken := by
  unfold AuthService.generateTokens at h
  cases hrole : AuthService.role user with
  | none => simp [hrole] at h
  | some role =>
    simp only [hrole] at h
    split at h
    · rename_i haccess hrefresh
      cases h
      exact ⟨role, _, _, rfl, haccess, hrefresh⟩
    · cases h

/-- Both tokens carry the claims of the user. -/
theorem generateTokens_claims {k : String} (hjwt : jwt.Carries k) {now : ℤ} {user : Doc}
    {tokens : Tokens} (h : AuthService.generateTokens jwt config now user = .ok tokens) :
    ∃ role, AuthService.role user = some role ∧
      jwt.claim tokens.accessToken k = Entries.get
        [("sub", .str user.id.toString), ("email", user.fields "email"), ("role", role)] k ∧
      jwt.claim tokens.refreshToken k = Entries.get
        [("sub", .str user.id.toString), ("email", user.fields "email"), ("role", role)] k := by
  obtain ⟨role, _, _, hrole, haccess, hrefresh⟩ := generateTokens_eq_ok h
  exact ⟨role, hrole, hjwt haccess, hjwt hrefresh⟩

/-- A library that signs one payload; the token is the key. -/
def Jwt.single (only : Entries) : Jwt where
  sign payload key _ _ := if payload = only then some key else none
  verify token key _ := if token = .str key then some only else none
  decode _ := some only

theorem Jwt.single_carries (only : Entries) (k : String) : (single only).Carries k := by
  intro payload key expiresIn now token h
  simp only [single] at h
  split at h
  · rename_i heq
    rw [heq]
    rfl
  · cases h

theorem Jwt.single_decodes (only : Entries) : (single only).Decodes := by
  intro token key now payload h
  simp only [single] at h
  split at h
  · exact h
  · cases h

/-! ## Calls -/

theorem exec_onUsers (x : Store α) (s : AuthState) :
    (onUsers x).exec s = ((x.exec s.users).1, { s with users := (x.exec s.users).2 }) := rfl

theorem exec_onUsers_eq_ok {x : Store α} {a : α} {s s' : AuthState}
    (h : (onUsers x).exec s = (.ok a, s')) : x.exec s.users = (.ok a, s'.users) := by
  rw [exec_onUsers] at h
  obtain ⟨hresult, rfl⟩ := Prod.mk.inj h
  exact Prod.ext hresult rfl

theorem exec_orThrow_eq_ok {a : Option α} {b : α} {s s' : AuthState}
    (h : (orThrow a).exec s = (.ok b, s')) : a = some b ∧ s' = s := by
  cases a with
  | none => cases h
  | some a =>
    cases h
    exact ⟨rfl, rfl⟩

theorem exec_query_eq_ok {f : Collection → Except Fault α} {a : α} {s s' : AuthState}
    (h : (onUsers (query f)).exec s = (.ok a, s')) : f s.users = .ok a ∧ s' = s := by
  rw [exec_onUsers, exec_query] at h
  cases hf : f s.users with
  | error fault =>
    rw [hf] at h
    cases h
  | ok b =>
    rw [hf] at h
    cases h
    exact ⟨rfl, rfl⟩

theorem exec_tokensFor_eq_ok {user : Doc} {tokens : Tokens} {s s' : AuthState}
    (h : (AuthService.tokensFor jwt config env user).exec s = (.ok tokens, s')) :
    AuthService.generateTokens jwt config env.env.now user = .ok tokens ∧ s' = s := by
  unfold AuthService.tokensFor at h
  split at h
  · rename_i tokens' htokens
    cases h
    exact ⟨htokens, rfl⟩
  · cases h

theorem exec_command_eq_ok {f : Collection → Except Fault (α × Collection)} {a : α}
    {c c' : Collection} (h : (command f).exec c = (.ok a, c')) : f c = .ok (a, c') := by
  rw [exec_command] at h
  cases hf : f c with
  | error fault =>
    rw [hf] at h
    cases h
  | ok result =>
    rw [hf] at h
    cases h
    rfl

/-- A login that succeeds has found the account by its email, compared its password and recorded
the login. -/
theorem login_eq_ok {dto : Entries} {result : AuthResult} {s s' : AuthState}
    (h : (AuthService.login M bcrypt jwt config env dto).exec s = (.ok result, s')) :
    ∃ user recorded,
      Mongo.findOne M UserSchema env.env [("email", dto.get "email")] ["password"] s.users =
        .ok (some user) ∧
      bcrypt.compare (dto.get "password") (user.fields "password") = some true ∧
      Mongo.update M UserSchema env.env (byId (.str user.id.toString))
        (.body (.obj [("lastLoginAt", .date env.env.now)])) s.users = .ok (recorded, s'.users) ∧
      AuthService.generateTokens jwt config env.env.now user = .ok result.tokens := by
  unfold AuthService.login AuthService.findByEmail at h
  obtain ⟨found, s₁, hquery, hrest⟩ := exec_bind_eq_ok.mp h
  obtain ⟨hfound, rfl⟩ := exec_query_eq_ok hquery
  cases found with
  | none => cases hrest
  | some user =>
    obtain ⟨valid, s₂, hvalid, hlogin⟩ := exec_bind_eq_ok.mp hrest
    obtain ⟨hcompare, rfl⟩ := exec_orThrow_eq_ok hvalid
    cases valid with
    | false => cases hlogin
    | true =>
      obtain ⟨recorded, s₃, hupdate, hlast⟩ := exec_bind_eq_ok.mp hlogin
      obtain ⟨tokens, s₄, htokens, hreturn⟩ := exec_bind_eq_ok.mp hlast
      cases hreturn
      obtain ⟨hgenerated, rfl⟩ := exec_tokensFor_eq_ok htokens
      exact ⟨user, recorded, hfound, hcompare,
        exec_command_eq_ok (exec_onUsers_eq_ok hupdate), hgenerated⟩

/-- A refresh that succeeds has found the account that the verified token names, and writes
nothing. -/
theorem refreshToken_eq_ok {dto : Entries} {tokens : Tokens} {s s' : AuthState}
    (h : (AuthService.refreshToken M jwt config env dto).exec s = (.ok tokens, s')) :
    ∃ payload user, jwt.verify (dto.get "refreshToken") (config.secretKey config.JWT_REFRESH_SECRET)
        env.env.now = some payload ∧
      Mongo.findOne M UserSchema env.env (byId (payload.get "sub")) [] s.users = .ok (some user) ∧
      AuthService.generateTokens jwt config env.env.now user = .ok tokens ∧ s' = s := by
  unfold AuthService.refreshToken AuthService.findById at h
  rw [exec_tryCatch] at h
  split at h
  · rename_i tokens' s₁ hinner
    cases h
    obtain ⟨payload, s₂, hpayload, hrest⟩ := exec_bind_eq_ok.mp hinner
    obtain ⟨hverify, rfl⟩ := exec_orThrow_eq_ok hpayload
    obtain ⟨found, s₃, hquery, htokens⟩ := exec_bind_eq_ok.mp hrest
    obtain ⟨hfound, rfl⟩ := exec_query_eq_ok hquery
    cases found with
    | none => cases htokens
    | some user =>
      obtain ⟨hgenerated, rfl⟩ := exec_tokensFor_eq_ok htokens
      exact ⟨payload, user, hverify, hfound, hgenerated, rfl⟩
  · cases h

theorem users_emitUserCreated {user : Doc} {s s' : AuthState}
    (h : (AuthService.emitUserCreated env user).exec s = (.ok (), s')) : s'.users = s.users := by
  unfold AuthService.emitUserCreated at h
  rw [exec_bind_ok (exec_get s)] at h
  split at h
  · cases h
    rfl
  · cases h
    rfl

/-- A registration that succeeds has created an account that was not there. -/
theorem register_eq_ok {dto : Entries} {result : AuthResult} {s s' : AuthState}
    (h : (AuthService.register M bcrypt jwt config env dto).exec s = (.ok result, s')) :
    ∃ user, s.users.get user.id = none ∧ s'.users.get user.id = some user ∧
      AuthService.generateTokens jwt config env.env.now user = .ok result.tokens := by
  unfold AuthService.register AuthService.findByEmail at h
  obtain ⟨found, s₁, hquery, hrest⟩ := exec_bind_eq_ok.mp h
  obtain ⟨-, rfl⟩ := exec_query_eq_ok hquery
  cases found with
  | some user => cases hrest
  | none =>
    obtain ⟨hashedPassword, s₂, hhash, hhashed⟩ := exec_bind_eq_ok.mp hrest
    obtain ⟨-, rfl⟩ := exec_orThrow_eq_ok hhash
    obtain ⟨user, s₃, hcreate, hcreated⟩ := exec_bind_eq_ok.mp hhashed
    obtain ⟨tokens, s₄, htokens, hsigned⟩ := exec_bind_eq_ok.mp hcreated
    obtain ⟨_, s₅, hemit, hreturn⟩ := exec_bind_eq_ok.mp hsigned
    cases hreturn
    obtain ⟨hgenerated, rfl⟩ := exec_tokensFor_eq_ok htokens
    rcases AbstractRepository.exec_create (exec_onUsers_eq_ok hcreate) with
      ⟨-, e, he⟩ | ⟨d, hnew, -, -, hd, hinsert⟩
    · cases he
    · cases hd
      refine ⟨user, hnew, ?_, hgenerated⟩
      rw [users_emitUserCreated hemit, hinsert]
      exact Collection.get_insert_self hnew

end Auth
