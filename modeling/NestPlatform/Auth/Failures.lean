-- SUMMARY: The handlers of the auth service: what they throw, and what they have written when they throw.
import NestPlatform.Auth.Controller
import NestPlatform.Services.Failures

/-!
# Failures of the auth service

Registration and login write before they sign the tokens. Where nothing is signed they fail with
the account stored, or the login recorded.
-/
namespace Auth

open Js Mongo Nest Common Database Effect Services

section

variable (M : Mongoose) (jwt : Jwt) (config : AuthConfig) (env : AuthEnv) (pattern : String)
variable (dto : Entries) (s : AuthState)

/-- The state after a message whose account got no tokens. -/
inductive Unsigned : AuthState → Prop where
  | registered {user : Doc} {hashedPassword : String} (hnew : s.users.get user.id = none) :
      pattern = AUTH_PATTERNS.REGISTER →
      construct M UserSchema env.env (newUser dto hashedPassword) = some user →
      ¬ Signs jwt config env.env.now user →
      Unsigned { s with users := s.users.insert user hnew }
  | loggedIn {d : Doc} : pattern = AUTH_PATTERNS.LOGIN → s.users.get d.id = some d →
      ¬ Signs jwt config env.env.now (hydrate UserSchema ["password"] d) →
      Unsigned { s with users := s.users.put (stamped env.env d) }

end

variable {M : Mongoose} {bcrypt : Bcrypt} {jwt : Jwt} {config : AuthConfig} {env : AuthEnv}
variable {pattern : String} {dto : Entries} {s s' : AuthState} {t : Thrown} {α : Type}

/-! ## What is thrown -/

theorem throws_orThrow (a : Option α) : Throws Plain (orThrow a) := by
  cases a with
  | none => exact Throws.throw (plain_error _)
  | some a => exact Throws.pure a

theorem throws_onUsers {x : Store α} (h : Throws Plain x) : Throws Plain (onUsers x) := by
  intro s s' t hs
  rw [exec_onUsers] at hs
  cases hx : x.exec s.users with
  | mk result c =>
    rw [hx] at hs
    cases hs
    exact h _ _ _ hx

theorem throws_tokensFor (user : Doc) :
    Throws Plain (AuthService.tokensFor jwt config env user) := by
  unfold AuthService.tokensFor AuthService.generateTokens
  cases AuthService.role user with
  | none => exact Throws.throw (plain_error _)
  | some role =>
    dsimp only
    split
    · rename_i hresult
      split at hresult
      · exact Throws.pure _
      · cases hresult
    · rename_i hresult
      split at hresult
      · cases hresult
      · cases hresult
        exact Throws.throw (plain_error _)

theorem throws_register : Throws Plain (AuthService.register M bcrypt jwt config env dto) := by
  refine Throws.bind (throws_onUsers ((throws_query _).mono ServiceError.plain)) fun found => ?_
  cases found with
  | some _ => exact Throws.throw (plain_http _)
  | none =>
    refine Throws.bind (throws_orThrow _) fun hashedPassword => ?_
    refine Throws.bind (throws_onUsers ((throws_command _).mono ServiceError.plain)) fun user => ?_
    refine Throws.bind (throws_tokensFor user) fun tokens => ?_
    refine Throws.bind ?_ fun _ => Throws.pure _
    intro s s' t hemit
    have hok := @RegisterRequest.exec_emitUserCreated ⟨env, dto⟩ s user
    rw [hok] at hemit
    cases hemit

theorem throws_login : Throws Plain (AuthService.login M bcrypt jwt config env dto) := by
  refine Throws.bind (throws_onUsers ((throws_query _).mono ServiceError.plain)) fun found => ?_
  cases found with
  | none => exact Throws.throw (plain_http _)
  | some user =>
    refine Throws.bind (throws_orThrow _) fun valid => ?_
    cases valid with
    | false => exact Throws.throw (plain_http _)
    | true =>
      refine Throws.bind (throws_onUsers ((throws_command _).mono ServiceError.plain)) fun _ => ?_
      exact Throws.bind (throws_tokensFor user) fun tokens => Throws.pure _

theorem throws_refreshToken : Throws Plain (AuthService.refreshToken M jwt config env dto) :=
  Throws.tryCatch fun _ => Throws.throw (plain_http _)

/-! ## What is written -/

theorem register_error
    (h : (AuthService.register M bcrypt jwt config env dto).exec s = (.error t, s')) :
    s' = s ∨ Unsigned M jwt config env AUTH_PATTERNS.REGISTER dto s s' := by
  have hsteps := @RegisterRequest.attempt_eq_register M bcrypt jwt config ⟨env, dto⟩ s
  rw [h] at hsteps
  rcases @RegisterRequest.attempt_cases M bcrypt jwt config ⟨env, dto⟩ {} s with
    ⟨e, hattempt, -⟩ | ⟨user, hnew, hcreates, hsigning⟩
  · exact .inl (congrArg Prod.snd (hsteps.symm.trans hattempt))
  obtain ⟨-, -, hashedPassword, c, -, hcreate⟩ := hcreates.create
  rcases hsigning with ⟨-, tokens, hattempt⟩ | ⟨hunsigned, e, hattempt⟩
  · cases hsteps.symm.trans hattempt
  · obtain rfl := congrArg Prod.snd (hsteps.symm.trans hattempt)
    refine .inr (.registered hnew rfl (create_eq_ok hcreate).1 ?_)
    intro hsigns
    exact hunsigned ⟨rfl, rfl, hsigns⟩

theorem login_error
    (h : (AuthService.login M bcrypt jwt config env dto).exec s = (.error t, s')) :
    s' = s ∨ Unsigned M jwt config env AUTH_PATTERNS.LOGIN dto s s' := by
  by_cases hselects : ∃ user, Selects M bcrypt env dto s.users user
  case neg =>
    obtain ⟨e, he⟩ := exec_login_unselected jwt config fun user huser => hselects ⟨user, huser⟩
    rw [he] at h
    cases h
    exact .inl rfl
  obtain ⟨user, hmatches⟩ := hselects
  obtain ⟨d, hget, rfl, ⟨e, he⟩ | hrecorded⟩ :=
    @exec_login_matched M bcrypt jwt config env dto s _ hmatches
  · rw [he] at h
    cases h
    exact .inl rfl
  · rw [hrecorded] at h
    obtain ⟨hfailed, rfl⟩ := Prod.mk.inj h
    refine .inr (.loggedIn rfl hget ?_)
    intro hsigns
    obtain ⟨tokens, htokens⟩ := exists_generateTokens_iff.mpr hsigns
    rw [htokens] at hfailed
    cases hfailed

/-! ## The handlers -/

structure Answers (M : Mongoose) (jwt : Jwt) (config : AuthConfig) (env : AuthEnv)
    (pattern : String) (dto : Entries) (x : AuthAction Value) : Prop where
  throws : Throws Plain x
  returns : Returns Defined x
  error : ∀ s t s', x.exec s = (.error t, s') → s' = s ∨ Unsigned M jwt config env pattern dto s s'

theorem AuthController.answers {x : AuthAction Value}
    (hx : AuthController.handle M bcrypt jwt config env pattern dto = some x) :
    Answers M jwt config env pattern dto x := by
  unfold AuthController.handle at hx
  split at hx
  · rename_i hpattern
    cases hx
    refine ⟨throws_register.map _, Returns.map (fun _ => Value.noConfusion) _, ?_⟩
    intro s t s' h
    rw [hpattern]
    exact register_error (exec_map_eq_error h)
  split at hx
  · rename_i hpattern
    cases hx
    refine ⟨throws_login.map _, Returns.map (fun _ => Value.noConfusion) _, ?_⟩
    intro s t s' h
    rw [hpattern]
    exact login_error (exec_map_eq_error h)
  split at hx
  · cases hx
    refine ⟨(Throws.pure _).map _, Returns.map (fun _ => Value.noConfusion) _, ?_⟩
    intro s t s' h
    cases h
  split at hx
  · cases hx
    refine ⟨throws_refreshToken.map _, Returns.map (fun _ => Value.noConfusion) _, ?_⟩
    intro s t s' h
    have hkeep := @keeps_refreshToken M jwt config env dto s
    rw [exec_map_eq_error h] at hkeep
    exact .inl hkeep
  split at hx
  · cases hx
    refine ⟨(Throws.pure _).map _, Returns.map (fun payload => ?_) _, ?_⟩
    · cases payload <;> exact Value.noConfusion
    · intro s t s' h
      cases h
  · cases hx

end Auth
