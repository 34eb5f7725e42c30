-- SUMMARY: The message handlers of the auth service, and what each of them can do to its state.
import NestPlatform.Auth.Provenance
import NestPlatform.Auth.Registration

/-!
# `AuthController`

The handlers by their patterns, with the objects they answer with. Whatever the message says,
a handler adds an account with the role `user`, records a login, or leaves the state alone.
-/
namespace Auth

open Js Mongo Nest Common Database Effect

/-! ## Answers -/

def Tokens.entries (tokens : Tokens) : Entries :=
  [("accessToken", .str tokens.accessToken), ("refreshToken", .str tokens.refreshToken)]

/-- `{ user: this._sanitizeUser(user), ...tokens }` -/
def AuthResult.toObject (result : AuthResult) : Value :=
  .obj (("user", Mongo.toObject UserSchema result.user) :: result.tokens.entries)

/-- The token is one of the answer. -/
def HandsOut (answer : Value) (token : String) : Prop :=
  ∃ k ∈ ["accessToken", "refreshToken"], Entries.get answer.entries k = .str token

/-- `{ valid, payload }` -/
def validation : Option Entries → Value
  | some payload => .obj [("valid", .bool true), ("payload", .obj payload)]
  | none => .obj [("valid", .bool false), ("payload", .null)]

section

variable (M : Mongoose) (bcrypt : Bcrypt) (jwt : Jwt) (config : AuthConfig) (env : AuthEnv)

/-- The handler that the controller has for a pattern, if any. -/
def AuthController.handle (pattern : String) (dto : Entries) : Option (AuthAction Value) :=
  if pattern = AUTH_PATTERNS.REGISTER then
    some (AuthResult.toObject <$> AuthService.register M bcrypt jwt config env dto)
  else if pattern = AUTH_PATTERNS.LOGIN then
    some (AuthResult.toObject <$> AuthService.login M bcrypt jwt config env dto)
  else if pattern = AUTH_PATTERNS.LOGOUT then
    some ((fun success => .obj [("success", .bool success)]) <$> AuthService.logout dto)
  else if pattern = AUTH_PATTERNS.REFRESH_TOKEN then
    some ((fun tokens => .obj tokens.entries) <$> AuthService.refreshToken M jwt config env dto)
  else if pattern = AUTH_PATTERNS.VALIDATE_TOKEN then
    some (validation <$> AuthService.validateToken jwt config env dto)
  else none

end

/-! ## What a handler does to the state -/

/-- The state after a message, whether the handler returns or throws. -/
inductive AuthChange (M : Mongoose) (env : AuthEnv) (pattern : String) (dto : Entries)
    (s : AuthState) : AuthState → Prop where
  | kept : AuthChange M env pattern dto s s
  | registered {user : Doc} {hashedPassword : String} {events : List Entries}
      (hnew : s.users.get user.id = none) : pattern = AUTH_PATTERNS.REGISTER →
      construct M UserSchema env.env (newUser dto hashedPassword) = some user →
      AuthChange M env pattern dto s ⟨s.users.insert user hnew, events⟩
  | loggedIn {d : Doc} : pattern = AUTH_PATTERNS.LOGIN → s.users.get d.id = some d →
      AuthChange M env pattern dto s { s with users := s.users.put (stamped env.env d) }

variable {M : Mongoose} {bcrypt : Bcrypt} {jwt : Jwt} {config : AuthConfig} {env : AuthEnv}
  {pattern : String} {dto : Entries} {s : AuthState}

theorem change_register : AuthChange M env AUTH_PATTERNS.REGISTER dto s
    ((AuthService.register M bcrypt jwt config env dto).exec s).2 := by
  have hsteps := @RegisterRequest.attempt_eq_register M bcrypt jwt config ⟨env, dto⟩ s
  have hstate : ∀ {stage s'}, RegisterRequest.attempt M bcrypt jwt config ⟨env, dto⟩ {} s = (stage, s') →
      ((AuthService.register M bcrypt jwt config env dto).exec s).2 = s' := by
    intro stage s' h
    exact congrArg Prod.snd (hsteps.symm.trans h)
  rcases @RegisterRequest.attempt_cases M bcrypt jwt config ⟨env, dto⟩ {} s with
    ⟨e, h, -⟩ | ⟨user, hnew, hcreates, hsigning⟩
  · rw [hstate h]
    exact .kept
  · obtain ⟨-, -, hashedPassword, c, -, hcreate⟩ := hcreates.create
    obtain ⟨hconstruct, -⟩ := create_eq_ok hcreate
    rcases hsigning with ⟨-, tokens, h⟩ | ⟨-, e, h⟩
    · rw [hstate h]
      exact .registered hnew rfl hconstruct
    · rw [hstate h]
      exact .registered hnew rfl hconstruct

theorem exec_tokensFor (user : Doc) (s : AuthState) :
    ((AuthService.tokensFor jwt config env user).exec s).2 = s := by
  unfold AuthService.tokensFor
  cases AuthService.generateTokens jwt config env.env.now user <;> rfl

/-- A login whose account matches fails to record it, or records it and generates its tokens. -/
theorem exec_login_matched {user : Doc} (h : Selects M bcrypt env dto s.users user) :
    ∃ d, s.users.get d.id = some d ∧ user = hydrate UserSchema ["password"] d ∧
      ((∃ e, (AuthService.login M bcrypt jwt config env dto).exec s = (.error e, s)) ∨
        (AuthService.login M bcrypt jwt config env dto).exec s =
          ((AuthService.generateTokens jwt config env.env.now user).map fun tokens =>
            { user := AuthService.sanitizeUser user, tokens },
           { s with users := s.users.put (stamped env.env d) })) := by
  obtain ⟨hfound, hcompare⟩ := h
  obtain ⟨p, d, -, hd, rfl⟩ := findOne_eq_some hfound
  have hget : s.users.get d.id = some d := Collection.get_of_mem (find?_scan_eq_some hd).1
  refine ⟨d, hget, rfl, ?_⟩
  have hquery : (onUsers (AuthService.findByEmail M env (dto.get "email") ["password"])).exec s =
      (.ok (some (hydrate UserSchema ["password"] d)), s) := by
    unfold AuthService.findByEmail
    rw [exec_onUsers, exec_query, hfound]
  have hvalid : (orThrow (bcrypt.compare (dto.get "password")
      ((hydrate UserSchema ["password"] d).fields "password"))).exec s = (.ok true, s) := by
    rw [hcompare]
    rfl
  unfold AuthService.login
  rw [exec_bind_ok hquery]
  dsimp only
  rw [exec_bind_ok hvalid, if_pos rfl, exec_bind, exec_onUsers, exec_command]
  cases hupdate : Mongo.update M UserSchema env.env
      (byId (.str (hydrate UserSchema ["password"] d).id.toString))
      (.body (.obj [("lastLoginAt", .date env.env.now)])) s.users with
  | error fault => exact .inl ⟨_, rfl⟩
  | ok result =>
    obtain ⟨recorded, c'⟩ := result
    obtain rfl := update_lastLoginAt hget hupdate
    right
    unfold AuthService.tokensFor
    dsimp only
    rw [exec_bind]
    cases AuthService.generateTokens jwt config env.env.now (hydrate UserSchema ["password"] d) <;>
      rfl

theorem change_login : AuthChange M env AUTH_PATTERNS.LOGIN dto s
    ((AuthService.login M bcrypt jwt config env dto).exec s).2 := by
  by_cases h : ∃ user, Selects M bcrypt env dto s.users user
  case neg =>
    obtain ⟨e, he⟩ := exec_login_unselected jwt config fun user huser => h ⟨user, huser⟩
    rw [he]
    exact .kept
  obtain ⟨user, hselects⟩ := h
  obtain ⟨d, hget, -, ⟨e, he⟩ | hrecorded⟩ := @exec_login_matched M bcrypt jwt config env dto s _ hselects
  · rw [he]
    exact .kept
  · rw [hrecorded]
    exact .loggedIn rfl hget

/-- The state is as it was. -/
def Same (s s' : AuthState) : Prop := s' = s

theorem Same.trans {s s' s'' : AuthState} (h : Same s s') (h' : Same s' s'') : Same s s'' :=
  Eq.trans h' h

/-- A refresh writes nothing, whatever comes of it. -/
theorem keeps_refreshToken (dto : Entries) :
    Keeps Same (AuthService.refreshToken M jwt config env dto) := by
  have hrefl : ∀ s, Same s s := fun _ => rfl
  refine Keeps.tryCatch (R := Same) Same.trans ?_ fun _ => Keeps.throw hrefl _
  refine Keeps.bind (R := Same) Same.trans ?_ fun payload => ?_
  · cases jwt.verify (dto.get "refreshToken") (config.secretKey config.JWT_REFRESH_SECRET)
      env.env.now with
    | none => exact Keeps.throw hrefl _
    | some payload => exact Keeps.pure hrefl _
  refine Keeps.bind (R := Same) Same.trans ?_ fun found => ?_
  · intro s
    unfold AuthService.findById
    rw [exec_onUsers, exec_query]
    cases Mongo.findOne M UserSchema env.env (byId (payload.get "sub")) [] s.users <;> rfl
  · cases found with
    | none => exact Keeps.throw hrefl _
    | some user => exact exec_tokensFor user

/-- Whatever a message says, its handler does one of three things. -/
theorem AuthController.change {x : AuthAction Value}
    (hx : AuthController.handle M bcrypt jwt config env pattern dto = some x) :
    AuthChange M env pattern dto s (x.exec s).2 := by
  unfold AuthController.handle at hx
  split at hx
  · rename_i hpattern
    cases hx
    rw [hpattern, exec_map]
    exact change_register
  split at hx
  · rename_i hpattern
    cases hx
    rw [hpattern, exec_map]
    exact change_login
  split at hx
  · cases hx
    exact .kept
  split at hx
  · cases hx
    rw [exec_map]
    dsimp only
    rw [keeps_refreshToken dto s]
    exact .kept
  split at hx
  · cases hx
    exact .kept
  · cases hx

/-! ## What an answer hands out -/

theorem handsOut_tokens {tokens : Tokens} {token : String} :
    HandsOut (.obj tokens.entries) token ↔ tokens.Has token := by
  simp [HandsOut, Tokens.entries, Tokens.Has, Entries.get, eq_comm]

theorem handsOut_result {result : AuthResult} {token : String} :
    HandsOut result.toObject token ↔ result.tokens.Has token := by
  simp [HandsOut, AuthResult.toObject, Tokens.entries, Tokens.Has, Entries.get, eq_comm]

theorem get_of_findOne {filter : Filter} {plus : List String} {c : Collection} {user : Doc}
    (h : Mongo.findOne M UserSchema env.env filter plus c = .ok (some user)) :
    ∃ d, c.get d.id = some d ∧ user = hydrate UserSchema plus d := by
  obtain ⟨p, d, -, hd, rfl⟩ := findOne_eq_some h
  exact ⟨d, Collection.get_of_mem (find?_scan_eq_some hd).1, rfl⟩

/-- The token has been signed for the account, with its first role. -/
def SignedFor (jwt : Jwt) (config : AuthConfig) (d : Doc) (token : String) : Prop :=
  ∃ now user tokens, user.id = d.id ∧
    (∀ role, AuthService.role user = some role → role = storedRole d) ∧
    AuthService.generateTokens jwt config now user = .ok tokens ∧ tokens.Has token

theorem SignedFor.sub {d : Doc} {token : String} (h : SignedFor jwt config d token)
    (hjwt : jwt.Carries "sub") : jwt.claim token "sub" = .str d.id.toString := by
  obtain ⟨now, user, tokens, hid, -, htokens, htoken⟩ := h
  obtain ⟨role, -, haccess, hrefresh⟩ := generateTokens_claims hjwt htokens
  rw [← hid]
  rcases htoken with rfl | rfl
  · exact haccess
  · exact hrefresh

theorem SignedFor.role {d : Doc} {token : String} (h : SignedFor jwt config d token)
    (hjwt : jwt.Carries "role") : jwt.claim token "role" = storedRole d := by
  obtain ⟨now, user, tokens, -, hstored, htokens, htoken⟩ := h
  obtain ⟨role, hrole, haccess, hrefresh⟩ := generateTokens_claims hjwt htokens
  rw [← hstored role hrole]
  rcases htoken with rfl | rfl
  · exact haccess
  · exact hrefresh

/-- A token that an answer hands out is signed for an account as it is stored then. -/
theorem AuthController.signedFor {x : AuthAction Value}
    (hx : AuthController.handle M bcrypt jwt config env pattern dto = some x) {answer : Value}
    {s' : AuthState} (h : x.exec s = (.ok answer, s')) {token : String}
    (htoken : HandsOut answer token) :
    ∃ d, s'.users.get d.id = some d ∧ SignedFor jwt config d token := by
  unfold AuthController.handle at hx
  split at hx
  · cases hx
    obtain ⟨result, hresult, rfl⟩ := exec_map_eq_ok h
    obtain ⟨user, -, hstored, htokens⟩ := register_eq_ok hresult
    exact ⟨user, hstored, _, user, _, rfl, fun _ => role_eq, htokens, handsOut_result.mp htoken⟩
  split at hx
  · cases hx
    obtain ⟨result, hresult, rfl⟩ := exec_map_eq_ok h
    obtain ⟨user, recorded, hfound, -, hupdate, htokens⟩ := login_eq_ok hresult
    obtain ⟨d, hget, rfl⟩ := get_of_findOne hfound
    refine ⟨stamped env.env d, ?_, _, hydrate UserSchema ["password"] d, _, rfl,
      fun _ => role_hydrate, htokens, handsOut_result.mp htoken⟩
    rw [update_lastLoginAt hget hupdate]
    exact get_put_touch hget env.env _
  split at hx
  · cases hx
    obtain ⟨success, -, rfl⟩ := exec_map_eq_ok h
    simp [HandsOut, Entries.get] at htoken
  split at hx
  · cases hx
    obtain ⟨tokens, hresult, rfl⟩ := exec_map_eq_ok h
    obtain ⟨payload, user, -, hfound, htokens, rfl⟩ := refreshToken_eq_ok hresult
    obtain ⟨d, hget, rfl⟩ := get_of_findOne hfound
    exact ⟨d, hget, _, hydrate UserSchema [] d, _, rfl, fun _ => role_hydrate, htokens,
      handsOut_tokens.mp htoken⟩
  split at hx
  · cases hx
    obtain ⟨payload, -, rfl⟩ := exec_map_eq_ok h
    cases payload <;> simp [validation, HandsOut, Entries.get] at htoken
  · cases hx

end Auth
