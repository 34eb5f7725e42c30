-- SUMMARY: `register` as its steps, each of which may fail, and when it is all or nothing.
import Mathlib.Logic.Function.Iterate
import NestPlatform.Auth.Login

/-!
# Registration

`register` taken apart where it awaits or throws: find, hash, create, sign, emit. The
user is stored before the tokens are signed.
-/
namespace Auth

open Js Mongo Nest Common Database Effect

/-! ## Steps -/

structure RegisterRequest where
  env : AuthEnv
  dto : Entries

/-- Where a registration stands. -/
inductive RegisterStage where
  | finding
  | hashing
  | creating (hashedPassword : String)
  | signing (user : Doc)
  | emitting (user : Doc) (tokens : Tokens)
  | finished (result : Except Thrown AuthResult)

/-- The object that `register` creates a user from. -/
def newUser (dto : Entries) (hashedPassword : String) : Entries :=
  [("email", dto.get "email"), ("password", .str hashedPassword), ("name", dto.get "name"),
   ("roles", .arr [.str UserRole.USER])]

/-- The payload of the `user.created` event. -/
def userCreated (user : Doc) : Entries :=
  [("userId", .str user.id.toString), ("email", user.fields "email"), ("name", user.fields "name")]

/-- The state after the broker took the event of the user, or did not. -/
def RegisterRequest.announced (request : RegisterRequest) (user : Doc) (s : AuthState) : AuthState :=
  { s with events := if request.env.publishes then s.events ++ [userCreated user] else s.events }

/-- What the steps throw where they would not by themselves. Whether the broker takes the event is
up to `AuthEnv`. -/
structure Failures where
  findOne : Option Thrown := none
  hash : Option Thrown := none
  create : Option Thrown := none
  signAccess : Option Thrown := none
  signRefresh : Option Thrown := none

def Failures.of (failures : Failures) : RegisterStage → Option Thrown
  | .finding => failures.findOne
  | .hashing => failures.hash
  | .creating _ => failures.create
  | .signing _ => failures.signAccess <|> failures.signRefresh
  | .emitting _ _ | .finished _ => none

namespace RegisterRequest

variable (M : Mongoose) (bcrypt : Bcrypt) (jwt : Jwt) (config : AuthConfig)
variable (request : RegisterRequest) (failures : Failures)

def step : RegisterStage → AuthAction RegisterStage
  | .finding => do
    match ← onUsers (AuthService.findByEmail M request.env (request.dto.get "email") []) with
    | some _ => throw (.http (BadRequestException "Email already registered"))
    | none => pure .hashing
  | .hashing =>
    .creating <$>
      orThrow (bcrypt.hash (request.dto.get "password") config.bcryptRounds request.env.salt)
  | .creating hashedPassword =>
    .signing <$> onUsers (AbstractRepository.create M UserSchema request.env.env
      (newUser request.dto hashedPassword))
  | .signing user => .emitting user <$> AuthService.tokensFor jwt config request.env user
  | .emitting user tokens => do
    AuthService.emitUserCreated request.env user
    pure (.finished (.ok { user := AuthService.sanitizeUser user, tokens }))
  | .finished result => pure (.finished result)

/-- What is left of `register` at a stage. -/
def resume : RegisterStage → AuthAction AuthResult
  | .finding => AuthService.register M bcrypt jwt config request.env request.dto
  | .hashing => do
    let hashedPassword ←
      orThrow (bcrypt.hash (request.dto.get "password") config.bcryptRounds request.env.salt)
    let user ← onUsers (AbstractRepository.create M UserSchema request.env.env
      (newUser request.dto hashedPassword))
    let tokens ← AuthService.tokensFor jwt config request.env user
    AuthService.emitUserCreated request.env user
    return { user := AuthService.sanitizeUser user, tokens }
  | .creating hashedPassword => do
    let user ← onUsers (AbstractRepository.create M UserSchema request.env.env
      (newUser request.dto hashedPassword))
    let tokens ← AuthService.tokensFor jwt config request.env user
    AuthService.emitUserCreated request.env user
    return { user := AuthService.sanitizeUser user, tokens }
  | .signing user => do
    let tokens ← AuthService.tokensFor jwt config request.env user
    AuthService.emitUserCreated request.env user
    return { user := AuthService.sanitizeUser user, tokens }
  | .emitting user tokens => do
    AuthService.emitUserCreated request.env user
    return { user := AuthService.sanitizeUser user, tokens }
  | .finished result => ofExcept result

/-- The next step, or the end of a registration that throws. -/
def advance (stage : RegisterStage) (s : AuthState) : RegisterStage × AuthState :=
  match failures.of stage with
  | some e => (.finished (.error e), s)
  | none =>
    match (request.step M bcrypt jwt config stage).exec s with
    | (.ok stage', s') => (stage', s')
    | (.error e, s') => (.finished (.error e), s')

/-- `n` steps. -/
def proceed (n : ℕ) (stage : RegisterStage) (s : AuthState) : RegisterStage × AuthState :=
  (fun w => request.advance M bcrypt jwt config failures w.1 w.2)^[n] (stage, s)

/-- The whole registration, on a collection that nobody else uses. -/
def attempt (s : AuthState) : RegisterStage × AuthState :=
  request.proceed M bcrypt jwt config failures 5 .finding s

end RegisterRequest

/-! ## The property and the condition -/

section Property

/-- The user is returned with the tokens and has been added, or an error is thrown and nothing has
changed. -/
def AllOrNothing (s : AuthState) (w : RegisterStage × AuthState) : Prop :=
  (∃ user hnew tokens, w.1 = .finished (.ok { user := AuthService.sanitizeUser user, tokens }) ∧
    w.2.users = s.users.insert user hnew) ∨
  (∃ e, w.1 = .finished (.error e)) ∧ w.2 = s

variable (M : Mongoose) (bcrypt : Bcrypt) (jwt : Jwt) (config : AuthConfig)
variable (request : RegisterRequest) (failures : Failures)

/-- No user has the email, and the password is hashed and the user created. -/
structure Creates (s : AuthState) (user : Doc) : Prop where
  findOne : failures.findOne = none ∧
    Mongo.findOne M UserSchema request.env.env [("email", request.dto.get "email")] [] s.users =
      .ok none
  create : failures.hash = none ∧ failures.create = none ∧ ∃ hashedPassword c,
    bcrypt.hash (request.dto.get "password") config.bcryptRounds request.env.salt =
      some hashedPassword ∧
    Mongo.create M UserSchema request.env.env (newUser request.dto hashedPassword) s.users =
      .ok (user, c)

/-- Both tokens of the user are signed. -/
def SignsBoth (user : Doc) : Prop :=
  failures.signAccess = none ∧ failures.signRefresh = none ∧
    Signs jwt config request.env.env.now user

end Property

/-! ## Runs of the steps -/

variable {M : Mongoose} {bcrypt : Bcrypt} {jwt : Jwt} {config : AuthConfig}
variable {request : RegisterRequest} {failures : Failures} {s : AuthState}

namespace RegisterRequest

theorem proceed_succ (n : ℕ) (stage : RegisterStage) : 
    request.proceed M bcrypt jwt config failures (n + 1) stage s =
      request.proceed M bcrypt jwt config failures n
        (request.advance M bcrypt jwt config failures stage s).1
        (request.advance M bcrypt jwt config failures stage s).2 := rfl

theorem proceed_finished (n : ℕ) (result : Except Thrown AuthResult) :
    request.proceed M bcrypt jwt config failures n (.finished result) s =
      (.finished result, s) := by
  induction n with
  | zero => rfl
  | succ n ih => exact ih

/-! ### One step -/

theorem advance_failing {stage : RegisterStage} {e : Thrown} (h : failures.of stage = some e) :
    request.advance M bcrypt jwt config failures stage s = (.finished (.error e), s) := by
  unfold advance
  rw [h]

theorem advance_finding (h : failures.findOne = none) :
    request.advance M bcrypt jwt config failures .finding s =
      match Mongo.findOne M UserSchema request.env.env [("email", request.dto.get "email")] []
        s.users with
      | .error fault => (.finished (.error (.error (faultName fault))), s)
      | .ok (some _) =>
        (.finished (.error (.http (BadRequestException "Email already registered"))), s)
      | .ok none => (.hashing, s) := by
  unfold advance step AuthService.findByEmail
  simp only [Failures.of, h]
  rw [exec_bind, exec_onUsers, exec_query]
  rcases Mongo.findOne M UserSchema request.env.env [("email", request.dto.get "email")] []
    s.users with fault | _ | user <;> rfl

theorem advance_hashing (h : failures.hash = none) :
    request.advance M bcrypt jwt config failures .hashing s =
      match bcrypt.hash (request.dto.get "password") config.bcryptRounds request.env.salt with
      | none => (.finished (.error (.error "Error")), s)
      | some hashedPassword => (.creating hashedPassword, s) := by
  unfold advance step
  simp only [Failures.of, h]
  rw [exec_map]
  cases bcrypt.hash (request.dto.get "password") config.bcryptRounds request.env.salt <;> rfl

theorem advance_creating {hashedPassword : String} (h : failures.create = none) :
    request.advance M bcrypt jwt config failures (.creating hashedPassword) s =
      match Mongo.create M UserSchema request.env.env (newUser request.dto hashedPassword)
        s.users with
      | .error fault => (.finished (.error (.error (faultName fault))), s)
      | .ok (user, c) => (.signing user, { s with users := c }) := by
  unfold advance step AbstractRepository.create
  simp only [Failures.of, h]
  rw [exec_map, exec_onUsers, exec_command]
  rcases Mongo.create M UserSchema request.env.env (newUser request.dto hashedPassword)
    s.users with fault | ⟨user, c⟩ <;> rfl

theorem advance_signing {user : Doc} (h : (failures.signAccess <|> failures.signRefresh) = none) :
    request.advance M bcrypt jwt config failures (.signing user) s =
      match AuthService.generateTokens jwt config request.env.env.now user with
      | .error e => (.finished (.error e), s)
      | .ok tokens => (.emitting user tokens, s) := by
  unfold advance step AuthService.tokensFor
  simp only [Failures.of, h]
  rw [exec_map]
  cases AuthService.generateTokens jwt config request.env.env.now user <;> rfl

theorem exec_emitUserCreated (user : Doc) :
    (AuthService.emitUserCreated request.env user).exec s = (.ok (), request.announced user s) := by
  unfold AuthService.emitUserCreated announced
  rw [exec_bind_ok (exec_get s)]
  cases request.env.publishes <;> rfl

theorem advance_emitting {user : Doc} {tokens : Tokens} :
    request.advance M bcrypt jwt config failures (.emitting user tokens) s =
      (.finished (.ok { user := AuthService.sanitizeUser user, tokens }),
        request.announced user s) := by
  unfold advance step
  simp only [Failures.of]
  rw [exec_bind_ok (exec_emitUserCreated user)]
  rfl

/-! ### All steps -/

theorem resume_eq (stage : RegisterStage) :
    request.resume M bcrypt jwt config stage =
      request.step M bcrypt jwt config stage >>= request.resume M bcrypt jwt config := by
  cases stage with
  | finding =>
    simp only [resume, step, AuthService.register, bind_assoc]
    congr 1
    funext found
    cases found <;> simp [resume, newUser]
  | hashing | creating | signing | finished => simp [resume, step]
  | emitting user tokens =>
    simp only [resume, step, bind_assoc, pure_bind]
    rfl

/-- A step without failures leaves what is left to come to the same. -/
theorem exec_resume_advance (stage : RegisterStage) (s : AuthState) :
    (request.resume M bcrypt jwt config
        (request.advance M bcrypt jwt config {} stage s).1).exec
          (request.advance M bcrypt jwt config {} stage s).2 =
      (request.resume M bcrypt jwt config stage).exec s := by
  have hnone : Failures.of {} stage = none := by cases stage <;> rfl
  rw [resume_eq stage, exec_bind]
  unfold advance
  rw [hnone]
  rcases (request.step M bcrypt jwt config stage).exec s with ⟨e | stage', s'⟩ <;> rfl

theorem exec_resume_proceed (n : ℕ) (stage : RegisterStage) (s : AuthState) :
    (request.resume M bcrypt jwt config
        (request.proceed M bcrypt jwt config {} n stage s).1).exec
          (request.proceed M bcrypt jwt config {} n stage s).2 =
      (request.resume M bcrypt jwt config stage).exec s := by
  induction n generalizing stage s with
  | zero => rfl
  | succ n ih => exact (ih _ _).trans (exec_resume_advance stage s)

/-! ### What each step comes to -/

theorem advance_finding_cases (failures : Failures) (s : AuthState) :
    ((∃ e, request.advance M bcrypt jwt config failures .finding s = (.finished (.error e), s)) ∧
      ¬ (failures.findOne = none ∧ Mongo.findOne M UserSchema request.env.env
        [("email", request.dto.get "email")] [] s.users = .ok none)) ∨
    (request.advance M bcrypt jwt config failures .finding s = (.hashing, s) ∧
      failures.findOne = none ∧ Mongo.findOne M UserSchema request.env.env
        [("email", request.dto.get "email")] [] s.users = .ok none) := by
  cases hfails : failures.findOne with
  | some e => exact .inl ⟨⟨e, advance_failing hfails⟩, by simp⟩
  | none =>
    rw [advance_finding hfails]
    cases Mongo.findOne M UserSchema request.env.env [("email", request.dto.get "email")] []
        s.users with
    | error fault => exact .inl ⟨⟨_, rfl⟩, by simp⟩
    | ok found =>
      cases found with
      | some other => exact .inl ⟨⟨_, rfl⟩, by simp⟩
      | none => exact .inr ⟨rfl, rfl, rfl⟩

theorem advance_hashing_cases (failures : Failures) (s : AuthState) :
    ((∃ e, request.advance M bcrypt jwt config failures .hashing s = (.finished (.error e), s)) ∧
      ∀ hashedPassword, ¬ (failures.hash = none ∧ bcrypt.hash (request.dto.get "password")
        config.bcryptRounds request.env.salt = some hashedPassword)) ∨
    ∃ hashedPassword,
      request.advance M bcrypt jwt config failures .hashing s = (.creating hashedPassword, s) ∧
      failures.hash = none ∧ bcrypt.hash (request.dto.get "password") config.bcryptRounds
        request.env.salt = some hashedPassword := by
  cases hfails : failures.hash with
  | some e => exact .inl ⟨⟨e, advance_failing hfails⟩, by simp⟩
  | none =>
    rw [advance_hashing hfails]
    cases bcrypt.hash (request.dto.get "password") config.bcryptRounds request.env.salt with
    | none => exact .inl ⟨⟨_, rfl⟩, by simp⟩
    | some hashedPassword => exact .inr ⟨hashedPassword, rfl, rfl, rfl⟩

theorem advance_creating_cases (failures : Failures) (hashedPassword : String) (s : AuthState) :
    ((∃ e, request.advance M bcrypt jwt config failures (.creating hashedPassword) s =
        (.finished (.error e), s)) ∧
      ∀ user c, ¬ (failures.create = none ∧ Mongo.create M UserSchema request.env.env
        (newUser request.dto hashedPassword) s.users = .ok (user, c))) ∨
    ∃ user c, request.advance M bcrypt jwt config failures (.creating hashedPassword) s =
        (.signing user, { s with users := c }) ∧
      failures.create = none ∧ Mongo.create M UserSchema request.env.env
        (newUser request.dto hashedPassword) s.users = .ok (user, c) := by
  cases hfails : failures.create with
  | some e => exact .inl ⟨⟨e, advance_failing hfails⟩, by simp⟩
  | none =>
    rw [advance_creating hfails]
    rcases Mongo.create M UserSchema request.env.env (newUser request.dto hashedPassword)
      s.users with fault | ⟨user, c⟩
    · exact .inl ⟨⟨_, rfl⟩, by simp⟩
    · exact .inr ⟨user, c, rfl, rfl, rfl⟩

theorem advance_signing_cases (failures : Failures) (user : Doc) (s : AuthState) :
    ((∃ e, request.advance M bcrypt jwt config failures (.signing user) s =
        (.finished (.error e), s)) ∧ ¬ SignsBoth jwt config request failures user) ∨
    ∃ tokens, request.advance M bcrypt jwt config failures (.signing user) s =
        (.emitting user tokens, s) ∧ SignsBoth jwt config request failures user ∧
      AuthService.generateTokens jwt config request.env.env.now user = .ok tokens := by
  unfold SignsBoth
  rw [← exists_generateTokens_iff]
  cases hfails : (failures.signAccess <|> failures.signRefresh) with
  | some e =>
    refine .inl ⟨⟨e, advance_failing hfails⟩, ?_⟩
    rintro ⟨haccess, hrefresh, -⟩
    simp [haccess, hrefresh] at hfails
  | none =>
    rw [advance_signing hfails]
    cases AuthService.generateTokens jwt config request.env.env.now user with
    | error e => exact .inl ⟨⟨e, rfl⟩, by simp⟩
    | ok tokens =>
      have hboth : failures.signAccess = none ∧ failures.signRefresh = none := by
        cases haccess : failures.signAccess with
        | some e => simp [haccess] at hfails
        | none => simpa [haccess] using hfails
      exact .inr ⟨tokens, rfl, ⟨hboth.1, hboth.2, tokens, rfl⟩, rfl⟩

/-- A registration ends before the user is created, or after the tokens are signed or are not. -/
theorem attempt_cases (failures : Failures) (s : AuthState) :
    (∃ e, request.attempt M bcrypt jwt config failures s = (.finished (.error e), s) ∧
      ∀ user, ¬ Creates M bcrypt config request failures s user) ∨
    ∃ user hnew, Creates M bcrypt config request failures s user ∧
      ((SignsBoth jwt config request failures user ∧ ∃ tokens,
        request.attempt M bcrypt jwt config failures s =
          (.finished (.ok { user := AuthService.sanitizeUser user, tokens }),
            request.announced user { s with users := s.users.insert user hnew })) ∨
      (¬ SignsBoth jwt config request failures user ∧ ∃ e,
        request.attempt M bcrypt jwt config failures s =
          (.finished (.error e), { s with users := s.users.insert user hnew }))) := by
  unfold attempt
  rw [proceed_succ]
  rcases @advance_finding_cases M bcrypt jwt config request failures s with
    ⟨⟨e, hfinding⟩, hnot⟩ | ⟨hfinding, hfindOne⟩
  · rw [hfinding]
    exact .inl ⟨e, proceed_finished _ _, fun user h => hnot h.findOne⟩
  rw [hfinding, proceed_succ]
  rcases @advance_hashing_cases M bcrypt jwt config request failures s with
    ⟨⟨e, hhashing⟩, hnot⟩ | ⟨hashedPassword, hhashing, hhash⟩
  · rw [hhashing]
    refine .inl ⟨e, proceed_finished _ _, fun user h => ?_⟩
    obtain ⟨hfails, -, hashedPassword, c, hhash, -⟩ := h.create
    exact hnot hashedPassword ⟨hfails, hhash⟩
  rw [hhashing, proceed_succ]
  rcases @advance_creating_cases M bcrypt jwt config request failures hashedPassword s with
    ⟨⟨e, hcreating⟩, hnot⟩ | ⟨user, c, hcreating, hcreate⟩
  · rw [hcreating]
    refine .inl ⟨e, proceed_finished _ _, fun user h => ?_⟩
    -- there is one hash of the password
    obtain ⟨-, hfails, hashedPassword', c, hhash', hcreate⟩ := h.create
    obtain rfl := Option.some.inj (hhash.2.symm.trans hhash')
    exact hnot user c ⟨hfails, hcreate⟩
  obtain ⟨-, -, hnew, rfl⟩ := create_eq_ok hcreate.2
  have hcreates : Creates M bcrypt config request failures s user :=
    ⟨hfindOne, hhash.1, hcreate.1, hashedPassword, _, hhash.2, hcreate.2⟩
  -- the user is stored, whatever becomes of the tokens
  refine .inr ⟨user, hnew, hcreates, ?_⟩
  rw [hcreating, proceed_succ]
  rcases @advance_signing_cases M bcrypt jwt config request failures user
    { s with users := s.users.insert user hnew } with
    ⟨⟨e, hsigning⟩, hnot⟩ | ⟨tokens, hsigning, hsigns, -⟩
  · rw [hsigning]
    exact .inr ⟨hnot, e, proceed_finished _ _⟩
  · rw [hsigning, proceed_succ, advance_emitting]
    exact .inl ⟨hsigns, tokens, rfl⟩

/-- Without failures the steps are `register`. -/
theorem attempt_eq_register (s : AuthState) : request.attempt M bcrypt jwt config {} s =
    (.finished ((AuthService.register M bcrypt jwt config request.env request.dto).exec s).1,
      ((AuthService.register M bcrypt jwt config request.env request.dto).exec s).2) := by
  have hresume := @exec_resume_proceed M bcrypt jwt config request 5 .finding s
  have hfinished : ∃ result s', request.attempt M bcrypt jwt config {} s =
      (.finished result, s') := by
    rcases @attempt_cases M bcrypt jwt config request {} s with
      ⟨e, h, -⟩ | ⟨user, hnew, -, ⟨-, tokens, h⟩ | ⟨-, e, h⟩⟩
    all_goals exact ⟨_, _, h⟩
  obtain ⟨result, s', h⟩ := hfinished
  unfold attempt at h ⊢
  rw [h] at hresume ⊢
  change (ofExcept result : AuthAction AuthResult).exec s' =
    (AuthService.register M bcrypt jwt config request.env request.dto).exec s at hresume
  rw [← hresume, exec_ofExcept]

/-! ### The event -/

/-- The request, with a broker that takes its event or does not. -/
def withPublishes (request : RegisterRequest) (publishes : Bool) : RegisterRequest :=
  { request with env := { request.env with publishes } }

/-- Whether the event is published makes no difference to a step that does not publish it. -/
theorem advance_withPublishes (publishes : Bool) {stage : RegisterStage}
    (hstage : ∀ user tokens, stage ≠ .emitting user tokens) (s : AuthState) :
    (request.withPublishes publishes).advance M bcrypt jwt config failures stage s =
      request.advance M bcrypt jwt config failures stage s := by
  cases stage with
  | emitting user tokens => exact absurd rfl (hstage user tokens)
  | finding | hashing | creating | signing | finished => rfl

theorem proceed_withPublishes (publishes : Bool) (n : ℕ) (stage : RegisterStage) (s : AuthState) :
    ((request.withPublishes publishes).proceed M bcrypt jwt config failures n stage s).1 =
      (request.proceed M bcrypt jwt config failures n stage s).1 := by
  induction n generalizing stage s with
  | zero => rfl
  | succ n ih =>
    rw [proceed_succ, proceed_succ]
    cases stage with
    | emitting user tokens =>
      rw [advance_emitting, advance_emitting, proceed_finished, proceed_finished]
    | finding | hashing | creating | signing | finished =>
      rw [advance_withPublishes publishes fun _ _ h => by cases h]
      exact ih _ _

end RegisterRequest

theorem Creates.unique {user user' : Doc} (h : Creates M bcrypt config request failures s user)
    (h' : Creates M bcrypt config request failures s user') : user = user' := by
  obtain ⟨-, -, hashedPassword, c, hhash, hcreate⟩ := h.create
  obtain ⟨-, -, hashedPassword', c', hhash', hcreate'⟩ := h'.create
  obtain rfl := Option.some.inj (hhash.symm.trans hhash')
  cases hcreate.symm.trans hcreate'
  rfl

/-- A user who has been added makes a difference. -/
theorem insert_ne {user : Doc} (hnew : s.users.get user.id = none) :
    { s with users := s.users.insert user hnew } ≠ s := by
  intro heq
  have hget : (s.users.insert user hnew).get user.id = s.users.get user.id :=
    congrArg (fun s : AuthState => s.users.get user.id) heq
  rw [Collection.get_insert_self, hnew] at hget
  cases hget

/-- Whatever its steps throw, a registration is all or nothing, and the broker does not decide which,
if and only if the tokens of a user who is created are signed. -/
theorem register_allOrNothing_iff :
    (AllOrNothing s (request.attempt M bcrypt jwt config failures s) ∧ ∀ publishes,
      ((request.withPublishes publishes).attempt M bcrypt jwt config failures s).1 =
        (request.attempt M bcrypt jwt config failures s).1) ↔
      ∀ user, Creates M bcrypt config request failures s user →
        SignsBoth jwt config request failures user := by
  have hpublishes : ∀ publishes,
      ((request.withPublishes publishes).attempt M bcrypt jwt config failures s).1 =
        (request.attempt M bcrypt jwt config failures s).1 :=
    fun publishes => RegisterRequest.proceed_withPublishes publishes 5 .finding s
  rw [and_iff_left hpublishes]
  rcases @RegisterRequest.attempt_cases M bcrypt jwt config request failures s with
    ⟨e, hattempt, hnot⟩ | ⟨user, hnew, hcreates, ⟨hsigns, tokens, hattempt⟩ | ⟨hnot, e, hattempt⟩⟩
  · rw [hattempt]
    exact ⟨fun _ user hcreates => absurd hcreates (hnot user), fun _ => .inr ⟨⟨e, rfl⟩, rfl⟩⟩
  · rw [hattempt]
    constructor
    · intro _ user' hcreates'
      rw [hcreates'.unique hcreates]
      exact hsigns
    · intro _
      exact .inl ⟨user, hnew, tokens, rfl, rfl⟩
  · rw [hattempt]
    constructor
    · rintro (⟨_, _, _, hok, -⟩ | ⟨-, hsame⟩)
      · cases hok
      · exact absurd hsame (insert_ne hnew)
    · intro h
      exact absurd (h user hcreates) hnot

/-! ### One registration -/

/-- A library that takes only a lifetime it can read. -/
def Jwt.timed : Jwt :=
  { Jwt.plain with
    sign := fun payload key expiresIn now =>
      if expiresIn ∈ ["15m", "7d"] then Jwt.plain.sign payload key expiresIn now else none }

def erin : RegisterRequest where
  env := ⟨⟨0, ⟨"0000000000000000000000e5", by decide⟩, 0⟩, "salt", true⟩
  dto := [("email", .str "erin@example.com"), ("password", .str "secret"), ("name", .str "Erin")]

/-- With `JWT_REFRESH_EXPIRES_IN` misspelt, Erin is added and gets an error. -/
theorem register_unsigned :
    ¬ (AllOrNothing danaOnly.state (erin.attempt .plain .plain .timed
        ⟨"access", some "refresh", none, some "soon", .fin 12⟩ {} danaOnly.state) ∧
      ∀ publishes, ((erin.withPublishes publishes).attempt .plain .plain .timed
          ⟨"access", some "refresh", none, some "soon", .fin 12⟩ {} danaOnly.state).1 =
        (erin.attempt .plain .plain .timed ⟨"access", some "refresh", none, some "soon", .fin 12⟩ {}
          danaOnly.state).1) := by
  rintro ⟨⟨_, _, _, hok, -⟩ | ⟨-, hsame⟩, -⟩
  · cases hok
  · have hlength := congrArg (fun s : AuthState => s.users.docs.length) hsame
    revert hlength
    decide

end Auth
