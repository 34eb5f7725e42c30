-- SUMMARY: The auth service: registration, login and tokens, with bcrypt and JWT as parameters.
import NestPlatform.Database.AbstractRepository
import NestPlatform.Database.Schemas

/-!
# The auth service

The service works on the users collection by itself, not through the repository of
the user service. Hashing and signing are parameters.
-/
namespace Auth

open Js Mongo Nest Common Database Effect

/-! ## bcrypt and JWT -/

structure Bcrypt where
  /-- The hash of a password by rounds and salt, unless it throws. -/
  hash : Value → Number → String → Option String
  compare : Value → Value → Option Bool

/-- Signing and verifying with a key at a time, in milliseconds; `none` is a throw. -/
structure Jwt where
  sign : Entries → String → String → ℤ → Option String
  verify : Value → String → ℤ → Option Entries
  decode : String → Option Entries

namespace Jwt

variable (jwt : Jwt)

def claim (token k : String) : Value := ((jwt.decode token).map fun es => es.get k).getD .undefined

/-- A signed token carries the claim `k` of its payload. -/
def Carries (k : String) : Prop :=
  ∀ {payload : Entries} {key expiresIn : String} {now : ℤ} {token : String},
    jwt.sign payload key expiresIn now = some token → jwt.claim token k = payload.get k

/-- Verification returns the payload that the token decodes to. -/
def Decodes : Prop :=
  ∀ {token key : String} {now : ℤ} {payload : Entries},
    jwt.verify (.str token) key now = some payload → jwt.decode token = some payload

end Jwt

/-- The environment variables of the service; the module does not start without
`JWT_ACCESS_SECRET`. -/
structure AuthConfig where
  JWT_ACCESS_SECRET : String
  JWT_REFRESH_SECRET : Option String := none
  JWT_ACCESS_EXPIRES_IN : Option String := none
  JWT_REFRESH_EXPIRES_IN : Option String := none
  bcryptRounds : Number := (12 : ℕ)

/-- `process.env.X || text` -/
def orText (value : Option String) (text : String) : String :=
  match value with
  | some s => if s = "" then text else s
  | none => text

/-- The key that `JwtService` takes: the secret of the call, or else that of the module. -/
def AuthConfig.secretKey (config : AuthConfig) (secret : Option String) : String :=
  orText secret config.JWT_ACCESS_SECRET

/-! ## State -/

structure AuthState where
  users : Collection
  /-- The payloads of the published `user.created` events. -/
  events : List Entries

abbrev AuthAction := Effect AuthState Thrown

/-- What one call takes from its surroundings. -/
structure AuthEnv where
  env : Env
  salt : String
  /-- The broker takes the event. -/
  publishes : Bool

variable {α : Type}

def onUsers (x : Store α) : AuthAction α :=
  ExceptT.mk fun s => ((x.exec s.users).1, { s with users := (x.exec s.users).2 })

def orThrow (a : Option α) : AuthAction α :=
  match a with
  | some a => pure a
  | none => throw (.error "Error")

structure Tokens where
  accessToken : String
  refreshToken : String

structure AuthResult where
  user : Doc
  tokens : Tokens

/-! ## The service -/

namespace AuthService

section

variable (jwt : Jwt) (config : AuthConfig) (now : ℤ)

/-- `user.roles[0] || UserRole.USER` -/
def role (user : Doc) : Option Value :=
  let roles := user.fields "roles"
  if roles.nullish then none else some ((Entries.get roles.entries "0").or (.str UserRole.USER))

/-- `_generateTokens` -/
def generateTokens (user : Doc) : Except Thrown Tokens :=
  match role user with
  | none => .error (.error "TypeError")
  | some role =>
    let payload : Entries :=
      [("sub", .str user.id.toString), ("email", user.fields "email"), ("role", role)]
    match jwt.sign payload (config.secretKey (some config.JWT_ACCESS_SECRET))
        (orText config.JWT_ACCESS_EXPIRES_IN "15m") now,
      jwt.sign payload (config.secretKey config.JWT_REFRESH_SECRET)
        (orText config.JWT_REFRESH_EXPIRES_IN "7d") now with
    | some accessToken, some refreshToken => .ok { accessToken, refreshToken }
    | _, _ => .error (.error "Error")

end

/-- `_sanitizeUser` -/
def sanitizeUser (user : Doc) : Doc :=
  { user with fields := Function.update user.fields "password" .undefined }

variable (M : Mongoose) (bcrypt : Bcrypt) (jwt : Jwt) (config : AuthConfig) (env : AuthEnv)

def tokensFor (user : Doc) : AuthAction Tokens :=
  match generateTokens jwt config env.env.now user with
  | .ok tokens => pure tokens
  | .error e => throw e

/-- `userModel.findOne({ email })`, with the hidden paths `plus`. -/
def findByEmail (email : Value) (plus : List String) : Store (Option Doc) :=
  query (Mongo.findOne M UserSchema env.env [("email", email)] plus)

/-- `userModel.findById(id)` -/
def findById (id : Value) : Store (Option Doc) :=
  query (Mongo.findOne M UserSchema env.env (byId id) [])

/-- The `user.created` event of a new user; a failure to publish it is only logged. -/
def emitUserCreated (user : Doc) : AuthAction Unit := do
  let s ← get
  if env.publishes then
    let event : Entries := [("userId", .str user.id.toString), ("email", user.fields "email"),
      ("name", user.fields "name")]
    set { s with events := s.events ++ [event] }
  else pure ()

def register (dto : Entries) : AuthAction AuthResult := do
  match ← onUsers (findByEmail M env (dto.get "email") []) with
  | some _ => throw (.http (BadRequestException "Email already registered"))
  | none =>
    let hashedPassword ← orThrow (bcrypt.hash (dto.get "password") config.bcryptRounds env.salt)
    let user ← onUsers (AbstractRepository.create M UserSchema env.env
      [("email", dto.get "email"), ("password", .str hashedPassword), ("name", dto.get "name"),
       ("roles", .arr [.str UserRole.USER])])
    let tokens ← tokensFor jwt config env user
    emitUserCreated env user
    return { user := sanitizeUser user, tokens }

def login (dto : Entries) : AuthAction AuthResult := do
  match ← onUsers (findByEmail M env (dto.get "email") ["password"]) with
  | none => throw (.http (UnauthorizedException "Invalid credentials"))
  | some user =>
    let isPasswordValid ← orThrow (bcrypt.compare (dto.get "password") (user.fields "password"))
    if isPasswordValid then
      let _ ← onUsers (command (Mongo.update M UserSchema env.env (byId (.str user.id.toString))
        (.body (.obj [("lastLoginAt", .date env.env.now)]))))
      let tokens ← tokensFor jwt config env user
      return { user := sanitizeUser user, tokens }
    else throw (.http (UnauthorizedException "Invalid credentials"))

/-- `{ success: true }` -/
def logout (_dto : Entries) : AuthAction Bool := pure true

def refreshToken (dto : Entries) : AuthAction Tokens :=
  tryCatch
    (do
      let payload ← orThrow (jwt.verify (dto.get "refreshToken")
        (config.secretKey config.JWT_REFRESH_SECRET) env.env.now)
      match ← onUsers (findById M env (payload.get "sub")) with
      | none => throw (.http (UnauthorizedException "User not found"))
      | some user => tokensFor jwt config env user)
    fun _ => throw (.http (UnauthorizedException "Invalid refresh token"))

/-- The payload of a valid token. -/
def validateToken (dto : Entries) : AuthAction (Option Entries) :=
  pure (jwt.verify (dto.get "token") (config.secretKey none) env.env.now)

end AuthService
end Auth
