-- SUMMARY: The user of an HTTP request: the bearer token of its header, verified.
import NestPlatform.Auth.RefreshStrategy
import NestPlatform.Auth.Secrets
import NestPlatform.Common.Guards

/-!
# Bearer tokens

The gateway and the posts service verify the token of a request in the same way, with the access
secret, and take its payload for the user.
-/
namespace Auth

open Js Common

/-- A claim that is a text; the auth service signs no other `sub`. -/
def claimText : Value → String
  | .str s => s
  | _ => ""

def claims (payload : Entries) : JwtPayload where
  sub := claimText (payload.get "sub")
  email := claimText (payload.get "email")
  role := claimText (payload.get "role")

/-- The token in the `Authorization` header, if there is one. -/
def bearerToken (authorization : Option String) : Option String :=
  ExtractJwt.fromAuthHeaderAsBearerToken ⟨none, authorization⟩

/-- `request.user`: the payload of a verified token. -/
def bearerUser (jwt : Jwt) (config : AuthConfig) (authorization : Option String) (clock : ℤ) :
    Option JwtPayload := do
  let payload ← JwtStrategy.validate jwt config (← bearerToken authorization) clock
  some (claims payload)

variable {jwt : Jwt} {config : AuthConfig}

/-- The user of a verified token is what the token says. -/
theorem bearerUser_eq_some (hdecodes : jwt.Decodes) {authorization : Option String} {clock : ℤ}
    {user : JwtPayload} (h : bearerUser jwt config authorization clock = some user) :
    ∃ token payload, bearerToken authorization = some token ∧
      JwtStrategy.validate jwt config token clock = some payload ∧
      user = ⟨claimText (jwt.claim token "sub"), claimText (jwt.claim token "email"),
        claimText (jwt.claim token "role")⟩ := by
  unfold bearerUser at h
  obtain ⟨token, htoken, h⟩ := Option.bind_eq_some_iff.mp h
  obtain ⟨payload, hpayload, h⟩ := Option.bind_eq_some_iff.mp h
  obtain rfl := Option.some.inj h
  refine ⟨token, payload, htoken, hpayload, ?_⟩
  rw [Jwt.Decodes.claim hdecodes hpayload, Jwt.Decodes.claim hdecodes hpayload,
    Jwt.Decodes.claim hdecodes hpayload]
  rfl

/-- A header stands for one user, whenever its token is verified. -/
theorem bearerUser_eq (hdecodes : jwt.Decodes) {authorization : Option String} {clock clock' : ℤ}
    {user user' : JwtPayload} (h : bearerUser jwt config authorization clock = some user)
    (h' : bearerUser jwt config authorization clock' = some user') : user = user' := by
  obtain ⟨token, _, htoken, -, rfl⟩ := bearerUser_eq_some hdecodes h
  obtain ⟨token', _, htoken', -, rfl⟩ := bearerUser_eq_some hdecodes h'
  obtain rfl := Option.some.inj (htoken.symm.trans htoken')
  rfl

end Auth
