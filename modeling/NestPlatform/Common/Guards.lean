-- SUMMARY: The token payload and the guards of the gateway and the posts service.
import NestPlatform.Common.Constants
import NestPlatform.Nest.Exception

/-!
# Guards

`JwtAuthGuard` lets a request through on a public route or with a verified token,
`RolesGuard` when the role of the token is one of those the route names.
-/
namespace Common

open Nest

/-- The payload of a verified token. -/
structure JwtPayload where
  sub : String
  email : String
  role : String

/-- `user` is the payload of the request's token, if that was verified. -/
def JwtAuthGuard.canActivate (isPublic : Bool) (user : Option JwtPayload) :
    Except HttpException Unit :=
  if isPublic ∨ user.isSome then .ok ()
  else .error (UnauthorizedException "Invalid or missing token")

/-- `requiredRoles` is the metadata of the route; an empty list is as none. -/
def RolesGuard.canActivate (requiredRoles : List String) (user : Option JwtPayload) :
    Except HttpException Unit :=
  if requiredRoles = [] then .ok ()
  else
    match user with
    | none => .error (ForbiddenException "User not authenticated")
    | some user =>
      if user.role ∈ requiredRoles then .ok ()
      else .error (ForbiddenException "Insufficient permissions")

end Common
