-- SUMMARY: The user service: repository, service and the message handlers of its TCP controller.
import NestPlatform.Database.AbstractRepository
import NestPlatform.Database.Schemas

/-!
# The user service
-/
namespace Users

open Js Mongo Nest Common Database

variable (M : Mongoose) (env : Env)

namespace UsersRepository

def findByEmail (email : Value) : Store (Option Doc) :=
  AbstractRepository.findOne M UserSchema env [("email", email)]

def list (skip limit : Value) : Store Page :=
  AbstractRepository.findPage M UserSchema env [] { skip, limit }

end UsersRepository

namespace UsersService

/-- `_sanitizeUser` -/
def sanitizeUser (user : Doc) : Doc :=
  { user with fields := Function.update user.fields "password" .undefined }

def findById (id : Value) : Store Doc :=
  sanitizeUser <$> AbstractRepository.findById M UserSchema env id

def findByEmail (email : Value) : Store (Option Doc) :=
  Option.map sanitizeUser <$> UsersRepository.findByEmail M env email

def list (skip limit : Value) : Store Page :=
  (fun page => { page with items := page.items.map sanitizeUser }) <$>
    UsersRepository.list M env skip limit

def update (id updates : Value) : Store Doc :=
  sanitizeUser <$> AbstractRepository.findOneAndUpdate M UserSchema env (byId id) (.body updates)

def delete (id : Value) : Store Doc :=
  sanitizeUser <$> AbstractRepository.softDelete M UserSchema env (byId id)

end UsersService

/-- The handler that the controller has for a pattern, if any. -/
def UsersController.handle (pattern : String) (dto : Entries) : Option (Store Value) :=
  if pattern = USER_PATTERNS.FIND_BY_ID then
    some (toObject UserSchema <$> UsersService.findById M env (dto.get "id"))
  else if pattern = USER_PATTERNS.FIND_BY_EMAIL then
    some ((fun user => (user.map (toObject UserSchema)).getD .null) <$>
      UsersService.findByEmail M env (dto.get "email"))
  else if pattern = USER_PATTERNS.LIST then
    some (Page.toObject UserSchema <$>
      UsersService.list M env (dto.get "skip") (dto.get "limit"))
  else if pattern = USER_PATTERNS.UPDATE then
    some (toObject UserSchema <$> UsersService.update M env (dto.get "id") (dto.get "updates"))
  else if pattern = USER_PATTERNS.DELETE then
    some (toObject UserSchema <$> UsersService.delete M env (dto.get "id"))
  else none

end Users
