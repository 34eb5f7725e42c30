-- SUMMARY: The exceptions of the services and the exception classes of NestJS.
import NestPlatform.Js.Value

/-!
# Exceptions

What a handler can throw. An `HttpException` keeps the response and the status it
was constructed with; nothing checks the status, so it is any value.
-/
namespace Nest

open Js

structure HttpException where
  response : Value
  status : Value
  /-- `this.constructor.name` -/
  className : String := "HttpException"
  deriving DecidableEq

inductive Thrown where
  | http (e : HttpException)
  /-- `RpcException`, with its error. -/
  | rpc (error : Value)
  /-- Any other error, with its name. -/
  | error (name : String)
  deriving DecidableEq

def INTERNAL_SERVER_ERROR : ℕ := 500

namespace HttpException

/-- The status is an integer from 400 to 599. -/
def HasErrorStatus (e : HttpException) : Prop := ∃ n : ℕ, 400 ≤ n ∧ n ≤ 599 ∧ e.status = .nat n

/-- The body of the built-in exceptions. -/
def builtin (className : String) (status : ℕ) (error message : String) : HttpException where
  response := .obj [("message", .str message), ("error", .str error), ("statusCode", .nat status)]
  status := .nat status
  className := className

theorem hasErrorStatus_mk {response : Value} {n : ℕ} {className : String} (h : 400 ≤ n)
    (h' : n ≤ 599) : HasErrorStatus ⟨response, .nat n, className⟩ := ⟨n, h, h', rfl⟩

end HttpException

def BadRequestException : String → HttpException :=
  .builtin "BadRequestException" 400 "Bad Request"

def UnauthorizedException : String → HttpException :=
  .builtin "UnauthorizedException" 401 "Unauthorized"

def ForbiddenException : String → HttpException :=
  .builtin "ForbiddenException" 403 "Forbidden"

def NotFoundException : String → HttpException :=
  .builtin "NotFoundException" 404 "Not Found"

/-! ## The words of a class name -/

/-- `name.match(/[A-Z][a-z]+|[0-9]+/g)`, where a digit behind a digit starts no match. -/
def nameWords (afterDigit : Bool) : List Char → List String
  | [] => []
  | c :: cs =>
    if c.isDigit then
      if afterDigit then nameWords true cs
      else String.ofList (c :: cs.takeWhile Char.isDigit) :: nameWords true cs
    else if c.isUpper && cs.head?.any Char.isLower then
      String.ofList (c :: cs.takeWhile Char.isLower) :: nameWords false cs
    else nameWords false cs

/-- The message of an exception whose response has none. -/
def classMessage (className : String) : String :=
  match nameWords false className.toList with
  | [] => "Error"
  | words => " ".intercalate words

example : classMessage "NotFoundException" = "Not Found Exception" := by decide

theorem ne_empty_of_mem_nameWords {word : String} {cs : List Char} :
    ∀ {afterDigit}, word ∈ nameWords afterDigit cs → word ≠ "" := by
  induction cs with
  | nil =>
    intro afterDigit h
    cases h
  | cons c cs ih =>
    intro afterDigit h
    unfold nameWords at h
    split at h
    · split at h
      · exact ih h
      · rcases List.mem_cons.mp h with rfl | h
        · simp
        · exact ih h
    · split at h
      · rcases List.mem_cons.mp h with rfl | h
        · simp
        · exact ih h
      · exact ih h

theorem classMessage_ne_empty (className : String) : classMessage className ≠ "" := by
  unfold classMessage
  cases hwords : nameWords false className.toList with
  | nil => decide
  | cons word words =>
    have hword : word ≠ "" := ne_empty_of_mem_nameWords (hwords ▸ List.mem_cons_self)
    cases words with
    | nil => simpa using hword
    | cons next words => simp [String.intercalate_cons_cons, hword]

end Nest
