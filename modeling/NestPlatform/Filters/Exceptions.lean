-- SUMMARY: `DomainException` and the two filters of `@app/filters`.
import NestPlatform.Common.Constants
import NestPlatform.Common.Filters

/-!
# Exception filters

`AllExceptionsFilter` makes the response of the gateway from an exception,
`RpcExceptionsFilter` the error that a microservice sends. Each has a table of codes of
its own. The first tests for a class that it imports from `@app/common`.
-/
namespace Filters

open Js Nest Common Constants

/-- `DomainException`: an `HttpException` whose body has its code, message and details. -/
structure DomainException where
  code : String
  message : String
  status : Value := .nat 400
  details : Value := .undefined

def DomainException.toHttp (e : DomainException) : HttpException where
  response := .obj [("code", .str e.code), ("message", .str e.message), ("details", e.details)]
  status := e.status
  className := "DomainException"

/-- The modules that `@app/common` exports. -/
def commonIndex : List String :=
  ["./constants", "./decorators", "./filters/http-exception.filter",
    "./filters/rpc-exception.filter", "./interceptors/transform.interceptor",
    "./guards/jwt-auth.guard", "./guards/roles.guard", "./interfaces/jwt-payload.interface"]

/-- The import of `DomainException` is defined. -/
def ExportsDomain (index : List String) : Prop := "./exceptions/domain.exception" ∈ index

instance (index : List String) : Decidable (ExportsDomain index) :=
  inferInstanceAs (Decidable (_ ∈ index))

theorem not_exportsDomain_commonIndex : ¬ ExportsDomain commonIndex := by decide

inductive Exception where
  | domain (e : DomainException)
  | thrown (t : Thrown)

/-- An exception, or a value that is no `Error`. -/
inductive Raised where
  | exception (e : Exception)
  | value (v : Value)

/-- `body.k`, for a body that is an object. -/
def field (body : Value) (k : String) : Value := (body.prop k).getD .undefined

variable (text : Value → String)

/-- `xs.join('; ')` -/
def join (xs : List Value) : String :=
  "; ".intercalate (xs.map fun x => if x.nullish then "" else text x)

/-! ## The gateway -/

structure ApiErrorResponse where
  success : Bool := false
  statusCode : Value
  code : Value
  message : Value
  errors : Value
  timestamp : String
  path : String
  correlationId : Value

namespace AllExceptionsFilter

def statusToCode (status : Value) : String :=
  if status = .nat 400 then ERROR_CODES.VALIDATION_FAILED
  else if status = .nat 401 then ERROR_CODES.UNAUTHORIZED
  else if status = .nat 403 then ERROR_CODES.FORBIDDEN
  else if status = .nat 404 then ERROR_CODES.NOT_FOUND
  else if status = .nat 409 then ERROR_CODES.CONFLICT
  else if status = .nat 429 then ERROR_CODES.RATE_LIMITED
  else if status = .nat 503 then ERROR_CODES.SERVICE_UNAVAILABLE
  else ERROR_CODES.INTERNAL_ERROR

/-- The message of an object body. -/
def bodyMessage (e : HttpException) : Value :=
  match field e.response "message" with
  | .arr xs => .str (join text xs)
  | message => message.coalesce (.str (Common.message e))

/-- The answer to an exception whose class is known. -/
def envelope (raised : Raised) (timestamp path : String) (correlationId : Value) :
    ApiErrorResponse :=
  match raised with
  | .exception (.domain e) =>
    { statusCode := e.status, code := .str e.code, message := .str e.message, errors := e.details,
      timestamp, path, correlationId }
  | .exception (.thrown (.http e)) =>
    match e.response with
    | .str body =>
      { statusCode := e.status, code := .str ERROR_CODES.INTERNAL_ERROR, message := .str body,
        errors := .undefined, timestamp, path, correlationId }
    | .obj _ | .arr _ | .date _ =>
      let code := field e.response "code"
      let errors := field e.response "errors"
      { statusCode := e.status
        code := if code.truthy then code else .str (statusToCode e.status)
        message := bodyMessage text e
        errors := if errors.truthy then errors else .undefined
        timestamp, path, correlationId }
    | _ =>
      { statusCode := e.status, code := .str ERROR_CODES.INTERNAL_ERROR,
        message := .str "Internal server error", errors := .undefined, timestamp, path,
        correlationId }
  | .exception (.thrown _) | .value _ =>
    { statusCode := .nat INTERNAL_SERVER_ERROR, code := .str ERROR_CODES.INTERNAL_ERROR,
      message := .str "Internal server error", errors := .undefined, timestamp, path, correlationId }

/-- `instanceof` throws if its right-hand side is undefined, whatever stands on the left. -/
def «catch» (index : List String) (raised : Raised) (timestamp path : String)
    (correlationId : Value) : Except Thrown ApiErrorResponse :=
  if ExportsDomain index then .ok (envelope text raised timestamp path correlationId)
  else .error (.error "TypeError")

end AllExceptionsFilter

/-! ## The microservices -/

namespace RpcExceptionsFilter

def statusToCode (status : Value) : String :=
  if status = .nat 400 then ERROR_CODES.VALIDATION_FAILED
  else if status = .nat 401 then ERROR_CODES.UNAUTHORIZED
  else if status = .nat 403 then ERROR_CODES.FORBIDDEN
  else if status = .nat 404 then ERROR_CODES.NOT_FOUND
  else if status = .nat 409 then ERROR_CODES.CONFLICT
  else ERROR_CODES.INTERNAL_ERROR

/-- The error of the `RpcException` that an `HttpException` becomes. -/
def shape (e : HttpException) : Entries :=
  if isObject e.response then
    [("code", (field e.response "code").coalesce (.str (statusToCode e.status))),
     ("message", (field e.response "message").coalesce (.str (Common.message e))),
     ("status", e.status), ("details", field e.response "errors")]
  else
    [("code", .str (statusToCode e.status)), ("message", .str (text e.response)),
     ("status", e.status)]

/-- What the filter throws: an exception that was an `RpcException` goes on to the default filter. -/
inductive Outcome where
  | default (error : Value)
  | rpc (error : Entries)

def «catch» : Exception → Outcome
  | .thrown (.rpc error) => .default error
  | .domain e => .rpc (shape text e.toHttp)
  | .thrown (.http e) => .rpc (shape text e)
  | .thrown (.error _) =>
    .rpc [("code", .str ERROR_CODES.INTERNAL_ERROR), ("message", .str "Internal microservice error"),
      ("status", .nat INTERNAL_SERVER_ERROR)]

end RpcExceptionsFilter
end Filters
