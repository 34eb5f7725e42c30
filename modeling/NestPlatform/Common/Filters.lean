-- SUMMARY: The filter that turns an `HttpException` into the response of the gateway and the posts service.
import NestPlatform.Nest.Exception

/-!
# `HttpExceptionFilter`
-/
namespace Common

open Js Nest

/-- What is passed to Express: `response.status(status).json(body)`. -/
structure HttpResponse where
  status : Value
  body : Entries

/-- `exception.message`: a string response, the message of an object response, or
the words of the class name. -/
def message (exception : HttpException) : String :=
  match exception.response with
  | .str s => s
  | .obj es =>
    match Entries.get es "message" with
    | .str s => s
    | _ => classMessage exception.className
  | _ => classMessage exception.className

/-- `x instanceof Object`, for a value that JSON can hold. -/
def isObject : Value → Bool
  | .obj _ | .arr _ | .date _ => true
  | _ => false

namespace HttpExceptionFilter

def «catch» (exception : HttpException) (url timestamp : String) : HttpResponse where
  status := exception.status
  body :=
    [("success", .bool false), ("statusCode", exception.status),
      ("message",
        if isObject exception.response then exception.response else .str (message exception)),
      ("timestamp", .str timestamp), ("path", .str url)]

end HttpExceptionFilter
end Common
