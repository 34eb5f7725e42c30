-- SUMMARY: What Express does around the handlers of an application: it parses bodies and sends answers.
import NestPlatform.Common.Filters
import NestPlatform.Js.Double
import NestPlatform.Nest.Router

/-!
# Express

A body is parsed before a route is looked for, and if it cannot be parsed the request goes no
further. An answer is sent with the status that the application has set, unless this is none: then
Node throws where nobody catches, and the process ends.
-/
namespace Common

open Js Nest

/-! ## Replies -/

/-- What the client gets. -/
structure Reply where
  statusCode : ℕ
  body : Entries

/-- `statusCode | 0`, in the range that Node allows. -/
def statusCode (status : Value) : Option ℕ :=
  match status.toDouble.map Number.toInt32 with
  | some n => if 100 ≤ n ∧ n ≤ 999 then some n.toNat else none
  | none => none

/-- `status >= 200 && status < 300` -/
def isSuccess (status : Value) : Bool :=
  match status.toDouble with
  | some (.fin q) => 200 ≤ q ∧ q < 300
  | _ => false

/-- HTTP or Express leaves the body out. -/
def bodyless (method : Method) (status : Value) (n : ℕ) : Bool :=
  method = .HEAD ∨ n < 200 ∨ n ∈ [204, 304] ∨ status = .nat 205

/-! ## Bodies that cannot be parsed -/

inductive BodyError where
  /-- A `SyntaxError`, of which NestJS makes a `BadRequestException`. -/
  | malformed (message : String)
  /-- Too large, cut off, or in a charset or an encoding that is not supported. No filter of the
  application is for it. -/
  | refused (statusCode : ℕ) (message : String) (listed : statusCode ∈ [400, 413, 415])

def BodyError.statusCode : BodyError → ℕ
  | malformed _ => 400
  | refused statusCode _ _ => statusCode

def BodyError.response (e : BodyError) (url timestamp : String) : HttpResponse :=
  match e with
  | malformed message => HttpExceptionFilter.catch (BadRequestException message) url timestamp
  | refused statusCode message _ =>
    ⟨.nat statusCode, [("statusCode", .nat statusCode), ("message", .str message)]⟩

/-! ## Requests and answers -/

/-- What Express finds in a request. -/
structure Express where
  bodyError : Option BodyError
  /-- The conditions of the request say that the client has this answer already. -/
  fresh : Entries → Bool

namespace Express

/-- A body that is parsed and no conditions. -/
def plain : Express := ⟨none, fun _ => false⟩

variable (e : Express) (method : Method)

/-- `response.status(status).json(body)`; without a reply the process ends. -/
def send (response : HttpResponse) : Option Reply :=
  (statusCode response.status).map fun n =>
    if method ∈ [.GET, .HEAD] ∧ isSuccess response.status ∧ e.fresh response.body then ⟨304, []⟩
    else if bodyless method response.status n then ⟨n, []⟩
    else ⟨n, response.body⟩

/-- The reply to a request, where `response` is the answer of the application to its parsed form. -/
def reply (url timestamp : String) (response : HttpResponse) : Option Reply :=
  e.send method ((e.bodyError.map (·.response url timestamp)).getD response)

end Express

/-- The reply tells of an answer with the status `n` and this `success`. -/
inductive Told (method : Method) (n : ℕ) (success : Value) : Reply → Prop where
  | whole {body : Entries} : method ≠ .HEAD → body.get "success" = success →
      Told method n success ⟨n, body⟩
  | head : method = .HEAD → Told method n success ⟨n, []⟩
  | notModified : method ∈ [.GET, .HEAD] → 200 ≤ n → n < 300 → Told method n success ⟨304, []⟩

/-! ## Statuses -/

/-- The status of what a handler of a microservice throws. -/
theorem statusCode_error : statusCode (.str "error") = none := by decide +kernel

namespace Express

variable {e : Express} {method : Method} {response : HttpResponse} {r : Reply}

theorem send_none (h : statusCode response.status = none) : e.send method response = none := by
  unfold send
  rw [h]
  rfl

/-- A reply has the body of the answer or none. -/
theorem body_of_send (h : e.send method response = some r) :
    r.body = [] ∨ r.body = response.body := by
  obtain ⟨n, -, rfl⟩ := Option.map_eq_some_iff.mp h
  split
  · exact .inl rfl
  · split
    · exact .inl rfl
    · exact .inr rfl

end Express

end Common
