-- SUMMARY: The router of an HTTP application: which route serves a request, and the refusals when none does.
import NestPlatform.Js.Uri
import NestPlatform.Nest.Exception

/-!
# Routing

The routes of an application in the order in which its controllers register them. The first one
whose path and method fit serves the request.
-/
namespace Nest

open Js

/-! ## Methods -/

/-- `OPTIONS` is answered before the routes. -/
inductive Method where
  | GET | HEAD | POST | PUT | PATCH | DELETE
  deriving DecidableEq

def Method.name : Method → String
  | GET => "GET"
  | HEAD => "HEAD"
  | POST => "POST"
  | PUT => "PUT"
  | PATCH => "PATCH"
  | DELETE => "DELETE"

/-- `GET` routes serve `HEAD`. -/
def Method.serves (route method : Method) : Bool :=
  route = method ∨ (route = .GET ∧ method = .HEAD)

theorem Method.not_safe_of_serves {route method : Method} (hroute : route ∉ [.GET, .HEAD])
    (h : route.serves method = true) : method ∉ [.GET, .HEAD] := by
  have hsame : route = method ∨ (route = .GET ∧ method = .HEAD) := of_decide_eq_true h
  rcases hsame with rfl | ⟨rfl, -⟩
  · exact hroute
  · exact absurd List.mem_cons_self hroute

/-! ## Paths -/

inductive Segment where
  | static (text : String)
  | param

/-- The router takes no notice of case. -/
def sameText (s t : String) : Bool := s.toList.map Char.toLower = t.toList.map Char.toLower

/-- The parameters of a path that has the form of the route. -/
def matchPath : List Segment → List String → Option (List String)
  | [], [] => some []
  | .static text :: segments, s :: path =>
    if sameText text s then matchPath segments path else none
  | .param :: segments, s :: path =>
    if s = "" then none else (s :: ·) <$> matchPath segments path
  | _, _ => none

/-- Nor of a slash at the end. -/
def withoutSlash (path : List String) : List String :=
  if path.getLast? = some "" then path.dropLast else path

/-- The decoded parameters, or the first that cannot be decoded. -/
def decodeParams : List String → Except String (List String)
  | [] => .ok []
  | raw :: rest =>
    match decodeURIComponent raw with
    | none => .error raw
    | some s => (s :: ·) <$> decodeParams rest

def idParam (ids : List String) : String := ids.headD ""

/-! ## Routes -/

/-- What the router reads of a request. -/
structure RequestLine where
  method : Method
  /-- The segments of the path behind the global prefix, still escaped. -/
  path : List String
  url : String

structure Route (Request Endpoint : Type) where
  method : Method
  path : List Segment
  /-- The endpoint, from the parameters of the path. -/
  endpoint : Request → List String → Endpoint

variable {Request Endpoint : Type}

/-- The first route that fits. A parameter that cannot be decoded is an error from then on, also
if it is a parameter of a route for another method. -/
def dispatch (line : RequestLine) (req : Request) :
    List (Route Request Endpoint) → Option String → Except HttpException Endpoint
  | [], none => .error (NotFoundException ("Cannot " ++ line.method.name ++ " " ++ line.url))
  | [], some raw => .error (BadRequestException ("Failed to decode param '" ++ raw ++ "'"))
  | route :: routes, undecoded =>
    match (matchPath route.path (withoutSlash line.path)).map decodeParams with
    | none => dispatch line req routes undecoded
    | some (.error raw) => dispatch line req routes (undecoded <|> some raw)
    | some (.ok ids) =>
      if undecoded = none ∧ route.method.serves line.method then .ok (route.endpoint req ids)
      else dispatch line req routes undecoded

def ThrottlerException : HttpException where
  response := .str "ThrottlerException: Too Many Requests"
  status := .nat 429
  className := "ThrottlerException"

/-- The application itself turns a request down: no route, no user, no right or too many
requests. -/
def Refusal (e : HttpException) : Prop := ∃ n ∈ [400, 401, 403, 404, 429], e.status = .nat n

theorem refusal_of_dispatch {line : RequestLine} {req : Request}
    {routes : List (Route Request Endpoint)} {undecoded : Option String} {e : HttpException}
    (h : dispatch line req routes undecoded = .error e) : Refusal e := by
  induction routes generalizing undecoded with
  | nil =>
    cases undecoded with
    | none =>
      cases h
      exact ⟨404, by decide, rfl⟩
    | some raw =>
      cases h
      exact ⟨400, by decide, rfl⟩
  | cons route routes ih =>
    unfold dispatch at h
    split at h
    · exact ih h
    · exact ih h
    · split at h
      · cases h
      · exact ih h

/-- The endpoint is that of a route for the method. -/
theorem endpoint_of_dispatch {line : RequestLine} {req : Request}
    {routes : List (Route Request Endpoint)} {undecoded : Option String} {e : Endpoint}
    (h : dispatch line req routes undecoded = .ok e) :
    ∃ route ∈ routes, ∃ ids, route.method.serves line.method = true ∧ e = route.endpoint req ids := by
  induction routes generalizing undecoded with
  | nil => cases undecoded <;> cases h
  | cons route routes ih =>
    have hrest : ∀ {undecoded : Option String}, dispatch line req routes undecoded = .ok e →
        ∃ r ∈ route :: routes, ∃ ids, r.method.serves line.method = true ∧ e = r.endpoint req ids := by
      intro undecoded hlater
      obtain ⟨r, hr, hfits⟩ := ih hlater
      exact ⟨r, List.mem_cons_of_mem _ hr, hfits⟩
    unfold dispatch at h
    split at h
    · exact hrest h
    · exact hrest h
    · rename_i ids _
      split at h
      · rename_i hserves
        cases h
        exact ⟨route, List.mem_cons_self, ids, hserves.2, rfl⟩
      · exact hrest h

end Nest
