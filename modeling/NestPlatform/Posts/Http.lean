-- SUMMARY: The posts service over HTTP: routing, guards, handlers and what they answer with.
import NestPlatform.Auth.Bearer
import NestPlatform.Common.Filters
import NestPlatform.Nest.Router
import NestPlatform.Posts.Authorization
import NestPlatform.Services.Failures

/-!
# The posts service over HTTP

The service is an application of its own, beside the gateway. It verifies tokens itself, and its
handlers work on the collection of posts.
-/
namespace Posts

open Js Mongo Nest Common Database Services Effect Transition

/-! ## Requests and endpoints -/

/-- A request whose body has been parsed. -/
structure HttpRequest where
  method : Method
  /-- The segments of the path behind the global prefix, still escaped. -/
  path : List String
  /-- The query parameters, as the handler gets them. -/
  page : Value
  limit : Value
  tag : Value
  authorization : Option String
  /-- The parsed body, `{}` if there is none. -/
  body : Value
  url : String

/-- The handlers with `@Public`. -/
inductive PublicEndpoint where
  | health
  | list (page limit tag : Value)
  | findById (id : String)

/-- The handlers that need a user. -/
inductive UserEndpoint where
  | create (dto : Value)
  | getUserPosts (userId : String) (page limit : Value)
  | update (id : String) (dto : Value)
  | delete (id : String)
  | like (postId : String)
  | unlike (postId : String)
  | publish (id : String)

inductive Endpoint where
  | anyone (e : PublicEndpoint)
  | member (e : UserEndpoint)

/-- `@HttpCode`, and else what the method stands for. -/
def Endpoint.statusCode : Endpoint → ℕ
  | .member (.create _) | .member (.publish _) => 201
  | .member (.delete _) => 204
  | _ => 200

/-- The method of the posts controller behind the endpoint, if it is one. -/
def PublicEndpoint.operation : PublicEndpoint → Option PostsOperation
  | health => none
  | list page limit tag => some (.list page limit tag)
  | findById id => some (.findById id)

/-- The method of the controller that a user calls. -/
def UserEndpoint.operation (e : UserEndpoint) (user : JwtPayload) : PostsOperation :=
  match e with
  | create dto => .create user dto
  | getUserPosts userId page limit => .getUserPosts userId page limit user
  | update id dto => .update id user dto
  | delete id => .delete id user
  | like postId => .like postId user
  | unlike postId => .unlike postId user
  | publish id => .publish id user

/-- All handlers of a user but the list of their posts. -/
def UserEndpoint.Writes : UserEndpoint → Prop
  | getUserPosts _ _ _ => False
  | _ => True

/-! ## Routing -/

namespace PostsController

def routes : List (Route HttpRequest Endpoint) :=
  [⟨.POST, [.static "posts"], fun req _ => .member (.create req.body)⟩,
   ⟨.GET, [.static "posts"], fun req _ => .anyone (.list req.page req.limit req.tag)⟩,
   ⟨.GET, [.static "posts", .static "my-posts", .param],
    fun req ids => .member (.getUserPosts (idParam ids) req.page req.limit)⟩,
   ⟨.GET, [.static "posts", .param], fun _ ids => .anyone (.findById (idParam ids))⟩,
   ⟨.PUT, [.static "posts", .param], fun req ids => .member (.update (idParam ids) req.body)⟩,
   ⟨.DELETE, [.static "posts", .param], fun _ ids => .member (.delete (idParam ids))⟩,
   ⟨.PATCH, [.static "posts", .param, .static "like"], fun _ ids => .member (.like (idParam ids))⟩,
   ⟨.PATCH, [.static "posts", .param, .static "unlike"],
    fun _ ids => .member (.unlike (idParam ids))⟩,
   ⟨.POST, [.static "posts", .param, .static "publish"],
    fun _ ids => .member (.publish (idParam ids))⟩]

end PostsController

def HealthController.routes : List (Route HttpRequest Endpoint) :=
  [⟨.GET, [.static "health"], fun _ _ => .anyone .health⟩]

def routes : List (Route HttpRequest Endpoint) :=
  HealthController.routes ++ PostsController.routes

def HttpRequest.route (req : HttpRequest) : Except HttpException Endpoint :=
  dispatch ⟨req.method, req.path, req.url⟩ req routes none

/-- `GET /posts/my-posts` asks for a post with this id. -/
example : HttpRequest.route ⟨.GET, ["posts", "my-posts"], .undefined, .undefined, .undefined, none,
    .obj [], ""⟩ = .ok (.anyone (.findById "my-posts")) := rfl

/-! ## Handlers -/

/-- A request with what answering it takes from the surroundings. -/
structure Exchange where
  request : HttpRequest
  /-- The client has used up its requests. -/
  throttled : Bool
  /-- The time of the service, as a number and as an ISO text. -/
  clock : ℤ
  timestamp : String
  env : Env

/-- What the serializer makes of an answer. -/
def json : Answer → Value
  | .one d => toObject PostSchema d
  | .optional d => (d.map (toObject PostSchema)).getD .null
  | .page p => p.toObject PostSchema

namespace Exchange

section

variable (M : Mongoose) (jwt : Auth.Jwt) (config : Auth.AuthConfig) (x : Exchange)

/-- `request.user` -/
def user : Option JwtPayload := Auth.bearerUser jwt config x.request.authorization x.clock

def serve (op : PostsOperation) : Store Value := json <$> op.run M x.env

/-- The handlers of anyone. -/
def handlePublic : PublicEndpoint → Store Value
  | .health => pure (.obj [("status", .str "ok"), ("timestamp", .str x.timestamp)])
  | .list page limit tag => x.serve M (.list page limit tag)
  | .findById id => x.serve M (.findById id)

def endpoint : Store Endpoint := ofExcept (x.request.route.mapError .http)

/-- The data of the answer, with the status, or what reaches the filters. -/
def handle : Store (ℕ × Value) := do
  let endpoint ← x.endpoint
  if x.throttled then throw (.http ThrottlerException)
  match endpoint with
  | .anyone e =>
    let data ← x.handlePublic M e
    return (endpoint.statusCode, data)
  | .member e =>
    let data ← guarded (x.user jwt config) fun user => x.serve M (e.operation user)
    return (endpoint.statusCode, data)

/-- What `TransformInterceptor`, `HttpExceptionFilter`, or for any other error NestJS passes to
Express. A 204 has no body. -/
def respond : Except Thrown (ℕ × Value) → HttpResponse
  | .ok (204, _) => ⟨.nat 204, []⟩
  | .ok (statusCode, data) =>
    ⟨.nat statusCode, [("success", .bool true), ("data", data), ("timestamp", .str x.timestamp),
      ("path", .str x.request.url)]⟩
  | .error (.http e) => HttpExceptionFilter.catch e x.request.url x.timestamp
  | .error _ =>
    ⟨.nat INTERNAL_SERVER_ERROR, [("statusCode", .nat INTERNAL_SERVER_ERROR),
      ("message", .str "Internal server error")]⟩

/-- What the service makes of the request, for Express to send. -/
def response (posts : Collection) : HttpResponse := x.respond ((x.handle M jwt config).exec posts).1

/-- The posts after the request. -/
def after (posts : Collection) : Collection := ((x.handle M jwt config).exec posts).2

/-! ## Who is answered by whom -/

/-- The request reaches a handler of anyone. -/
def Opens (e : PublicEndpoint) : Prop :=
  x.request.route = .ok (.anyone e) ∧ x.throttled = false

/-- The request reaches a handler of a user, with a verified token. -/
def Admits (user : JwtPayload) (e : UserEndpoint) : Prop :=
  x.request.route = .ok (.member e) ∧ x.throttled = false ∧ x.user jwt config = some user

/-- The operation that the request comes to. -/
def operation : Option PostsOperation :=
  match x.request.route, x.throttled with
  | .ok (.anyone e), false => e.operation
  | .ok (.member e), false => (x.user jwt config).map e.operation
  | _, _ => none

end

variable {M : Mongoose} {jwt : Auth.Jwt} {config : Auth.AuthConfig} {x : Exchange}

theorem exec_endpoint (posts : Collection) :
    x.endpoint.exec posts = (x.request.route.mapError .http, posts) := exec_ofExcept _ posts

theorem exec_endpoint_ok {endpoint : Endpoint} (h : x.request.route = .ok endpoint)
    (posts : Collection) : x.endpoint.exec posts = (.ok endpoint, posts) := by
  rw [exec_endpoint, h]
  rfl

theorem exec_handle_opens {e : PublicEndpoint} (h : x.Opens e) (posts : Collection) :
    (x.handle M jwt config).exec posts =
      (((x.handlePublic M e).exec posts).1.map (Endpoint.statusCode (.anyone e), ·),
        ((x.handlePublic M e).exec posts).2) := by
  obtain ⟨hroute, hthrottled⟩ := h
  unfold handle
  rw [exec_bind_ok (exec_endpoint_ok hroute posts), hthrottled]
  exact exec_map (Endpoint.statusCode (.anyone e), ·) (x.handlePublic M e) posts

theorem exec_handle_admits {user : JwtPayload} {e : UserEndpoint} (h : x.Admits jwt config user e)
    (posts : Collection) :
    (x.handle M jwt config).exec posts =
      (((x.serve M (e.operation user)).exec posts).1.map (Endpoint.statusCode (.member e), ·),
        ((x.serve M (e.operation user)).exec posts).2) := by
  obtain ⟨hroute, hthrottled, huser⟩ := h
  unfold handle
  rw [exec_bind_ok (exec_endpoint_ok hroute posts), hthrottled, huser]
  exact exec_map (Endpoint.statusCode (.member e), ·) (x.serve M (e.operation user)) posts

/-- A request that reaches no handler is refused and changes nothing. -/
theorem exec_handle_cases (posts : Collection) :
    (∃ e, x.Opens e) ∨ (∃ user e, x.Admits jwt config user e) ∨
      x.operation jwt config = none ∧ ∃ e, Refusal e ∧
        (x.handle M jwt config).exec posts = (.error (.http e), posts) := by
  unfold Opens Admits operation handle
  cases hroute : x.request.route with
  | error e =>
    have hrefused : x.endpoint.exec posts = (.error (.http e), posts) := by
      rw [exec_endpoint, hroute]
      rfl
    exact .inr (.inr ⟨rfl, e, refusal_of_dispatch hroute, exec_bind_error hrefused⟩)
  | ok endpoint =>
    rw [exec_bind_ok (exec_endpoint_ok hroute posts)]
    cases hthrottled : x.throttled with
    | true =>
      refine .inr (.inr ⟨?_, ThrottlerException, ⟨429, by decide, rfl⟩, rfl⟩)
      cases endpoint <;> rfl
    | false =>
      cases endpoint with
      | anyone e => exact .inl ⟨e, rfl, rfl⟩
      | member e =>
        cases huser : x.user jwt config with
        | some user => exact .inr (.inl ⟨user, e, rfl, rfl, rfl⟩)
        | none => exact .inr (.inr ⟨rfl, _, ⟨401, by decide, rfl⟩, rfl⟩)

theorem operation_opens {e : PublicEndpoint} (h : x.Opens e) :
    x.operation jwt config = e.operation := by
  unfold operation
  rw [h.1, h.2]

theorem operation_admits {user : JwtPayload} {e : UserEndpoint} (h : x.Admits jwt config user e) :
    x.operation jwt config = some (e.operation user) := by
  unfold operation
  rw [h.1, h.2.1, h.2.2]
  rfl

end Exchange
end Posts
