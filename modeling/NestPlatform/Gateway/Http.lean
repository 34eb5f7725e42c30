-- SUMMARY: The HTTP side of the gateway: routing, guards, handlers and the envelope of an answer.
import NestPlatform.Auth.Bearer
import NestPlatform.Auth.Controller
import NestPlatform.Gateway.Items
import NestPlatform.Gateway.Users
import NestPlatform.Nest.Router

/-!
# The gateway over HTTP

A request is routed, and then the guards decide on it: first the throttler, then the one for
tokens, last the one for roles. The handlers behind them call the microservices, whose states
are the state of the platform.
-/
namespace Gateway

open Js Mongo Nest Common Database Effect Transition

/-! ## Requests and endpoints -/

/-- A request whose body has been parsed. -/
structure HttpRequest where
  method : Method
  /-- The segments of the path behind the global prefix, still escaped. -/
  path : List String
  page : QueryParam
  limit : QueryParam
  authorization : Option String
  /-- The parsed body, `{}` if there is none. -/
  body : Value
  url : String

/-- The handlers with `@Public`. -/
inductive PublicEndpoint where
  | health
  | register (dto : Value)
  | login (dto : Value)
  | refresh (dto : Value)

/-- The handlers that need a user. -/
inductive UserEndpoint where
  | logout
  | users (request : UsersRequest)
  | items (kind : ItemKind) (request : ItemRequest)

inductive Endpoint where
  | anyone (e : PublicEndpoint)
  | member (e : UserEndpoint)

/-- `@HttpCode`, and else what the method stands for. -/
def Endpoint.statusCode : Endpoint → ℕ
  | .anyone (.register _) | .member (.items _ (.create _)) => 201
  | _ => 200

/-! ## Routing -/

namespace AuthController

def post (path : String) (e : Value → PublicEndpoint) : Route HttpRequest Endpoint :=
  ⟨.POST, [.static "auth", .static path], fun req _ => .anyone (e req.body)⟩

def routes : List (Route HttpRequest Endpoint) :=
  [post "register" .register,
   post "login" .login,
   ⟨.POST, [.static "auth", .static "logout"], fun _ _ => .member .logout⟩,
   post "refresh" .refresh]

end AuthController

def UsersController.routes : List (Route HttpRequest Endpoint) :=
  [⟨.GET, [.static "users"], fun req _ => .member (.users (.findAll req.page req.limit))⟩,
   ⟨.GET, [.static "users", .static "me"], fun _ _ => .member (.users .getMe)⟩,
   ⟨.GET, [.static "users", .param], fun _ ids => .member (.users (.findById (idParam ids)))⟩,
   ⟨.PUT, [.static "users", .param],
    fun req ids => .member (.users (.update (idParam ids) req.body))⟩,
   ⟨.DELETE, [.static "users", .param], fun _ ids => .member (.users (.delete (idParam ids)))⟩]

/-- The routes of todos and books. -/
def ItemsController.routes (kind : ItemKind) (name : String) : List (Route HttpRequest Endpoint) :=
  [⟨.POST, [.static name], fun req _ => .member (.items kind (.create req.body))⟩,
   ⟨.GET, [.static name], fun req _ => .member (.items kind (.list req.page req.limit))⟩,
   ⟨.GET, [.static name, .param], fun _ ids => .member (.items kind (.findById (idParam ids)))⟩,
   ⟨.PUT, [.static name, .param],
    fun req ids => .member (.items kind (.update (idParam ids) req.body))⟩,
   ⟨.DELETE, [.static name, .param],
    fun _ ids => .member (.items kind (.delete (idParam ids)))⟩]

def TodosController.routes : List (Route HttpRequest Endpoint) := ItemsController.routes .todos "todos"
def BooksController.routes : List (Route HttpRequest Endpoint) := ItemsController.routes .books "books"

def HealthController.routes : List (Route HttpRequest Endpoint) :=
  [⟨.GET, [.static "health"], fun _ _ => .anyone .health⟩]

def routes : List (Route HttpRequest Endpoint) :=
  HealthController.routes ++ AuthController.routes ++ UsersController.routes ++
    TodosController.routes ++ BooksController.routes

def HttpRequest.route (req : HttpRequest) : Except HttpException Endpoint :=
  dispatch ⟨req.method, req.path, req.url⟩ req routes none

/-- `DELETE /users/%ff` -/
example : HttpRequest.route ⟨.DELETE, ["users", "%ff"], .absent, .absent, none, .obj [], ""⟩ =
    .error (BadRequestException "Failed to decode param '%ff'") := rfl

/-! ## The platform -/

/-- The states of the microservices; the auth service and the user service share one. -/
structure Platform where
  auth : Auth.AuthState
  items : ItemKind → Collection

def Platform.empty : Platform := ⟨⟨.empty, []⟩, fun _ => .empty⟩

def Platform.setUsers (b : Platform) (users : Collection) : Platform :=
  { b with auth := { b.auth with users } }

def Platform.setItems (b : Platform) (kind : ItemKind) (items : Collection) : Platform :=
  { b with items := Function.update b.items kind items }

@[simp] theorem Platform.items_setItems_self (b : Platform) (kind : ItemKind) (items : Collection) :
    (b.setItems kind items).items kind = items := Function.update_self _ _ _

theorem Platform.setItems_items (b : Platform) (kind : ItemKind) : b.setItems kind (b.items kind) = b := by
  unfold setItems
  rw [Function.update_eq_self]

theorem Platform.items_setItems_ne {b : Platform} {kind kind' : ItemKind} {items : Collection}
    (h : kind' ≠ kind) : (b.setItems kind items).items kind' = b.items kind' :=
  Function.update_of_ne h _ _

abbrev Handler := Effect Platform HttpException

variable {α : Type}

def onAuth (x : Effect Auth.AuthState HttpException α) : Handler α :=
  zoom Platform.auth (fun auth b => { b with auth }) x

def onUsers (x : Effect Collection HttpException α) : Handler α :=
  zoom (fun b => b.auth.users) (fun users b => b.setUsers users) x

def onItems (kind : ItemKind) (x : Effect Collection HttpException α) : Handler α :=
  zoom (fun b => b.items kind) (fun items b => b.setItems kind items) x

/-- A request with what answering it takes from the surroundings. -/
structure Exchange where
  request : HttpRequest
  /-- The client has used up its requests. -/
  throttled : Bool
  /-- The time of the gateway, as a number and as an ISO text. -/
  clock : ℤ
  timestamp : String
  env : Auth.AuthEnv
  network : Network

namespace Exchange

section

variable (M : Mongoose) (bcrypt : Auth.Bcrypt) (jwt : Auth.Jwt) (config : Auth.AuthConfig)
variable (x : Exchange)

/-- The token of the request, if there is one. -/
def token : Option String := Auth.bearerToken x.request.authorization

/-- `request.user` -/
def user : Option JwtPayload := Auth.bearerUser jwt config x.request.authorization x.clock

def callAuth (rpc : Rpc) : Handler Value :=
  onAuth (rpc.call (Auth.AuthController.handle M bcrypt jwt config x.env) x.network)

/-- The handlers of anyone. -/
def handlePublic : PublicEndpoint → Handler Value
  | .health => pure (.obj [("status", .str "ok"), ("timestamp", .str x.timestamp)])
  | .register dto => x.callAuth M bcrypt jwt config (AuthService.register dto)
  | .login dto => x.callAuth M bcrypt jwt config (AuthService.login dto)
  | .refresh dto => x.callAuth M bcrypt jwt config (AuthService.refresh dto)

def usersCall (user : JwtPayload) (request : UsersRequest) : UsersCall :=
  ⟨user, x.env.env, x.network, request⟩

def itemCall (user : JwtPayload) (kind : ItemKind) (request : ItemRequest) : ItemCall :=
  ⟨kind, user, x.env.env, x.network, request⟩

/-- The handlers of a user. -/
def handleUser (user : JwtPayload) : UserEndpoint → Handler Value
  | .logout => x.callAuth M bcrypt jwt config (AuthService.logout user.sub)
  | .users request => onUsers ((x.usersCall user request).run M)
  | .items kind request => onItems kind ((x.itemCall user kind request).run M)

/-- The data of the answer, with the status, or the exception that reaches the filter. -/
def handle : Handler (ℕ × Value) := do
  let endpoint ← ofExcept x.request.route
  if x.throttled then throw ThrottlerException
  match endpoint with
  | .anyone e =>
    let data ← x.handlePublic M bcrypt jwt config e
    return (endpoint.statusCode, data)
  | .member e =>
    ofExcept (JwtAuthGuard.canActivate false (x.user jwt config))
    match x.user jwt config with
    | none => throw (UnauthorizedException "Invalid or missing token")
    | some user =>
      let data ← x.handleUser M bcrypt jwt config user e
      return (endpoint.statusCode, data)

/-- What `TransformInterceptor` or `HttpExceptionFilter` passes to Express. -/
def respond : Except HttpException (ℕ × Value) → HttpResponse
  | .ok (statusCode, data) =>
    ⟨.nat statusCode, [("success", .bool true), ("data", data), ("timestamp", .str x.timestamp),
      ("path", .str x.request.url)]⟩
  | .error e => HttpExceptionFilter.catch e x.request.url x.timestamp

/-! ## Who is answered by whom -/

/-- The request reaches a handler of anyone. -/
def Opens (e : PublicEndpoint) : Prop :=
  x.request.route = .ok (.anyone e) ∧ x.throttled = false

/-- The request reaches a handler of a user, with a verified token. -/
def Admits (user : JwtPayload) (e : UserEndpoint) : Prop :=
  x.request.route = .ok (.member e) ∧ x.throttled = false ∧ x.user jwt config = some user

end

variable {M : Mongoose} {bcrypt : Auth.Bcrypt} {jwt : Auth.Jwt} {config : Auth.AuthConfig}
variable {x : Exchange}

theorem exec_handle_opens {e : PublicEndpoint} (h : x.Opens e) (b : Platform) :
    (x.handle M bcrypt jwt config).exec b =
      (((x.handlePublic M bcrypt jwt config e).exec b).1.map (Endpoint.statusCode (.anyone e), ·),
        ((x.handlePublic M bcrypt jwt config e).exec b).2) := by
  obtain ⟨hroute, hthrottled⟩ := h
  unfold handle
  rw [hroute, hthrottled, exec_bind_ok (exec_ofExcept _ b)]
  exact exec_map (Endpoint.statusCode (.anyone e), ·) (x.handlePublic M bcrypt jwt config e) b

theorem exec_handle_admits {user : JwtPayload} {e : UserEndpoint} (h : x.Admits jwt config user e)
    (b : Platform) :
    (x.handle M bcrypt jwt config).exec b =
      (((x.handleUser M bcrypt jwt config user e).exec b).1.map (Endpoint.statusCode (.member e), ·),
        ((x.handleUser M bcrypt jwt config user e).exec b).2) := by
  obtain ⟨hroute, hthrottled, huser⟩ := h
  unfold handle
  rw [hroute, hthrottled, huser, exec_bind_ok (exec_ofExcept _ b)]
  exact exec_map (Endpoint.statusCode (.member e), ·) (x.handleUser M bcrypt jwt config user e) b

/-- A request that reaches no handler is refused and changes nothing. -/
theorem exec_handle_cases (b : Platform) :
    (∃ e, x.Opens e) ∨ (∃ user e, x.Admits jwt config user e) ∨
      ∃ e, Refusal e ∧ (x.handle M bcrypt jwt config).exec b = (.error e, b) := by
  unfold Opens Admits handle
  cases hroute : x.request.route with
  | error e => exact .inr (.inr ⟨e, refusal_of_dispatch hroute, rfl⟩)
  | ok endpoint =>
    rw [exec_bind_ok (exec_ofExcept _ b)]
    cases hthrottled : x.throttled with
    | true => exact .inr (.inr ⟨ThrottlerException, ⟨429, by decide, rfl⟩, rfl⟩)
    | false =>
      cases endpoint with
      | anyone e => exact .inl ⟨e, rfl, rfl⟩
      | member e =>
        cases huser : x.user jwt config with
        | some user => exact .inr (.inl ⟨user, e, rfl, rfl, rfl⟩)
        | none => exact .inr (.inr ⟨_, ⟨401, by decide, rfl⟩, rfl⟩)

end Exchange

/-! ## Runs -/

section

variable (M : Mongoose) (bcrypt : Auth.Bcrypt) (jwt : Auth.Jwt) (config : Auth.AuthConfig)

/-- The platform after the request. -/
def Exchange.after (x : Exchange) (b : Platform) : Platform :=
  ((x.handle M bcrypt jwt config).exec b).2

def HttpStep (b : Platform) (x : Exchange) (b' : Platform) : Prop :=
  b' = x.after M bcrypt jwt config b

end

theorem Exchange.after_admits {M : Mongoose} {bcrypt : Auth.Bcrypt} {jwt : Auth.Jwt}
    {config : Auth.AuthConfig} {x : Exchange} {user : JwtPayload} {e : UserEndpoint}
    (h : x.Admits jwt config user e) (b : Platform) :
    x.after M bcrypt jwt config b = ((x.handleUser M bcrypt jwt config user e).exec b).2 := by
  unfold after
  rw [exec_handle_admits h]

end Gateway
