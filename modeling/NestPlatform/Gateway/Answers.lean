-- SUMMARY: What the answer to a request tells of the platform after it, and what a run of requests comes to.
import NestPlatform.Auth.Failures
import NestPlatform.Common.Express
import NestPlatform.Gateway.Access

/-!
# Answers

A failure leaves the platform as it was, unless the reply was lost on the way or an account got
no tokens. A microservice never sets the status of a failure: what its handler throws arrives with
the status `"error"`, and this is none that could be sent. The process of the gateway ends instead.
-/
namespace Gateway

open Js Mongo Nest Common Database Effect Transition Services

/-! ## Calls -/

section

variable {σ : Type}

/-- The outcome of a call with the handler `y`. -/
inductive CallOutcome (network : Network) (y : Effect σ Thrown Value) (s : σ) :
    Except HttpException Value × σ → Prop where
  | served {v : Value} {s' : σ} : network = .up → Defined v → y.exec s = (.ok v, s') →
      CallOutcome network y s (.ok v, s')
  | failed {t : Thrown} {s' : σ} {e : HttpException} : network = .up →
      y.exec s = (.error t, s') → e.status = .str "error" → CallOutcome network y s (.error e, s')
  | lost {e : HttpException} : network = .replyLost → e.status = .nat INTERNAL_SERVER_ERROR →
      CallOutcome network y s (.error e, (y.exec s).2)
  | unreachable {err : Entries} {e : HttpException} : network = .down err →
      e.status = (err.get "status").or (.nat INTERNAL_SERVER_ERROR) →
      CallOutcome network y s (.error e, s)

/-- What the default filter makes of an error has a status of its own. -/
theorem Rpc.settle_throws (rpc : Rpc) {t : Thrown} (h : Plain t) :
    ∃ e, rpc.settle (.reply (.throws t)) = .error e ∧ e.status = .str "error" := by
  cases t with
  | http e => exact ⟨_, rfl, rfl⟩
  | error name => exact ⟨_, rfl, rfl⟩
  | rpc error => exact absurd rfl (h error)

theorem Rpc.settle_returns (rpc : Rpc) {v : Value} (h : Defined v) :
    rpc.settle (.reply (.returns v)) = .ok v := by
  cases v <;> first | rfl | exact absurd rfl h

theorem Rpc.exec_call_lost (rpc : Rpc)
    (handle : String → Entries → Option (Effect σ Thrown Value)) (s : σ) :
    ((rpc.call handle .up).exec s).2 = ((rpc.call handle .replyLost).exec s).2 := by
  unfold call
  cases handle rpc.pattern (encode rpc.payload.entries) <;> rfl

theorem Rpc.exec_call_outcome {rpc : Rpc}
    {handle : String → Entries → Option (Effect σ Thrown Value)} {y : Effect σ Thrown Value}
    (hy : handle rpc.pattern (encode rpc.payload.entries) = some y) (hthrows : Throws Plain y)
    (hreturns : Returns Defined y) (network : Network) (s : σ) :
    CallOutcome network y s ((rpc.call handle network).exec s) := by
  unfold call
  rw [hy]
  cases network with
  | down err => exact .unreachable rfl rfl
  | replyLost => exact .lost rfl rfl
  | up =>
    change CallOutcome .up y s (rpc.settle (.reply (handlerOutcome (y.exec s).1)), (y.exec s).2)
    cases hs : y.exec s with
    | mk result s' =>
      cases result with
      | ok v =>
        dsimp only [handlerOutcome]
        rw [rpc.settle_returns (hreturns _ _ _ hs)]
        exact .served rfl (hreturns _ _ _ hs) hs
      | error t =>
        obtain ⟨e, he, hstatus⟩ := rpc.settle_throws (hthrows _ _ _ hs)
        dsimp only [handlerOutcome]
        rw [he]
        exact .failed rfl hs hstatus

end

/-! ## Answers -/

/-- The call behind a handler of anyone. -/
def PublicEndpoint.rpc : PublicEndpoint → Option Rpc
  | .health => none
  | .register dto => some (AuthService.register dto)
  | .login dto => some (AuthService.login dto)
  | .refresh dto => some (AuthService.refresh dto)

/-- `success` of the envelope -/
def succeeds (response : HttpResponse) : Value := response.body.get "success"

namespace Exchange

section

variable (M : Mongoose) (bcrypt : Auth.Bcrypt) (jwt : Auth.Jwt) (config : Auth.AuthConfig)
variable (x : Exchange) (b : Platform)

/-- What the gateway makes of the request, for Express to send. -/
def response : HttpResponse := x.respond ((x.handle M bcrypt jwt config).exec b).1

/-- The request is a registration or a login whose account got no tokens. -/
def Unsigned (auth : Auth.AuthState) : Prop :=
  ∃ e rpc, x.Opens e ∧ e.rpc = some rpc ∧ x.network = .up ∧
    Auth.Unsigned M jwt config x.env rpc.pattern (encode rpc.payload.entries) b.auth auth

/-- What is to be sent for a request, and the platform after it. -/
inductive Outcome : HttpResponse → Platform → Prop where
  | served {endpoint : Endpoint} {response : HttpResponse} {b' : Platform} :
      x.request.route = .ok endpoint → x.throttled = false →
      x.network = .up ∨ endpoint = .anyone .health ∧ b' = b →
      response.status = .nat endpoint.statusCode → succeeds response = .bool true →
      Outcome response b'
  | refused {n : ℕ} {response : HttpResponse} : n ∈ [400, 401, 403, 404, 429] →
      response.status = .nat n → succeeds response = .bool false → Outcome response b
  | failed {response : HttpResponse} : x.network = .up → response.status = .str "error" →
      succeeds response = .bool false → Outcome response b
  | unsigned {auth : Auth.AuthState} {response : HttpResponse} : x.Unsigned M jwt config b auth →
      response.status = .str "error" → succeeds response = .bool false →
      Outcome response { b with auth }
  | lost {response : HttpResponse} : x.network = .replyLost →
      response.status = .nat INTERNAL_SERVER_ERROR → succeeds response = .bool false →
      Outcome response (({ x with network := .up } : Exchange).after M bcrypt jwt config b)
  | unreachable {err : Entries} {response : HttpResponse} : x.network = .down err →
      response.status = (err.get "status").or (.nat INTERNAL_SERVER_ERROR) →
      succeeds response = .bool false → Outcome response b

end

variable {M : Mongoose} {bcrypt : Auth.Bcrypt} {jwt : Auth.Jwt} {config : Auth.AuthConfig}
variable {x : Exchange} {b : Platform}

theorem callAuth_lost (h : x.network = .replyLost) (rpc : Rpc) :
    ((({ x with network := .up } : Exchange).callAuth M bcrypt jwt config rpc).exec b).2 =
      ((x.callAuth M bcrypt jwt config rpc).exec b).2 := by
  unfold callAuth onAuth
  rw [exec_zoom, exec_zoom, h]
  exact congrArg (fun auth => { b with auth })
    (rpc.exec_call_lost (Auth.AuthController.handle M bcrypt jwt config x.env) b.auth)

theorem handlePublic_lost (h : x.network = .replyLost) (e : PublicEndpoint) :
    ((({ x with network := .up } : Exchange).handlePublic M bcrypt jwt config e).exec b).2 =
      ((x.handlePublic M bcrypt jwt config e).exec b).2 := by
  cases e with
  | health => rfl
  | register | login | refresh => exact callAuth_lost h _

theorem handleUser_lost (h : x.network = .replyLost) (user : JwtPayload) (e : UserEndpoint) :
    ((({ x with network := .up } : Exchange).handleUser M bcrypt jwt config user e).exec b).2 =
      ((x.handleUser M bcrypt jwt config user e).exec b).2 := by
  cases e with
  | logout => exact callAuth_lost h _
  | users request =>
    unfold handleUser Gateway.onUsers
    rw [exec_zoom, exec_zoom]
    apply congrArg b.setUsers
    unfold usersCall UsersCall.run
    rw [h]
    dsimp only
    cases RolesGuard.canActivate (UsersController.roles request) (some user) with
    | error e => rfl
    | ok => exact Rpc.exec_call_lost _ _ _
  | items kind request =>
    unfold handleUser onItems
    rw [exec_zoom, exec_zoom]
    apply congrArg (b.setItems kind)
    unfold itemCall ItemCall.run
    rw [h]
    exact Rpc.exec_call_lost _ _ _

/-- A request whose reply is lost does what it does anyway. -/
theorem after_lost (h : x.network = .replyLost) :
    ({ x with network := .up } : Exchange).after M bcrypt jwt config b =
      x.after M bcrypt jwt config b := by
  unfold after
  by_cases hopens : ∃ e, x.Opens e
  · obtain ⟨e, he⟩ := hopens
    rw [exec_handle_opens he, @exec_handle_opens M bcrypt jwt config { x with network := .up } e he]
    exact handlePublic_lost h e
  by_cases hadmits : ∃ user e, x.Admits jwt config user e
  · obtain ⟨user, e, he⟩ := hadmits
    rw [exec_handle_admits he,
      @exec_handle_admits M bcrypt jwt config { x with network := .up } user e he]
    exact handleUser_lost h user e
  have hkeep : ∀ network, ((({ x with network } : Exchange).handle M bcrypt jwt config).exec b).2 =
      b := by
    intro network
    rcases @exec_handle_cases M bcrypt jwt config { x with network } b with he | he | ⟨e, -, he⟩
    · exact absurd he hopens
    · exact absurd he hadmits
    · rw [he]
  exact (hkeep .up).trans (hkeep x.network).symm

/-- The outcome of a request from that of its call, on the part of the platform that it uses. -/
theorem outcome_of_call {σ : Type} (get : Platform → σ) (put : σ → Platform → Platform)
    (hput : put (get b) b = b) {y : Effect σ Thrown Value} {endpoint : Endpoint}
    {outcome : Except HttpException Value × σ} (h : CallOutcome x.network y (get b) outcome)
    (hroute : x.request.route = .ok endpoint) (hthrottled : x.throttled = false)
    (hafter : x.after M bcrypt jwt config b = put outcome.2 b)
    (herror : ∀ t s', x.network = .up → y.exec (get b) = (.error t, s') →
      s' = get b ∨ ∃ auth, x.Unsigned M jwt config b auth ∧ put s' b = { b with auth }) :
    x.Outcome M bcrypt jwt config b
      (x.respond (outcome.1.map fun data => (endpoint.statusCode, data))) (put outcome.2 b) := by
  cases h with
  | served hup hdefined hy => exact .served hroute hthrottled (.inl hup) rfl rfl
  | failed hup hy hstatus =>
    rcases herror _ _ hup hy with rfl | ⟨auth, hunsigned, hb⟩
    · rw [hput]
      exact .failed hup hstatus rfl
    · rw [hb]
      exact .unsigned hunsigned hstatus rfl
  | lost hlost hstatus =>
    rw [← hafter, ← after_lost hlost]
    exact .lost hlost hstatus rfl
  | unreachable hdown hstatus =>
    rw [hput]
    exact .unreachable hdown hstatus rfl

/-! ### The handlers -/

theorem outcome_opens {e : PublicEndpoint} (hopens : x.Opens e) :
    x.Outcome M bcrypt jwt config b (x.response M bcrypt jwt config b)
      (x.after M bcrypt jwt config b) := by
  cases hrpc : e.rpc with
  | none =>
    have he : e = .health := by cases e <;> first | rfl | cases hrpc
    subst he
    have hhealth := @exec_handle_opens M bcrypt jwt config x _ hopens b
    unfold response after
    rw [hhealth]
    exact .served hopens.1 hopens.2 (.inr ⟨rfl, rfl⟩) rfl rfl
  | some rpc =>
    have hhandles : ∃ y, Auth.AuthController.handle M bcrypt jwt config x.env rpc.pattern
        (encode rpc.payload.entries) = some y := by
      cases e with
      | health => cases hrpc
      | register | login | refresh =>
        cases hrpc
        exact ⟨_, rfl⟩
    obtain ⟨y, hy⟩ := hhandles
    have hanswers := Auth.AuthController.answers hy
    have hhandle : x.handlePublic M bcrypt jwt config e = x.callAuth M bcrypt jwt config rpc := by
      cases e <;> cases hrpc <;> rfl
    have hafter : x.after M bcrypt jwt config b =
        ((x.callAuth M bcrypt jwt config rpc).exec b).2 := by
      unfold after
      rw [exec_handle_opens hopens, hhandle]
    unfold response
    rw [exec_handle_opens hopens, hhandle, hafter]
    refine outcome_of_call Platform.auth (fun auth b => { b with auth }) rfl
      (Rpc.exec_call_outcome hy hanswers.throws hanswers.returns x.network b.auth)
      hopens.1 hopens.2 hafter ?_
    intro t auth hup herror
    rcases hanswers.error _ _ _ herror with rfl | hunsigned
    · exact .inl rfl
    · exact .inr ⟨auth, ⟨e, rpc, hopens, hrpc, hup, hunsigned⟩, rfl⟩

theorem status_of_canActivate {roles : List String} {user : Option JwtPayload} {e : HttpException}
    (h : RolesGuard.canActivate roles user = .error e) : e.status = .nat 403 := by
  unfold RolesGuard.canActivate at h
  split at h
  · cases h
  · split at h
    · cases h
      rfl
    · split at h
      · cases h
      · cases h
        rfl

theorem outcome_users {user : JwtPayload} {request : UsersRequest}
    (hadmits : x.Admits jwt config user (.users request)) :
    x.Outcome M bcrypt jwt config b (x.response M bcrypt jwt config b)
      (x.after M bcrypt jwt config b) := by
  have hafter := @after_admits M bcrypt jwt config x user _ hadmits b
  unfold response
  rw [exec_handle_admits hadmits]
  rw [hafter]
  cases hguard : RolesGuard.canActivate (UsersController.roles request) (some user) with
  | error e =>
    have hforbidden : e.status = .nat 403 := status_of_canActivate hguard
    have hrefused : (x.usersCall user request).run M = throw e := by
      unfold UsersCall.run usersCall
      rw [hguard]
    unfold handleUser Gateway.onUsers
    rw [exec_zoom, hrefused]
    exact .refused (n := 403) (by decide) hforbidden rfl
  | ok =>
    have hcall : (x.usersCall user request).run M = (UsersController.rpc user request).call
        (Users.UsersController.handle M x.env.env) x.network := by
      unfold UsersCall.run usersCall
      rw [hguard]
    have hhandles : ∃ y, Users.UsersController.handle M x.env.env
        (UsersController.rpc user request).pattern
        (encode (UsersController.rpc user request).payload.entries) = some y := by
      cases request <;> exact ⟨_, rfl⟩
    obtain ⟨y, hy⟩ := hhandles
    have hreplies := replies_users hy
    unfold handleUser Gateway.onUsers at hafter ⊢
    rw [exec_zoom, hcall] at hafter ⊢
    refine outcome_of_call (fun b => b.auth.users) (fun users b => b.setUsers users) rfl
      (Rpc.exec_call_outcome hy hreplies.plain hreplies.returns x.network _)
      hadmits.1 hadmits.2.1 hafter ?_
    intro t users hup herror
    exact .inl (hreplies.atomic _ _ _ herror)

theorem outcome_items {user : JwtPayload} {kind : ItemKind} {request : ItemRequest}
    (hadmits : x.Admits jwt config user (.items kind request)) :
    x.Outcome M bcrypt jwt config b (x.response M bcrypt jwt config b)
      (x.after M bcrypt jwt config b) := by
  have hafter := @after_admits M bcrypt jwt config x user _ hadmits b
  have hhandles : ∃ y, kind.handle M x.env.env (x.itemCall user kind request).rpc.pattern
      (encode (x.itemCall user kind request).rpc.payload.entries) = some y := by
    cases request with
    | create dto => exact ⟨_, kind.handle_create _⟩
    | list page limit => exact ⟨_, kind.handle_findByUser _⟩
    | findById id => exact ⟨_, kind.handle_findById _⟩
    | update id dto => exact ⟨_, kind.handle_update _⟩
    | delete id => exact ⟨_, kind.handle_delete _⟩
  obtain ⟨y, hy⟩ := hhandles
  have hreplies := replies_kind kind hy
  unfold response
  rw [exec_handle_admits hadmits]
  rw [hafter]
  refine outcome_of_call (fun b => b.items kind) (fun items b => b.setItems kind items)
    (b.setItems_items kind) (Rpc.exec_call_outcome hy hreplies.plain hreplies.returns x.network _)
    hadmits.1 hadmits.2.1 hafter ?_
  intro t items hup herror
  exact .inl (hreplies.atomic _ _ _ herror)

theorem outcome_admits {user : JwtPayload} {e : UserEndpoint} (hadmits : x.Admits jwt config user e) :
    x.Outcome M bcrypt jwt config b (x.response M bcrypt jwt config b)
      (x.after M bcrypt jwt config b) := by
  cases e with
  | users request => exact outcome_users hadmits
  | items kind request => exact outcome_items hadmits
  | logout =>
    have hafter := @after_admits M bcrypt jwt config x user _ hadmits b
    have hy : Auth.AuthController.handle M bcrypt jwt config x.env AUTH_PATTERNS.LOGOUT
        (encode (AuthService.logout user.sub).payload.entries) = some _ := rfl
    have hanswers := Auth.AuthController.answers hy
    unfold response
    rw [exec_handle_admits hadmits]
    rw [hafter]
    refine outcome_of_call Platform.auth (fun auth b => { b with auth }) rfl
      (Rpc.exec_call_outcome hy hanswers.throws hanswers.returns x.network b.auth)
      hadmits.1 hadmits.2.1 hafter ?_
    intro t auth hup herror
    cases herror

theorem outcome_response (x : Exchange) (b : Platform) :
    x.Outcome M bcrypt jwt config b (x.response M bcrypt jwt config b)
      (x.after M bcrypt jwt config b) := by
  rcases @exec_handle_cases M bcrypt jwt config x b with
    ⟨e, hopens⟩ | ⟨user, e, hadmits⟩ | ⟨e, ⟨n, hn, hstatus⟩, hrefused⟩
  · exact outcome_opens hopens
  · exact outcome_admits hadmits
  · unfold response after
    rw [hrefused]
    exact .refused hn hstatus rfl

end Exchange

/-! ## Replies -/

/-- A request as it arrives at the gateway. Without a body that can be parsed it is no more than a
method and a url. -/
structure Arrival where
  exchange : Exchange
  express : Express

namespace Arrival

section

variable (M : Mongoose) (bcrypt : Auth.Bcrypt) (jwt : Auth.Jwt) (config : Auth.AuthConfig)
variable (a : Arrival) (b : Platform)

/-- The request behind the body parser. -/
def parsed : Option Exchange :=
  match a.express.bodyError with
  | none => some a.exchange
  | some _ => none

/-- What the client gets. Without a reply the process ends. -/
def reply : Option Reply :=
  a.express.reply a.exchange.request.method a.exchange.request.url a.exchange.timestamp
    (a.exchange.response M bcrypt jwt config b)

/-- The platform after the request. -/
def after : Platform := (a.parsed.map fun x => x.after M bcrypt jwt config b).getD b

/-- The reply to a request and the platform after it. -/
inductive Outcome : Option Reply → Platform → Prop where
  | unparsed {e : BodyError} {success : Value} {r : Reply} : a.express.bodyError = some e →
      success ≠ .bool true → Told a.exchange.request.method e.statusCode success r →
      Outcome (some r) b
  | served {endpoint : Endpoint} {r : Reply} {b' : Platform} : a.express.bodyError = none →
      a.exchange.request.route = .ok endpoint → a.exchange.throttled = false →
      a.exchange.network = .up ∨ endpoint = .anyone .health ∧ b' = b →
      Told a.exchange.request.method endpoint.statusCode (.bool true) r → Outcome (some r) b'
  | refused {n : ℕ} {r : Reply} : n ∈ [400, 401, 403, 404, 429] →
      Told a.exchange.request.method n (.bool false) r → Outcome (some r) b
  | failed : a.exchange.network = .up → Outcome none b
  | unsigned {auth : Auth.AuthState} : a.exchange.Unsigned M jwt config b auth →
      Outcome none { b with auth }
  | lost {r : Reply} : a.exchange.network = .replyLost →
      Told a.exchange.request.method INTERNAL_SERVER_ERROR (.bool false) r →
      Outcome (some r) (({ a.exchange with network := .up } : Exchange).after M bcrypt jwt config b)
  | unreachable {err : Entries} {response : HttpResponse} : a.exchange.network = .down err →
      response.status = (err.get "status").or (.nat INTERNAL_SERVER_ERROR) →
      succeeds response = .bool false →
      Outcome (a.express.send a.exchange.request.method response) b

end

variable {M : Mongoose} {bcrypt : Auth.Bcrypt} {jwt : Auth.Jwt} {config : Auth.AuthConfig}
variable {a : Arrival} {b : Platform}

theorem parsed_eq (h : a.express.bodyError = none) : a.parsed = some a.exchange := by
  unfold parsed
  rw [h]

theorem reply_parsed (h : a.express.bodyError = none) :
    a.reply M bcrypt jwt config b =
      a.express.send a.exchange.request.method (a.exchange.response M bcrypt jwt config b) := by
  unfold reply Express.reply
  rw [h]
  rfl

theorem after_parsed (h : a.express.bodyError = none) :
    a.after M bcrypt jwt config b = a.exchange.after M bcrypt jwt config b := by
  unfold after
  rw [parsed_eq h]
  rfl

theorem send_error {response : HttpResponse} (h : response.status = .str "error") :
    a.express.send a.exchange.request.method response = none := by
  apply Express.send_none
  rw [h]
  exact statusCode_error

end Arrival

/-! ## Runs -/

/-- The request succeeds, its reply is lost, or its account gets no tokens. -/
def Effective (M : Mongoose) (bcrypt : Auth.Bcrypt) (jwt : Auth.Jwt) (config : Auth.AuthConfig)
    (b : Platform) (x : Exchange) : Prop :=
  succeeds (x.response M bcrypt jwt config b) = .bool true ∨ x.network = .replyLost ∨
    ∃ auth, x.Unsigned M jwt config b auth

variable {M : Mongoose} {bcrypt : Auth.Bcrypt} {jwt : Auth.Jwt} {config : Auth.AuthConfig}

theorem Exchange.effective_or_idle (x : Exchange) (b : Platform) :
    Effective M bcrypt jwt config b x ∨ x.after M bcrypt jwt config b = b := by
  have h := @outcome_response M bcrypt jwt config x b
  unfold Effective
  generalize x.response M bcrypt jwt config b = response at h ⊢
  generalize x.after M bcrypt jwt config b = b' at h ⊢
  cases h with
  | served _ _ _ _ hsucceeds => exact .inl (.inl hsucceeds)
  | refused | failed | unreachable => exact .inr rfl
  | unsigned hunsigned => exact .inl (.inr (.inr ⟨_, hunsigned⟩))
  | lost hlost => exact .inl (.inr (.inl hlost))

/-- The other requests of a run could as well not have been made. -/
theorem run_effective {b b' : Platform} {xs : List Exchange}
    (h : Run (HttpStep M bcrypt jwt config) b xs b') :
    ∃ ys, ys.Sublist xs ∧
      Run (Meeting (HttpStep M bcrypt jwt config) (Effective M bcrypt jwt config)) b ys b' := by
  apply h.without_idle
  rintro b x b' rfl
  exact x.effective_or_idle b

/-- A request that Express has nothing to do with. -/
def Exchange.plain (x : Exchange) : Arrival := ⟨x, .plain⟩

/-- Finn registers twice: the second time his email is taken, and he gets no answer. -/
theorem run_effective_finn :
    finnRegisters.plain.reply .plain .plain (.single finnPayload) Auth.accessOnly
      (finnAfter finnRegisters .empty) = none ∧
    ∃ ys, ys.Sublist [finnRegisters, finnRegisters] ∧
      Run (Meeting (HttpStep .plain .plain (.single finnPayload) Auth.accessOnly)
        (Effective .plain .plain (.single finnPayload) Auth.accessOnly)) .empty ys
        (finnAfter finnRegisters (finnAfter finnRegisters .empty)) := by
  constructor
  · have hstatus : (finnRegisters.response .plain .plain (.single finnPayload) Auth.accessOnly
        (finnAfter finnRegisters .empty)).status = .str "error" := by decide +kernel
    exact (Arrival.reply_parsed rfl).trans (Arrival.send_error hstatus)
  · exact run_effective (.snoc (.snoc (.nil _) rfl) rfl)

end Gateway
