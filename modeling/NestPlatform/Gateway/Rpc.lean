-- SUMMARY: The calls of the gateway to the TCP microservices, and the status its exceptions carry.
import NestPlatform.Common.Constants
import NestPlatform.Common.Filters
import NestPlatform.Common.Pagination

/-!
# Remote calls of the gateway

Every gateway operation that needs a microservice sends one message, waits for
the reply and rewrites failures into an `HttpException`. The operations differ in
pattern, payload and texts; `settle` is what they share. The services install no
RPC filter, so the default one encodes what their handlers throw.
-/
namespace Gateway

open Js Nest Common

/-! ## The remote handler and the transport -/

inductive HandlerOutcome where
  | returns (v : Value)
  | throws (t : Thrown)

/-- What comes of sending one message. -/
inductive Delivery where
  /-- `send` throws before it returns an observable. -/
  | sendThrows (t : Thrown)
  /-- The client itself reports an error, such as a refused connection. -/
  | clientError (err : Entries)
  | noReply
  /-- The stream completes without a value. -/
  | empty
  | reply (outcome : HandlerOutcome)

/-- The error object that the default RPC filter sends. -/
def rpcError : Thrown → Value
  | .rpc (.obj es) => .obj es
  | .rpc (.arr xs) => .arr xs
  | .rpc error => .obj [("status", .str "error"), ("message", error)]
  | .http _ | .error _ =>
      .obj [("status", .str "error"), ("message", .str "Internal server error")]

/-- What the observable of the call does within the timeout. -/
inductive Signal where
  | next (v : Value)
  | error (err : Value)
  | complete
  | timeout

def HandlerOutcome.signal : HandlerOutcome → Signal
  | returns .undefined => .complete
  | returns v => .next v
  | throws t => .error (rpcError t)

/-! ## The gateway's side -/

/-- One remote call: its pattern and payload, the text of an error that has none,
and the text of any other failure. -/
structure Rpc where
  pattern : String
  payload : Value
  serviceError : String
  failure : String

namespace Rpc

variable (rpc : Rpc)

/-- The `catchError` block: `err.message || …` and `err.status || 500`. -/
def catchError (err : Value) : HttpException where
  response := ((err.prop "message").getD .undefined).or (.str rpc.serviceError)
  status := ((err.prop "status").getD .undefined).or (.nat INTERNAL_SERVER_ERROR)

/-- The `catch` block around the call, for an error that is no `HttpException`. -/
def fallback : HttpException where
  response := .str rpc.failure
  status := .nat INTERNAL_SERVER_ERROR

def await : Signal → Except HttpException Value
  | .next v => .ok v
  | .error err => .error (rpc.catchError err)
  | .complete => .error rpc.fallback
  | .timeout => .error (rpc.catchError (.obj [("message", .str "Timeout has occurred")]))

/-- The result of the gateway method. -/
def settle : Delivery → Except HttpException Value
  | .sendThrows (.http e) => .error e
  | .sendThrows _ => .error rpc.fallback
  | .clientError err => rpc.await (.error (.obj err))
  | .noReply => rpc.await .timeout
  | .empty => rpc.await .complete
  | .reply outcome => rpc.await outcome.signal

end Rpc

/-! ## Patterns and operations -/

/-- `JSON.stringify` and back, for a number or a value that comes from JSON. -/
def encodeValue : Value → Value
  | .num .nan | .num .posInf | .num .negInf => .null
  | v => v

/-- `JSON.stringify` and back, for an object of such values. -/
def encode (o : Entries) : Entries :=
  (o.filter fun e => decide (e.2 ≠ .undefined)).map fun e => (e.1, encodeValue e.2)

theorem entries_encodeValue (v : Value) : (encodeValue v).entries = v.entries := by
  cases v with
  | num n => cases n <;> rfl
  | _ => rfl

theorem encodeValue_eq_arr {v : Value} {xs : List Value} :
    encodeValue v = .arr xs ↔ v = .arr xs := by
  cases v with
  | num n => cases n <;> simp [encodeValue]
  | _ => simp [encodeValue]

/-- A property after encoding is the encoded property. -/
theorem get_encode {o : Entries} (hnodup : (Entries.keys o).Nodup) (k : String) :
    (encode o).get k = encodeValue (o.get k) := by
  induction o with
  | nil => rfl
  | cons e o ih =>
    obtain ⟨k', v⟩ := e
    obtain ⟨hnew, hnodup⟩ := List.nodup_cons.mp hnodup
    by_cases hv : v = .undefined
    · have hdrop : encode ((k', v) :: o) = encode o := by simp [encode, hv]
      rw [hdrop, ih hnodup]
      by_cases hk : k' = k
      · subst hk
        have hmissing : Entries.get o k' = .undefined := by
          by_contra hget
          exact hnew (List.mem_map.mpr ⟨_, Entries.mem_of_get hget, rfl⟩)
        rw [hmissing, Entries.get_cons_self, hv]
      · rw [Entries.get_cons_ne hk]
    · have hkeep : encode ((k', v) :: o) = (k', encodeValue v) :: encode o := by simp [encode, hv]
      rw [hkeep]
      by_cases hk : k' = k
      · subst hk
        rw [Entries.get_cons_self, Entries.get_cons_self]
      · rw [Entries.get_cons_ne hk, Entries.get_cons_ne hk, ih hnodup]

/-- `(page - 1) * limit`, where texts are converted to numbers. -/
def skip (page limit : QueryParam) : Number := (page.toDouble.minus (1 : ℕ)).times limit.toDouble

namespace AuthService

def call (pattern : String) (payload : Value) (failure : String) : Rpc :=
  ⟨pattern, payload, "Auth service error", failure⟩

def register (dto : Value) : Rpc := call AUTH_PATTERNS.REGISTER dto "Registration failed"
def login (dto : Value) : Rpc := call AUTH_PATTERNS.LOGIN dto "Login failed"
def logout (userId : String) : Rpc :=
  call AUTH_PATTERNS.LOGOUT (.obj [("userId", .str userId)]) "Logout failed"
def refresh (dto : Value) : Rpc := call AUTH_PATTERNS.REFRESH_TOKEN dto "Token refresh failed"

end AuthService

namespace UsersService

def call (pattern : String) (payload : Entries) (failure : String) : Rpc :=
  ⟨pattern, .obj payload, "User service error", failure⟩

def findById (id : String) : Rpc :=
  call USER_PATTERNS.FIND_BY_ID [("id", .str id)] "Failed to fetch user"

def findAll (page limit : QueryParam) : Rpc :=
  let page := page.orDefault 1
  let limit := limit.orDefault 10
  call USER_PATTERNS.LIST [("skip", .num (skip page limit)), ("limit", limit.toValue)]
    "Failed to fetch users"

def update (id : String) (dto : Value) : Rpc :=
  call USER_PATTERNS.UPDATE [("id", .str id), ("updates", dto)] "Failed to update user"

def delete (id : String) : Rpc :=
  call USER_PATTERNS.DELETE [("id", .str id)] "Failed to delete user"

end UsersService

/-- The gateway services of todos and books are one service with its own words. -/
structure ItemService where
  patterns : ItemPatterns
  serviceError : String
  item : String
  items : String

namespace ItemService

variable (service : ItemService)

def call (pattern : String) (payload : Entries) (failure : String) : Rpc :=
  ⟨pattern, .obj payload, service.serviceError, failure⟩

/-- `{ userId, ...dto }` -/
def create (userId : String) (dto : Value) : Rpc :=
  service.call service.patterns.CREATE (Entries.assign [("userId", .str userId)] dto.entries)
    ("Failed to create " ++ service.item)

def findById (id : String) : Rpc :=
  service.call service.patterns.FIND_BY_ID [("id", .str id)] ("Failed to fetch " ++ service.item)

def findByUser (userId : String) (skip : Number) (limit : Value) : Rpc :=
  service.call service.patterns.FIND_BY_USER
    [("userId", .str userId), ("skip", .num skip), ("limit", limit)]
    ("Failed to fetch " ++ service.items)

/-- `{ id, userId, ...dto }` -/
def update (id userId : String) (dto : Value) : Rpc :=
  service.call service.patterns.UPDATE
    (Entries.assign [("id", .str id), ("userId", .str userId)] dto.entries)
    ("Failed to update " ++ service.item)

def delete (id : String) : Rpc :=
  service.call service.patterns.DELETE [("id", .str id)] ("Failed to delete " ++ service.item)

end ItemService

def TodosService : ItemService where
  patterns := TODO_PATTERNS
  serviceError := "Todos service error"
  item := "todo"
  items := "todos"

def BooksService : ItemService where
  patterns := BOOK_PATTERNS
  serviceError := "Books service error"
  item := "book"
  items := "books"

inductive ItemOperation where
  | create (userId : String) (dto : Value)
  | findById (id : String)
  | findByUser (userId : String) (skip : Number) (limit : Value)
  | update (id userId : String) (dto : Value)
  | delete (id : String)

def ItemOperation.rpc (service : ItemService) : ItemOperation → Rpc
  | create userId dto => service.create userId dto
  | findById id => service.findById id
  | findByUser userId skip limit => service.findByUser userId skip limit
  | update id userId dto => service.update id userId dto
  | delete id => service.delete id

/-- The operations of the gateway that call a microservice. -/
inductive Operation where
  | register (dto : Value)
  | login (dto : Value)
  | logout (userId : String)
  | refresh (dto : Value)
  | findUser (id : String)
  | findAllUsers (page limit : QueryParam)
  | updateUser (id : String) (dto : Value)
  | deleteUser (id : String)
  | todos (op : ItemOperation)
  | books (op : ItemOperation)

def Operation.rpc : Operation → Rpc
  | register dto => AuthService.register dto
  | login dto => AuthService.login dto
  | logout userId => AuthService.logout userId
  | refresh dto => AuthService.refresh dto
  | findUser id => UsersService.findById id
  | findAllUsers page limit => UsersService.findAll page limit
  | updateUser id dto => UsersService.update id dto
  | deleteUser id => UsersService.delete id
  | todos op => op.rpc TodosService
  | books op => op.rpc BooksService

/-! ## The status of a failure -/

/-- The gateway answers with the handler's value or fails with an error status, which
is the handler's own if the handler threw an `HttpException`. -/
structure StatusSurvives (delivery : Delivery) (result : Except HttpException Value) : Prop where
  answered : ∀ v, result = .ok v → delivery = .reply (.returns v)
  rejected : ∀ e, result = .error e → e.HasErrorStatus
  kept : ∀ e, delivery = .reply (.throws (.http e)) → ∃ e', result = .error e' ∧
    ∀ url timestamp, (HttpExceptionFilter.catch e' url timestamp).status = e.status

/-- The error object has no status, or one that is an error status. -/
def HarmlessStatus (err : Entries) : Prop :=
  (err.get "status").truthy = false ∨
    ∃ n : ℕ, 400 ≤ n ∧ n ≤ 599 ∧ err.get "status" = .nat n

/-- What was sent or thrown has an error status where the gateway reads one. -/
def Delivery.Harmless : Delivery → Prop
  | .sendThrows (.http e) => e.HasErrorStatus
  | .clientError err | .reply (.throws (.rpc (.obj err))) => HarmlessStatus err
  | .reply (.throws (.rpc (.arr _))) => True
  | .reply (.throws _) => False
  | _ => True

namespace Rpc

variable (rpc : Rpc)

theorem fallback_hasErrorStatus : rpc.fallback.HasErrorStatus :=
  HttpException.hasErrorStatus_mk (by decide) (by decide)

theorem catchError_status (err : Entries) :
    (rpc.catchError (.obj err)).status = (err.get "status").or (.nat INTERNAL_SERVER_ERROR) := rfl

theorem catchError_hasErrorStatus (err : Entries) :
    (rpc.catchError (.obj err)).HasErrorStatus ↔ HarmlessStatus err := by
  unfold HttpException.HasErrorStatus HarmlessStatus
  rw [catchError_status]
  cases h : (err.get "status").truthy with
  | true => simp [Value.or, h]
  | false =>
    simp only [Value.or, h, Bool.false_eq_true, if_false, true_or, iff_true]
    exact ⟨500, by decide, by decide, rfl⟩

/-- An error object that the gateway rewrites is the whole answer. -/
theorem survives_of_error {delivery : Delivery} {e : HttpException}
    (hhttp : ∀ e', delivery ≠ .reply (.throws (.http e'))) :
    StatusSurvives delivery (.error e) ↔ e.HasErrorStatus := by
  constructor
  · intro h
    exact h.rejected e rfl
  · intro h
    refine ⟨by simp, ?_, ?_⟩
    · intro e' he'
      cases he'
      exact h
    · intro e' he'
      exact absurd he' (hhttp e')

/-- The status survives exactly the deliveries that carry no other status. -/
theorem statusSurvives_settle (delivery : Delivery) :
    StatusSurvives delivery (rpc.settle delivery) ↔ delivery.Harmless := by
  have hfallback := rpc.fallback_hasErrorStatus
  -- a status that is no number is taken for the status of the answer
  have hlost : ∀ err : Entries, (err.get "status").truthy = true → (∀ n, err.get "status" ≠ .nat n) →
      ¬ StatusSurvives delivery (.error (rpc.catchError (.obj err))) := by
    intro err htruthy hnat hsurvives
    rcases (rpc.catchError_hasErrorStatus err).mp (hsurvives.rejected _ rfl) with h | ⟨n, -, -, h⟩
    · simp [htruthy] at h
    · exact hnat n h
  cases delivery with
  | sendThrows t =>
    cases t with
    | http e => exact survives_of_error (by simp)
    | rpc error => exact (survives_of_error (by simp)).trans (iff_of_true hfallback trivial)
    | error name => exact (survives_of_error (by simp)).trans (iff_of_true hfallback trivial)
  | clientError err =>
    exact (survives_of_error (by simp)).trans (rpc.catchError_hasErrorStatus err)
  | noReply =>
    refine (survives_of_error (by simp)).trans (iff_of_true ?_ trivial)
    exact (rpc.catchError_hasErrorStatus _).mpr (.inl rfl)
  | empty => exact (survives_of_error (by simp)).trans (iff_of_true hfallback trivial)
  | reply outcome =>
    cases outcome with
    | returns v =>
      refine iff_of_true ?_ trivial
      cases v
      case undefined => exact (survives_of_error (by simp)).mpr hfallback
      all_goals
        refine ⟨?_, by simp [settle, HandlerOutcome.signal, await], by simp⟩
        intro v hv
        cases hv
        rfl
    | throws t =>
      cases t with
      | http e => exact iff_of_false (hlost _ rfl (by simp [Value.nat, Entries.get])) id
      | error name => exact iff_of_false (hlost _ rfl (by simp [Value.nat, Entries.get])) id
      | rpc error =>
        cases error
        case obj err =>
          exact (survives_of_error (by simp)).trans (rpc.catchError_hasErrorStatus err)
        case arr xs =>
          refine (survives_of_error (by simp)).trans (iff_of_true ?_ trivial)
          exact HttpException.hasErrorStatus_mk (by decide) (by decide)
        all_goals exact iff_of_false (hlost _ rfl (by simp [Value.nat, Entries.get])) id

end Rpc

/-- The status of a failure survives the call exactly if the remote handler threw
neither an `HttpException` nor a plain error, and what the client or an
`RpcException` carries as status is absent or an error status. -/
theorem status_survives_iff (op : Operation) (delivery : Delivery) :
    StatusSurvives delivery (op.rpc.settle delivery) ↔ delivery.Harmless :=
  op.rpc.statusSurvives_settle delivery

/-- A login with wrong credentials reaches the filter with the status `"error"`. -/
theorem login_loses_status :
    ¬ StatusSurvives (.reply (.throws (.http (UnauthorizedException "Invalid credentials"))))
      ((Operation.login (.obj [])).rpc.settle
        (.reply (.throws (.http (UnauthorizedException "Invalid credentials"))))) := by
  intro h
  exact ((Operation.login (.obj [])).rpc.statusSurvives_settle _).mp h

end Gateway
