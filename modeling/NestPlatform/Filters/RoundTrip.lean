-- SUMMARY: Which exceptions of a microservice the gateway answers with as if it had thrown them itself.
import NestPlatform.Filters.Codes
import NestPlatform.Gateway.Rpc

/-!
# Exceptions across the boundary

An exception of a microservice passes the RPC filter, the transport, the rethrow of the
gateway's services, which keeps the message and the status, and the filter of the gateway. That
filter answers nothing unless the class that it tests for is exported.
-/
namespace Filters

open Js Nest Common Constants Gateway
open AllExceptionsFilter (envelope)

/-! ## The boundary -/

/-- What the client receives for an `RpcException` that a filter throws, which is up to the
transport: its error, or the exception with its properties `error` and `message`. -/
inductive Wire where
  | payload
  | exception

/-- `rpcException.message`: the message of its error, or the words of the class name. -/
def rpcMessage (error : Entries) : Value :=
  match error.get "message" with
  | .str s => .str s
  | _ => .str (classMessage "RpcException")

def Wire.receive (wire : Wire) : RpcExceptionsFilter.Outcome → Value
  | .default error => rpcError (.rpc error)
  | .rpc error =>
    match wire with
    | payload => .obj (encode error)
    | exception => .obj [("error", .obj (encode error)), ("message", rpcMessage error)]

variable (text : Value → String) (wire : Wire) (index : List String) (rpc : Rpc)

/-- The gateway answers with what it would answer with if it had thrown the exception itself. -/
def RoundTrip (exception : Exception) : Prop :=
  ∃ e, rpc.await (.error (wire.receive (RpcExceptionsFilter.catch text exception))) = .error e ∧
    ∀ timestamp path correlationId, ∃ answer,
      AllExceptionsFilter.catch text index (.exception (.thrown (.http e))) timestamp path
          correlationId = .ok answer ∧
        AllExceptionsFilter.catch text index (.exception exception) timestamp path correlationId =
          .ok answer

/-! ## The condition -/

/-- The body is a string, or an object whose message, if any, is a string or a list. -/
def Reported (e : HttpException) : Prop :=
  (∃ s, e.response = .str s) ∨ ∃ es, e.response = .obj es ∧
    ((Entries.get es "message").nullish = true ∨ (∃ m, Entries.get es "message" = .str m) ∨
      ∃ ms, Entries.get es "message" = .arr ms)

/-- A `DomainException` or another `HttpException`. -/
def Exception.Http : Exception → Prop
  | .domain _ => True
  | .thrown (.http e) => Reported e
  | .thrown _ => False

/-- The rethrow keeps the status. -/
def Wire.Keeps (status : Value) : Wire → Prop
  | payload => status.truthy = true ∧ encodeValue status = status
  | exception => status = .nat INTERNAL_SERVER_ERROR

/-- The message that a list of messages is answered with. -/
def Wire.listMessage : Wire → String
  | payload => classMessage "HttpException"
  | exception => classMessage "RpcException"

/-- The code that a list of messages is answered with. -/
def Wire.listCode (status : Value) : Wire → String
  | payload => AllExceptionsFilter.statusToCode status
  | exception => ERROR_CODES.INTERNAL_ERROR

/-- The code of an object body. -/
def codeOf (es : Entries) (status : Value) : Value :=
  (es.get "code").or (.str (AllExceptionsFilter.statusToCode status))

/-- An object body says nothing that is lost on the way. -/
def BodySurvives (es : Entries) (status : Value) : Prop :=
  (es.get "errors").truthy = false ∧
    match es.get "message" with
    | .arr ms => join text ms = wire.listMessage ∧ codeOf es status = .str (wire.listCode status)
    | message => message ≠ .str "" ∧ codeOf es status = .str ERROR_CODES.INTERNAL_ERROR

/-- The status is kept, there is nothing but a message to tell, and the code is the one that a
message alone has. -/
def Survives : Exception → Prop
  | .domain e => wire.Keeps e.status ∧ e.details = .undefined ∧ e.message ≠ "" ∧
      e.code = ERROR_CODES.INTERNAL_ERROR
  | .thrown (.http e) => wire.Keeps e.status ∧
      match e.response with
      | .obj es => BodySurvives text wire es e.status
      | response => response ≠ .str ""
  | .thrown _ => False

/-! ## What arrives -/

variable {text wire index rpc}

/-- The message that the client sees. -/
def Wire.message (message : Value) : Wire → Value
  | payload => encodeValue message
  | exception =>
    match message with
    | .str s => .str s
    | _ => .str (classMessage "RpcException")

/-- The status that the client sees. -/
def Wire.status (status : Value) : Wire → Value
  | payload => encodeValue status
  | exception => .undefined

/-- The exception that the gateway's service throws. -/
def rethrown (wire : Wire) (rpc : Rpc) (message status : Value) : HttpException where
  response := (wire.message message).or (.str rpc.serviceError)
  status := (wire.status status).or (.nat INTERNAL_SERVER_ERROR)

theorem await_receive {error : Entries} (hnodup : (Entries.keys error).Nodup) :
    rpc.await (.error (wire.receive (.rpc error))) =
      .error (rethrown wire rpc (error.get "message") (error.get "status")) := by
  cases wire with
  | payload =>
    simp only [Rpc.await, Rpc.catchError, Wire.receive, Value.prop, get_encode hnodup,
      Option.getD_some]
    rfl
  | exception => rfl

/-- The status is kept exactly if the rethrown exception has it. -/
theorem status_rethrown_iff {message status : Value} :
    (rethrown wire rpc message status).status = status ↔ wire.Keeps status := by
  cases wire with
  | payload =>
    change (encodeValue status).or (.nat 500) = status ↔
      status.truthy = true ∧ encodeValue status = status
    unfold Value.or
    constructor
    · intro h
      split at h
      · rename_i htruthy
        rw [h] at htruthy
        exact ⟨htruthy, h⟩
      · rename_i hfalsy
        subst h
        exact absurd rfl hfalsy
    · rintro ⟨htruthy, hsame⟩
      rw [hsame, if_pos htruthy]
  | exception => exact eq_comm

/-! ### The envelope of what arrives -/

theorem envelope_rethrown_str (s : String) (status : Value) (timestamp path : String)
    (correlationId : Value) :
    envelope text (.exception (.thrown (.http (rethrown wire rpc (.str s) status))))
        timestamp path correlationId =
      { statusCode := (rethrown wire rpc (.str s) status).status
        code := .str ERROR_CODES.INTERNAL_ERROR
        message := (Value.str s).or (.str rpc.serviceError)
        errors := .undefined, timestamp, path, correlationId } := by
  have hresponse : (rethrown wire rpc (.str s) status).response =
      (Value.str s).or (.str rpc.serviceError) := by cases wire <;> rfl
  have hstr : ∃ t, (Value.str s).or (.str rpc.serviceError) = .str t := by
    unfold Value.or
    split
    · exact ⟨_, rfl⟩
    · exact ⟨_, rfl⟩
  obtain ⟨t, ht⟩ := hstr
  simp only [envelope, hresponse, ht]

theorem envelope_rethrown_arr (ms : List Value) (status : Value) (timestamp path : String)
    (correlationId : Value) :
    envelope text (.exception (.thrown (.http (rethrown wire rpc (.arr ms) status))))
        timestamp path correlationId =
      { statusCode := (rethrown wire rpc (.arr ms) status).status
        code := .str (wire.listCode (rethrown wire rpc (.arr ms) status).status)
        message := .str wire.listMessage
        errors := .undefined, timestamp, path, correlationId } := by
  cases wire <;> rfl

/-! ### The error of the RPC filter -/

theorem nodup_keys_shape (e : HttpException) :
    (Entries.keys (RpcExceptionsFilter.shape text e)).Nodup := by
  unfold RpcExceptionsFilter.shape
  split
  · simp [Entries.keys]
  · simp [Entries.keys]

theorem shape_status (e : HttpException) :
    (RpcExceptionsFilter.shape text e).get "status" = e.status := by
  unfold RpcExceptionsFilter.shape
  split
  · rfl
  · rfl

theorem shape_message_str (htext : ∀ s, text (.str s) = s) {e : HttpException} {s : String}
    (h : e.response = .str s) : (RpcExceptionsFilter.shape text e).get "message" = .str s := by
  simp [RpcExceptionsFilter.shape, h, isObject, htext, Entries.get]

theorem shape_message_obj {e : HttpException} {es : Entries} (h : e.response = .obj es) :
    (RpcExceptionsFilter.shape text e).get "message" =
      (es.get "message").coalesce (.str (Common.message e)) := by
  simp [RpcExceptionsFilter.shape, h, isObject, Entries.get, field, Value.prop]

/-! ## The round trip -/

/-- An exception is answered alike exactly if the rethrown one is answered alike. -/
theorem roundTrip_shape (hexports : ExportsDomain index) {exception : Exception} {e : HttpException}
    (hcatch : RpcExceptionsFilter.catch text exception = .rpc (RpcExceptionsFilter.shape text e)) :
    RoundTrip text wire index rpc exception ↔ ∀ timestamp path correlationId,
      envelope text (.exception (.thrown (.http (rethrown wire rpc
          ((RpcExceptionsFilter.shape text e).get "message") e.status)))) timestamp path
            correlationId =
        envelope text (.exception exception) timestamp path correlationId := by
  unfold RoundTrip
  rw [hcatch, await_receive (nodup_keys_shape e), shape_status]
  simp only [Except.error.injEq, exists_eq_left', catch_of_exports _ _ _ hexports,
    Except.ok.injEq]
  exact ⟨fun h timestamp path correlationId => (h timestamp path correlationId).symm,
    fun h timestamp path correlationId => (h timestamp path correlationId).symm⟩

theorem str_or_eq_iff {s t : String} (ht : t ≠ "") : (Value.str s).or (.str t) = .str s ↔ s ≠ "" := by
  by_cases hs : s = ""
  · simp [Value.or, Value.truthy, hs, ht]
  · simp [Value.or, Value.truthy, hs]

/-- Envelopes of one request are equal if the four fields that tell of the exception are. -/
theorem envelope_eq_iff {s s' c c' m m' d d' : Value} :
    (∀ timestamp path correlationId,
        (⟨false, s, c, m, d, timestamp, path, correlationId⟩ : ApiErrorResponse) =
          ⟨false, s', c', m', d', timestamp, path, correlationId⟩) ↔
      s = s' ∧ c = c' ∧ m = m' ∧ d = d' := by
  simp

/-- What is rethrown with a text is answered like an exception with that text exactly if the
status is kept and there is nothing else to tell. -/
theorem envelope_rethrown_str_iff (hrpc : rpc.serviceError ≠ "") {s : String}
    {status code errors : Value} :
    (∀ timestamp path correlationId,
        envelope text (.exception (.thrown (.http (rethrown wire rpc (.str s) status))))
            timestamp path correlationId =
          ⟨false, status, code, .str s, errors, timestamp, path, correlationId⟩) ↔
      wire.Keeps status ∧ code = .str ERROR_CODES.INTERNAL_ERROR ∧ s ≠ "" ∧ errors = .undefined := by
  simp only [envelope_rethrown_str]
  rw [envelope_eq_iff, status_rethrown_iff, str_or_eq_iff hrpc, eq_comm,
    eq_comm (a := Value.undefined)]

theorem envelope_rethrown_arr_iff {ms : List Value} {message : String} {status code errors : Value} :
    (∀ timestamp path correlationId,
        envelope text (.exception (.thrown (.http (rethrown wire rpc (.arr ms) status))))
            timestamp path correlationId =
          ⟨false, status, code, .str message, errors, timestamp, path, correlationId⟩) ↔
      wire.Keeps status ∧ code = .str (wire.listCode status) ∧ message = wire.listMessage ∧
        errors = .undefined := by
  simp only [envelope_rethrown_arr]
  rw [envelope_eq_iff, status_rethrown_iff]
  refine and_congr_right fun hkeeps => ?_
  rw [status_rethrown_iff.mpr hkeeps, Value.str.injEq, eq_comm, eq_comm (a := wire.listMessage),
    eq_comm (a := Value.undefined)]

/-- The answer to an object body. -/
theorem envelope_obj {e : HttpException} {es : Entries} (h : e.response = .obj es)
    (timestamp path : String) (correlationId : Value) :
    envelope text (.exception (.thrown (.http e))) timestamp path correlationId =
      ⟨false, e.status, codeOf es e.status, AllExceptionsFilter.bodyMessage text e,
        if (es.get "errors").truthy then es.get "errors" else .undefined,
        timestamp, path, correlationId⟩ := by
  simp only [envelope, h]
  rfl

theorem ite_truthy_eq_undefined_iff {v : Value} :
    (if v.truthy then v else .undefined) = .undefined ↔ v.truthy = false := by
  cases h : v.truthy with
  | true =>
    refine iff_of_false ?_ (by simp)
    rintro hv
    rw [if_pos rfl] at hv
    simp [hv, Value.truthy] at h
  | false => simp

theorem message_of_nullish {e : HttpException} {es : Entries} (h : e.response = .obj es)
    (hnullish : (es.get "message").nullish = true) :
    Common.message e = classMessage e.className := by
  unfold Common.message
  rw [h]
  cases hm : es.get "message" with
  | str m => simp [hm, Value.nullish] at hnullish
  | _ => simp only [hm]

theorem bodyMessage_of_nullish {e : HttpException} {es : Entries} (h : e.response = .obj es)
    (hnullish : (es.get "message").nullish = true) :
    AllExceptionsFilter.bodyMessage text e = .str (Common.message e) := by
  have hfield : field e.response "message" = es.get "message" := by rw [h]; rfl
  unfold AllExceptionsFilter.bodyMessage
  rw [hfield]
  cases hm : es.get "message" with
  | arr ms => simp [hm, Value.nullish] at hnullish
  | _ => exact if_pos (hm ▸ hnullish)

theorem bodySurvives_text {es : Entries} {status : Value}
    (harr : ∀ ms, es.get "message" ≠ .arr ms) :
    BodySurvives text wire es status ↔ (es.get "errors").truthy = false ∧
      es.get "message" ≠ .str "" ∧ codeOf es status = .str ERROR_CODES.INTERNAL_ERROR := by
  unfold BodySurvives
  split
  · rename_i ms hms
    exact absurd hms (harr ms)
  · rfl

/-- An object body that says one text is answered alike exactly if it survives. -/
theorem roundTrip_text (hexports : ExportsDomain index) (hrpc : rpc.serviceError ≠ "")
    {e : HttpException} {es : Entries} {s : String}
    (h : e.response = .obj es) (hsent : (RpcExceptionsFilter.shape text e).get "message" = .str s)
    (hsaid : AllExceptionsFilter.bodyMessage text e = .str s) :
    RoundTrip text wire index rpc (.thrown (.http e)) ↔ wire.Keeps e.status ∧
      (es.get "errors").truthy = false ∧ s ≠ "" ∧
        codeOf es e.status = .str ERROR_CODES.INTERNAL_ERROR := by
  rw [roundTrip_shape hexports rfl, hsent]
  simp only [envelope_obj h, hsaid]
  rw [envelope_rethrown_str_iff hrpc, ite_truthy_eq_undefined_iff]
  tauto

/-- Without a message both filters say the words of the class. -/
theorem roundTrip_nullish (hexports : ExportsDomain index) (hrpc : rpc.serviceError ≠ "")
    {e : HttpException} {es : Entries}
    (hbody : e.response = .obj es) (hnullish : (es.get "message").nullish = true) :
    RoundTrip text wire index rpc (.thrown (.http e)) ↔ Survives text wire (.thrown (.http e)) := by
  have hwords : Common.message e = classMessage e.className := message_of_nullish hbody hnullish
  have hsent := @shape_message_obj text _ _ hbody
  rw [Value.coalesce, if_pos hnullish, hwords] at hsent
  have hsaid := @bodyMessage_of_nullish text _ _ hbody hnullish
  have hempty : es.get "message" ≠ .str "" := by
    rintro hm
    simp [hm, Value.nullish] at hnullish
  have harr : ∀ ms, es.get "message" ≠ .arr ms := by
    rintro ms hm
    simp [hm, Value.nullish] at hnullish
  rw [roundTrip_text hexports hrpc hbody hsent (hsaid.trans (congrArg _ hwords))]
  simp only [Survives, hbody]
  rw [bodySurvives_text harr]
  simp [hempty, classMessage_ne_empty]

theorem roundTrip_str (hexports : ExportsDomain index) (hrpc : rpc.serviceError ≠ "")
    {e : HttpException} {es : Entries} {m : String}
    (hbody : e.response = .obj es) (hm : es.get "message" = .str m) :
    RoundTrip text wire index rpc (.thrown (.http e)) ↔ Survives text wire (.thrown (.http e)) := by
  have hsent := @shape_message_obj text _ _ hbody
  rw [hm] at hsent
  have hsaid : AllExceptionsFilter.bodyMessage text e = .str m := by
    simp [AllExceptionsFilter.bodyMessage, field, hbody, Value.prop, hm, Value.coalesce,
      Value.nullish]
  rw [roundTrip_text hexports hrpc hbody hsent hsaid]
  simp only [Survives, hbody]
  rw [bodySurvives_text (by simp [hm])]
  simp [hm]

/-- A list of messages is joined by the gateway's filter, but not by the transport. -/
theorem roundTrip_arr (hexports : ExportsDomain index) {e : HttpException} {es : Entries}
    {ms : List Value}
    (hbody : e.response = .obj es) (hms : es.get "message" = .arr ms) :
    RoundTrip text wire index rpc (.thrown (.http e)) ↔ Survives text wire (.thrown (.http e)) := by
  have hsent := @shape_message_obj text _ _ hbody
  rw [hms] at hsent
  have hsaid : AllExceptionsFilter.bodyMessage text e = .str (join text ms) := by
    simp [AllExceptionsFilter.bodyMessage, field, hbody, Value.prop, hms]
  rw [roundTrip_shape hexports rfl, hsent]
  simp only [envelope_obj hbody, hsaid, Survives, hbody, BodySurvives, hms]
  refine envelope_rethrown_arr_iff.trans ?_
  rw [ite_truthy_eq_undefined_iff]
  tauto

theorem serviceError_ne (op : Operation) : op.rpc.serviceError ≠ "" := by
  cases op with
  | todos op => cases op <;> exact (by decide : "Todos service error" ≠ "")
  | books op => cases op <;> exact (by decide : "Books service error" ≠ "")
  | register | login | logout | refresh => exact (by decide : "Auth service error" ≠ "")
  | findUser | findAllUsers | updateUser | deleteUser =>
    exact (by decide : "User service error" ≠ "")

/-- With the class, exactly the exceptions that survive are answered by the gateway as its own. -/
theorem roundTrip_survives (hexports : ExportsDomain index) (op : Operation)
    (htext : ∀ s, text (.str s) = s) {exception : Exception}
    (hhttp : exception.Http) :
    RoundTrip text wire index op.rpc exception ↔ Survives text wire exception := by
  have hrpc := serviceError_ne op
  cases exception with
  | domain e =>
    have hmessage : (RpcExceptionsFilter.shape text e.toHttp).get "message" = .str e.message := rfl
    rw [roundTrip_shape hexports rfl, hmessage]
    refine (envelope_rethrown_str_iff hrpc).trans ?_
    simp only [Survives, Value.str.injEq]
    tauto
  | thrown t =>
    cases t with
    | rpc error => exact hhttp.elim
    | error name => exact hhttp.elim
    | http e =>
      rcases hhttp with ⟨s, hbody⟩ | ⟨es, hbody, hmessage⟩
      · rw [roundTrip_shape hexports rfl, shape_message_str htext hbody]
        simp only [envelope, hbody, Survives]
        refine (envelope_rethrown_str_iff hrpc).trans ?_
        simp
      · rcases hmessage with hnullish | ⟨m, hm⟩ | ⟨ms, hms⟩
        · exact roundTrip_nullish hexports hrpc hbody hnullish
        · exact roundTrip_str hexports hrpc hbody hm
        · exact roundTrip_arr hexports hbody hms

/-! ## The index of the repository -/

/-- An answer of the gateway's filter needs the class. -/
theorem RoundTrip.exports {exception : Exception} (h : RoundTrip text wire index rpc exception) :
    ExportsDomain index := by
  obtain ⟨e, -, hsame⟩ := h
  obtain ⟨answer, hcatch, -⟩ := hsame "" "" .undefined
  exact exports_of_catch "" "" .undefined hcatch

/-- No exception is answered, on either side of the boundary. -/
theorem roundTrip_never (text : Value → String) (wire : Wire) (op : Operation)
    (exception : Exception) : ¬ RoundTrip text wire commonIndex op.rpc exception :=
  fun h => not_exportsDomain_commonIndex h.exports

/-- The string of a string; objects print alike. -/
def plainText : Value → String
  | .str s => s
  | _ => "[object Object]"

/-- A user that is missing, reported with a code of its own. -/
def userNotFound : DomainException where
  code := "USER_NOT_FOUND"
  message := "User not found"
  status := .nat 404

/-- The gateway has no answer, and with the class neither transport would keep the code of a
`DomainException`. -/
theorem code_lost :
    (∀ timestamp path correlationId, AllExceptionsFilter.catch plainText commonIndex
      (.exception (.domain userNotFound)) timestamp path correlationId =
        .error (.error "TypeError")) ∧
      ∀ wire index,
        ¬ RoundTrip plainText wire index (Operation.findUser "u1").rpc (.domain userNotFound) := by
  refine ⟨fun _ _ _ => rfl, ?_⟩
  intro wire index h
  have hhttp : Exception.Http (.domain userNotFound) := trivial
  have hsurvives := (roundTrip_survives h.exports (.findUser "u1") (fun _ => rfl) hhttp).mp h
  obtain ⟨-, -, -, hcode⟩ := hsurvives
  exact absurd hcode (by decide)

end Filters
