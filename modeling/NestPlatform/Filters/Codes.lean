-- SUMMARY: Which exceptions the gateway answers with a code that follows their status.
import NestPlatform.Filters.Exceptions

/-!
# The code of the answer

`AllExceptionsFilter` derives the code of an `HttpException` from the status if the body is an
object. Any other body leaves the answer with the code of an unknown error. Without the class
that the filter tests for first there is no answer at all.
-/
namespace Filters

open Js Nest Common Constants

variable (text : Value → String)

/-- An `HttpException`; a `DomainException` is one. -/
def Raised.Http : Raised → Prop
  | .exception (.domain _) | .exception (.thrown (.http _)) => True
  | _ => False

open AllExceptionsFilter

/-! ## Codes that follow the status -/

/-- The body is an object with a code of its own. -/
def CarriesCode (e : HttpException) : Prop := (field e.response "code").truthy = true

/-- Whatever the request, there is an answer, and it has the code that belongs to what was
thrown. -/
structure CodeFollows (index : List String) (raised : Raised) : Prop where
  domain : ∀ e, raised = .exception (.domain e) → ∀ timestamp path correlationId,
    ∃ answer, AllExceptionsFilter.catch text index raised timestamp path correlationId =
      .ok answer ∧ answer.statusCode = e.status ∧ answer.code = .str e.code ∧
        answer.errors = e.details
  http : ∀ e, raised = .exception (.thrown (.http e)) → ∀ timestamp path correlationId,
    ∃ answer, AllExceptionsFilter.catch text index raised timestamp path correlationId =
      .ok answer ∧ answer.statusCode = e.status ∧
        (¬ CarriesCode e → answer.code = .str (statusToCode e.status))
  unknown : ∀ other, ¬ raised.Http → ¬ other.Http →
    ∀ timestamp path correlationId timestamp' path' correlationId', ∃ answer answer',
      AllExceptionsFilter.catch text index raised timestamp path correlationId = .ok answer ∧
        AllExceptionsFilter.catch text index other timestamp' path' correlationId' = .ok answer' ∧
        answer.statusCode = answer'.statusCode ∧ answer.code = answer'.code ∧
          answer.message = answer'.message

/-- The statuses with a code of their own. -/
def codedStatuses : List ℕ := [400, 401, 403, 404, 409, 429, 503]

theorem statusToCode_eq_internal_iff (status : Value) :
    statusToCode status = ERROR_CODES.INTERNAL_ERROR ↔ ∀ n ∈ codedStatuses, status ≠ .nat n := by
  constructor
  · rintro h n hn rfl
    revert h
    revert n
    decide
  · intro h
    simp only [codedStatuses, List.forall_mem_cons] at h
    obtain ⟨h400, h401, h403, h404, h409, h429, h503, -⟩ := h
    simp only [statusToCode, h400, h401, h403, h404, h409, h429, h503, if_false]

variable (timestamp path : String) (correlationId : Value)

theorem envelope_status (e : HttpException) :
    (envelope text (.exception (.thrown (.http e))) timestamp path correlationId).statusCode =
      e.status := by
  obtain ⟨response, status, className⟩ := e
  cases response <;> rfl

/-- An object body keeps its own code or has the one of the status. -/
theorem envelope_code_object {e : HttpException} (h : isObject e.response = true) :
    (envelope text (.exception (.thrown (.http e))) timestamp path correlationId).code =
      if (field e.response "code").truthy then field e.response "code"
      else .str (statusToCode e.status) := by
  obtain ⟨response, status, className⟩ := e
  cases response with
  | obj es => rfl
  | arr xs => rfl
  | date ms => rfl
  | _ => cases h

/-- Any other body leaves the code of an unknown error. -/
theorem envelope_code_plain {e : HttpException} (h : isObject e.response = false) :
    (envelope text (.exception (.thrown (.http e))) timestamp path correlationId).code =
      .str ERROR_CODES.INTERNAL_ERROR := by
  obtain ⟨response, status, className⟩ := e
  cases response with
  | obj es => cases h
  | arr xs => cases h
  | date ms => cases h
  | _ => rfl

theorem not_carriesCode_plain {e : HttpException} (h : isObject e.response = false) :
    ¬ CarriesCode e := by
  obtain ⟨response, status, className⟩ := e
  unfold CarriesCode field Value.prop
  cases response with
  | obj es => cases h
  | _ => simp [Value.truthy]

/-- The code of an `HttpException` follows its status if the body is an object, or if the status
has the code of an unknown error itself. -/
theorem envelope_code_iff (e : HttpException) :
    (¬ CarriesCode e → (envelope text (.exception (.thrown (.http e))) timestamp path
        correlationId).code = .str (statusToCode e.status)) ↔
      isObject e.response = true ∨ ∀ n ∈ codedStatuses, e.status ≠ .nat n := by
  rw [← statusToCode_eq_internal_iff]
  cases hbody : isObject e.response with
  | true =>
    refine ⟨fun _ => .inl rfl, fun _ hcode => ?_⟩
    rw [envelope_code_object text _ _ _ hbody]
    exact if_neg hcode
  | false =>
    rw [envelope_code_plain text _ _ _ hbody, Value.str.injEq]
    constructor
    · intro h
      exact .inr (h (not_carriesCode_plain hbody)).symm
    · rintro (h | h) -
      · cases h
      · exact h.symm

/-- What is no `HttpException` is answered as any other unknown error. -/
theorem envelope_of_not_http {raised : Raised} (h : ¬ raised.Http) :
    envelope text raised timestamp path correlationId =
      envelope text (.value .undefined) timestamp path correlationId := by
  cases raised with
  | value v => rfl
  | exception e =>
    cases e with
    | domain e => exact absurd trivial h
    | thrown t =>
      cases t with
      | http e => exact absurd trivial h
      | rpc error => rfl
      | error name => rfl

/-! ## The import -/

variable {text} {index : List String}

theorem catch_of_exports (h : ExportsDomain index) (raised : Raised) :
    AllExceptionsFilter.catch text index raised timestamp path correlationId =
      .ok (envelope text raised timestamp path correlationId) := if_pos h

/-- Without the class nothing is answered. -/
theorem catch_of_not_exports (h : ¬ ExportsDomain index) (raised : Raised) :
    AllExceptionsFilter.catch text index raised timestamp path correlationId =
      .error (.error "TypeError") := if_neg h

theorem exports_of_catch {raised : Raised} {answer : ApiErrorResponse}
    (h : AllExceptionsFilter.catch text index raised timestamp path correlationId = .ok answer) :
    ExportsDomain index := by
  by_contra hmissing
  rw [catch_of_not_exports timestamp path correlationId hmissing] at h
  cases h

/-- Each of the three kinds of values needs an answer. -/
theorem CodeFollows.exports {raised : Raised} (h : CodeFollows text index raised) :
    ExportsDomain index := by
  have hunknown : ¬ raised.Http → ExportsDomain index := by
    intro hraised
    obtain ⟨answer, -, hcatch, -⟩ :=
      h.unknown raised hraised hraised "" "" .undefined "" "" .undefined
    exact exports_of_catch "" "" .undefined hcatch
  cases raised with
  | value v => exact hunknown id
  | exception e =>
    cases e with
    | domain e =>
      obtain ⟨answer, hcatch, -⟩ := h.domain e rfl "" "" .undefined
      exact exports_of_catch "" "" .undefined hcatch
    | thrown t =>
      cases t with
      | http e =>
        obtain ⟨answer, hcatch, -⟩ := h.http e rfl "" "" .undefined
        exact exports_of_catch "" "" .undefined hcatch
      | rpc error => exact hunknown id
      | error name => exact hunknown id

/-- With the class, the code of the answer follows the status, except for an `HttpException`
whose body is no object and whose status has a code of its own. -/
theorem codeFollows_iff (raised : Raised) :
    CodeFollows text index raised ↔ ExportsDomain index ∧
      ∀ e, raised = .exception (.thrown (.http e)) →
        isObject e.response = true ∨ ∀ n ∈ codedStatuses, e.status ≠ .nat n := by
  constructor
  · intro h
    refine ⟨h.exports, ?_⟩
    rintro e rfl
    obtain ⟨answer, hcatch, -, hcode⟩ := h.http e rfl "" "" .undefined
    rw [catch_of_exports "" "" .undefined h.exports, Except.ok.injEq] at hcatch
    subst hcatch
    exact (envelope_code_iff text "" "" .undefined e).mp hcode
  · rintro ⟨hexports, h⟩
    refine ⟨?_, ?_, ?_⟩
    · rintro e rfl timestamp path correlationId
      exact ⟨_, catch_of_exports _ _ _ hexports _, rfl, rfl, rfl⟩
    · rintro e rfl timestamp path correlationId
      exact ⟨_, catch_of_exports _ _ _ hexports _,
        envelope_status text timestamp path correlationId e,
        (envelope_code_iff text timestamp path correlationId e).mpr (h e rfl)⟩
    · intro other hraised hother timestamp path correlationId timestamp' path' correlationId'
      refine ⟨_, _, catch_of_exports _ _ _ hexports _, catch_of_exports _ _ _ hexports _, ?_⟩
      rw [envelope_of_not_http text _ _ _ hraised, envelope_of_not_http text _ _ _ hother]
      exact ⟨rfl, rfl, rfl⟩

/-- `@app/common` does not export the class, so that nothing is answered with any code. -/
theorem codeFollows_never (text : Value → String) (raised : Raised) :
    ¬ CodeFollows text commonIndex raised := by
  intro h
  exact not_exportsDomain_commonIndex ((codeFollows_iff raised).mp h).1

/-- `new HttpException('Not here', 404)` -/
def notHere : HttpException where
  response := .str "Not here"
  status := .nat 404

/-- The filter fails on it, and with the class it would leave out its code. -/
theorem notHere_code :
    (∀ text timestamp path correlationId,
      AllExceptionsFilter.catch text commonIndex (.exception (.thrown (.http notHere))) timestamp
        path correlationId = .error (.error "TypeError")) ∧
      ∀ text index, ¬ CodeFollows text index (.exception (.thrown (.http notHere))) := by
  refine ⟨fun _ _ _ _ => rfl, ?_⟩
  intro text index h
  rcases ((codeFollows_iff _).mp h).2 notHere rfl with hbody | hstatus
  · cases hbody
  · exact hstatus 404 (by decide) rfl

end Filters
