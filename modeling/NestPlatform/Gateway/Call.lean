-- SUMMARY: A gateway call together with its effect on the store of the called service.
import NestPlatform.Gateway.Rpc
import NestPlatform.Lib.Effect

/-!
# Calls with their effect

The handler runs in the other process: its effect stays when its reply is lost,
and it has none when the message never arrives.
-/
namespace Gateway

open Js Nest Effect

variable {σ : Type}

inductive Network where
  | up
  | replyLost
  | down (err : Entries)

def handlerOutcome : Except Thrown Value → HandlerOutcome
  | .ok v => .returns v
  | .error t => .throws t

/-- `handle` gives the handler that the remote controller has for a pattern. -/
def Rpc.call (rpc : Rpc) (handle : String → Entries → Option (Effect σ Thrown Value))
    (network : Network) : Effect σ HttpException Value :=
  ExceptT.mk fun s =>
    match network, handle rpc.pattern (encode rpc.payload.entries) with
    | .down err, _ => (rpc.settle (.clientError err), s)
    | _, none => (rpc.settle (.clientError []), s)
    | .replyLost, some x => (rpc.settle .noReply, (x.exec s).2)
    | .up, some x => (rpc.settle (.reply (handlerOutcome (x.exec s).1)), (x.exec s).2)

/-- A call leaves the store alone or does to it what the handler does. -/
theorem Rpc.exec_call (rpc : Rpc) (handle : String → Entries → Option (Effect σ Thrown Value))
    (network : Network) (s : σ) :
    ((rpc.call handle network).exec s).2 = s ∨
      ∃ x, handle rpc.pattern (encode rpc.payload.entries) = some x ∧
        ((rpc.call handle network).exec s).2 = (x.exec s).2 := by
  unfold call
  cases h : handle rpc.pattern (encode rpc.payload.entries) with
  | none => cases network <;> exact .inl rfl
  | some x =>
    cases network with
    | down err => exact .inl rfl
    | up | replyLost => exact .inr ⟨x, rfl, rfl⟩

/-- A message that arrives is handled, whether or not the reply is. -/
theorem Rpc.exec_call_arrives {rpc : Rpc}
    {handle : String → Entries → Option (Effect σ Thrown Value)} {x : Effect σ Thrown Value}
    (hx : handle rpc.pattern (encode rpc.payload.entries) = some x) {network : Network}
    (h : ∀ err, network ≠ .down err) (s : σ) :
    ((rpc.call handle network).exec s).2 = (x.exec s).2 := by
  unfold call
  rw [hx]
  cases network with
  | down err => exact absurd rfl (h err)
  | up | replyLost => rfl

theorem Rpc.exec_call_up {rpc : Rpc}
    {handle : String → Entries → Option (Effect σ Thrown Value)} {x : Effect σ Thrown Value}
    (hx : handle rpc.pattern (encode rpc.payload.entries) = some x) (s : σ) :
    ((rpc.call handle .up).exec s).1 = rpc.settle (.reply (handlerOutcome (x.exec s).1)) := by
  unfold call
  rw [hx]
  rfl

/-- A call that returns a value has had it from the handler. -/
theorem Rpc.exec_call_eq_ok {rpc : Rpc}
    {handle : String → Entries → Option (Effect σ Thrown Value)} {network : Network} {s s' : σ}
    {v : Value} (h : (rpc.call handle network).exec s = (.ok v, s')) :
    ∃ x, handle rpc.pattern (encode rpc.payload.entries) = some x ∧ x.exec s = (.ok v, s') := by
  unfold call at h
  cases hx : handle rpc.pattern (encode rpc.payload.entries) with
  | none =>
    rw [hx] at h
    cases network <;> cases h
  | some x =>
    rw [hx] at h
    cases network with
    | down | replyLost => cases h
    | up =>
      obtain ⟨hanswer, rfl⟩ := Prod.mk.inj h
      refine ⟨x, rfl, Prod.ext ?_ rfl⟩
      cases hresult : (x.exec s).1 with
      | error t =>
        rw [hresult] at hanswer
        cases hanswer
      | ok w =>
        rw [hresult] at hanswer
        cases w <;> cases hanswer <;> rfl

/-- A call without a reply tells nothing of the state. -/
theorem Rpc.exec_call_unanswered {rpc : Rpc}
    {handle : String → Entries → Option (Effect σ Thrown Value)} {network : Network}
    (h : network ≠ .up) (s s' : σ) :
    ((rpc.call handle network).exec s).1 = ((rpc.call handle network).exec s').1 := by
  unfold call
  cases network with
  | up => exact absurd rfl h
  | replyLost => cases handle rpc.pattern (encode rpc.payload.entries) <;> rfl
  | down err => cases handle rpc.pattern (encode rpc.payload.entries) <;> rfl

/-- The answer to a call depends on the state through the outcome of the handler. -/
theorem Rpc.exec_call_congr {rpc : Rpc}
    {handle : String → Entries → Option (Effect σ Thrown Value)} {x : Effect σ Thrown Value}
    (hx : handle rpc.pattern (encode rpc.payload.entries) = some x) {s s' : σ}
    (h : (x.exec s).1 = (x.exec s').1) (network : Network) :
    ((rpc.call handle network).exec s).1 = ((rpc.call handle network).exec s').1 := by
  by_cases hup : network = .up
  · subst hup
    rw [exec_call_up hx, exec_call_up hx, h]
  · exact exec_call_unanswered hup s s'

end Gateway
