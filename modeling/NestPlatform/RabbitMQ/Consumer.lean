-- SUMMARY: `consumeWithRetry`: the channel operations of one delivery.
import NestPlatform.Amqp.Broker
import NestPlatform.Js.Increment

/-!
# The retrying consumer

`consumeWithRetry` runs the handler once and settles the delivery. A failed run
below the limit republishes the message with `x-attempt` incremented. The counter is
taken once as an exact number and once as the double that it is; natural counters up
to `2 ^ 53` are the same in both.
-/
namespace RabbitMQ

open Amqp Js

variable {P : Type}

def ATTEMPT_HEADER : String := "x-attempt"

/-- `message.properties.headers || {}`. -/
def headers (message : Message P) : Entries := message.properties.headers.getD []

/-- `Number(headers[ATTEMPT_HEADER] ?? 0)`; `none` is the `TypeError` of `Number`. -/
def attempt (message : Message P) : Option Number :=
  (((headers message).get ATTEMPT_HEADER).coalesce (.nat 0)).toNumber

/-- The copy that a failed run publishes: the same fields, content and
properties with `x-attempt` set to `next`. -/
def retryCopy (message : Message P) (next : Number) : Message P :=
  { message with
    properties := { message.properties with
      headers := some ((headers message).set ATTEMPT_HEADER (.num next)) } }

/-- The channel operations when the handler has ended; `next` is `attempt + 1`. -/
def conclude (message : Message P) (handlerSucceeds : Bool) (maxAttempts : ℕ) (next : Number) :
    List (ChannelOp P) :=
  if handlerSucceeds then [.ack]
  -- the dead-letter exchange of the queue takes over
  else if maxAttempts ≤ next then [.nack false false]
  else [.publish (retryCopy message next), .ack]

/-- The channel operations of one call, in order, for a handler that succeeds or
rejects with an `Error`. `none` is a call that throws before it runs the
handler: it settles nothing. -/
def consumeWithRetry (message : Message P) (handlerSucceeds : Bool) (maxAttempts : ℕ) :
    Option (List (ChannelOp P)) := do
  let attempt ← attempt message
  return conclude message handlerSucceeds maxAttempts (attempt + (1 : ℕ))

/-! ## The call in doubles -/

namespace Double

/-- `Number(headers[ATTEMPT_HEADER] ?? 0)`, rounded to a double. -/
def attempt (message : Message P) : Option Number :=
  (((headers message).get ATTEMPT_HEADER).coalesce (.nat 0)).toDouble

/-- The call as the language computes it: the counter is a double, and so is its successor. -/
def consumeWithRetry (message : Message P) (handlerSucceeds : Bool) (maxAttempts : ℕ) :
    Option (List (ChannelOp P)) := do
  let attempt ← attempt message
  return conclude message handlerSucceeds maxAttempts attempt.increment

end Double

/-! ## What a call does -/

@[simp] theorem headers_retryCopy (m : Message P) (a : Number) :
    headers (retryCopy m a) = (headers m).set ATTEMPT_HEADER (.num a) := rfl

@[simp] theorem attempt_retryCopy (m : Message P) (a : Number) :
    attempt (retryCopy m a) = some a := by
  simp [attempt, Value.coalesce, Value.nullish]

theorem consumeWithRetry_success {m : Message P} {a : Number} {max : ℕ}
    (h : attempt m = some a) : consumeWithRetry m true max = some [.ack] := by
  simp [consumeWithRetry, conclude, h]

theorem consumeWithRetry_giveUp {m : Message P} {a : Number} {max : ℕ}
    (h : attempt m = some a) (hmax : max ≤ a + (1 : ℕ)) :
    consumeWithRetry m false max = some [.nack false false] := by
  simp [consumeWithRetry, conclude, h, hmax]

theorem consumeWithRetry_retry {m : Message P} {a : Number} {max : ℕ}
    (h : attempt m = some a) (hmax : ¬ max ≤ a + (1 : ℕ)) :
    consumeWithRetry m false max = some [.publish (retryCopy m (a + (1 : ℕ))), .ack] := by
  simp [consumeWithRetry, conclude, h, hmax]

/-- The four exits of a call. -/
theorem consumeWithRetry_cases (m : Message P) (ok : Bool) (max : ℕ) :
    (attempt m = none ∧ consumeWithRetry m ok max = none) ∨
    ∃ a, attempt m = some a ∧
      ((ok = true ∧ consumeWithRetry m ok max = some [.ack]) ∨
       (ok = false ∧ max ≤ a + (1 : ℕ) ∧
          consumeWithRetry m ok max = some [.nack false false]) ∨
       (ok = false ∧ ¬ max ≤ a + (1 : ℕ) ∧
          consumeWithRetry m ok max = some [.publish (retryCopy m (a + (1 : ℕ))), .ack])) := by
  cases h : attempt m with
  | none => exact .inl ⟨rfl, by simp [consumeWithRetry, conclude, h]⟩
  | some a =>
    refine .inr ⟨a, rfl, ?_⟩
    cases ok with
    | true => exact .inl ⟨rfl, consumeWithRetry_success h⟩
    | false =>
      by_cases hmax : max ≤ a + (1 : ℕ)
      · exact .inr (.inl ⟨rfl, hmax, consumeWithRetry_giveUp h hmax⟩)
      · exact .inr (.inr ⟨rfl, hmax, consumeWithRetry_retry h hmax⟩)

theorem Double.consumeWithRetry_failed {m : Message P} {a : Number}
    (h : Double.attempt m = some a) (max : ℕ) :
    Double.consumeWithRetry m false max =
      if max ≤ a.increment then some [.nack false false]
      else some [.publish (retryCopy m a.increment), .ack] := by
  simp only [Double.consumeWithRetry, h, Option.bind_eq_bind, Option.bind_some, conclude]
  split
  · contradiction
  · exact apply_ite some _ _ _

/-- Up to `2 ^ 53` a natural counter is a double, and rounding makes no difference. -/
theorem Double.consumeWithRetry_eq {m : Message P} {k : ℕ}
    (h : RabbitMQ.attempt m = some (k : Number)) (hk : k < 2 ^ 53) (ok : Bool) (max : ℕ) :
    Double.consumeWithRetry m ok max = RabbitMQ.consumeWithRetry m ok max := by
  have hattempt : Double.attempt m = some (k : Number) := by
    change (RabbitMQ.attempt m).map Number.rounded = some (k : Number)
    rw [h, Option.map_some, Number.rounded_natCast hk.le]
  have hsum : (k : Number) + (1 : ℕ) = (k + 1 : ℕ) := by
    simp [Number.natCast_def]
  simp only [Double.consumeWithRetry, RabbitMQ.consumeWithRetry, hattempt, h,
    Option.bind_eq_bind, Option.bind_some]
  rw [Number.increment_natCast hk, hsum]

/-- The counter starts at a number that is at least zero. -/
def CountsFromZero (m : Message P) : Prop :=
  ∃ a, attempt m = some a ∧ (0 : ℕ) ≤ a

end RabbitMQ
