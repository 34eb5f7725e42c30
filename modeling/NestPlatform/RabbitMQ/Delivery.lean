-- SUMMARY: The system of publishers, broker and retrying consumers, as a step relation over the copies in flight.
import Mathlib.Data.Multiset.Filter
import NestPlatform.Lib.Transition
import NestPlatform.RabbitMQ.Topology

/-!
# Delivery

Publishers, the broker and the consumers of the declared queues, with any order
of publications, deliveries and handler outcomes. Settling a delivery is one
step. The state keeps, for every publication and queue, how many handler runs
failed and succeeded; the code never reads these counts.
-/
namespace RabbitMQ

open Amqp

variable {P : Type}

structure State (P : Type) where
  copies : Multiset (Copy P)
  /-- The message of each publication made so far. -/
  original : ℕ → Option (Message P)
  failed : ℕ → String → ℕ
  succeeded : ℕ → String → ℕ

def State.initial : State P := ⟨0, fun _ => none, fun _ _ => 0, fun _ _ => 0⟩

def State.IsInitial (s : State P) : Prop := s = initial

theorem State.isInitial_initial : (State.initial : State P).IsInitial := rfl

/-- `runs` with one more run of publication `i` on queue `q`. -/
def bump (runs : ℕ → String → ℕ) (i : ℕ) (q : String) : ℕ → String → ℕ :=
  fun i' q' => if i' = i ∧ q' = q then runs i' q' + 1 else runs i' q'

inductive Event (P : Type) where
  | publish (i : ℕ) (routingKey : String) (payload : P) (options : PublishOptions)
  | deliver (c : Copy P)
  | finish (c : Copy P) (handlerSucceeds : Bool)
  | expire (c : Copy P)

section System

variable (b : Broker) (config : TopologyConfig) (max : ℕ)

inductive Step : State P → Event P → State P → Prop where
  | publish {s : State P} {i : ℕ} (routingKey : String) (payload : P) (options : PublishOptions) :
      s.original i = none →
      Step s (.publish i routingKey payload options)
        { s with
          copies := ↑(b.enqueue (publish config.exchange routingKey payload options) i []) + s.copies
          original := Function.update s.original i
            (some (publish config.exchange routingKey payload options)) }
  | deliver {s : State P} {c : Copy P} {rest : Multiset (Copy P)} :
      s.copies = c ::ₘ rest → c.unacked = false → config.IsWorkQueue c.queue →
      Step s (.deliver c) { s with copies := { c with unacked := true } ::ₘ rest }
  | finish {s : State P} {c : Copy P} {rest : Multiset (Copy P)} {ok : Bool}
      {ops : List (ChannelOp P)} :
      s.copies = c ::ₘ rest → c.unacked = true →
      consumeWithRetry c.message ok max = some ops →
      Step s (.finish c ok)
        { s with
          copies := ↑(ops.flatMap (b.perform c)) + rest
          failed := if ok then s.failed else bump s.failed c.origin c.queue
          succeeded := if ok then bump s.succeeded c.origin c.queue else s.succeeded }
  | expire {s : State P} {c : Copy P} {rest : Multiset (Copy P)} :
      s.copies = c ::ₘ rest → c.unacked = false → c.message.properties.expiration ≠ none →
      Step s (.expire c) { s with copies := ↑(b.deadLetter c .expired) + rest }

end System

@[simp] theorem bump_self (runs : ℕ → String → ℕ) (i : ℕ) (q : String) :
    bump runs i q i q = runs i q + 1 := by simp [bump]

theorem bump_ne {runs : ℕ → String → ℕ} {i i' : ℕ} {q q' : String} (h : ¬ (i' = i ∧ q' = q)) :
    bump runs i q i' q' = runs i' q' := if_neg h

section Originals

variable {b : Broker} {config : TopologyConfig} {max : ℕ}

/-- A property of every message published so far. -/
def State.AllOriginals (s : State P) (Holds : Message P → Prop) : Prop :=
  ∀ i m₀, s.original i = some m₀ → Holds m₀

theorem Step.allOriginals {Holds : Message P → Prop} {s s' : State P} {e : Event P}
    (h : Step b config max s e s') (hs : s.AllOriginals Holds)
    (hpublish : ∀ i routingKey payload options, e = .publish i routingKey payload options →
      Holds (RabbitMQ.publish config.exchange routingKey payload options)) :
    s'.AllOriginals Holds := by
  cases h with
  | @publish i routingKey payload options hfresh =>
    intro i' m₀ hm₀
    by_cases hi : i' = i
    · obtain rfl : RabbitMQ.publish config.exchange routingKey payload options = m₀ := by
        simpa [hi] using hm₀
      exact hpublish i _ _ _ rfl
    · exact hs i' m₀ (by simpa [hi] using hm₀)
  | deliver | finish | expire => exact hs

end Originals

end RabbitMQ
