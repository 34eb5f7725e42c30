-- SUMMARY: When the chain of retries of a message ends, with the counter in doubles.
import Mathlib.Order.Nat
import NestPlatform.RabbitMQ.Consumer

/-!
# Poison messages

A handler that fails on every delivery makes one message a chain of copies, each with the next
value of the counter. The chain ends when a copy is rejected to the dead-letter exchange.
-/
namespace RabbitMQ

open Amqp Js Number

variable {P : Type}

/-! ## What a failed run does -/

theorem Double.attempt_retryCopy (m : Message P) (a : Number) :
    Double.attempt (retryCopy m a) = some a.rounded := by
  change (RabbitMQ.attempt (retryCopy m a)).map Number.rounded = _
  rw [RabbitMQ.attempt_retryCopy, Option.map_some]

/-- The counter is a double. -/
theorem Double.rounded_attempt {m : Message P} {a : Number} (h : Double.attempt m = some a) :
    a.rounded = a := by
  obtain ⟨n, -, rfl⟩ := Option.map_eq_some_iff.mp h
  exact rounded_rounded n

/-! ## The chain of retries -/

/-- A handler that always fails is run exactly `n` times on `m` and the copies
republished from it, and the last of them is dead-lettered. -/
inductive DeadLettersAfter (max : ℕ) : Message P → ℕ → Prop where
  | giveUp {m : Message P} :
      Double.consumeWithRetry m false max = some [.nack false false] → DeadLettersAfter max m 1
  | retry {m m' : Message P} {n : ℕ} :
      Double.consumeWithRetry m false max = some [.publish m', .ack] →
      DeadLettersAfter max m' n → DeadLettersAfter max m (n + 1)

/-- No poison loop starts at `m`: a handler that always fails is run at most
`max` times, and then the message is dead-lettered. -/
def PoisonFree (max : ℕ) (m : Message P) : Prop :=
  ∃ n, n ≤ max ∧ DeadLettersAfter max m n

/-- The counter reaches the limit within as many runs. -/
def CountsInTime (max : ℕ) (m : Message P) : Prop :=
  ∃ a, Double.attempt m = some a ∧ ReachesInTime max a

theorem DeadLettersAfter.attempt_eq_some {max : ℕ} {m : Message P} {n : ℕ}
    (h : DeadLettersAfter max m n) : ∃ a, Double.attempt m = some a := by
  cases ha : Double.attempt m with
  | some a => exact ⟨a, rfl⟩
  | none => cases h <;> simp_all [Double.consumeWithRetry]

/-- Each run adds one to the counter, and the last one finds it at the limit. -/
theorem DeadLettersAfter.limit_le {max : ℕ} {m : Message P} {n : ℕ}
    (h : DeadLettersAfter max m n) {a : Number} (ha : Double.attempt m = some a) :
    max ≤ increment^[n] a := by
  induction h generalizing a with
  | giveUp hgive =>
    rw [Double.consumeWithRetry_failed ha] at hgive
    split at hgive
    · assumption
    · cases hgive
  | @retry m m' n hstep _ ih =>
    rw [Double.consumeWithRetry_failed ha] at hstep
    split at hstep
    · cases hstep
    · cases hstep
      exact ih (Double.attempt_retryCopy m _ |>.trans (by rw [rounded_increment]))

/-- The chain ends at the first run that finds the counter at the limit. -/
theorem deadLettersAfter_of_limit {max : ℕ} (n : ℕ) {m : Message P} {a : Number}
    (ha : Double.attempt m = some a) (hlimit : max ≤ increment^[n + 1] a) :
    ∃ k, k ≤ n + 1 ∧ DeadLettersAfter max m k := by
  induction n generalizing m a with
  | zero =>
    refine ⟨1, le_refl _, .giveUp ?_⟩
    rw [Double.consumeWithRetry_failed ha]
    exact if_pos hlimit
  | succ n ih =>
    have hcall := Double.consumeWithRetry_failed ha max
    by_cases hnow : max ≤ a.increment
    · rw [if_pos hnow] at hcall
      exact ⟨1, by omega, .giveUp hcall⟩
    · rw [if_neg hnow] at hcall
      have hnext : Double.attempt (retryCopy m a.increment) = some a.increment := by
        rw [Double.attempt_retryCopy, rounded_increment]
      obtain ⟨k, hk, hchain⟩ := ih hnext hlimit
      exact ⟨k + 1, by omega, .retry hcall hchain⟩

/-- A counter that has reached the limit stays there. -/
theorem limit_le_of_le {max : ℕ} {a : Number} (ha : a.rounded = a) {n k : ℕ} (hnk : n ≤ k)
    (h : max ≤ increment^[n] a) : max ≤ increment^[k] a := by
  induction k, hnk using Nat.le_induction with
  | base => exact h
  | succ k hnk ih =>
    have hdouble : (increment^[k] a).rounded = increment^[k] a := by
      cases k with
      | zero => exact ha
      | succ k =>
        rw [Function.iterate_succ_apply']
        exact rounded_increment _
    have hnan : increment^[k] a ≠ .nan := by
      intro hnan
      rw [hnan] at ih
      exact not_le_nan _ ih
    rw [Function.iterate_succ_apply']
    exact Number.le_trans ih (le_increment hdouble hnan)

/-- Poison loops cannot form exactly from the messages whose counter, in doubles, reaches the limit
in time. -/
theorem poisonFree_iff_countsInTime (m : Message P) {max : ℕ} (hmax : 1 ≤ max) :
    PoisonFree max m ↔ CountsInTime max m := by
  constructor
  · rintro ⟨n, hn, hchain⟩
    obtain ⟨a, ha⟩ := hchain.attempt_eq_some
    have hdouble := Double.rounded_attempt ha
    refine ⟨a, ha, (reachesInTime_iff hdouble hmax).mpr ?_⟩
    exact limit_le_of_le hdouble hn (hchain.limit_le ha)
  · rintro ⟨a, ha, hreaches⟩
    rw [reachesInTime_iff (Double.rounded_attempt ha) hmax] at hreaches
    obtain ⟨n, rfl⟩ : ∃ n, max = n + 1 := ⟨max - 1, by omega⟩
    exact deadLettersAfter_of_limit n ha hreaches

/-- A message with one header, the counter. -/
def counted (x : Value) : Message Unit :=
  ⟨"app", "created", (), { headers := some [(ATTEMPT_HEADER, x)] }⟩

/-- A counter just below zero is rounded up to one by the first addition: three runs. -/
theorem poisonFree_justBelowZero :
    Double.consumeWithRetry (counted (.str "-1e-20")) false 3 =
      some [.publish (retryCopy (counted (.str "-1e-20")) (1 : ℕ)), .ack] ∧
      PoisonFree 3 (counted (.str "-1e-20")) := by
  have hcount : Double.attempt (counted (.str "-1e-20")) = some (rounded (.fin (-1 / 10 ^ 20))) := by
    decide +kernel
  have hnext : increment (rounded (.fin (-1 / 10 ^ 20))) = (1 : ℕ) := by decide +kernel
  have hretry := Double.consumeWithRetry_failed hcount 3
  rw [hnext, if_neg (by decide)] at hretry
  exact ⟨hretry, (poisonFree_iff_countsInTime _ (by omega)).mpr ⟨_, hcount, by decide +kernel⟩⟩

/-- A counter that is no number stays `NaN` on every republished copy. -/
theorem not_poisonFree_abc : ¬ PoisonFree 3 (counted (.str "abc")) := by
  rintro ⟨n, -, hchain⟩
  have hcount : Double.attempt (counted (.str "abc")) = some .nan := rfl
  have hlimit := hchain.limit_le hcount
  rw [Function.iterate_fixed increment_nan] at hlimit
  exact not_le_nan _ hlimit

end RabbitMQ
