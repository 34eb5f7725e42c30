-- SUMMARY: The retrying consumer as separate steps with crashes between them, and why no message is lost.
import Mathlib.Data.Multiset.MapFold
import NestPlatform.RabbitMQ.Guarantees

/-!
# Crashing consumers

Running the handler, publishing the retry copy and settling the delivery are steps of
their own, and a consumer may die between any two of them; the broker then requeues
what that consumer has not settled. Clients may publish anything to any exchange. Every
message of a work queue keeps a copy until its handler has succeeded.
-/
namespace RabbitMQ

open Amqp Transition

variable {P : Type}

/-! ## The steps of one delivery -/

/-- How a run of the handler ends. -/
inductive Outcome where
  | resolves
  | rejects
  /-- It rejects with `null` or `undefined`, and reading `error.message` throws. -/
  | rejectsNullish
  deriving DecidableEq

/-- The operations that the call still has to send when the handler has ended; `none` is
a call that throws before it runs the handler. -/
def settlement (message : Message P) (outcome : Outcome) (maxAttempts : ℕ) :
    Option (List (ChannelOp P)) :=
  match outcome with
  | .resolves => Double.consumeWithRetry message true maxAttempts
  | .rejects => Double.consumeWithRetry message false maxAttempts
  | .rejectsNullish => (Double.attempt message).map fun _ => []

/-- Where a copy is. -/
inductive Phase (P : Type) where
  | ready
  /-- With a consumer whose handler has not ended. -/
  | handling (consumer : ℕ)
  /-- With a consumer whose handler has ended; the operations have not reached the broker. -/
  | settling (consumer : ℕ) (ops : List (ChannelOp P))

/-- Copies that have just been put in their queues. -/
def arrive (copies : List (Copy P)) : List (Copy P × Phase P) := copies.map (·, .ready)

/-- The copy after a crash of the consumer. -/
def requeue (consumer : ℕ) : Copy P × Phase P → Copy P × Phase P
  | (c, .ready) => (c, .ready)
  | (c, .handling k) => if k = consumer then ({ c with unacked := false }, .ready) else (c, .handling k)
  | (c, .settling k ops) =>
    if k = consumer then ({ c with unacked := false }, .ready) else (c, .settling k ops)

/-- What the broker makes of the next operation on a delivery: a publication leaves the
delivery with its consumer, the other operations settle it. -/
def perform (b : Broker) (c : Copy P) (consumer : ℕ) (ops : List (ChannelOp P)) :
    ChannelOp P → List (Copy P × Phase P)
  | .publish m => (c, .settling consumer ops) :: arrive (b.send m c.origin)
  | op => arrive (b.perform c op)

/-! ## The system -/

structure CrashState (P : Type) where
  copies : Multiset (Copy P × Phase P)
  /-- The message of each publication made so far. -/
  original : ℕ → Option (Message P)
  succeeded : ℕ → String → ℕ

namespace CrashState

def initial : CrashState P := ⟨0, fun _ => none, fun _ _ => 0⟩

def IsInitial (s : CrashState P) : Prop := s = initial

end CrashState

inductive CrashEvent (P : Type) where
  | publish (i : ℕ) (m : Message P)
  | deliver (c : Copy P) (consumer : ℕ)
  | run (c : Copy P) (outcome : Outcome)
  | perform (c : Copy P)
  | crash (consumer : ℕ)
  | expire (c : Copy P)

section System

variable (b : Broker) (config : TopologyConfig) (max : ℕ)

inductive CrashStep : CrashState P → CrashEvent P → CrashState P → Prop where
  | publish {s : CrashState P} {i : ℕ} (m : Message P) :
      s.original i = none →
      CrashStep s (.publish i m)
        { s with
          copies := ↑(arrive (b.send m i)) + s.copies
          original := Function.update s.original i (some m) }
  | deliver {s : CrashState P} {c : Copy P} {k : ℕ} {rest : Multiset (Copy P × Phase P)} :
      s.copies = (c, .ready) ::ₘ rest → config.IsWorkQueue c.queue →
      CrashStep s (.deliver c k)
        { s with copies := ({ c with unacked := true }, .handling k) ::ₘ rest }
  | run {s : CrashState P} {c : Copy P} {k : ℕ} {rest : Multiset (Copy P × Phase P)}
      {outcome : Outcome} {ops : List (ChannelOp P)} :
      s.copies = (c, .handling k) ::ₘ rest → settlement c.message outcome max = some ops →
      CrashStep s (.run c outcome)
        { s with
          copies := (c, .settling k ops) ::ₘ rest
          succeeded :=
            if outcome = .resolves then bump s.succeeded c.origin c.queue else s.succeeded }
  | perform {s : CrashState P} {c : Copy P} {k : ℕ} {rest : Multiset (Copy P × Phase P)}
      {op : ChannelOp P} {ops : List (ChannelOp P)} :
      s.copies = (c, .settling k (op :: ops)) ::ₘ rest →
      CrashStep s (.perform c) { s with copies := ↑(RabbitMQ.perform b c k ops op) + rest }
  | crash {s : CrashState P} (k : ℕ) :
      CrashStep s (.crash k) { s with copies := s.copies.map (requeue k) }
  | expire {s : CrashState P} {c : Copy P} {rest : Multiset (Copy P × Phase P)} :
      s.copies = (c, .ready) ::ₘ rest → c.message.properties.expiration ≠ none →
      CrashStep s (.expire c)
        { s with copies := ↑(arrive (b.deadLetter c .expired)) + rest }

end System

/-! ## Copies that are kept -/

theorem TopologyConfig.Declared.dlq_mem_route {config : TopologyConfig} {b : Broker}
    (h : config.Declared config.queues b) (key : String) : config.dlq ∈ b.route config.dlx key := by
  obtain ⟨hmem, hname⟩ := findQueue_mem h.dlq
  apply List.mem_filter.mpr
  refine ⟨List.mem_map.mpr ⟨_, hmem, hname⟩, ?_⟩
  simp [Broker.binds, h.bindings]

/-- A work queue dead-letters to the dead-letter queue, where the copy does not expire. -/
theorem TopologyConfig.Declared.deadLetter_kept {config : TopologyConfig} {b : Broker}
    (h : config.Declared config.queues b) {c : Copy P} (hc : config.IsWorkQueue c.queue)
    (reason : DeathReason) :
    ∃ c' ∈ b.deadLetter c reason, c'.origin = c.origin ∧
      c'.message.content = c.message.content ∧ c'.queue = config.dlq ∧
      c'.message.properties.expiration = none := by
  obtain ⟨qc, hqc, hname⟩ := hc
  have hdecl : (b.findQueue c.queue).bind QueueDecl.deadLetter =
      some (config.dlx, qc.routingKey) := by
    rw [← hname, h.work qc hqc]
    rfl
  unfold Broker.deadLetter
  rw [hdecl]
  exact ⟨_, List.mem_map_of_mem (h.dlq_mem_route qc.routingKey), rfl, rfl, rfl, rfl⟩

/-- Settling the delivery of `c` makes another copy first. -/
def Phase.Succeeded (c : Copy P) : Phase P → Prop
  | .ready | .handling _ | .settling _ [] => True
  | .settling _ (op :: _) =>
    op = .nack false false ∨ ∃ a, op = .publish (retryCopy c.message a)

/-- A handler run that fails leaves the delivery with a successor to come. -/
theorem succeeded_of_settlement {c : Copy P} {outcome : Outcome} {max : ℕ} {ops : List (ChannelOp P)}
    (h : settlement c.message outcome max = some ops) (hfails : outcome ≠ .resolves) (k : ℕ) :
    (Phase.settling k ops).Succeeded c := by
  cases outcome with
  | resolves => exact absurd rfl hfails
  | rejects =>
    dsimp only [settlement] at h
    cases hattempt : Double.attempt c.message with
    | none => simp [Double.consumeWithRetry, hattempt] at h
    | some a =>
      rw [Double.consumeWithRetry_failed hattempt] at h
      split at h
      · cases h
        exact .inl rfl
      · cases h
        exact .inr ⟨_, rfl⟩
  | rejectsNullish =>
    obtain ⟨a, -, rfl⟩ := Option.map_eq_some_iff.mp h
    trivial

section Kept

variable {b : Broker} {config : TopologyConfig} {max : ℕ} {m : Message P} {i : ℕ} {q : String}

/-- A copy of publication `i` that the system cannot lose: it is in the work queue `q` or
with a consumer of it, and can be sent there again, or it is in the dead-letter queue. -/
structure Kept (b : Broker) (config : TopologyConfig) (m : Message P) (i : ℕ) (q : String)
    (x : Copy P × Phase P) : Prop where
  origin : x.1.origin = i
  content : x.1.message.content = m.content
  place : (x.1.queue = q ∧ q ∈ b.targets x.1.message.exchange x.1.message.routingKey ∧
      x.2.Succeeded x.1) ∨
    (x.1.queue = config.dlq ∧ x.1.message.properties.expiration = none ∧ x.2 = .ready)

theorem Kept.deadLetter (hb : config.Declared config.queues b) (hq : config.IsWorkQueue q)
    {x : Copy P × Phase P} (h : Kept b config m i q x) (hqueue : x.1.queue = q)
    (reason : DeathReason) : ∃ y ∈ arrive (b.deadLetter x.1 reason), Kept b config m i q y := by
  obtain ⟨c', hc', horigin, hcontent, hdlq, hexpiration⟩ :=
    hb.deadLetter_kept (c := x.1) (hqueue ▸ hq) reason
  exact ⟨(c', .ready), List.mem_map_of_mem hc', horigin.trans h.origin, hcontent.trans h.content,
    .inr ⟨hdlq, hexpiration, rfl⟩⟩

/-- A copy that is sent to the queue is kept. -/
theorem kept_of_send {m' : Message P} (hcontent : m'.content = m.content)
    (hq : q ∈ b.targets m'.exchange m'.routingKey) :
    ∃ y ∈ arrive (b.send m' i), Kept b config m i q y := by
  refine ⟨(⟨m', q, false, [], i⟩, .ready), List.mem_map_of_mem (List.mem_map_of_mem hq), ?_⟩
  exact ⟨rfl, hcontent, .inl ⟨rfl, hq, trivial⟩⟩

/-- What the broker makes of a kept delivery has a kept copy. -/
theorem Kept.perform (hb : config.Declared config.queues b) (hq : config.IsWorkQueue q)
    {c : Copy P} {k : ℕ} {op : ChannelOp P} {ops : List (ChannelOp P)}
    (h : Kept b config m i q (c, .settling k (op :: ops))) :
    ∃ y ∈ RabbitMQ.perform b c k ops op, Kept b config m i q y := by
  obtain ⟨hqueue, htargets, hsucceeded⟩ | ⟨-, -, hready⟩ := h.place
  · have hop : op = .nack false false ∨ ∃ a, op = .publish (retryCopy c.message a) := hsucceeded
    obtain rfl | ⟨a, rfl⟩ := hop
    · exact h.deadLetter hb hq hqueue .rejected
    obtain rfl : c.origin = i := h.origin
    have hsent : ∃ y ∈ arrive (b.send (retryCopy c.message a) c.origin),
        Kept b config m c.origin q y := kept_of_send h.content htargets
    obtain ⟨y, hy, hkept⟩ := hsent
    exact ⟨y, List.mem_cons_of_mem _ hy, hkept⟩
  · cases hready

theorem Kept.requeue {x : Copy P × Phase P} (h : Kept b config m i q x) (k : ℕ) :
    Kept b config m i q (RabbitMQ.requeue k x) := by
  obtain ⟨c, phase⟩ := x
  rcases h.place with ⟨hqueue, htargets, hsucceeded⟩ | ⟨hqueue, hexpiration, hready⟩
  · cases phase with
    | ready => exact h
    | handling k' | settling k' =>
      unfold RabbitMQ.requeue
      dsimp only
      split
      · exact ⟨h.origin, h.content, .inl ⟨hqueue, htargets, trivial⟩⟩
      · exact h
  · obtain rfl : phase = .ready := hready
    exact h

end Kept

/-! ## No message is lost -/

/-- Publication `i` has been handled on `q`, or a copy of it is kept. -/
def NotLost (b : Broker) (config : TopologyConfig) (s : CrashState P) (m : Message P) (i : ℕ)
    (q : String) : Prop :=
  0 < s.succeeded i q ∨ ∃ x ∈ s.copies, Kept b config m i q x

/-- Every publication that reached a work queue is not lost there. -/
def NothingLost (b : Broker) (config : TopologyConfig) (s : CrashState P) : Prop :=
  ∀ i m q, s.original i = some m → config.IsWorkQueue q →
    q ∈ b.targets m.exchange m.routingKey → NotLost b config s m i q

section Runs

variable {b : Broker} {config : TopologyConfig} {max : ℕ}

theorem bump_pos {runs : ℕ → String → ℕ} {i i' : ℕ} {q q' : String} (h : 0 < runs i q) :
    0 < bump runs i' q' i q := by
  unfold bump
  split
  · exact Nat.succ_pos _
  · exact h

/-- If one copy is replaced, a kept copy stays or its replacement has one. -/
theorem NotLost.replace {s s' : CrashState P} {m : Message P} {i : ℕ} {q : String}
    (h : NotLost b config s m i q) {x : Copy P × Phase P} {rest new : Multiset (Copy P × Phase P)}
    (hcopies : s.copies = x ::ₘ rest) (hcopies' : s'.copies = new + rest)
    (hsucceeded : 0 < s.succeeded i q → 0 < s'.succeeded i q)
    (hx : Kept b config m i q x → 0 < s'.succeeded i q ∨ ∃ y ∈ new, Kept b config m i q y) :
    NotLost b config s' m i q := by
  rcases h with hdone | ⟨y, hy, hkept⟩
  · exact .inl (hsucceeded hdone)
  · rw [hcopies, Multiset.mem_cons] at hy
    rcases hy with rfl | hy
    · refine (hx hkept).imp id fun ⟨y, hy, hkept⟩ => ⟨y, ?_, hkept⟩
      rw [hcopies']
      exact Multiset.mem_add.mpr (.inl hy)
    · refine .inr ⟨y, ?_, hkept⟩
      rw [hcopies']
      exact Multiset.mem_add.mpr (.inr hy)

/-- No step loses a message. -/
theorem CrashStep.notLost (hb : config.Declared config.queues b) {m : Message P} {i : ℕ}
    {q : String} (hq : config.IsWorkQueue q) {s s' : CrashState P} {e : CrashEvent P}
    (h : CrashStep b config max s e s') (hs : NotLost b config s m i q) :
    NotLost b config s' m i q := by
  cases h with
  | publish m' hfresh =>
    refine hs.imp id fun ⟨y, hy, hkept⟩ => ⟨y, ?_, hkept⟩
    exact Multiset.mem_add.mpr (.inr hy)
  | @deliver c k rest hcopies hwork =>
    refine hs.replace hcopies (Multiset.singleton_add _ _).symm id fun hkept => .inr ?_
    refine ⟨_, Multiset.mem_singleton_self _, hkept.origin, hkept.content, .inl ?_⟩
    rcases hkept.place with ⟨hqueue, htargets, -⟩ | ⟨hdlq, -, -⟩
    · exact ⟨hqueue, htargets, trivial⟩
    · -- nobody consumes the dead-letter queue
      obtain hdlq : c.queue = config.dlq := hdlq
      exact absurd (hdlq ▸ hwork) hb.dlq_not_work
  | @run c k rest outcome ops hcopies hops =>
    refine hs.replace hcopies (Multiset.singleton_add _ _).symm ?_ fun hkept => ?_
    · intro hdone
      dsimp only
      split
      · exact bump_pos hdone
      · exact hdone
    · rcases hkept.place with ⟨hqueue, htargets, -⟩ | ⟨-, -, hready⟩
      · by_cases hresolves : outcome = .resolves
        · refine .inl ?_
          obtain rfl : c.origin = i := hkept.origin
          obtain rfl : c.queue = q := hqueue
          dsimp only
          rw [if_pos hresolves, bump_self]
          exact Nat.succ_pos _
        · refine .inr ⟨_, Multiset.mem_singleton_self _, hkept.origin, hkept.content, .inl ?_⟩
          exact ⟨hqueue, htargets, succeeded_of_settlement hops hresolves k⟩
      · cases hready
  | @perform c k rest op ops hcopies =>
    exact hs.replace hcopies rfl id fun hkept => .inr (hkept.perform hb hq)
  | crash k =>
    refine hs.imp id fun ⟨y, hy, hkept⟩ => ⟨requeue k y, ?_, hkept.requeue k⟩
    exact Multiset.mem_map_of_mem _ hy
  | @expire c rest hcopies hexpiration =>
    refine hs.replace hcopies rfl id fun hkept => .inr ?_
    rcases hkept.place with ⟨hqueue, -, -⟩ | ⟨-, hnone, -⟩
    · exact hkept.deadLetter hb hq hqueue .expired
    · exact absurd hnone hexpiration

theorem CrashStep.nothingLost (hb : config.Declared config.queues b) {s s' : CrashState P}
    {e : CrashEvent P} (h : CrashStep b config max s e s') (hs : NothingLost b config s) :
    NothingLost b config s' := by
  intro i m q hm hq htargets
  by_cases hold : s.original i = some m
  · exact h.notLost hb hq (hs i m q hold hq htargets)
  · cases h with
    | @publish j m' hfresh =>
      by_cases hi : i = j
      · subst hi
        obtain rfl : m' = m := by simpa using hm
        have hsent : ∃ y ∈ arrive (b.send m' i), Kept b config m' i q y := kept_of_send rfl htargets
        obtain ⟨y, hy, hkept⟩ := hsent
        exact .inr ⟨y, Multiset.mem_add.mpr (.inl hy), hkept⟩
      · exact absurd (by simpa [Function.update_of_ne hi] using hm) hold
    | deliver | run | perform | crash | expire => exact absurd hm hold

/-- Whatever consumers do and whenever they die, a message that reached a work queue has
been handled there, or a copy of it is in that queue, with a consumer of it or in the
dead-letter queue. -/
theorem reachable_notLost (h : assertTopology .empty config = some b) {s : CrashState P}
    (hs : Reachable CrashState.IsInitial (CrashStep b config max) s) {i : ℕ} {m : Message P}
    (hm : s.original i = some m) {q : String} (hq : config.IsWorkQueue q)
    (htargets : q ∈ b.targets m.exchange m.routingKey) :
    0 < s.succeeded i q ∨ ∃ x ∈ s.copies, x.1.origin = i ∧ x.1.message.content = m.content ∧
      (x.1.queue = q ∨ x.1.queue = config.dlq) := by
  have hlost : NothingLost b config s := by
    refine Reachable.invariant hs ?_ fun _ _ _ hs hstep => hstep.nothingLost (assertTopology_declared h) hs
    rintro _ rfl i m q hm
    cases hm
  refine (hlost i m q hm hq htargets).imp id fun ⟨x, hx, hkept⟩ => ⟨x, hx, hkept.origin, hkept.content, ?_⟩
  exact hkept.place.imp And.left And.left

end Runs

/-! ### A crash between the publication and the acknowledgement -/

/-- One publication to `ordersOnly`, with the given copies of it. -/
def ordersCrash (copies : List (Copy Unit × Phase Unit)) : CrashState Unit :=
  { (CrashState.initial : CrashState Unit) with
    copies := ↑copies
    original := Function.update (fun _ => none) 0 (some created) }

def retriedCopy : Copy Unit := ⟨retryCopy created (1 : ℕ), "orders", false, [], 0⟩

theorem settlement_created :
    settlement created .rejects 3 =
      some [.publish (retryCopy created (1 : ℕ)), .ack] := by
  have hattempt : Double.attempt created = some (0 : ℕ) := by decide +kernel
  have hnext : Js.Number.increment (0 : ℕ) = (1 : ℕ) := Js.Number.increment_natCast (by norm_num)
  have hcall := Double.consumeWithRetry_failed hattempt 3
  rw [hnext, if_neg (by decide)] at hcall
  exact hcall

/-- The consumer fails, publishes the retry copy and dies before it acknowledges: the
message is in its queue twice. -/
theorem reachable_notLost_created :
    ∃ s : CrashState Unit, s.copies.card = 2 ∧
      (0 < s.succeeded 0 "orders" ∨ ∃ x ∈ s.copies, x.1.origin = 0 ∧
        x.1.message.content = created.content ∧
        (x.1.queue = "orders" ∨ x.1.queue = (ordersOnly "app.dlx").dlq)) := by
  let b := ordersBroker "app.dlx" ["app", "app.dlx"]
  let config := ordersOnly "app.dlx"
  let c := createdCopy "orders" false
  let held := createdCopy "orders" true
  let ops : List (ChannelOp Unit) := [.publish retriedCopy.message, .ack]
  have hq : config.IsWorkQueue "orders" := ⟨_, List.mem_singleton_self _, rfl⟩
  have hinit : Reachable CrashState.IsInitial (CrashStep b config 3)
      (CrashState.initial : CrashState Unit) := .init rfl
  have hpublish : CrashStep b config 3 .initial (.publish 0 created) (ordersCrash [(c, .ready)]) :=
    .publish created rfl
  have hdeliver : CrashStep b config 3 (ordersCrash [(c, .ready)]) (.deliver c 7)
      (ordersCrash [(held, .handling 7)]) :=
    @CrashStep.deliver Unit b config 3 (ordersCrash [(c, .ready)]) c 7 0 rfl hq
  have hrun : CrashStep b config 3 (ordersCrash [(held, .handling 7)]) (.run held .rejects)
      (ordersCrash [(held, .settling 7 ops)]) :=
    @CrashStep.run Unit b config 3 (ordersCrash [(held, .handling 7)]) held 7 0 .rejects ops rfl
      settlement_created
  have hretry : CrashStep b config 3 (ordersCrash [(held, .settling 7 ops)]) (.perform held)
      (ordersCrash [(held, .settling 7 [.ack]), (retriedCopy, .ready)]) :=
    @CrashStep.perform Unit b config 3 (ordersCrash [(held, .settling 7 ops)]) held 7 0
      (.publish retriedCopy.message) [.ack] rfl
  have hcrash : CrashStep b config 3
      (ordersCrash [(held, .settling 7 [.ack]), (retriedCopy, .ready)]) (.crash 7)
      (ordersCrash [(c, .ready), (retriedCopy, .ready)]) :=
    .crash 7
  have hs : Reachable CrashState.IsInitial (CrashStep b config 3)
      (ordersCrash [(c, .ready), (retriedCopy, .ready)]) :=
    ((((hinit.step hpublish).step hdeliver).step hrun).step hretry).step hcrash
  exact ⟨_, rfl, reachable_notLost rfl hs rfl hq (by decide)⟩

end RabbitMQ
