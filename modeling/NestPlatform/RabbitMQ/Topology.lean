-- SUMMARY: The declarations of `assertTopology` and the message `RabbitMQPublisher.publish` sends.
import NestPlatform.RabbitMQ.Consumer

/-!
# Topology and publisher

`assertTopology` declares one topic exchange with the work queues bound to it,
and a dead-letter exchange with one queue bound to every key. `publish` sends to
the topic exchange with the attempt counter at zero.
-/
namespace RabbitMQ

open Amqp Js

variable {P : Type}

/-! ## Topology -/

structure QueueConfig where
  name : String
  routingKey : String

structure TopologyConfig where
  exchange : String
  dlx : String
  dlq : String
  queues : List QueueConfig

namespace QueueConfig

/-- The arguments the queue is declared with. -/
def decl (q : QueueConfig) (dlx : String) : QueueDecl :=
  { name := q.name, durable := true, deadLetter := some (dlx, q.routingKey) }

end QueueConfig

namespace TopologyConfig

def dlqDecl (config : TopologyConfig) : QueueDecl :=
  { name := config.dlq, durable := true, deadLetter := none }

end TopologyConfig

/-- The body of the loop over `config.queues`. -/
def assertWorkQueue (config : TopologyConfig) (b : Broker) (q : QueueConfig) : Option Broker := do
  let b ← b.assertQueue (q.decl config.dlx)
  b.bindQueue q.name config.exchange q.routingKey

/-- `none` is a channel error, after which the declarations are not usable. -/
def assertTopology (channel : Broker) (config : TopologyConfig) : Option Broker := do
  let b := channel.assertExchange config.exchange
  let b := b.assertExchange config.dlx
  let b ← b.assertQueue config.dlqDecl
  let b ← b.bindQueue config.dlq config.dlx "#"
  config.queues.foldlM (assertWorkQueue config) b

/-! ## What has been declared -/

namespace TopologyConfig

/-- A queue the application consumes. -/
def IsWorkQueue (config : TopologyConfig) (q : String) : Prop :=
  ∃ qc ∈ config.queues, qc.name = q

/-- The declarations for the queues in `done` have been accepted. -/
structure Declared (config : TopologyConfig) (done : List QueueConfig) (b : Broker) : Prop where
  nodup : (b.queues.map QueueDecl.name).Nodup
  bindings : b.bindings =
    ⟨config.dlq, config.dlx, "#"⟩ :: done.map fun q => ⟨q.name, config.exchange, q.routingKey⟩
  dlq : b.findQueue config.dlq = some config.dlqDecl
  work : ∀ q ∈ done, b.findQueue q.name = some (q.decl config.dlx)

end TopologyConfig

theorem findQueue_mem {b : Broker} {name : String} {q : QueueDecl} (h : b.findQueue name = some q) :
    q ∈ b.queues ∧ q.name = name := by
  refine ⟨List.mem_of_find?_eq_some h, ?_⟩
  simpa using List.find?_some h

/-- A queue that is declared keeps its declaration when another is accepted, and
the accepted one is found under its name. -/
theorem assertQueue_spec {b b' : Broker} {q : QueueDecl} (h : b.assertQueue q = some b')
    (hnodup : (b.queues.map QueueDecl.name).Nodup) :
    b'.findQueue q.name = some q ∧ b'.bindings = b.bindings ∧
      (b'.queues.map QueueDecl.name).Nodup ∧
      ∀ name q', b.findQueue name = some q' → b'.findQueue name = some q' := by
  unfold Broker.assertQueue at h
  cases hfind : b.findQueue q.name with
  | some q' =>
    simp only [hfind] at h
    split at h
    case isFalse => cases h
    rename_i heq
    cases h
    exact ⟨heq ▸ hfind, rfl, hnodup, fun _ _ => id⟩
  | none =>
    simp only [hfind, Option.some.injEq] at h
    subst h
    have hnew : ∀ q' ∈ b.queues, q'.name ≠ q.name := by
      simpa [Broker.findQueue] using hfind
    refine ⟨?_, rfl, ?_, ?_⟩
    · have hnone : List.find? (fun x => decide (x.name = q.name)) b.queues = none := hfind
      simp [Broker.findQueue, List.find?_append, hnone]
    · rw [List.map_append, List.nodup_append]
      refine ⟨hnodup, by simp, ?_⟩
      intro a ha c hc
      obtain ⟨q', hq', rfl⟩ := List.mem_map.mp ha
      obtain rfl : c = q.name := by simpa using hc
      exact hnew q' hq'
    · intro name q' hq'
      have hold : List.find? (fun x => decide (x.name = name)) b.queues = some q' := hq'
      simp [Broker.findQueue, List.find?_append, hold]

theorem bindQueue_spec {b b' : Broker} {queue exchange pattern : String}
    (h : b.bindQueue queue exchange pattern = some b') :
    b' = { b with bindings := b.bindings ++ [⟨queue, exchange, pattern⟩] } := by
  unfold Broker.bindQueue at h
  split at h
  · simpa using h.symm
  · cases h

theorem assertWorkQueue_declared {config : TopologyConfig} {done : List QueueConfig}
    {b b' : Broker} {q : QueueConfig} (hd : config.Declared done b)
    (h : assertWorkQueue config b q = some b') : config.Declared (done ++ [q]) b' := by
  obtain ⟨b₁, hassert, hbind⟩ := Option.bind_eq_some_iff.mp h
  obtain ⟨hq, hbindings, hnodup, hkeep⟩ := assertQueue_spec hassert hd.nodup
  obtain rfl := bindQueue_spec hbind
  refine ⟨hnodup, ?_, hkeep _ _ hd.dlq, ?_⟩
  · simp [hbindings, hd.bindings]
  · intro q' hq'
    rcases List.mem_append.mp hq' with hold | hnew
    · exact hkeep _ _ (hd.work q' hold)
    · obtain rfl : q' = q := by simpa using hnew
      exact hq

theorem foldlM_assertWorkQueue_declared {config : TopologyConfig} (todo : List QueueConfig)
    {done : List QueueConfig} {b b' : Broker} (hd : config.Declared done b)
    (h : todo.foldlM (assertWorkQueue config) b = some b') : config.Declared (done ++ todo) b' := by
  induction todo generalizing done b with
  | nil =>
    obtain rfl : b = b' := by simpa using h
    simpa using hd
  | cons q todo ih =>
    rw [List.foldlM_cons] at h
    obtain ⟨b₁, hq, hrest⟩ := Option.bind_eq_some_iff.mp h
    simpa using ih (assertWorkQueue_declared hd hq) hrest

theorem assertTopology_declared {config : TopologyConfig} {b : Broker}
    (h : assertTopology .empty config = some b) : config.Declared config.queues b := by
  obtain ⟨b₁, hassert, h⟩ := Option.bind_eq_some_iff.mp h
  obtain ⟨b₂, hbind, h⟩ := Option.bind_eq_some_iff.mp h
  have hexchanges : ∀ (b : Broker) (e : String),
      (b.assertExchange e).queues = b.queues ∧ (b.assertExchange e).bindings = b.bindings := by
    intro b e
    unfold Broker.assertExchange
    split <;> exact ⟨rfl, rfl⟩
  obtain ⟨hdlq, hbindings, hnodup, -⟩ := assertQueue_spec hassert (by simp [hexchanges, Broker.empty])
  obtain rfl := bindQueue_spec hbind
  have hd : config.Declared [] { b₁ with bindings := b₁.bindings ++ [⟨config.dlq, config.dlx, "#"⟩] } := by
    refine ⟨hnodup, ?_, hdlq, by simp⟩
    simp [hbindings, hexchanges, Broker.empty]
  exact foldlM_assertWorkQueue_declared config.queues hd h

/-! ## Routing in a declared topology -/

namespace TopologyConfig.Declared

variable {config : TopologyConfig} {b : Broker}

theorem route_nodup (h : config.Declared config.queues b) (exchange key : String) :
    (b.route exchange key).Nodup := h.nodup.filter _

/-- No consumer reads the dead-letter queue: the broker refuses to declare it
again as a work queue. -/
theorem dlq_not_work (h : config.Declared config.queues b) : ¬ config.IsWorkQueue config.dlq := by
  rintro ⟨q, hq, hname⟩
  have hwork := h.work q hq
  rw [hname, h.dlq] at hwork
  simp [QueueConfig.decl, dlqDecl] at hwork

theorem work_mem (h : config.Declared config.queues b) {q : String} (hq : config.IsWorkQueue q) :
    q ∈ b.queues.map QueueDecl.name := by
  obtain ⟨qc, hmem, rfl⟩ := hq
  obtain ⟨hdecl, hname⟩ := findQueue_mem (h.work qc hmem)
  exact List.mem_map.mpr ⟨_, hdecl, hname⟩

theorem mem_route (h : config.Declared config.queues b) (hne : config.exchange ≠ config.dlx)
    {q key : String} :
    q ∈ b.route config.exchange key ↔
      ∃ qc ∈ config.queues, qc.name = q ∧ Topic.accepts qc.routingKey key = true := by
  simp only [Broker.route, List.mem_filter, Broker.binds, h.bindings, List.any_cons, List.any_map]
  constructor
  · rintro ⟨_, hbind⟩
    simpa [hne.symm] using hbind
  · rintro ⟨qc, hqc, rfl, haccepts⟩
    refine ⟨h.work_mem ⟨qc, hqc, rfl⟩, ?_⟩
    simp only [Bool.or_eq_true, List.any_eq_true]
    exact .inr ⟨qc, hqc, by simp [haccepts]⟩

theorem route_dlx (h : config.Declared config.queues b) (hne : config.exchange ≠ config.dlx)
    (key : String) : b.route config.dlx key = [config.dlq] := by
  have hbinds : (b.binds · config.dlx key) = fun q => decide (q = config.dlq) := by
    funext q
    have hflip : config.dlq = q ↔ q = config.dlq := eq_comm
    simp [Broker.binds, h.bindings, hne, hflip]
  obtain ⟨hmem, hname⟩ := findQueue_mem h.dlq
  have hdlq : config.dlq ∈ b.queues.map QueueDecl.name := List.mem_map.mpr ⟨_, hmem, hname⟩
  rw [Broker.route, hbinds, List.filter_eq, List.count_eq_one_of_mem h.nodup hdlq,
    List.replicate_one]

end TopologyConfig.Declared

/-! ## Publisher -/

structure PublishOptions where
  messageId : Option String := none
  persistent : Option Bool := none
  correlationId : Option String := none
  headers : Option Entries := none
  expiration : Option ℕ := none

/-- The message the broker accepts; `payload` stands for its serialised form. -/
def publish (exchange routingKey : String) (payload : P) (options : PublishOptions) : Message P where
  exchange := exchange
  routingKey := routingKey
  content := payload
  properties :=
    { contentType := some "application/json"
      deliveryMode := some (if options.persistent.getD true then 2 else 1)
      messageId := options.messageId
      correlationId := options.correlationId
      headers := some (Entries.assign [(ATTEMPT_HEADER, .nat 0)] (options.headers.getD []))
      expiration := options.expiration.map toString }

/-- The caller leaves the attempt counter to the publisher. -/
def PublishOptions.NoOverride (options : PublishOptions) : Prop :=
  ATTEMPT_HEADER ∉ Entries.keys (options.headers.getD [])

theorem header_publish {exchange routingKey : String} {payload : P} {options : PublishOptions}
    (h : options.NoOverride) :
    (headers (publish exchange routingKey payload options)).get ATTEMPT_HEADER = .nat 0 :=
  (Entries.get_assign_of_notMem h).trans (Entries.get_cons_self _ _ _)

theorem attempt_publish {exchange routingKey : String} {payload : P} {options : PublishOptions}
    (h : options.NoOverride) :
    attempt (publish exchange routingKey payload options) = some (.fin 0) := by
  simp [attempt, header_publish h, Value.coalesce, Value.nullish, Value.nat, Number.natCast_def]

end RabbitMQ
