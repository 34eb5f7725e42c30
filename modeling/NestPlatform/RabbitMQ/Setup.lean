-- SUMMARY: The declarations that the processes of the platform make whenever they connect, in any order and side by side.
import NestPlatform.Amqp.Setup
import NestPlatform.RabbitMQ.Topology

/-!
# Setting up the topology

`RabbitMQModule` asserts the topology on every connection, and the clients and servers of the
RMQ transport declare the queue they use. Nobody waits for anybody: what the platform ends up
with must not depend on who connects first, or how often.
-/
namespace RabbitMQ

open Amqp Transition

/-! ## Clients -/

/-- The calls of the loop over `config.queues`. -/
def TopologyConfig.queueCalls (config : TopologyConfig) (q : QueueConfig) : List ChannelCall :=
  [.assertQueue (q.decl config.dlx), .bindQueue q.name config.exchange q.routingKey]

/-- The calls of `assertTopology`, in order. -/
def TopologyConfig.calls (config : TopologyConfig) : List ChannelCall :=
  .assertExchange config.exchange :: .assertExchange config.dlx ::
    .assertQueue config.dlqDecl :: .bindQueue config.dlq config.dlx "#" ::
      config.queues.flatMap config.queueCalls

/-- What connects to the broker. Every queue has a name of its own: none is empty. -/
inductive Client where
  /-- The channel of `RabbitMQModule.register`. -/
  | rabbitMQModule (config : TopologyConfig)
  /-- `Transport.RMQ` with `queueOptions: { durable: true }`, on either side. -/
  | transport (queue : String)

/-- What the client calls on every connection. -/
def Client.calls : Client → List ChannelCall
  | .rabbitMQModule config => config.calls
  | .transport queue => [.assertQueue ⟨queue, true, none⟩]

/-! ## The calls of `assertTopology` -/

/-- `assertTopology` makes the calls of its configuration, up to the first that is refused. -/
theorem assertTopology_eq (b : Broker) (config : TopologyConfig) :
    assertTopology b config = config.calls.foldlM Broker.call b := by
  have hloop : ∀ (queues : List QueueConfig) (b : Broker),
      queues.foldlM (assertWorkQueue config) b =
        (queues.flatMap config.queueCalls).foldlM Broker.call b := by
    intro queues
    induction queues with
    | nil => exact fun _ => rfl
    | cons q queues ih =>
      intro b
      rw [List.flatMap_cons, List.foldlM_append, List.foldlM_cons]
      have hqueue : assertWorkQueue config b q = (config.queueCalls q).foldlM Broker.call b := by
        simp [assertWorkQueue, TopologyConfig.queueCalls, Broker.call]
      rw [hqueue]
      exact congrArg _ (funext ih)
  simp only [assertTopology, TopologyConfig.calls, List.foldlM_cons, Broker.call, ← hloop]
  rfl

/-- The loop binds what it declares to an exchange that is declared before. -/
theorem supported_queueCalls {config : TopologyConfig} (queues : List QueueConfig)
    {known : List ChannelCall} (hknown : .assertExchange config.exchange ∈ known) :
    Supported known (queues.flatMap config.queueCalls) := by
  induction queues generalizing known with
  | nil => exact trivial
  | cons q queues ih =>
    refine ⟨⟨⟨q.decl config.dlx, List.mem_cons_self, rfl⟩, List.mem_cons_of_mem _ hknown⟩, ih ?_⟩
    exact List.mem_cons_of_mem _ (List.mem_cons_of_mem _ hknown)

theorem supported_calls (client : Client) : Supported [] client.calls := by
  cases client with
  | transport queue => exact trivial
  | rabbitMQModule config =>
    exact ⟨⟨⟨config.dlqDecl, by simp, rfl⟩, by simp⟩, supported_queueCalls config.queues (by simp)⟩

/-- The bindings that a client asks for. -/
theorem bindQueue_mem_calls {client : Client} {queue exchange pattern : String} :
    .bindQueue queue exchange pattern ∈ client.calls ↔ ∃ config, client = .rabbitMQModule config ∧
      (queue = config.dlq ∧ exchange = config.dlx ∧ pattern = "#" ∨
        ∃ q ∈ config.queues, queue = q.name ∧ exchange = config.exchange ∧ pattern = q.routingKey) := by
  cases client with
  | transport queue' => simp [Client.calls]
  | rabbitMQModule config => simp [Client.calls, TopologyConfig.calls, TopologyConfig.queueCalls]

section Runs

variable {s s' : Server Client} {events later : List (ServerEvent Client)}

/-- As long as the clients agree on the queues, whatever the order of their calls, however often they
lose their connection and come back, none is refused. Once all are ready, a message goes to the
dead-letter queue of its exchange and to the work queues whose key accepts it, once to each. -/
theorem run_agreeing (h : Run (ServerStep Client.calls) .start events s)
    (hagree : Agree fun c => ∃ client, .connected client ∈ events ∧ c ∈ Client.calls client) :
    (∀ client c, .refused client c ∉ events) ∧
    ((∀ client, .connected client ∈ events → s.Ready client) → ∀ exchange key,
      (s.broker.route exchange key).Nodup ∧
      ∀ queue, queue ∈ s.broker.route exchange key ↔
        ∃ config, .connected (.rabbitMQModule config) ∈ events ∧
          (queue = config.dlq ∧ exchange = config.dlx ∨
            ∃ q ∈ config.queues, queue = q.name ∧ exchange = config.exchange ∧
              Topic.accepts q.routingKey key = true)) := by
  have ht := tracked_of_run h
  refine ⟨not_refused_of_run supported_calls h hagree, fun hready exchange key => ?_⟩
  refine ⟨ht.sound.route_nodup exchange key, fun queue => ?_⟩
  rw [ht.mem_route hready]
  constructor
  · rintro ⟨client, pattern, hconnected, hcalls, haccepts⟩
    obtain ⟨config, rfl, ⟨rfl, rfl, rfl⟩ | ⟨q, hq, rfl, rfl, rfl⟩⟩ := bindQueue_mem_calls.mp hcalls
    · exact ⟨config, hconnected, .inl ⟨rfl, rfl⟩⟩
    · exact ⟨config, hconnected, .inr ⟨q, hq, rfl, rfl, haccepts⟩⟩
  · rintro ⟨config, hconnected, ⟨rfl, rfl⟩ | ⟨q, hq, rfl, rfl, haccepts⟩⟩
    · exact ⟨_, "#", hconnected, bindQueue_mem_calls.mpr ⟨config, rfl, .inl ⟨rfl, rfl, rfl⟩⟩,
        Topic.accepts_hash key⟩
    · exact ⟨_, q.routingKey, hconnected,
        bindQueue_mem_calls.mpr ⟨config, rfl, .inr ⟨q, hq, rfl, rfl, rfl⟩⟩, haccepts⟩

/-- A consumer of one queue. -/
def auditTopology : TopologyConfig := ⟨"app.events", "app.dlx", "app.dlq", [⟨"audit", "user.#"⟩]⟩

/-- The notification worker. -/
def worker : Client := .transport "notification.queue"

def auditConnection : Connection Client :=
  ⟨.rabbitMQModule auditTopology, auditTopology.calls, []⟩

def workerConnection : Connection Client := ⟨worker, worker.calls, []⟩

/-- The broker when the consumer has connected, and then the worker. -/
def platformServer : Server Client where
  broker :=
    { exchanges := ["app.events", "app.dlx"]
      queues := [auditTopology.dlqDecl, ⟨"audit", true, some ("app.dlx", "user.#")⟩,
        ⟨"notification.queue", true, none⟩]
      bindings := [⟨"app.dlq", "app.dlx", "#"⟩, ⟨"audit", "app.events", "user.#"⟩] }
  connections := {workerConnection, auditConnection}

theorem workerConnection_mem : workerConnection ∈ platformServer.connections :=
  Multiset.mem_cons_self workerConnection {auditConnection}

theorem auditConnection_mem : auditConnection ∈ platformServer.connections :=
  Multiset.mem_cons_of_mem (Multiset.mem_singleton_self auditConnection)

def platformEvents : List (ServerEvent Client) :=
  (.connected (.rabbitMQModule auditTopology) ::
    auditTopology.calls.map (.accepted (.rabbitMQModule auditTopology))) ++
  (.connected worker :: worker.calls.map (.accepted worker))

theorem platform_run : Run (ServerStep Client.calls) .start platformEvents platformServer :=
  (run_connect rfl).append (run_connect rfl)

theorem platform_ready (client : Client) (h : .connected client ∈ platformEvents) :
    platformServer.Ready client := by
  have hclient : client = .rabbitMQModule auditTopology ∨ client = worker := by
    simpa [platformEvents] using h
  rcases hclient with rfl | rfl
  · exact ⟨auditConnection, auditConnection_mem, rfl, rfl⟩
  · exact ⟨workerConnection, workerConnection_mem, rfl, rfl⟩

theorem platform_agree :
    Agree fun c => ∃ client, .connected client ∈ platformEvents ∧ c ∈ Client.calls client := by
  refine Broker.agree_of_has (b := platformServer.broker) ?_
  rintro c ⟨client, hconnected, hc⟩
  exact (tracked_of_run platform_run).has_of_ready (platform_ready client hconnected) hc

theorem run_agreeing_platform :
    .refused worker (.assertQueue ⟨"notification.queue", true, none⟩) ∉ platformEvents ∧
    (platformServer.broker.route "app.events" "user.created").Nodup :=
  have hagreeing := run_agreeing platform_run platform_agree
  ⟨hagreeing.1 _ _, (hagreeing.2 platform_ready _ _).1⟩

/-- A client that has been ready is never refused again, whatever other clients have declared or
failed to declare since; no route that existed is gone, and to declare its part again changes none.
A client that declares a queue in another way is never ready afterwards. -/
theorem run_reconnect {client : Client} (h : Run (ServerStep Client.calls) .start events s)
    (hready : s.Ready client) (hlater : Run (ServerStep Client.calls) s later s') :
    (∀ c, .refused client c ∉ later) ∧
    (∀ exchange key queue, queue ∈ s.broker.route exchange key → queue ∈ s'.broker.route exchange key) ∧
    (∀ c s'', ServerStep Client.calls s' (.accepted client c) s'' →
      s''.broker.route = s'.broker.route) ∧
    ∀ other, s'.Ready other → Agree fun c => c ∈ client.calls ∨ c ∈ other.calls := by
  have ht := tracked_of_run h
  have ht' := ht.run hlater
  have hcalls : ∀ c ∈ client.calls, s.broker.Has c := fun c hc => ht.has_of_ready hready hc
  have hstill : ∀ c ∈ client.calls, s'.broker.Has c := fun c hc => has_of_run hlater (hcalls c hc)
  refine ⟨not_refused_again supported_calls ht hcalls hlater, ?_, ?_, ?_⟩
  · intro exchange key queue hroute
    obtain ⟨pattern, hbound, haccepts⟩ := ht.sound.mem_route.mp hroute
    exact ht'.sound.mem_route.mpr ⟨pattern, has_of_run hlater hbound, haccepts⟩
  · intro c s'' hstep
    cases hstep with
    | @accept _ done _ todo rest b' hopen hcall =>
      have hmine := (ht'.split _ (hopen ▸ Multiset.mem_cons_self _ rest)).2
      refine Broker.route_call hcall (hstill c ?_)
      rw [hmine]
      simp
  · intro other hother
    refine Broker.agree_of_has (b := s'.broker) ?_
    rintro c (hmine | htheirs)
    · exact hstill c hmine
    · exact ht'.has_of_ready hother htheirs

def workerReturns : List (ServerEvent Client) :=
  .lost worker :: .connected worker :: worker.calls.map (.accepted worker)

theorem platform_returns :
    Run (ServerStep Client.calls) platformServer workerReturns platformServer := by
  have hopen : platformServer.connections = workerConnection ::ₘ {auditConnection} := rfl
  exact ((Run.nil _).snoc (.lose hopen)).append (run_connect rfl)

theorem run_reconnect_worker :
    .refused worker (.assertQueue ⟨"notification.queue", true, none⟩) ∉ workerReturns :=
  (run_reconnect platform_run ⟨workerConnection, workerConnection_mem, rfl, rfl⟩
    platform_returns).1 _

end Runs

end RabbitMQ
