-- SUMMARY: What the delivery system guarantees: isolation of the queues and the accounting of one queue.
import NestPlatform.RabbitMQ.Accounting

/-!
# Delivery guarantees

The consequences of the accounting invariant. With several queues bound to one
key the queues stay isolated as long as no retry reaches a second queue; with one
work queue every publication is live, done or dead-lettered.
-/
namespace RabbitMQ

open Amqp Js Transition

variable {P : Type} {b : Broker} {config : TopologyConfig} {max : ℕ}

/-! ## Isolation of the queues -/

/-- The accounts of a run whose condition isolates the retries, and what its condition says of
every publication. -/
theorem reachable_accounted (hd : config.Declared config.queues b) (hne : config.exchange ≠ config.dlx)
    (hmax : 1 ≤ max) {Cond : Event P → Prop} {Holds : Message P → Prop}
    (hcond : ∀ s e s', Accounted b config max s → s.AllOriginals Holds → Step b config max s e s' →
      Cond e → RetriesIsolated b config max e)
    (hpublish : ∀ i routingKey payload options, Cond (.publish i routingKey payload options) →
      Holds (publish config.exchange routingKey payload options)) {s : State P}
    (hs : Reachable State.IsInitial (Meeting (Step b config max) fun _ => Cond) s) :
    Accounted b config max s ∧ s.AllOriginals Holds := by
  let Inv (s : State P) : Prop := Accounted b config max s ∧ s.AllOriginals Holds
  have hinv : Inv s := by
    refine Reachable.invariant hs ?_ ?_
    · rintro _ rfl
      exact ⟨.initial b config max, by simp [State.AllOriginals, State.initial]⟩
    · rintro s e s' ⟨hacc, horig⟩ ⟨hstep, hmet⟩
      refine ⟨hacc.step hd hne hmax hstep (hcond s e s' hacc horig hstep hmet), ?_⟩
      apply hstep.allOriginals horig
      rintro i routingKey payload options rfl
      exact hpublish i routingKey payload options hmet
  exact hinv

def created : Message Unit := publish "app" "created" () {}

def createdCopy (queue : String) (unacked : Bool) : Copy Unit := ⟨created, queue, unacked, [], 0⟩

theorem attempt_created : attempt created = some (.fin 0) :=
  attempt_publish (by simp [PublishOptions.NoOverride, Entries.keys])

inductive Fate where
  | live
  | succeeded
  | deadLettered

/-- The copies of publication `i`, wherever they are. -/
def State.copiesOf (s : State P) (i : ℕ) : Multiset (Copy P) :=
  s.copies.filter fun c => c.origin = i

/-- What has become of publication `i`, whose handler consumes the work queue `q`. -/
def Fate.Holds (config : TopologyConfig) (max : ℕ) (q : String) (s : State P) (i : ℕ) :
    Fate → Prop
  | live => ∃ c, s.copiesOf i = {c} ∧ c.queue = q ∧
      (headers c.message).get ATTEMPT_HEADER = .nat (s.failed i q) ∧ s.failed i q < max
  | succeeded => s.copiesOf i = 0 ∧ s.succeeded i q = 1
  | deadLettered => ∃ c, s.copiesOf i = {c} ∧ c.queue = config.dlq ∧
      s.failed i q = max ∧ s.succeeded i q = 0

/-- Messages are published to `r`, without a counter of the caller and without
expiration. -/
def PlainPublish (r : String) : Event P → Prop
  | .publish _ routingKey _ options =>
      routingKey = r ∧ options.NoOverride ∧ options.expiration = none
  | _ => True

/-- A message as `PlainPublish` lets it be published. -/
structure Plain (config : TopologyConfig) (r : String) (m₀ : Message P) : Prop where
  exchange : m₀.exchange = config.exchange
  routingKey : m₀.routingKey = r
  header : (headers m₀).get ATTEMPT_HEADER = .nat 0
  expiration : m₀.properties.expiration = none

theorem Plain.attempt {r : String} {m₀ : Message P} (h : Plain config r m₀) :
    attempt m₀ = some (.fin 0) := by
  simp [RabbitMQ.attempt, h.header, Value.coalesce, Value.nullish, Value.nat, Number.natCast_def]

section OneQueue

variable {q r : String} (hqueue : config.queues = [⟨q, r⟩])
include hqueue

theorem isWorkQueue_iff {q' : String} : config.IsWorkQueue q' ↔ q' = q := by
  simp [TopologyConfig.IsWorkQueue, hqueue, eq_comm]

theorem route_oneQueue (hd : config.Declared config.queues b) (hne : config.exchange ≠ config.dlx)
    {q' : String} : q' ∈ b.route config.exchange r ↔ q' = q := by
  rw [hd.mem_route hne, hqueue]
  simp only [List.mem_singleton, exists_eq_left, Topic.accepts_self, and_true]
  exact eq_comm

/-- With one work queue a retry reaches no second queue. -/
theorem retriesIsolated_of_plain (hd : config.Declared config.queues b)
    (hne : config.exchange ≠ config.dlx) {s s' : State P} (h : Accounted b config max s)
    (horig : s.AllOriginals (Plain config r)) {e : Event P} (hstep : Step b config max s e s')
    (hplain : PlainPublish r e) : RetriesIsolated b config max e := by
  cases hstep with
  | publish routingKey payload options hfresh =>
    exact ⟨_, attempt_publish hplain.2.1, by simp [Number.natCast_def]⟩
  | deliver | expire => trivial
  | @finish c rest ok ops hs hunacked hops =>
    cases ok with
    | true => trivial
    | false =>
      rintro - q' hq'
      obtain ⟨m₀, hm₀, hw⟩ := h.waiting_of_unacked (by simp [hs]) hunacked
      have hp := horig _ _ hm₀
      rw [hw.exchange, hw.routingKey, hp.exchange, hp.routingKey,
        route_oneQueue hqueue hd hne] at hq'
      exact hq'.trans ((isWorkQueue_iff hqueue).mp hw.work).symm

/-- The one copy of a publication that is owed and has not succeeded. -/
theorem Accounted.copiesOf (hd : config.Declared config.queues b)
    (hne : config.exchange ≠ config.dlx) {s : State P} (h : Accounted b config max s)
    {i : ℕ} {m₀ : Message P} (hm₀ : s.original i = some m₀) (hp : Plain config r m₀) :
    s.copiesOf i = 0 ∧ s.succeeded i q = 1 ∨
      ∃ c, s.copiesOf i = {c} ∧ c ∈ s.copies ∧ c.origin = i ∧ s.succeeded i q = 0 := by
  have hroute : q ∈ b.route m₀.exchange m₀.routingKey := by
    rw [hp.exchange, hp.routingKey, route_oneQueue hqueue hd hne]
  have hbal := h.balance i q
  simp only [State.owed, hm₀, if_pos hroute] at hbal
  have hheld : s.held i q = (s.copiesOf i).card := by
    rw [State.copiesOf, ← Multiset.countP_eq_card_filter, State.held]
    refine Multiset.countP_congr rfl fun c hc => propext ⟨And.left, fun h' => ⟨h', ?_⟩⟩
    obtain ⟨n₀, -, -, hw | hdead⟩ := h.traced c hc
    · rw [hw.account_eq]
      exact (isWorkQueue_iff hqueue).mp hw.work
    · exact (isWorkQueue_iff hqueue).mp hdead.work
  rw [hheld] at hbal
  rcases Nat.eq_zero_or_pos (s.copiesOf i).card with hzero | hpos
  · exact .inl ⟨Multiset.card_eq_zero.mp hzero, by omega⟩
  · obtain ⟨c, hc⟩ := Multiset.card_eq_one.mp (show (s.copiesOf i).card = 1 by omega)
    have hmem : c ∈ s.copiesOf i := by simp [hc]
    obtain ⟨hcopies, horigin⟩ := Multiset.mem_filter.mp hmem
    exact .inr ⟨c, hc, hcopies, horigin, by omega⟩

/-- A publication is in exactly one of the three conditions. -/
theorem Accounted.existsUnique_fate (hd : config.Declared config.queues b)
    (hne : config.exchange ≠ config.dlx) {s : State P} (h : Accounted b config max s)
    {i : ℕ} {m₀ : Message P} (hm₀ : s.original i = some m₀) (hp : Plain config r m₀) :
    ∃! fate : Fate, fate.Holds config max q s i := by
  rcases h.copiesOf hqueue hd hne hm₀ hp with ⟨hgone, hdone⟩ | ⟨c, hone, hc, rfl, hnone⟩
  · refine ⟨.succeeded, ⟨hgone, hdone⟩, ?_⟩
    rintro (_ | _ | _) hfate
    · obtain ⟨c, hc, -⟩ := hfate
      simp [hgone] at hc
    · rfl
    · obtain ⟨c, hc, -⟩ := hfate
      simp [hgone] at hc
  obtain ⟨n₀, hn₀, -, hfate⟩ := h.traced c hc
  obtain rfl : n₀ = m₀ := by simpa [hm₀] using hn₀.symm
  have hdlq : q ≠ config.dlq := fun heq =>
    hd.dlq_not_work ((isWorkQueue_iff hqueue).mpr heq.symm)
  -- the one copy is in the work queue or in the dead-letter queue, which differ
  rcases hfate with hw | hdead
  · have hq : c.queue = q := (isWorkQueue_iff hqueue).mp hw.work
    have hbelow := hw.below
    rw [hq] at hbelow
    refine ⟨.live, ⟨c, hone, hq, ?_, hbelow⟩, ?_⟩
    · obtain ⟨x, hx⟩ := hw.numeric ⟨_, hp.header⟩
      obtain ⟨a, ha, -, hcount⟩ := hw.attempt
      obtain rfl : .fin 0 = a := by simpa [hp.attempt] using ha
      have hattempt : attempt c.message = some x := by
        simp [attempt, hx, Value.coalesce, Value.nullish]
      obtain rfl : x = ((s.failed c.origin q : ℕ) : Number) := by
        simpa [hattempt, hq, Number.natCast_def] using hcount
      exact hx
    · rintro (_ | _ | _) hother
      · rfl
      · exact absurd hother.1 (by simp [hone])
      · obtain ⟨c', hc', hq', -⟩ := hother
        obtain rfl : c = c' := by simpa [hone] using hc'
        exact absurd (hq.symm.trans hq') hdlq
  · have hacc : account c = q := (isWorkQueue_iff hqueue).mp hdead.work
    obtain ⟨a, ha, hspent⟩ := hdead.spent hp.expiration
    obtain rfl : .fin 0 = a := by simpa [hp.attempt] using ha
    have hlimit : max ≤ s.failed c.origin q := by
      simpa [Number.natCast_def, hacc] using hspent
    have hruns := h.runs c.origin q
    refine ⟨.deadLettered, ⟨c, hone, hdead.queue, by omega, hnone⟩, ?_⟩
    rintro (_ | _ | _) hother
    · obtain ⟨c', hc', hq', -⟩ := hother
      obtain rfl : c = c' := by simpa [hone] using hc'
      exact absurd (hq'.symm.trans hdead.queue) hdlq
    · exact absurd hother.1 (by simp [hone])
    · rfl

/-- The accounts of a run of plain publications. -/
theorem reachable_plain (htop : assertTopology .empty config = some b)
    (hne : config.exchange ≠ config.dlx) (hmax : 1 ≤ max) {s : State P}
    (hs : Reachable State.IsInitial (Meeting (Step b config max) fun _ => PlainPublish r) s) :
    Accounted b config max s ∧ s.AllOriginals (Plain config r) := by
  have hd := assertTopology_declared htop
  have hpublish : ∀ i routingKey payload options,
      PlainPublish r (.publish i routingKey payload options : Event P) →
      Plain config r (publish config.exchange routingKey payload options) := by
    rintro i routingKey payload options ⟨hkey, hoverride, hexpires⟩
    refine ⟨rfl, hkey, header_publish hoverride, ?_⟩
    simp [publish, hexpires]
  exact reachable_accounted hd hne hmax
    (fun _ _ _ hacc horig hstep hplain => retriesIsolated_of_plain hqueue hd hne hacc horig hstep hplain)
    hpublish hs

/-- Every publication is live, done or dead-lettered, and its copies keep what was
published. -/
theorem delivery_accounting (htop : assertTopology .empty config = some b)
    (hne : config.exchange ≠ config.dlx) (hmax : 1 ≤ max) {s : State P}
    (hs : Reachable State.IsInitial (Meeting (Step b config max) fun _ => PlainPublish r) s)
    {i : ℕ} {m₀ : Message P} (hm₀ : s.original i = some m₀) :
    (∃! fate : Fate, fate.Holds config max q s i) ∧ ∀ c ∈ s.copiesOf i, Preserves m₀ c.message := by
  obtain ⟨hacc, horig⟩ := reachable_plain hqueue htop hne hmax hs
  refine ⟨hacc.existsUnique_fate hqueue (assertTopology_declared htop) hne hm₀ (horig i m₀ hm₀), ?_⟩
  intro c hc
  obtain ⟨hcopies, rfl⟩ := Multiset.mem_filter.mp hc
  obtain ⟨n₀, hn₀, hpres, -⟩ := hacc.traced c hcopies
  obtain rfl : n₀ = m₀ := by simpa [hm₀] using hn₀.symm
  exact hpres

/-- Up to `2 ^ 53` attempts the consumer does the same in doubles. -/
theorem delivery_double (htop : assertTopology .empty config = some b)
    (hne : config.exchange ≠ config.dlx) (hmax : 1 ≤ max) (hbits : max ≤ 2 ^ 53) {s : State P}
    (hs : Reachable State.IsInitial (Meeting (Step b config max) fun _ => PlainPublish r) s)
    {c : Copy P} (hc : c ∈ s.copies) (hq : c.queue = q) (ok : Bool) :
    Double.consumeWithRetry c.message ok max = consumeWithRetry c.message ok max := by
  obtain ⟨hacc, horig⟩ := reachable_plain hqueue htop hne hmax hs
  obtain ⟨m₀, hm₀, -, hw | hdead⟩ := hacc.traced c hc
  · obtain ⟨a, ha, -, hcount⟩ := hw.attempt
    obtain rfl : .fin 0 = a := by simpa [(horig _ _ hm₀).attempt] using ha
    have hbelow := hw.below
    refine Double.consumeWithRetry_eq ?_ (hbelow.trans_le hbits) ok max
    simpa [Number.natCast_def] using hcount
  · have hwork : config.IsWorkQueue config.dlq :=
      (isWorkQueue_iff hqueue).mpr (hdead.queue.symm.trans hq)
    exact absurd hwork (assertTopology_declared htop).dlq_not_work

end OneQueue

/-! ### One queue, one exchange -/

def ordersOnly (dlx : String) : TopologyConfig where
  exchange := "app"
  dlx := dlx
  dlq := "app.dlq"
  queues := [⟨"orders", "created"⟩]

/-- What `assertTopology` declares for `ordersOnly dlx`. -/
def ordersBroker (dlx : String) (exchanges : List String) : Broker where
  exchanges := exchanges
  queues := [(ordersOnly dlx).dlqDecl, QueueConfig.decl ⟨"orders", "created"⟩ dlx]
  bindings := [⟨"app.dlq", dlx, "#"⟩, ⟨"orders", "app", "created"⟩]

/-- A publication to `ordersOnly` that has not been delivered. -/
def ordersState (queues : List String) : State Unit :=
  { (State.initial : State Unit) with
    copies := ↑(queues.map fun q => createdCopy q false)
    original := Function.update (fun _ => none) 0 (some created) }

/-- The copy of the publication that its first failed run puts back. -/
def retried (unacked : Bool) : Copy Unit :=
  ⟨retryCopy created (.fin 0 + (1 : ℕ)), "orders", unacked, [], 0⟩

/-- The one copy of the publication after some failed runs. -/
def failedState (copy : Copy Unit) (failures : ℕ) : State Unit where
  copies := {copy}
  original := Function.update (fun _ => none) 0 (some created)
  failed := (bump · 0 "orders")^[failures] fun _ _ => 0
  succeeded := fun _ _ => 0

/-- The handler fails twice; its message is put back once and then dead-lettered. -/
theorem delivery_accounting_ordersOnly :
    ∃ s : State Unit, s.copies = {deadCopy (ordersOnly "app.dlx") (retried true) "created" .rejected} ∧
      (∃! fate : Fate, fate.Holds (ordersOnly "app.dlx") 2 "orders" s 0) ∧
      ∀ c ∈ s.copiesOf 0, Preserves created c.message := by
  have hpublish : Step (ordersBroker "app.dlx" ["app", "app.dlx"]) (ordersOnly "app.dlx") 2
      .initial (.publish 0 "created" () {}) (failedState (createdCopy "orders" false) 0) :=
    @Step.publish Unit (ordersBroker "app.dlx" ["app", "app.dlx"]) (ordersOnly "app.dlx") 2
      .initial 0 "created" () {} rfl
  let b := ordersBroker "app.dlx" ["app", "app.dlx"]
  let config := ordersOnly "app.dlx"
  let dead := deadCopy config (retried true) "created" .rejected
  have hwork : config.IsWorkQueue "orders" := ⟨_, List.mem_singleton_self _, rfl⟩
  have hplain : PlainPublish "created" (.publish 0 "created" () {} : Event Unit) :=
    ⟨rfl, by simp [PublishOptions.NoOverride, Entries.keys], rfl⟩
  have hbelow : ¬ ((2 : ℕ) : Number) ≤ .fin 0 + (1 : ℕ) := by
    simp only [Number.natCast_def, Number.fin_add_fin, Number.fin_le_fin]
    norm_num
  have hlimit : ((2 : ℕ) : Number) ≤ .fin 0 + (1 : ℕ) + (1 : ℕ) := by
    simp only [Number.natCast_def, Number.fin_add_fin, Number.fin_le_fin]
    norm_num
  have hdeliver : Step b config 2 (failedState (createdCopy "orders" false) 0)
      (.deliver (createdCopy "orders" false)) (failedState (createdCopy "orders" true) 0) :=
    @Step.deliver Unit b config 2 (failedState (createdCopy "orders" false) 0)
      (createdCopy "orders" false) 0 rfl rfl hwork
  have hretry : Step b config 2 (failedState (createdCopy "orders" true) 0)
      (.finish (createdCopy "orders" true) false) (failedState (retried false) 1) :=
    @Step.finish Unit b config 2 (failedState (createdCopy "orders" true) 0)
      (createdCopy "orders" true) 0 false _ rfl rfl (consumeWithRetry_retry attempt_created hbelow)
  have hredeliver : Step b config 2 (failedState (retried false) 1) (.deliver (retried false))
      (failedState (retried true) 1) :=
    @Step.deliver Unit b config 2 (failedState (retried false) 1) (retried false) 0 rfl rfl hwork
  have hgiveUp : Step b config 2 (failedState (retried true) 1) (.finish (retried true) false)
      (failedState dead 2) :=
    @Step.finish Unit b config 2 (failedState (retried true) 1) (retried true) 0 false _ rfl rfl
      (consumeWithRetry_giveUp (attempt_retryCopy created _) hlimit)
  have hrun : Reachable State.IsInitial (Meeting (Step b config 2) fun _ => PlainPublish "created")
      (failedState dead 2) :=
    (((((Reachable.init State.isInitial_initial).step ⟨hpublish, hplain⟩).step
      ⟨hdeliver, trivial⟩).step ⟨hretry, trivial⟩).step ⟨hredeliver, trivial⟩).step
        ⟨hgiveUp, trivial⟩
  exact ⟨_, rfl, delivery_accounting rfl rfl (by decide) (by omega) hrun rfl⟩

/-- When one exchange serves as both, the dead-letter queue gets a copy of every
publication at once. -/
theorem two_copies_of_one_publication :
    assertTopology .empty (ordersOnly "app") = some (ordersBroker "app" ["app"]) ∧
      ∃ s : State Unit, Reachable State.IsInitial
          (Meeting (Step (ordersBroker "app" ["app"]) (ordersOnly "app") 3)
            fun _ => PlainPublish "created") s ∧
        s.original 0 = some created ∧
        ¬ ∃ fate : Fate, fate.Holds (ordersOnly "app") 3 "orders" s 0 := by
  have hpublish : Step (ordersBroker "app" ["app"]) (ordersOnly "app") 3
      .initial (.publish 0 "created" () {}) (ordersState ["app.dlq", "orders"]) :=
    @Step.publish Unit (ordersBroker "app" ["app"]) (ordersOnly "app") 3
      .initial 0 "created" () {} rfl
  have hplain : PlainPublish "created" (.publish 0 "created" () {} : Event Unit) :=
    ⟨rfl, by simp [PublishOptions.NoOverride, Entries.keys], rfl⟩
  have hcopies : ((ordersState ["app.dlq", "orders"]).copiesOf 0).card = 2 := rfl
  refine ⟨rfl, _, (Reachable.init State.isInitial_initial).step ⟨hpublish, hplain⟩, by
    simp [ordersState], ?_⟩
  rintro ⟨_ | _ | _, hfate⟩
  · obtain ⟨c, hc, -⟩ := hfate
    simp [hc] at hcopies
  · simp [hfate.1] at hcopies
  · obtain ⟨c, hc, -⟩ := hfate
    simp [hc] at hcopies

end RabbitMQ
