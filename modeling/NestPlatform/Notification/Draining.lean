-- SUMMARY: A worker whose transports work empties the queue of the auth service.
import NestPlatform.Notification.Welcome

/-!
# Draining the queue

Each delivery takes a worker three steps, whatever the order, if nothing fails. The two
sides must name the same queue.
-/
namespace Notification

open Amqp Js Mongo Nest Database Effect Transition
open Auth (AuthConfig Bcrypt Jwt)

section Runs

variable {M : Mongoose} {bcrypt : Bcrypt} {jwt : Jwt} {config : AuthConfig} {names : QueueNames}
  {b : Broker} {env : Entries} {s s' : Platform} {events : List PlatformEvent}

/-- Every copy is in the queue of the client. -/
structure InQueue (names : QueueNames) (s : Platform) : Prop where
  ready : ∀ c ∈ s.ready, c.queue = names.events
  handling : ∀ delivery ∈ s.handling, delivery.copy.queue = names.events

theorem InQueue.step {accounts : List Doc} {event : PlatformEvent} (hM : M.Typed)
    (hb : Connected names b) (hqueue : InQueue names s) (hbooked : Booked env accounts s)
    (h : PlatformStep M bcrypt jwt config names b env s event s') : InQueue names s' := by
  cases h with
  | call hexec =>
    refine ⟨fun c hc => ?_, hqueue.handling⟩
    rcases Multiset.mem_add.mp hc with hold | hnew
    · exact hqueue.ready c hold
    · rcases run_announces hM hexec with hquiet | ⟨d, hannounces, -⟩
      · rw [publications_quiet hquiet] at hnew
        cases hnew
      · rw [publications_announces hb hannounces] at hnew
        obtain rfl := List.mem_singleton.mp hnew
        rfl
  | @deliver c rest t takes hready =>
    refine ⟨fun c' hc' => hqueue.ready c' (hready ▸ Multiset.mem_cons_of_mem hc'), ?_⟩
    intro delivery hdelivery
    rcases Multiset.mem_cons.mp hdelivery with rfl | hold
    · exact hqueue.ready c (hready ▸ Multiset.mem_cons_self c rest)
    · exact hqueue.handling delivery hold
  | @transport c r completed todo rest hhandling | @refuse c op todo rest hhandling =>
    have hc := hqueue.handling _ (hhandling ▸ Multiset.mem_cons_self _ rest)
    refine ⟨hqueue.ready, fun delivery hdelivery => ?_⟩
    rcases Multiset.mem_cons.mp hdelivery with rfl | hold
    · exact hc
    · exact hqueue.handling delivery (hhandling ▸ Multiset.mem_cons_of_mem hold)
  | @settle c op todo rest hhandling =>
    have hc := hqueue.handling _ (hhandling ▸ Multiset.mem_cons_self _ rest)
    refine ⟨fun c' hc' => ?_, fun delivery hdelivery =>
      hqueue.handling delivery (hhandling ▸ Multiset.mem_cons_of_mem hdelivery)⟩
    rcases Multiset.mem_add.mp hc' with hold | hnew
    · exact hqueue.ready c' hold
    · -- a copy comes back by a `nack` that requeues it
      obtain ⟨d, -, hcareful⟩ := hbooked.handling _ (hhandling ▸ Multiset.mem_cons_self _ rest)
      rcases hcareful.1 rfl with rfl | ⟨rfl, -⟩
      · obtain rfl := List.mem_singleton.mp hnew
        exact hc
      · cases hnew
  | @lose lost kept hhandling =>
    refine ⟨fun c hc => ?_, fun delivery hdelivery =>
      hqueue.handling delivery (hhandling ▸ Multiset.mem_add.mpr (.inr hdelivery))⟩
    rcases Multiset.mem_add.mp hc with hold | hback
    · exact hqueue.ready c hold
    · obtain ⟨delivery, hdelivery, rfl⟩ := Multiset.mem_map.mp hback
      exact hqueue.handling delivery (hhandling ▸ Multiset.mem_add.mpr (.inl hdelivery))

theorem inQueue_of_run (hM : M.Typed) (hb : Connected names b) (hfresh : s.Fresh)
    (h : Run (PlatformStep M bcrypt jwt config names b env) s events s') :
    InQueue names s' ∧ ∃ accounts, Booked env accounts s' := by
  have hstep : ∀ s event s', (InQueue names s ∧ ∃ accounts, Booked env accounts s) →
      PlatformStep M bcrypt jwt config names b env s event s' →
      InQueue names s' ∧ ∃ accounts, Booked env accounts s' := by
    rintro s event s' ⟨hqueue, accounts, hbooked⟩ hlast
    refine ⟨hqueue.step hM hb hbooked hlast, ?_⟩
    rcases booked_step hM hb hbooked hlast with ⟨-, hnext⟩ | ⟨-, d, -, -, hnext⟩
    · exact ⟨accounts, hnext⟩
    · exact ⟨accounts ++ [d], hnext⟩
  refine h.invariant hstep ⟨⟨?_, ?_⟩, [], hfresh.booked⟩
  · rw [hfresh.ready]
    intro c hc
    cases hc
  · rw [hfresh.handling]
    intro delivery hdelivery
    cases hdelivery

/-- The worker goes on, with a mail transport that works and a channel that takes everything. -/
def Working (_ : Platform) : PlatformEvent → Prop
  | .deliver t takes => (∀ mail, t.sendMail mail = true) ∧ ∀ op, takes op = true
  | .act => True
  | _ => False

/-- Every delivery with the worker is about to be mailed, or to be acknowledged. -/
def OnCourse (s : Platform) : Prop :=
  ∀ delivery ∈ s.handling, (∃ r, delivery.todo = [.transport r true, .channel .ack true]) ∨
    delivery.todo = [.channel .ack true]

/-- The steps that the worker needs for what is left. -/
def Platform.remaining (s : Platform) : ℕ :=
  3 * s.ready.card + (s.handling.map fun delivery => delivery.todo.length).sum

theorem working_step {accounts : List Doc} {event : PlatformEvent} (hbooked : Booked env accounts s)
    (hcourse : OnCourse s)
    (h : Meeting (PlatformStep M bcrypt jwt config names b env) Working s event s') :
    OnCourse s' ∧ s'.remaining + 1 = s.remaining := by
  obtain ⟨hstep, hworking⟩ := h
  cases hstep with
  | call | lose => exact hworking.elim
  | @deliver c rest t takes hready =>
    obtain ⟨d, htells⟩ := hbooked.ready c (hready ▸ Multiset.mem_cons_self c rest)
    obtain ⟨email, hne, hemail⟩ := hbooked.emails d (List.mem_of_getElem? htells.1)
    -- a mail and an `ack` are two steps of the three that the delivery stands for
    have hcarries : t.carries (welcomeMail env d) = true := hworking.1 _
    have htodo : Work.actions env t takes c.message.content =
        [.transport (welcomeMail env d) true, .channel .ack true] := by
      rw [htells.2, actions_packet hemail hne, if_pos hcarries, if_pos (hworking.2 _)]
    constructor
    · intro delivery hdelivery
      rcases Multiset.mem_cons.mp hdelivery with rfl | hold
      · exact .inl ⟨_, htodo⟩
      · exact hcourse delivery hold
    · simp only [Platform.remaining, hready, htodo, Multiset.card_cons, Multiset.map_cons,
        Multiset.sum_cons, List.length_cons, List.length_nil]
      omega
  | @transport c r completed todo rest hhandling =>
    have htodo : todo = [.channel .ack true] := by
      rcases hcourse _ (hhandling ▸ Multiset.mem_cons_self _ rest) with ⟨r', hmail⟩ | hack
      · exact (List.cons.inj hmail).2
      · cases (List.cons.inj hack).1
    constructor
    · intro delivery hdelivery
      rcases Multiset.mem_cons.mp hdelivery with rfl | hold
      · exact .inr htodo
      · exact hcourse delivery (hhandling ▸ Multiset.mem_cons_of_mem hold)
    · simp only [Platform.remaining, hhandling, Multiset.map_cons, Multiset.sum_cons,
        List.length_cons]
      omega
  | @refuse c op todo rest hhandling =>
    rcases hcourse _ (hhandling ▸ Multiset.mem_cons_self _ rest) with ⟨r', hmail⟩ | hack
    · cases (List.cons.inj hmail).1
    · cases (List.cons.inj hack).1
  | @settle c op todo rest hhandling =>
    have hack : op = .ack ∧ todo = [] := by
      rcases hcourse _ (hhandling ▸ Multiset.mem_cons_self _ rest) with ⟨r', hmail⟩ | hack
      · cases (List.cons.inj hmail).1
      · exact ⟨(Action.channel.inj (List.cons.inj hack).1).1, (List.cons.inj hack).2⟩
    obtain ⟨rfl, rfl⟩ := hack
    constructor
    · intro delivery hdelivery
      exact hcourse delivery (hhandling ▸ Multiset.mem_cons_of_mem hdelivery)
    · have hgone : ((b.perform c .ack : List (Copy Packet)) : Multiset (Copy Packet)) = 0 := rfl
      simp only [Platform.remaining, hhandling, hgone, add_zero, Multiset.map_cons,
        Multiset.sum_cons, List.length_cons, List.length_nil]
      omega

/-- A worker that can do nothing has nothing left. -/
theorem idle_of_stuck (hqueue : InQueue names s) (hcourse : OnCourse s)
    (hnames : names.events = names.notifications)
    (hstuck : ∀ event s', ¬ Meeting (PlatformStep M bcrypt jwt config names b env) Working s event s') :
    s.ready = 0 ∧ s.handling = 0 := by
  constructor
  · refine Multiset.eq_zero_of_forall_notMem fun c hc => ?_
    obtain ⟨rest, hready⟩ := Multiset.exists_cons_of_mem hc
    refine hstuck (.deliver ⟨fun _ => true, fun _ => true, fun _ => true, fun _ _ => true⟩
      fun _ => true) _ ⟨.deliver hready ?_, fun _ => rfl, fun _ => rfl⟩
    rw [hqueue.ready c hc, hnames]
  · refine Multiset.eq_zero_of_forall_notMem fun delivery hdelivery => ?_
    obtain ⟨rest, hhandling⟩ := Multiset.exists_cons_of_mem hdelivery
    obtain ⟨c, todo⟩ := delivery
    rcases hcourse _ hdelivery with ⟨r, htodo⟩ | htodo
    · obtain rfl : todo = _ := htodo
      exact hstuck .act _ ⟨.transport hhandling, trivial⟩
    · obtain rfl : todo = _ := htodo
      exact hstuck .act _ ⟨.settle hhandling, trivial⟩

/-- A working worker needs one step less after each. -/
theorem working_run {accounts : List Doc} (hM : M.Typed) (hb : Connected names b)
    (hqueue : InQueue names s) (hbooked : Booked env accounts s) (hcourse : OnCourse s)
    (h : Run (Meeting (PlatformStep M bcrypt jwt config names b env) Working) s events s') :
    InQueue names s' ∧ Booked env accounts s' ∧ OnCourse s' ∧
      events.length + s'.remaining = s.remaining := by
  induction h with
  | nil => exact ⟨hqueue, hbooked, hcourse, by simp⟩
  | snoc _ hlast ih =>
    obtain ⟨hqueue', hbooked', hcourse', hremaining⟩ := ih
    obtain ⟨hnext, hless⟩ := working_step hbooked' hcourse' hlast
    refine ⟨hqueue'.step hM hb hbooked' hlast.1, ?_, hnext, ?_⟩
    · rcases booked_step hM hb hbooked' hlast.1 with ⟨-, hsame⟩ | ⟨request, d, rfl, -, -⟩
      · exact hsame
      · exact hlast.2.elim
    · rw [List.length_append, List.length_singleton]
      omega

/-- A worker that reads another queue handles nothing. -/
theorem unread_of_run (hM : M.Typed) (hb : Connected names b) (hfresh : s.Fresh)
    (hnames : names.events ≠ names.notifications)
    (h : Run (PlatformStep M bcrypt jwt config names b env) s events s') :
    s'.handling = 0 ∧ s'.welcomed = [] := by
  induction h with
  | nil => exact ⟨hfresh.handling, hfresh.welcomed⟩
  | @snoc s₁ s₂ events event hrun hlast ih =>
    obtain ⟨hidle, hnone⟩ := ih
    have hempty : ∀ delivery rest, s₁.handling ≠ delivery ::ₘ rest := by
      intro delivery rest heq
      rw [hidle] at heq
      exact Multiset.cons_ne_zero heq.symm
    cases hlast with
    | call => exact ⟨hidle, hnone⟩
    | @deliver c rest t takes hready hqueue =>
      have hevents := (inQueue_of_run hM hb hfresh hrun).1.ready c
        (hready ▸ Multiset.mem_cons_self c rest)
      exact absurd (hevents.symm.trans hqueue) hnames
    | transport hhandling | refuse hhandling | settle hhandling =>
      exact absurd hhandling (hempty _ _)
    | @lose lost kept hhandling =>
      rw [hidle] at hhandling
      exact ⟨(add_eq_zero.mp hhandling.symm).2, hnone⟩

/-- After a restart a worker whose transports and channel work empties the queue in three steps per
event, in any order, and every announced account has got its mail then. A worker that reads another
queue sends nothing. -/
theorem run_drains (hM : M.Typed) {b₀ : Broker} (hnodup : (b₀.queues.map QueueDecl.name).Nodup)
    (hdeclare : names.declare b₀ = some b) (hfresh : s.Fresh)
    (h : Run (PlatformStep M bcrypt jwt config names b env) s events s') :
    (names.events = names.notifications → s'.handling = 0 → ∀ later s'',
      Run (Meeting (PlatformStep M bcrypt jwt config names b env) Working) s' later s'' →
        later.length ≤ 3 * s'.ready.card ∧
        ((∀ event t, ¬ Meeting (PlatformStep M bcrypt jwt config names b env) Working s'' event t) →
          ∃ accounts, Accounted env accounts s'' ∧ ∀ i d, accounts[i]? = some d →
            (i, welcomeMail env d) ∈ s''.welcomed)) ∧
    (names.events ≠ names.notifications → s'.welcomed = []) := by
  have hb := connected_of_declare hnodup hdeclare
  constructor
  · intro hnames hrestarted later s'' hlater
    obtain ⟨hqueue, accounts, hbooked⟩ := inQueue_of_run hM hb hfresh h
    have hcourse : OnCourse s' := by
      intro delivery hdelivery
      rw [hrestarted] at hdelivery
      cases hdelivery
    have hstart : s'.remaining = 3 * s'.ready.card := by
      simp [Platform.remaining, hrestarted]
    obtain ⟨hqueue', hbooked', hcourse', hremaining⟩ := working_run hM hb hqueue hbooked hcourse hlater
    refine ⟨by omega, fun hstuck => ⟨accounts, hbooked'.toAccounted, fun i d hd => ?_⟩⟩
    obtain ⟨hready, hhandling⟩ := idle_of_stuck hqueue' hcourse' hnames hstuck
    have hnone : s''.outstanding i = 0 := by
      simp [Platform.outstanding, hready, hhandling]
    rcases hbooked'.owed i d hd with hopen | ⟨-, hmailed⟩
    · omega
    · exact hmailed
  · intro hnames
    exact (unread_of_run hM hb hfresh hnames h).2

theorem run_drains_frank : frankRegistered.handling = 0 ∧
    ∀ later s'', Run (Meeting FrankStep Working) frankRegistered later s'' →
      later.length ≤ 3 * frankRegistered.ready.card ∧
        ((∀ event t, ¬ Meeting FrankStep Working s'' event t) →
          ∃ accounts, Accounted [] accounts s'' ∧ ∀ i d, accounts[i]? = some d →
            (i, welcomeMail [] d) ∈ s''.welcomed) := by
  have hnodup : (Broker.empty.queues.map QueueDecl.name).Nodup := List.nodup_nil
  have hdeclare : QueueNames.declare {} .empty = some oneQueue := rfl
  exact ⟨rfl, (run_drains Mongoose.plain_typed hnodup hdeclare blank_fresh
    (.snoc (.nil _) frank_step)).1 rfl rfl⟩

end Runs

end Notification
