-- SUMMARY: Clients that declare exchanges, queues and bindings side by side, and what is in force after any run of them.
import Mathlib.Data.Multiset.AddSub
import NestPlatform.Amqp.Broker
import NestPlatform.Lib.Transition

/-!
# Declaring

Whenever a client connects it makes its declarations one call after the other, while other
clients make theirs, and stops at the first that the broker refuses; what was declared
before stays in force. A broker is judged by what is in force, not by the order in which it
was declared.
-/
namespace Amqp

inductive ChannelCall where
  | assertExchange (name : String)
  | assertQueue (q : QueueDecl)
  | bindQueue (queue exchange pattern : String)

namespace Broker

/-- `none` is a channel error. -/
def call (b : Broker) : ChannelCall → Option Broker
  | .assertExchange name => some (b.assertExchange name)
  | .assertQueue q => b.assertQueue q
  | .bindQueue queue exchange pattern => b.bindQueue queue exchange pattern

/-- What the call declares is in force. -/
def Has (b : Broker) : ChannelCall → Prop
  | .assertExchange name => name ∈ b.exchanges
  | .assertQueue q => b.findQueue q.name = some q
  | .bindQueue queue exchange pattern => ⟨queue, exchange, pattern⟩ ∈ b.bindings

end Broker

/-- No queue is declared in two ways. -/
def Agree (declared : ChannelCall → Prop) : Prop :=
  ∀ q q', declared (.assertQueue q) → declared (.assertQueue q') → q.name = q'.name → q = q'

/-- A queue is bound to an exchange only after both have been declared, in `known` or since. -/
def Supported (known : List ChannelCall) : List ChannelCall → Prop
  | [] => True
  | .bindQueue queue exchange pattern :: calls =>
    ((∃ q, .assertQueue q ∈ known ∧ q.name = queue) ∧ .assertExchange exchange ∈ known) ∧
      Supported (.bindQueue queue exchange pattern :: known) calls
  | c :: calls => Supported (c :: known) calls

theorem Supported.bound {known done todo : List ChannelCall} {queue exchange pattern : String}
    (h : Supported known (done ++ .bindQueue queue exchange pattern :: todo)) :
    (∃ q, .assertQueue q ∈ known ++ done ∧ q.name = queue) ∧ .assertExchange exchange ∈ known ++ done := by
  induction done generalizing known with
  | nil =>
    rw [List.append_nil]
    exact h.1
  | cons c done ih =>
    have hrest : Supported (c :: known) (done ++ .bindQueue queue exchange pattern :: todo) := by
      cases c with
      | assertExchange name => exact h
      | assertQueue q => exact h
      | bindQueue queue' exchange' pattern' => exact h.2
    simpa [or_left_comm] using ih hrest

namespace Broker

variable {b b' : Broker} {c c' : ChannelCall}

/-! ## One call -/

theorem has_assertExchange {name : String} :
    (b.assertExchange name).Has c ↔ b.Has c ∨ c = .assertExchange name := by
  unfold assertExchange
  split
  case isTrue hold =>
    constructor
    · exact .inl
    · rintro (h | rfl)
      · exact h
      · exact hold
  case isFalse =>
    cases c with
    | assertExchange name' => simp [Has]
    | assertQueue q => simp [Has, findQueue]
    | bindQueue queue exchange pattern => simp [Has]

theorem has_assertQueue {q : QueueDecl} (h : b.assertQueue q = some b') :
    b'.Has c ↔ b.Has c ∨ c = .assertQueue q := by
  unfold assertQueue at h
  cases hfind : b.findQueue q.name with
  | some old =>
    obtain ⟨rfl, rfl⟩ : old = q ∧ b = b' := by simpa [hfind] using h
    constructor
    · exact .inl
    · rintro (hc | rfl)
      · exact hc
      · exact hfind
  | none =>
    obtain rfl : { b with queues := b.queues ++ [q] } = b' := by simpa [hfind] using h
    cases c with
    | assertExchange name' => simp [Has]
    | bindQueue queue exchange pattern => simp [Has]
    | assertQueue q' =>
      by_cases hname : q.name = q'.name
      · have hnone : List.find? (fun x => decide (x.name = q'.name)) b.queues = none := hname ▸ hfind
        have hflip : q = q' ↔ q' = q := eq_comm
        simp [Has, findQueue, List.find?_append, hnone, hname, hflip]
      · have hne : q' ≠ q := fun heq => hname (heq ▸ rfl)
        simp [Has, findQueue, List.find?_append, hname, hne]

/-- A binding is accepted between a queue and an exchange that are declared. -/
theorem bindQueue_inv {queue exchange pattern : String}
    (h : b.bindQueue queue exchange pattern = some b') :
    (∃ q, b.findQueue queue = some q) ∧ exchange ∈ b.exchanges ∧
      { b with bindings := b.bindings ++ [⟨queue, exchange, pattern⟩] } = b' := by
  obtain ⟨⟨hqueue, hexchange⟩, hb'⟩ := Option.ite_none_right_eq_some.mp h
  exact ⟨Option.isSome_iff_exists.mp hqueue, hexchange, Option.some.inj hb'⟩

theorem has_bindQueue {queue exchange pattern : String}
    (h : b.bindQueue queue exchange pattern = some b') :
    b'.Has c ↔ b.Has c ∨ c = .bindQueue queue exchange pattern := by
  obtain ⟨-, -, rfl⟩ := bindQueue_inv h
  cases c with
  | assertExchange name' => simp [Has]
  | assertQueue q => simp [Has, findQueue]
  | bindQueue queue' exchange' pattern' => simp [Has]

/-- A call that is accepted adds what it declares. -/
theorem has_call (h : b.call c = some b') : b'.Has c' ↔ b.Has c' ∨ c' = c := by
  cases c with
  | assertExchange name =>
    obtain rfl := Option.some.inj h
    exact has_assertExchange
  | assertQueue q => exact has_assertQueue h
  | bindQueue queue exchange pattern => exact has_bindQueue h

/-- The broker finds one declaration for a name. -/
theorem agree_has (b : Broker) : Agree b.Has := by
  intro q q' hq hq' hname
  have hfound : b.findQueue q'.name = some q := hname ▸ hq
  exact Option.some.inj (hfound.symm.trans hq')

theorem agree_of_has {declared : ChannelCall → Prop} (h : ∀ c, declared c → b.Has c) :
    Agree declared := by
  intro q q' hq hq' hname
  exact agree_has b q q' (h _ hq) (h _ hq') hname

/-- A queue is refused for another declaration that is in force, a binding for a missing end. -/
theorem call_eq_none (h : b.call c = none) :
    (∃ q q', c = .assertQueue q ∧ b.Has (.assertQueue q') ∧ q'.name = q.name ∧ q' ≠ q) ∨
    ∃ queue exchange pattern, c = .bindQueue queue exchange pattern ∧
      ¬ ((∃ q, b.Has (.assertQueue q) ∧ q.name = queue) ∧ b.Has (.assertExchange exchange)) := by
  cases c with
  | assertExchange name => cases h
  | assertQueue q =>
    left
    unfold call assertQueue at h
    cases hfind : b.findQueue q.name with
    | none => simp [hfind] at h
    | some q' =>
      have hname : q'.name = q.name := by simpa using List.find?_some hfind
      refine ⟨q, q', rfl, ?_, hname, by simpa [hfind] using h⟩
      rw [← hname] at hfind
      exact hfind
  | bindQueue queue exchange pattern =>
    refine .inr ⟨queue, exchange, pattern, rfl, ?_⟩
    rintro ⟨⟨q, hq, rfl⟩, hexchange⟩
    have hfound : b.findQueue q.name = some q := hq
    have hmem : exchange ∈ b.exchanges := hexchange
    simp [call, bindQueue, hfound, hmem] at h

/-! ## Routing -/

/-- The names of the queues are distinct, and only declared queues are bound. -/
structure Sound (b : Broker) : Prop where
  nodup : (b.queues.map QueueDecl.name).Nodup
  bound : ∀ queue exchange pattern, b.Has (.bindQueue queue exchange pattern) →
    ∃ q, b.Has (.assertQueue q) ∧ q.name = queue

theorem sound_empty : empty.Sound where
  nodup := List.nodup_nil
  bound queue exchange pattern h := by cases h

theorem mem_names {name : String} :
    name ∈ b.queues.map QueueDecl.name ↔ ∃ q, b.Has (.assertQueue q) ∧ q.name = name := by
  constructor
  · intro h
    obtain ⟨q, hq, rfl⟩ := List.mem_map.mp h
    cases hfind : b.findQueue q.name with
    | none => simpa using List.find?_eq_none.mp hfind q hq
    | some q' =>
      have hname : q'.name = q.name := by simpa using List.find?_some hfind
      rw [← hname] at hfind
      exact ⟨q', hfind, hname⟩
  · rintro ⟨q, hq, rfl⟩
    exact List.mem_map_of_mem (List.mem_of_find?_eq_some hq)

theorem Sound.call (h : b.Sound) (hcall : b.call c = some b') : b'.Sound := by
  have hadd : ∀ {c'}, b.Has c' → b'.Has c' := fun hc' => (has_call hcall).mpr (.inl hc')
  have hbound : ∀ queue exchange pattern, b.Has (.bindQueue queue exchange pattern) →
      ∃ q, b'.Has (.assertQueue q) ∧ q.name = queue := by
    intro queue exchange pattern hold
    obtain ⟨q, hq, hname⟩ := h.bound queue exchange pattern hold
    exact ⟨q, hadd hq, hname⟩
  cases c with
  | assertExchange name =>
    obtain rfl := Option.some.inj hcall
    refine ⟨?_, fun queue exchange pattern hold => ?_⟩
    · unfold assertExchange
      split
      · exact h.nodup
      · exact h.nodup
    · rcases has_assertExchange.mp hold with hold | hnew
      · exact hbound _ _ _ hold
      · cases hnew
  | assertQueue q =>
    refine ⟨?_, fun queue exchange pattern hold => ?_⟩
    · unfold Broker.call assertQueue at hcall
      cases hfind : b.findQueue q.name with
      | some old =>
        obtain ⟨-, rfl⟩ : old = q ∧ b = b' := by simpa [hfind] using hcall
        exact h.nodup
      | none =>
        -- the name is new, or the broker would have found the queue
        obtain rfl : { b with queues := b.queues ++ [q] } = b' := by simpa [hfind] using hcall
        have hnew : q.name ∉ b.queues.map QueueDecl.name := by
          intro hmem
          obtain ⟨q', hq', hname⟩ := mem_names.mp hmem
          have hfound : b.findQueue q.name = some q' := hname ▸ hq'
          rw [hfind] at hfound
          cases hfound
        rw [List.map_append, List.map_singleton, ← List.concat_eq_append]
        exact h.nodup.concat hnew
    · rcases (has_call hcall).mp hold with hold | hnew
      · exact hbound _ _ _ hold
      · cases hnew
  | bindQueue queue exchange pattern =>
    refine ⟨?_, fun queue' exchange' pattern' hold => ?_⟩
    · obtain ⟨-, -, rfl⟩ := bindQueue_inv hcall
      exact h.nodup
    · rcases (has_call hcall).mp hold with hold | hnew
      · exact hbound _ _ _ hold
      · -- the broker refuses a binding of a queue that it does not have
        obtain ⟨rfl, rfl, rfl⟩ := ChannelCall.bindQueue.inj hnew
        obtain ⟨⟨q, hq⟩, -⟩ := bindQueue_inv hcall
        have hname : q.name = queue' := by simpa using List.find?_some hq
        refine ⟨q, hadd ?_, hname⟩
        rw [← hname] at hq
        exact hq

theorem Sound.route_nodup (h : b.Sound) (exchange key : String) : (b.route exchange key).Nodup :=
  h.nodup.filter _

theorem binds_iff {queue exchange key : String} : b.binds queue exchange key = true ↔
    ∃ pattern, b.Has (.bindQueue queue exchange pattern) ∧ Topic.accepts pattern key = true := by
  unfold binds
  rw [List.any_eq_true]
  constructor
  · rintro ⟨⟨queue', exchange', pattern⟩, hmem, hbinds⟩
    obtain ⟨hqueue, hexchange, haccepts⟩ : queue' = queue ∧ exchange' = exchange ∧
        Topic.accepts pattern key = true := by simpa using hbinds
    subst hqueue hexchange
    exact ⟨pattern, hmem, haccepts⟩
  · rintro ⟨pattern, hmem, haccepts⟩
    exact ⟨_, hmem, by simp [haccepts]⟩

/-- A message is put in the queues that a binding in force leads to. -/
theorem Sound.mem_route (h : b.Sound) {queue exchange key : String} :
    queue ∈ b.route exchange key ↔
      ∃ pattern, b.Has (.bindQueue queue exchange pattern) ∧ Topic.accepts pattern key = true := by
  unfold route
  rw [List.mem_filter, binds_iff]
  refine and_iff_right_of_imp ?_
  rintro ⟨pattern, hbound, -⟩
  exact mem_names.mpr (h.bound queue exchange pattern hbound)

/-- Routing depends on the queues and on what is in force. -/
theorem route_congr (hqueues : b'.queues = b.queues) (hhas : ∀ c, b'.Has c ↔ b.Has c) :
    b'.route = b.route := by
  funext exchange key
  have hbinds : (b'.binds · exchange key) = (b.binds · exchange key) := by
    funext queue
    apply Bool.eq_iff_iff.mpr
    rw [binds_iff, binds_iff]
    constructor
    · rintro ⟨pattern, hbound, haccepts⟩
      exact ⟨pattern, (hhas _).mp hbound, haccepts⟩
    · rintro ⟨pattern, hbound, haccepts⟩
      exact ⟨pattern, (hhas _).mpr hbound, haccepts⟩
  rw [route, route, hqueues, hbinds]

/-- A queue that is in force is not declared a second time. -/
theorem queues_call (h : b.call c = some b') (hold : b.Has c) : b'.queues = b.queues := by
  cases c with
  | assertExchange name =>
    have hmem : name ∈ b.exchanges := hold
    obtain rfl : b = b' := by simpa [call, assertExchange, hmem] using h
    rfl
  | assertQueue q =>
    have hfind : b.findQueue q.name = some q := hold
    obtain rfl : b = b' := by simpa [call, assertQueue, hfind] using h
    rfl
  | bindQueue queue exchange pattern =>
    obtain ⟨-, -, rfl⟩ := bindQueue_inv h
    rfl

/-- To make a call again changes no route. -/
theorem route_call (h : b.call c = some b') (hold : b.Has c) : b'.route = b.route := by
  refine route_congr (queues_call h hold) fun c' => ?_
  rw [has_call h]
  constructor
  · rintro (hc' | rfl)
    · exact hc'
    · exact hold
  · exact .inl

end Broker

/-! ## Clients -/

/-- An open connection, with the calls it has made and those it has still to make. -/
structure Connection (C : Type) where
  client : C
  done : List ChannelCall
  todo : List ChannelCall

structure Server (C : Type) where
  broker : Broker
  connections : Multiset (Connection C)

inductive ServerEvent (C : Type) where
  | connected (client : C)
  | accepted (client : C) (c : ChannelCall)
  | refused (client : C) (c : ChannelCall)
  | lost (client : C)

namespace Server

variable {C : Type}

def start : Server C := ⟨.empty, 0⟩

/-- The client has an open connection on which it has made all its calls. -/
def Ready (s : Server C) (client : C) : Prop :=
  ∃ p ∈ s.connections, p.client = client ∧ p.todo = []

end Server

/-- A connection may be lost at any time, and a client may connect any number of times. -/
inductive ServerStep {C : Type} (calls : C → List ChannelCall) :
    Server C → ServerEvent C → Server C → Prop where
  | connect {s : Server C} (client : C) : ServerStep calls s (.connected client)
      { s with connections := ⟨client, [], calls client⟩ ::ₘ s.connections }
  | accept {s : Server C} {client : C} {done : List ChannelCall} {c : ChannelCall}
      {todo : List ChannelCall} {rest : Multiset (Connection C)} {b' : Broker}
      (hopen : s.connections = ⟨client, done, c :: todo⟩ ::ₘ rest)
      (hcall : s.broker.call c = some b') :
      ServerStep calls s (.accepted client c) ⟨b', ⟨client, done ++ [c], todo⟩ ::ₘ rest⟩
  | refuse {s : Server C} {client : C} {done : List ChannelCall} {c : ChannelCall}
      {todo : List ChannelCall} {rest : Multiset (Connection C)}
      (hopen : s.connections = ⟨client, done, c :: todo⟩ ::ₘ rest)
      (hcall : s.broker.call c = none) :
      ServerStep calls s (.refused client c) { s with connections := rest }
  | lose {s : Server C} {p : Connection C} {rest : Multiset (Connection C)}
      (hopen : s.connections = p ::ₘ rest) :
      ServerStep calls s (.lost p.client) { s with connections := rest }

section Runs

open Transition

variable {C : Type} {calls : C → List ChannelCall} {s s' : Server C} {events : List (ServerEvent C)}
  {event : ServerEvent C}

/-- What is in force was called for by a client that has connected, and the connections are
somewhere in the calls of their clients. -/
structure Tracked (calls : C → List ChannelCall) (events : List (ServerEvent C)) (s : Server C) :
    Prop where
  sound : s.broker.Sound
  known : ∀ c, s.broker.Has c → ∃ client, .connected client ∈ events ∧ c ∈ calls client
  split : ∀ p ∈ s.connections, .connected p.client ∈ events ∧ calls p.client = p.done ++ p.todo
  inForce : ∀ p ∈ s.connections, ∀ c ∈ p.done, s.broker.Has c

theorem tracked_start : Tracked calls [] (Server.start : Server C) where
  sound := Broker.sound_empty
  known c h := by
    cases c with
    | assertExchange name => cases h
    | assertQueue q => cases h
    | bindQueue queue exchange pattern => cases h
  split p hp := by cases hp
  inForce p hp := by cases hp

theorem ServerStep.keeps_has {c : ChannelCall} (h : ServerStep calls s event s') (hc : s.broker.Has c) :
    s'.broker.Has c := by
  cases h with
  | connect | refuse | lose => exact hc
  | accept _ hcall => exact (Broker.has_call hcall).mpr (.inl hc)

theorem Tracked.step (ht : Tracked calls events s) (h : ServerStep calls s event s') :
    Tracked calls (events ++ [event]) s' := by
  have hpast : ∀ {e}, e ∈ events → e ∈ events ++ [event] := List.mem_append_left _
  have hknown : ∀ c, s.broker.Has c → ∃ client, .connected client ∈ events ++ [event] ∧ c ∈ calls client := by
    intro c hc
    obtain ⟨client, hconnected, hcalls⟩ := ht.known c hc
    exact ⟨client, hpast hconnected, hcalls⟩
  have hsplit : ∀ p ∈ s.connections,
      .connected p.client ∈ events ++ [event] ∧ calls p.client = p.done ++ p.todo :=
    fun p hp => ⟨hpast (ht.split p hp).1, (ht.split p hp).2⟩
  cases h with
  | connect client =>
    refine ⟨ht.sound, hknown, fun p hp => ?_, fun p hp => ?_⟩
    · rcases Multiset.mem_cons.mp hp with rfl | hold
      · exact ⟨by simp, rfl⟩
      · exact hsplit p hold
    · rcases Multiset.mem_cons.mp hp with rfl | hold
      · intro c hc
        cases hc
      · exact ht.inForce p hold
  | @accept client done c todo rest b' hopen hcall =>
    have hfirst := hsplit _ (hopen ▸ Multiset.mem_cons_self _ rest)
    have hrest : ∀ p ∈ rest, p ∈ s.connections := fun p hp => hopen ▸ Multiset.mem_cons_of_mem hp
    refine ⟨ht.sound.call hcall, fun c' hc' => ?_, fun p hp => ?_, fun p hp => ?_⟩
    · rcases (Broker.has_call hcall).mp hc' with hold | rfl
      · exact hknown c' hold
      · exact ⟨client, hfirst.1, hfirst.2 ▸ by simp⟩
    · rcases Multiset.mem_cons.mp hp with rfl | hold
      · exact ⟨hfirst.1, by rw [hfirst.2]; simp⟩
      · exact hsplit p (hrest p hold)
    · intro c' hc'
      rcases Multiset.mem_cons.mp hp with rfl | hold
      · rcases List.mem_append.mp hc' with hdone | hnew
        · exact (Broker.has_call hcall).mpr
            (.inl (ht.inForce _ (hopen ▸ Multiset.mem_cons_self _ rest) c' hdone))
        · exact (Broker.has_call hcall).mpr (.inr (List.mem_singleton.mp hnew))
      · exact (Broker.has_call hcall).mpr (.inl (ht.inForce p (hrest p hold) c' hc'))
  | @refuse client done c todo rest hopen hcall =>
    have hrest : ∀ p ∈ rest, p ∈ s.connections := fun p hp => hopen ▸ Multiset.mem_cons_of_mem hp
    exact ⟨ht.sound, hknown, fun p hp => hsplit p (hrest p hp), fun p hp => ht.inForce p (hrest p hp)⟩
  | @lose p rest hopen =>
    have hrest : ∀ p ∈ rest, p ∈ s.connections := fun p hp => hopen ▸ Multiset.mem_cons_of_mem hp
    exact ⟨ht.sound, hknown, fun p hp => hsplit p (hrest p hp), fun p hp => ht.inForce p (hrest p hp)⟩

theorem tracked_of_run (h : Run (ServerStep calls) .start events s) : Tracked calls events s := by
  generalize hstart : (Server.start : Server C) = first at h
  induction h with
  | nil => exact hstart ▸ tracked_start
  | snoc _ hlast ih => exact ih.step hlast

/-- A connection that has made its calls has them in force. -/
theorem Tracked.has_of_ready {client : C} {c : ChannelCall} (ht : Tracked calls events s)
    (hready : s.Ready client) (hc : c ∈ calls client) : s.broker.Has c := by
  obtain ⟨p, hp, rfl, htodo⟩ := hready
  rw [(ht.split p hp).2, htodo, List.append_nil] at hc
  exact ht.inForce p hp c hc

/-- A client that keeps to what is in force, and binds only what it has declared, is not refused. -/
theorem Tracked.not_refused {client : C} {c : ChannelCall} (ht : Tracked calls events s)
    (hsupported : ∀ client, Supported [] (calls client))
    (hagree : Agree fun c => s.broker.Has c ∨ c ∈ calls client) :
    ¬ ServerStep calls s (.refused client c) s' := by
  intro hstep
  cases hstep with
  | @refuse _ done _ todo rest hopen hcall =>
    have hmem := hopen ▸ Multiset.mem_cons_self (⟨client, done, c :: todo⟩ : Connection C) rest
    have hcalls : calls client = done ++ c :: todo := (ht.split _ hmem).2
    rcases Broker.call_eq_none hcall with
      ⟨q, q', rfl, hq', hname, hne⟩ | ⟨queue, exchange, pattern, rfl, hmissing⟩
    · exact hne (hagree q' q (.inl hq') (.inr (by simp [hcalls])) hname)
    · have hbound := hsupported client
      rw [hcalls] at hbound
      obtain ⟨⟨q, hq, hname⟩, hexchange⟩ := hbound.bound
      exact hmissing ⟨⟨q, ht.inForce _ hmem _ hq, hname⟩, ht.inForce _ hmem _ hexchange⟩

/-- While all that connect agree, none is refused. -/
theorem not_refused_of_run (hsupported : ∀ client, Supported [] (calls client))
    (h : Run (ServerStep calls) .start events s)
    (hagree : Agree fun c => ∃ client, .connected client ∈ events ∧ c ∈ calls client) :
    ∀ client c, .refused client c ∉ events := by
  generalize hstart : (Server.start : Server C) = first at h
  induction h with
  | nil => intro client c hmem; cases hmem
  | @snoc s₁ s₂ events event hrun hlast ih =>
    subst hstart
    have hpast : Agree fun c => ∃ client, .connected client ∈ events ∧ c ∈ calls client := by
      rintro q q' ⟨client, hmem, hq⟩ ⟨client', hmem', hq'⟩ hname
      exact hagree q q' ⟨client, List.mem_append_left _ hmem, hq⟩
        ⟨client', List.mem_append_left _ hmem', hq'⟩ hname
    intro client c hmem
    rcases List.mem_append.mp hmem with hold | hnew
    · exact ih hpast client c hold
    · obtain rfl := List.mem_singleton.mp hnew
      have ht := tracked_of_run hrun
      have hopened : .connected client ∈ events := by
        cases hlast with
        | @refuse _ done _ todo rest hopen hcall =>
          exact (ht.split _ (hopen ▸ Multiset.mem_cons_self _ rest)).1
      refine ht.not_refused hsupported ?_ hlast
      intro q q' hq hq' hname
      have hcalled : ∀ {c}, s₁.broker.Has c ∨ c ∈ calls client →
          ∃ client, .connected client ∈ events ∧ c ∈ calls client := by
        rintro c (hold | hmine)
        · exact ht.known c hold
        · exact ⟨client, hopened, hmine⟩
      exact hpast q q' (hcalled hq) (hcalled hq') hname

/-- What is in force stays in force. -/
theorem has_of_run {c : ChannelCall} (h : Run (ServerStep calls) s events s')
    (hc : s.broker.Has c) : s'.broker.Has c :=
  h.invariant (fun _ _ _ hold hstep => hstep.keeps_has hold) hc

/-- A client whose calls are all accepted can make them without a break. -/
theorem run_calls {client : C} {b b' : Broker} {rest : Multiset (Connection C)}
    (todo : List ChannelCall) {done : List ChannelCall} (h : todo.foldlM Broker.call b = some b') :
    Run (ServerStep calls) ⟨b, ⟨client, done, todo⟩ ::ₘ rest⟩ (todo.map (.accepted client))
      ⟨b', ⟨client, done ++ todo, []⟩ ::ₘ rest⟩ := by
  induction todo generalizing b done with
  | nil =>
    obtain rfl : b = b' := by simpa using h
    exact (List.append_nil done).symm ▸ .nil _
  | cons c todo ih =>
    rw [List.foldlM_cons] at h
    obtain ⟨b₁, hcall, hrest⟩ := Option.bind_eq_some_iff.mp h
    have hfirst : ServerStep calls ⟨b, ⟨client, done, c :: todo⟩ ::ₘ rest⟩ (.accepted client c)
        ⟨b₁, ⟨client, done ++ [c], todo⟩ ::ₘ rest⟩ := .accept rfl hcall
    have hlast := @ih b₁ (done ++ [c]) hrest
    rw [List.append_assoc] at hlast
    exact ((Run.nil _).snoc hfirst).append hlast

theorem run_connect {client : C} {b' : Broker} (h : (calls client).foldlM Broker.call s.broker = some b') :
    Run (ServerStep calls) s (.connected client :: (calls client).map (.accepted client))
      ⟨b', ⟨client, calls client, []⟩ ::ₘ s.connections⟩ :=
  ((Run.nil s).snoc (.connect client)).append (run_calls (calls client) h)

theorem Tracked.run {later : List (ServerEvent C)} (ht : Tracked calls events s)
    (h : Run (ServerStep calls) s later s') : Tracked calls (events ++ later) s' := by
  induction h with
  | nil => exact (List.append_nil events).symm ▸ ht
  | snoc _ hlast ih => exact List.append_assoc events _ _ ▸ ih.step hlast

/-- A client whose calls are in force is not refused again. -/
theorem not_refused_again {client : C} {later : List (ServerEvent C)}
    (hsupported : ∀ client, Supported [] (calls client)) (ht : Tracked calls events s)
    (hcalls : ∀ c ∈ calls client, s.broker.Has c) (h : Run (ServerStep calls) s later s') :
    ∀ c, .refused client c ∉ later := by
  induction h with
  | nil => intro c hmem; cases hmem
  | @snoc s₁ s₂ later event hrun hlast ih =>
    intro c hmem
    rcases List.mem_append.mp hmem with hold | hnew
    · exact ih c hold
    · obtain rfl := List.mem_singleton.mp hnew
      refine (ht.run hrun).not_refused hsupported (Broker.agree_of_has (b := s₁.broker) ?_) hlast
      rintro c (hold | hmine)
      · exact hold
      · exact has_of_run hrun (hcalls c hmine)

/-- The routes of a broker lead where the bindings of ready clients say, and nowhere that no client
has asked for. -/
theorem Tracked.mem_route {exchange key queue : String} (ht : Tracked calls events s)
    (hready : ∀ client, .connected client ∈ events → s.Ready client) :
    queue ∈ s.broker.route exchange key ↔ ∃ client pattern, .connected client ∈ events ∧
      .bindQueue queue exchange pattern ∈ calls client ∧ Topic.accepts pattern key = true := by
  rw [ht.sound.mem_route]
  constructor
  · rintro ⟨pattern, hbound, haccepts⟩
    obtain ⟨client, hconnected, hcalls⟩ := ht.known _ hbound
    exact ⟨client, pattern, hconnected, hcalls, haccepts⟩
  · rintro ⟨client, pattern, hconnected, hcalls, haccepts⟩
    exact ⟨pattern, ht.has_of_ready (hready client hconnected) hcalls, haccepts⟩

end Runs

end Amqp
