-- SUMMARY: Every event of a registration is outstanding once until its account has been welcomed.
import NestPlatform.Notification.Platform

/-!
# Welcome mails

An account that has been announced gets its welcome mail before its event is gone, and no
other mail is sent. Without losses it gets the mail once.
-/
namespace Notification

open Amqp Js Mongo Nest Database Effect Transition
open Auth (AuthState AuthConfig Bcrypt Jwt SessionRequest userCreated)

/-! ## Every event is accounted for -/

/-- The copy carries the event of an account. -/
def Tells (accounts : List Doc) (c : Copy Packet) (d : Doc) : Prop :=
  accounts[c.origin]? = some d ∧ c.message.content = packet d

/-- The accounts are those that the events announce. -/
structure Booked (env : Entries) (accounts : List Doc) (s : Platform) : Prop
    extends Accounted env accounts s where
  emails : ∀ d ∈ accounts, ∃ email, email ≠ "" ∧ d.fields "email" = .str email
  ready : ∀ c ∈ s.ready, ∃ d, Tells accounts c d
  handling : ∀ h ∈ s.handling, ∃ d, Tells accounts h.copy d ∧
    Careful (welcomeMail env d) ((h.copy.origin, welcomeMail env d) ∈ s.welcomed) h.todo

section Booking

variable {names : QueueNames} {b : Broker} {env : Entries} {accounts : List Doc} {s : Platform}

theorem getElem?_concat {d e : Doc} {i : ℕ} (h : accounts[i]? = some d) :
    (accounts ++ [e])[i]? = some d := by
  rw [List.getElem?_append_left (List.getElem?_eq_some_iff.mp h).1, h]

theorem Tells.concat {c : Copy Packet} {d e : Doc} (h : Tells accounts c d) :
    Tells (accounts ++ [e]) c d := ⟨getElem?_concat h.1, h.2⟩

/-- No copy has the number of an event that is still to come. -/
theorem Booked.outstanding_length (h : Booked env accounts s) :
    s.outstanding accounts.length = 0 := by
  have hlater : ∀ c d, Tells accounts c d → c.origin ≠ accounts.length := by
    intro c d htells heq
    have hlt := (List.getElem?_eq_some_iff.mp htells.1).1
    omega
  unfold Platform.outstanding
  rw [Nat.add_eq_zero_iff, Multiset.countP_eq_zero, Multiset.countP_eq_zero]
  constructor
  · intro c hc
    obtain ⟨d, hd⟩ := h.ready c hc
    exact hlater c d hd
  · intro delivery hdelivery
    obtain ⟨d, hd, -⟩ := h.handling delivery hdelivery
    exact hlater _ d hd

/-- The broker has the queue that events are sent to, once. -/
structure Connected (names : QueueNames) (b : Broker) : Prop where
  nodup : (b.queues.map QueueDecl.name).Nodup
  declared : names.events ∈ b.queues.map QueueDecl.name

theorem connected_of_declare {b₀ : Broker} (hnodup : (b₀.queues.map QueueDecl.name).Nodup)
    (h : names.declare b₀ = some b) : Connected names b := by
  obtain ⟨b₁, hevents, hnotifications⟩ := Option.bind_eq_some_iff.mp h
  obtain ⟨hfound, -, hnodup₁, -⟩ := RabbitMQ.assertQueue_spec hevents hnodup
  obtain ⟨-, -, hnodup₂, hkeep⟩ := RabbitMQ.assertQueue_spec hnotifications hnodup₁
  obtain ⟨hmem, hname⟩ := RabbitMQ.findQueue_mem (hkeep _ _ hfound)
  exact ⟨hnodup₂, List.mem_map.mpr ⟨_, hmem, hname⟩⟩

/-- A published event is one copy in the queue of the client. -/
theorem send_emit (hb : Connected names b) (event : Entries) (i : ℕ) :
    b.send (names.emit event) i = [⟨names.emit event, names.events, false, [], i⟩] := by
  have htargets : b.targets "" names.events = [names.events] := by
    unfold Broker.targets
    rw [if_pos rfl]
    exact (List.filter_eq ..).trans
      (by rw [List.count_eq_one_of_mem hb.nodup hb.declared, List.replicate_one])
  unfold Broker.send
  change (b.targets "" names.events).map _ = _
  rw [htargets]
  rfl

theorem publications_quiet {auth auth' : AuthState} (h : Quiet auth auth') :
    publications names b auth auth' = [] := by
  unfold publications
  rw [show auth'.events = auth.events from h, List.drop_length]
  rfl

theorem publications_announces (hb : Connected names b) {request : SessionRequest}
    {auth auth' : AuthState} {d : Doc} (h : Announces request auth auth' d) :
    publications names b auth auth' =
      [⟨names.emit (userCreated d), names.events, false, [], auth.events.length⟩] := by
  unfold publications
  rw [h.events, List.drop_left, List.zipIdx_singleton, List.flatMap_singleton]
  exact send_emit hb _ _

/-! ### Steps of the worker -/

namespace Platform

variable {s' : Platform}

theorem outstanding_eq (i : ℕ) (h : s'.ready + s'.handling.map InFlight.copy =
    s.ready + s.handling.map InFlight.copy) : s'.outstanding i = s.outstanding i := by
  have hcount : ∀ s : Platform, s.outstanding i =
      (s.ready + s.handling.map InFlight.copy).countP (·.origin = i) := by
    intro s
    rw [Multiset.countP_add, Multiset.countP_map, ← Multiset.countP_eq_card_filter, outstanding]
  rw [hcount, hcount, h]

end Platform

theorem Booked.deliver (h : Booked env accounts s) {c : Copy Packet} {rest : Multiset (Copy Packet)}
    {t : Transports} {takes : ChannelOp Packet → Bool} (hready : s.ready = c ::ₘ rest) :
    Booked env accounts
      { s with ready := rest,
               handling := ⟨c, Work.actions env t takes c.message.content⟩ ::ₘ s.handling } where
  events := h.events
  emails := h.emails
  ready c' hc' := h.ready c' (hready ▸ Multiset.mem_cons_of_mem hc')
  handling := by
    intro delivery hdelivery
    rcases Multiset.mem_cons.mp hdelivery with rfl | hold
    · obtain ⟨d, htells⟩ := h.ready c (hready ▸ Multiset.mem_cons_self c rest)
      obtain ⟨email, hne, hemail⟩ := h.emails d (List.mem_of_getElem? htells.1)
      refine ⟨d, htells, ?_⟩
      simp only [htells.2]
      exact (careful_actions hemail hne).mono False.elim
    · exact h.handling delivery hold
  welcomed := h.welcomed
  owed := by
    intro i d hd
    rw [Platform.outstanding_eq (s := s) i (by simp [hready])]
    exact h.owed i d hd

theorem Booked.transport (h : Booked env accounts s) {c : Copy Packet} {r : Request}
    {completed : Bool} {todo : List Action} {rest : Multiset InFlight}
    (hhandling : s.handling = ⟨c, .transport r completed :: todo⟩ ::ₘ rest) :
    Booked env accounts
      { s with handling := ⟨c, todo⟩ ::ₘ rest,
               welcomed := s.welcomed ++ if completed then [(c.origin, r)] else [] } := by
  obtain ⟨d, htells, hcareful⟩ := h.handling _ (hhandling ▸ Multiset.mem_cons_self _ rest)
  obtain ⟨rfl, htodo⟩ := hcareful
  have hgrows : ∀ {p : ℕ × Request}, p ∈ s.welcomed → p ∈ s.welcomed ++
      if completed then [(c.origin, welcomeMail env d)] else [] := List.mem_append_left _
  refine ⟨⟨h.events, ?owed, ?welcomed⟩, h.emails, h.ready, ?handling⟩
  case handling =>
    intro delivery hdelivery
    rcases Multiset.mem_cons.mp hdelivery with rfl | hold
    · refine ⟨d, htells, htodo.mono ?_⟩
      rintro (hmailed | rfl)
      · exact hgrows hmailed
      · exact List.mem_append_right _ (List.mem_singleton_self _)
    · obtain ⟨d', htells', hcareful'⟩ := h.handling delivery (hhandling ▸ Multiset.mem_cons_of_mem hold)
      exact ⟨d', htells', hcareful'.mono hgrows⟩
  case welcomed =>
    intro p hp
    rcases List.mem_append.mp hp with hold | hnew
    · exact h.welcomed p hold
    · cases completed with
      | false => cases hnew
      | true =>
        obtain rfl := List.mem_singleton.mp hnew
        exact ⟨d, htells.1, rfl⟩
  case owed =>
    intro i d' hd'
    rw [Platform.outstanding_eq (s := s) i (by simp [hhandling])]
    exact (h.owed i d' hd').imp_right (And.imp_right hgrows)

theorem Booked.refuse (h : Booked env accounts s) {c : Copy Packet} {op : ChannelOp Packet}
    {todo : List Action} {rest : Multiset InFlight}
    (hhandling : s.handling = ⟨c, .channel op false :: todo⟩ ::ₘ rest) :
    Booked env accounts { s with handling := ⟨c, todo⟩ ::ₘ rest } := by
  refine ⟨⟨h.events, ?owed, h.welcomed⟩, h.emails, h.ready, ?handling⟩
  case handling =>
    intro delivery hdelivery
    rcases Multiset.mem_cons.mp hdelivery with rfl | hold
    · obtain ⟨d, htells, hcareful⟩ := h.handling _ (hhandling ▸ Multiset.mem_cons_self _ rest)
      exact ⟨d, htells, hcareful.2⟩
    · exact h.handling delivery (hhandling ▸ Multiset.mem_cons_of_mem hold)
  case owed =>
    intro i d hd
    rw [Platform.outstanding_eq (s := s) i (by simp [hhandling])]
    exact h.owed i d hd

/-- A delivery that is put back stays owed. -/
theorem Booked.putBack (h : Booked env accounts s) {c : Copy Packet} {todo : List Action}
    {rest : Multiset InFlight} (hhandling : s.handling = ⟨c, todo⟩ ::ₘ rest) :
    Booked env accounts
      { s with ready := s.ready + b.perform c (.nack false true), handling := rest } := by
  obtain ⟨d, htells, -⟩ := h.handling _ (hhandling ▸ Multiset.mem_cons_self _ rest)
  have hback : ((b.perform c (.nack false true) : List (Copy Packet)) : Multiset (Copy Packet)) =
      { c with unacked := false } ::ₘ 0 := rfl
  refine ⟨⟨h.events, ?owed, h.welcomed⟩, h.emails, ?ready, ?handling⟩
  case ready =>
    intro c' hc'
    rcases Multiset.mem_add.mp hc' with hold | hnew
    · exact h.ready c' hold
    · rw [hback, Multiset.cons_zero] at hnew
      obtain rfl := Multiset.mem_singleton.mp hnew
      exact ⟨d, htells⟩
  case handling =>
    intro delivery hdelivery
    exact h.handling delivery (hhandling ▸ Multiset.mem_cons_of_mem hdelivery)
  case owed =>
    intro i d' hd'
    have hsame : Platform.outstanding
        { s with ready := s.ready + b.perform c (.nack false true), handling := rest } i =
        s.outstanding i := by
      simp only [Platform.outstanding, hhandling, hback, Multiset.countP_add, Multiset.countP_cons,
        Multiset.countP_zero]
      omega
    rw [hsame]
    exact h.owed i d' hd'

/-- A delivery is acknowledged once its account has the mail. -/
theorem Booked.acknowledge (h : Booked env accounts s) {c : Copy Packet} {todo : List Action}
    {rest : Multiset InFlight} (hhandling : s.handling = ⟨c, todo⟩ ::ₘ rest) {d : Doc}
    (htells : Tells accounts c d) (hmailed : (c.origin, welcomeMail env d) ∈ s.welcomed) :
    Booked env accounts { s with ready := s.ready + b.perform c .ack, handling := rest } := by
  have hgone : ((b.perform c .ack : List (Copy Packet)) : Multiset (Copy Packet)) = 0 := rfl
  refine ⟨⟨h.events, ?owed, h.welcomed⟩, h.emails, ?ready, ?handling⟩
  case ready =>
    intro c' hc'
    rw [hgone, add_zero] at hc'
    exact h.ready c' hc'
  case handling =>
    intro delivery hdelivery
    exact h.handling delivery (hhandling ▸ Multiset.mem_cons_of_mem hdelivery)
  case owed =>
    intro i d' hd'
    have hone : s.outstanding i = Platform.outstanding
        { s with ready := s.ready + b.perform c .ack, handling := rest } i +
          if c.origin = i then 1 else 0 := by
      simp only [Platform.outstanding, hhandling, hgone, add_zero, Multiset.countP_cons, add_assoc]
    have howed := h.owed i d' hd'
    by_cases hi : c.origin = i
    · obtain rfl : d = d' := by
        rw [← hi, htells.1] at hd'
        exact Option.some.inj hd'
      rw [if_pos hi] at hone
      refine .inr ⟨by omega, ?_⟩
      rw [← hi]
      exact hmailed
    · rw [if_neg hi] at hone
      rw [hone] at howed
      exact howed

/-- A delivery is put back, or its event is no longer outstanding and the account has its mail. -/
theorem Booked.settle (h : Booked env accounts s) {c : Copy Packet} {op : ChannelOp Packet}
    {todo : List Action} {rest : Multiset InFlight}
    (hhandling : s.handling = ⟨c, .channel op true :: todo⟩ ::ₘ rest) :
    Booked env accounts { s with ready := s.ready + b.perform c op, handling := rest } := by
  obtain ⟨d, htells, hcareful⟩ := h.handling _ (hhandling ▸ Multiset.mem_cons_self _ rest)
  rcases hcareful.1 rfl with rfl | ⟨rfl, hmailed⟩
  · exact h.putBack hhandling
  · exact h.acknowledge hhandling htells hmailed

theorem Booked.lose (h : Booked env accounts s) {lost kept : Multiset InFlight}
    (hhandling : s.handling = lost + kept) :
    Booked env accounts { s with ready := s.ready + lost.map InFlight.copy, handling := kept } := by
  refine ⟨⟨h.events, ?owed, h.welcomed⟩, h.emails, ?ready, ?handling⟩
  case ready =>
    intro c hc
    rcases Multiset.mem_add.mp hc with hold | hback
    · exact h.ready c hold
    · obtain ⟨delivery, hdelivery, rfl⟩ := Multiset.mem_map.mp hback
      obtain ⟨d, htells, -⟩ :=
        h.handling delivery (hhandling ▸ Multiset.mem_add.mpr (.inl hdelivery))
      exact ⟨d, htells⟩
  case handling =>
    intro delivery hdelivery
    exact h.handling delivery (hhandling ▸ Multiset.mem_add.mpr (.inr hdelivery))
  case owed =>
    intro i d hd
    rw [Platform.outstanding_eq (s := s) i (by simp [hhandling, add_assoc])]
    exact h.owed i d hd

/-! ### Steps of the auth service -/

theorem Booked.quiet (h : Booked env accounts s) {auth : AuthState} (hquiet : Quiet s.auth auth) :
    Booked env accounts { s with auth, ready := s.ready + publications names b s.auth auth } := by
  have hsame : ({ s with auth, ready := s.ready + publications names b s.auth auth } : Platform) =
      { s with auth } := by
    rw [publications_quiet hquiet, Multiset.coe_nil, add_zero]
  rw [hsame]
  exact ⟨⟨Eq.trans hquiet h.events, h.owed, h.welcomed⟩, h.emails, h.ready, h.handling⟩

theorem Booked.announce (h : Booked env accounts s) (hb : Connected names b)
    {request : SessionRequest} {auth : AuthState} {d : Doc}
    (hannounces : Announces request s.auth auth d)
    (hemail : ∃ email, email ≠ "" ∧ d.fields "email" = .str email) :
    Booked env (accounts ++ [d])
      { s with auth, ready := s.ready + publications names b s.auth auth } := by
  have hlength : s.auth.events.length = accounts.length := by
    rw [h.events, List.length_map]
  rw [publications_announces hb hannounces, hlength]
  refine ⟨⟨?events, ?owed, ?welcomed⟩, ?emails, ?ready, ?handling⟩
  case events =>
    rw [List.map_append, ← h.events]
    exact hannounces.events
  case owed =>
    -- the copy counts for the event at the end of the log and for no other
    intro i d' hd'
    have hcount : Platform.outstanding { s with auth, ready := s.ready +
          ([⟨names.emit (userCreated d), names.events, false, [], accounts.length⟩] :
            List (Copy Packet)) } i =
        s.outstanding i + if accounts.length = i then 1 else 0 := by
      simp only [Platform.outstanding, Multiset.countP_add, Multiset.coe_singleton,
        ← Multiset.cons_zero, Multiset.countP_cons, Multiset.countP_zero]
      omega
    rw [hcount]
    by_cases hi : accounts.length = i
    · -- the new event: nothing has been owed for it so far
      subst hi
      rw [if_pos rfl, h.outstanding_length]
      exact .inl rfl
    · rw [if_neg hi, add_zero]
      refine h.owed i d' ?_
      have hlt := (List.getElem?_eq_some_iff.mp hd').1
      rw [List.length_append, List.length_singleton] at hlt
      rw [List.getElem?_append_left (by omega)] at hd'
      exact hd'
  case welcomed =>
    intro p hp
    obtain ⟨d', hd', hmail⟩ := h.welcomed p hp
    exact ⟨d', getElem?_concat hd', hmail⟩
  case emails =>
    intro d' hd'
    rcases List.mem_append.mp hd' with hold | hnew
    · exact h.emails d' hold
    · obtain rfl := List.mem_singleton.mp hnew
      exact hemail
  case ready =>
    intro c hc
    rcases Multiset.mem_add.mp hc with hold | hnew
    · obtain ⟨d', htells⟩ := h.ready c hold
      exact ⟨d', htells.concat⟩
    · obtain rfl := List.mem_singleton.mp hnew
      exact ⟨d, List.getElem?_concat_length, rfl⟩
  case handling =>
    intro delivery hdelivery
    obtain ⟨d', htells, hcareful⟩ := h.handling delivery hdelivery
    exact ⟨d', htells.concat, hcareful⟩

end Booking

/-! ## Runs -/

section Runs

variable {M : Mongoose} {bcrypt : Bcrypt} {jwt : Jwt} {config : AuthConfig} {names : QueueNames}
  {b : Broker} {env : Entries} {s s' : Platform} {events : List PlatformEvent}

theorem Platform.Fresh.booked (h : s.Fresh) : Booked env [] s where
  events := h.events
  owed i d hd := by simp at hd
  welcomed p hp := by
    rw [h.welcomed] at hp
    cases hp
  emails d hd := by cases hd
  ready c hc := by
    rw [h.ready] at hc
    cases hc
  handling delivery hdelivery := by
    rw [h.handling] at hdelivery
    cases hdelivery

theorem RegisteredIn.snoc {Step : Platform → PlatformEvent → Platform → Prop} {d : Doc}
    (h : RegisteredIn Step s events d) (event : PlatformEvent) :
    RegisteredIn Step s (events ++ [event]) d := by
  obtain ⟨earlier, request, s₁, s₂, hprefix, hrest⟩ := h
  exact ⟨earlier, request, s₁, s₂, hprefix.trans (List.prefix_append _ _), hrest⟩

/-- A step publishes nothing, or it announces one more account. -/
theorem booked_step (hM : M.Typed) (hb : Connected names b) {accounts : List Doc}
    {event : PlatformEvent} (hbooked : Booked env accounts s)
    (h : PlatformStep M bcrypt jwt config names b env s event s') :
    (Quiet s.auth s'.auth ∧ Booked env accounts s') ∨
      ∃ request d, event = .call request ∧ Announces request s.auth s'.auth d ∧
        Booked env (accounts ++ [d]) s' := by
  cases h with
  | call hexec =>
    rcases run_announces hM hexec with hquiet | ⟨d, hannounces, hemail⟩
    · exact .inl ⟨hquiet, hbooked.quiet hquiet⟩
    · exact .inr ⟨_, d, rfl, hannounces, hbooked.announce hb hannounces hemail⟩
  | deliver hready => exact .inl ⟨rfl, hbooked.deliver hready⟩
  | transport hhandling => exact .inl ⟨rfl, hbooked.transport hhandling⟩
  | refuse hhandling => exact .inl ⟨rfl, hbooked.refuse hhandling⟩
  | settle hhandling => exact .inl ⟨rfl, hbooked.settle hhandling⟩
  | lose hhandling => exact .inl ⟨rfl, hbooked.lose hhandling⟩

theorem booked_of_run (hM : M.Typed) (hb : Connected names b) (hfresh : s.Fresh)
    (h : Run (PlatformStep M bcrypt jwt config names b env) s events s') :
    ∃ accounts, Booked env accounts s' ∧ ∀ d ∈ accounts,
      RegisteredIn (PlatformStep M bcrypt jwt config names b env) s events d := by
  induction h with
  | nil => exact ⟨[], hfresh.booked, fun d hd => by cases hd⟩
  | @snoc s₁ s₂ events event hrun hlast ih =>
    obtain ⟨accounts, hbooked, hregistered⟩ := ih
    have hkept : ∀ d ∈ accounts, RegisteredIn _ _ (events ++ [event]) d := fun d hd =>
      (hregistered d hd).snoc event
    rcases booked_step hM hb hbooked hlast with ⟨-, hnext⟩ | ⟨request, d, rfl, hannounces, hnext⟩
    · exact ⟨accounts, hnext, hkept⟩
    · refine ⟨accounts ++ [d], hnext, ?_⟩
      intro d' hd'
      rcases List.mem_append.mp hd' with hold | hnew
      · exact hkept d' hold
      · obtain rfl := List.mem_singleton.mp hnew
        exact ⟨events, request, s₁, s₂, List.prefix_refl _, hrun, hlast, hannounces⟩

/-- However registrations, deliveries and losses interleave, every announced account is one that a
registration has stored, its event is outstanding once until its welcome mail has completed, and
no other mail completes. -/
theorem run_accounted (hM : M.Typed) {b₀ : Broker} (hnodup : (b₀.queues.map QueueDecl.name).Nodup)
    (hdeclare : names.declare b₀ = some b) (hfresh : s.Fresh)
    (h : Run (PlatformStep M bcrypt jwt config names b env) s events s') :
    ∃ accounts, Accounted env accounts s' ∧ ∀ d ∈ accounts,
      RegisteredIn (PlatformStep M bcrypt jwt config names b env) s events d := by
  obtain ⟨accounts, hbooked, hregistered⟩ :=
    booked_of_run hM (connected_of_declare hnodup hdeclare) hfresh h
  exact ⟨accounts, hbooked.toAccounted, hregistered⟩

/-! ### One registration -/

/-- Frank registers, and the broker takes his event. -/
def frankRegisters : SessionRequest where
  env := ⟨⟨0, ⟨"0000000000000000000000f1", by decide⟩, 0⟩, "salt", true⟩
  call := .of (.register
    [("email", .str "frank@example.com"), ("password", .str "secret"), ("name", .str "Frank")])

def blank : Platform := ⟨⟨.empty, []⟩, 0, 0, []⟩

def oneQueue : Broker := ⟨[], [⟨"notification.queue", true, none⟩], []⟩

def frankConfig : AuthConfig := ⟨"access", some "refresh", none, none, .fin 12⟩

def FrankStep : Platform → PlatformEvent → Platform → Prop :=
  PlatformStep .plain .plain .plain frankConfig {} oneQueue []

def frankAuth : AuthState :=
  ((frankRegisters.run .plain .plain .plain frankConfig).exec blank.auth).2

def frankRegistered : Platform :=
  { blank with auth := frankAuth, ready := 0 + publications {} oneQueue blank.auth frankAuth }

theorem blank_fresh : blank.Fresh := ⟨rfl, rfl, rfl, rfl⟩

theorem frank_step : FrankStep blank (.call frankRegisters) frankRegistered := .call rfl

/-- Frank's account, and its event in the queue. -/
def frank : Doc := frankAuth.users.docs.headD ⟨frankRegisters.env.env.newId, fun _ => .undefined⟩

def frankCopy : Copy Packet :=
  ⟨QueueNames.emit {} (userCreated frank), "notification.queue", false, [], 0⟩

/-- A worker has the event, after some mails. -/
def frankHandled (todo : List Action) (welcomed : List (ℕ × Request)) : Platform :=
  { frankRegistered with ready := 0, handling := {⟨frankCopy, todo⟩}, welcomed }

/-- The mail has been sent, and the event is settled. -/
def frankMailed : Platform :=
  { frankRegistered with ready := 0, handling := 0, welcomed := [(0, welcomeMail [] frank)] }

def Transports.always (works : Bool) : Transports :=
  ⟨fun _ => works, fun _ => works, fun _ => works, fun _ _ => works⟩

/-- A delivery while the transports work, or while they do not. -/
def frankDelivers (works : Bool) : PlatformEvent := .deliver (.always works) fun _ => true

/-- What a delivery leaves to be done. -/
def frankTodo (works : Bool) : List Action :=
  [.transport (welcomeMail [] frank) works,
    if works then .channel .ack true else .channel (.nack false true) true]

theorem frank_ready : frankRegistered.ready = frankCopy ::ₘ 0 := rfl

theorem frank_handling (todo : List Action) (welcomed : List (ℕ × Request)) :
    (frankHandled todo welcomed).handling = ⟨frankCopy, todo⟩ ::ₘ 0 := rfl

theorem frank_deliver (works : Bool) :
    FrankStep frankRegistered (frankDelivers works) (frankHandled (frankTodo works) []) := by
  have htodo : Work.actions [] (.always works) (fun _ => true) (packet frank) = frankTodo works := by
    have hemail : frank.fields "email" = .str "frank@example.com" := rfl
    rw [actions_packet hemail (by decide)]
    cases works <;> rfl
  have hstep : FrankStep frankRegistered (frankDelivers works) _ := .deliver frank_ready rfl
  rw [← htodo]
  exact hstep

theorem frank_transport (works : Bool) : FrankStep (frankHandled (frankTodo works) []) .act
    (frankHandled (frankTodo works).tail (if works then [(0, welcomeMail [] frank)] else [])) :=
  .transport (frank_handling _ _)

/-- The mail has failed. -/
theorem frank_putBack : FrankStep (frankHandled (frankTodo false).tail []) .act frankRegistered := by
  have hstep : FrankStep (frankHandled (frankTodo false).tail []) .act _ :=
    .settle (frank_handling _ _)
  exact hstep

theorem frank_acknowledged :
    FrankStep (frankHandled (frankTodo true).tail [(0, welcomeMail [] frank)]) .act frankMailed := by
  have hstep : FrankStep (frankHandled (frankTodo true).tail [(0, welcomeMail [] frank)]) .act _ :=
    .settle (frank_handling _ _)
  exact hstep

theorem frank_lost (todo : List Action) : FrankStep (frankHandled todo []) .lose frankRegistered := by
  have hlost : (frankHandled todo []).handling = {⟨frankCopy, todo⟩} + 0 := rfl
  have hstep : FrankStep (frankHandled todo []) .lose _ := .lose hlost
  exact hstep

/-- A mail fails, a worker is lost, and at last Frank gets his mail. -/
theorem run_accounted_frank : (0, welcomeMail [] frank) ∈ frankMailed.welcomed ∧
    ∃ accounts, Accounted [] accounts frankMailed ∧ ∀ d ∈ accounts, RegisteredIn FrankStep blank
      [.call frankRegisters, frankDelivers false, .act, .act, frankDelivers true, .lose,
        frankDelivers true, .act, .act] d := by
  have hnodup : (Broker.empty.queues.map QueueDecl.name).Nodup := List.nodup_nil
  have hdeclare : QueueNames.declare {} .empty = some oneQueue := rfl
  have hfailed : Run FrankStep blank [.call frankRegisters, frankDelivers false, .act, .act]
      frankRegistered :=
    .snoc (.snoc (.snoc (.snoc (.nil _) frank_step) (frank_deliver false)) (frank_transport false))
      frank_putBack
  have hlost : Run FrankStep frankRegistered [frankDelivers true, .lose] frankRegistered :=
    .snoc (.snoc (.nil _) (frank_deliver true)) (frank_lost _)
  have hmailed : Run FrankStep frankRegistered [frankDelivers true, .act, .act] frankMailed :=
    .snoc (.snoc (.snoc (.nil _) (frank_deliver true)) (frank_transport true)) frank_acknowledged
  exact ⟨List.mem_singleton_self _, run_accounted Mongoose.plain_typed hnodup hdeclare blank_fresh
    ((hfailed.append hlost).append hmailed)⟩

/-! ### Runs without losses -/

/-- What a delivery will still add to the mails or put back, up to its settlement. -/
def debt : List Action → ℕ
  | [] => 0
  | .transport _ completed :: todo => (if completed then 1 else 0) + debt todo
  | .channel _ false :: todo => debt todo
  | .channel (.nack _ true) true :: _ => 1
  | .channel _ true :: _ => 0

/-- The mails to an account, with those that are still to come. -/
def Platform.mails (s : Platform) (i : ℕ) : ℕ :=
  s.ready.countP (·.origin = i) +
    (s.handling.map fun delivery => if delivery.copy.origin = i then debt delivery.todo else 0).sum +
    s.welcomed.countP (·.1 = i)

/-- No worker is lost, and the channel takes every operation. -/
def Undisturbed (_ : Platform) : PlatformEvent → Prop
  | .deliver _ takes => ∀ op, takes op = true
  | .lose => False
  | _ => True

theorem debt_actions {t : Transports} {takes : ChannelOp Packet → Bool} (htakes : ∀ op, takes op = true)
    {d : Doc} {email : String} (hemail : d.fields "email" = .str email) (hne : email ≠ "") :
    debt (Work.actions env t takes (packet d)) = 1 := by
  rw [actions_packet hemail hne, htakes, htakes, if_pos rfl]
  cases t.carries (welcomeMail env d) <;> rfl

/-- No mail has the number of an event that is still to come. -/
theorem Booked.mails_length {accounts : List Doc} (h : Booked env accounts s) :
    s.mails accounts.length = 0 := by
  have hnone := h.outstanding_length
  unfold Platform.outstanding at hnone
  obtain ⟨hready, hhandling⟩ := Nat.add_eq_zero_iff.mp hnone
  have hsum : (s.handling.map fun delivery =>
      if delivery.copy.origin = accounts.length then debt delivery.todo else 0).sum = 0 := by
    refine Multiset.sum_eq_zero fun x hx => ?_
    obtain ⟨delivery, hdelivery, rfl⟩ := Multiset.mem_map.mp hx
    exact if_neg (Multiset.countP_eq_zero.mp hhandling delivery hdelivery)
  have hwelcomed : s.welcomed.countP (·.1 = accounts.length) = 0 := by
    rw [List.countP_eq_zero]
    intro p hp heq
    obtain ⟨d, hd, -⟩ := h.welcomed p hp
    have hlt := (List.getElem?_eq_some_iff.mp hd).1
    have heq' : p.1 = accounts.length := by simpa using heq
    omega
  unfold Platform.mails
  rw [hready, hsum, hwelcomed]

theorem mails_step {accounts : List Doc} {event : PlatformEvent} (hbooked : Booked env accounts s)
    (h : Meeting (PlatformStep M bcrypt jwt config names b env) Undisturbed s event s')
    (hquiet : s'.auth.events = s.auth.events) (i : ℕ) : s'.mails i = s.mails i := by
  obtain ⟨hstep, hundisturbed⟩ := h
  cases hstep with
  | call hexec =>
    unfold Platform.mails
    rw [publications_quiet hquiet]
    simp
  | @deliver c rest t takes hready hqueue =>
    obtain ⟨d, htells⟩ := hbooked.ready c (hready ▸ Multiset.mem_cons_self c rest)
    obtain ⟨email, hne, hemail⟩ := hbooked.emails d (List.mem_of_getElem? htells.1)
    simp only [Platform.mails, hready, htells.2, Multiset.countP_cons, Multiset.map_cons,
      Multiset.sum_cons, debt_actions hundisturbed hemail hne]
    omega
  | @transport c r completed todo rest hhandling =>
    simp only [Platform.mails, hhandling, Multiset.map_cons, Multiset.sum_cons, List.countP_append,
      debt]
    cases completed with
    | false => simp
    | true =>
      simp only [if_true, List.countP_singleton, decide_eq_true_eq]
      split <;> omega
  | refuse hhandling => simp [Platform.mails, hhandling, debt]
  | @settle c op todo rest hhandling =>
    obtain ⟨d, htells, hcareful⟩ := hbooked.handling _ (hhandling ▸ Multiset.mem_cons_self _ rest)
    rcases hcareful.1 rfl with rfl | ⟨rfl, -⟩
    · have hback : ((b.perform c (.nack false true) : List (Copy Packet)) : Multiset (Copy Packet)) =
          { c with unacked := false } ::ₘ 0 := rfl
      simp only [Platform.mails, hhandling, hback, Multiset.countP_add, Multiset.countP_cons,
        Multiset.countP_zero, Multiset.map_cons, Multiset.sum_cons, debt]
      omega
    · have hgone : ((b.perform c .ack : List (Copy Packet)) : Multiset (Copy Packet)) = 0 := rfl
      simp [Platform.mails, hhandling, hgone, debt]
  | lose => exact hundisturbed.elim

/-- The event of a new account is one more mail to come. -/
theorem mails_announce {request : SessionRequest} {accounts : List Doc} {d : Doc}
    (hb : Connected names b) (hbooked : Booked env accounts s)
    (h : PlatformStep M bcrypt jwt config names b env s (.call request) s')
    (hannounces : Announces request s.auth s'.auth d) (i : ℕ) :
    s'.mails i = s.mails i + if accounts.length = i then 1 else 0 := by
  cases h with
  | call hexec =>
    have hlength : s.auth.events.length = accounts.length := by
      rw [hbooked.events, List.length_map]
    simp only [Platform.mails, publications_announces hb hannounces, hlength, Multiset.countP_add,
      Multiset.coe_singleton, ← Multiset.cons_zero, Multiset.countP_cons, Multiset.countP_zero]
    omega

theorem booked_of_undisturbed (hM : M.Typed) (hb : Connected names b) (hfresh : s.Fresh)
    (h : Run (Meeting (PlatformStep M bcrypt jwt config names b env) Undisturbed) s events s') :
    ∃ accounts, Booked env accounts s' ∧ ∀ i < accounts.length, s'.mails i = 1 := by
  induction h with
  | nil => exact ⟨[], hfresh.booked, fun i hi => by cases hi⟩
  | snoc hrun hlast ih =>
    obtain ⟨accounts, hbooked, hmails⟩ := ih
    rcases booked_step hM hb hbooked hlast.1 with ⟨hquiet, hnext⟩ | ⟨request, d, rfl, hannounces, hnext⟩
    · refine ⟨accounts, hnext, fun i hi => ?_⟩
      rw [mails_step hbooked hlast hquiet]
      exact hmails i hi
    · refine ⟨accounts ++ [d], hnext, fun i hi => ?_⟩
      rw [mails_announce hb hbooked hlast.1 hannounces]
      by_cases hnew : accounts.length = i
      · rw [if_pos hnew, ← hnew, hbooked.mails_length]
      · rw [if_neg hnew, add_zero]
        rw [List.length_append, List.length_singleton] at hi
        exact hmails i (by omega)

/-- While no worker is lost and the channel takes every operation, an account gets at most one mail,
and it has got one when its event is settled. -/
theorem run_once (hM : M.Typed) {b₀ : Broker} (hnodup : (b₀.queues.map QueueDecl.name).Nodup)
    (hdeclare : names.declare b₀ = some b) (hfresh : s.Fresh)
    (h : Run (Meeting (PlatformStep M bcrypt jwt config names b env) Undisturbed) s events s') :
    ∃ accounts, Accounted env accounts s' ∧ ∀ i < accounts.length,
      s'.welcomed.countP (·.1 = i) ≤ 1 ∧
        (s'.outstanding i = 0 → s'.welcomed.countP (·.1 = i) = 1) := by
  obtain ⟨accounts, hbooked, hmails⟩ :=
    booked_of_undisturbed hM (connected_of_declare hnodup hdeclare) hfresh h
  refine ⟨accounts, hbooked.toAccounted, fun i hi => ?_⟩
  have hone := hmails i hi
  unfold Platform.mails at hone
  refine ⟨by omega, fun hsettled => ?_⟩
  rcases hbooked.owed i _ (List.getElem?_eq_getElem hi) with hopen | ⟨-, hmailed⟩
  · omega
  · have hsome : 0 < s'.welcomed.countP (·.1 = i) := by
      rw [List.countP_pos_iff]
      exact ⟨_, hmailed, by simp⟩
    omega

/-- A mail fails and the next one is sent: Frank has got one. -/
theorem run_once_frank : frankMailed.welcomed = [(0, welcomeMail [] frank)] ∧
    ∃ accounts, Accounted [] accounts frankMailed ∧
      ∀ i < accounts.length, frankMailed.welcomed.countP (·.1 = i) ≤ 1 ∧
        (frankMailed.outstanding i = 0 → frankMailed.welcomed.countP (·.1 = i) = 1) := by
  have hnodup : (Broker.empty.queues.map QueueDecl.name).Nodup := List.nodup_nil
  have hdeclare : QueueNames.declare {} .empty = some oneQueue := rfl
  have htakes : ∀ works, Undisturbed frankRegistered (frankDelivers works) := fun _ _ => rfl
  have hrun : Run (Meeting FrankStep Undisturbed) blank
      [.call frankRegisters, frankDelivers false, .act, .act, frankDelivers true, .act, .act]
      frankMailed :=
    .snoc (.snoc (.snoc (.snoc (.snoc (.snoc (.snoc (.nil _) ⟨frank_step, trivial⟩)
      ⟨frank_deliver false, htakes false⟩) ⟨frank_transport false, trivial⟩) ⟨frank_putBack, trivial⟩)
      ⟨frank_deliver true, htakes true⟩) ⟨frank_transport true, trivial⟩)
      ⟨frank_acknowledged, trivial⟩
  exact ⟨rfl, run_once Mongoose.plain_typed hnodup hdeclare blank_fresh hrun⟩

end Runs

end Notification
