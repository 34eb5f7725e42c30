-- SUMMARY: The auth service, the queue of its events and the notification worker as one system.
import NestPlatform.Auth.Provenance
import NestPlatform.Auth.Registration
import NestPlatform.Gateway.Rpc
import NestPlatform.Mongo.Validity
import NestPlatform.Notification.Delivery
import NestPlatform.RabbitMQ.Topology

/-!
# From registration to welcome mail

A registration emits `user.created` to a queue. The notification worker takes it from there,
sends the welcome mail and acknowledges. Deliveries are handled step by step and side by side,
and a worker that is lost gives back what it has not settled.
-/
namespace Notification

open Amqp Js Mongo Nest Database Effect Transition
open Auth (AuthState AuthConfig Bcrypt Jwt SessionRequest AuthEvent userCreated orText)

/-! ## Queues -/

/-- The environment variables that name the queue on either side. -/
structure QueueNames where
  RABBITMQ_QUEUE_EVENTS : Option String := none
  RABBITMQ_QUEUE_NOTIFICATIONS : Option String := none

namespace QueueNames

variable (names : QueueNames)

/-- The queue that the auth service emits to. -/
def events : String := orText names.RABBITMQ_QUEUE_EVENTS "notification.queue"

/-- The queue that the worker consumes. -/
def notifications : String := orText names.RABBITMQ_QUEUE_NOTIFICATIONS "notification.queue"

/-- Either side declares its queue, durable and without arguments. -/
def declare (b : Broker) : Option Broker := do
  let b ← b.assertQueue ⟨names.events, true, none⟩
  b.assertQueue ⟨names.notifications, true, none⟩

/-- `eventsClient.emit`; the content passes through JSON. -/
def emit (event : Entries) : Message Packet where
  exchange := ""
  routingKey := names.events
  content := ⟨.USER_CREATED, .obj (Gateway.encode event)⟩
  properties := {}

end QueueNames

/-! ## The platform -/

/-- A delivery with the worker, and what its handler has still to do. -/
structure InFlight where
  copy : Copy Packet
  todo : List Action

structure Platform where
  auth : AuthState
  ready : Multiset (Copy Packet)
  handling : Multiset InFlight
  /-- The requests to transports that have completed, each with the event it was made for. -/
  welcomed : List (ℕ × Request)

namespace Platform

/-- Nothing has been published. -/
structure Fresh (s : Platform) : Prop where
  events : s.auth.events = []
  ready : s.ready = 0
  handling : s.handling = 0
  welcomed : s.welcomed = []

/-- The copies of an event that have not been settled. -/
def outstanding (s : Platform) (i : ℕ) : ℕ :=
  s.ready.countP (·.origin = i) + s.handling.countP (·.copy.origin = i)

end Platform

inductive PlatformEvent where
  | call (request : SessionRequest)
  | deliver (t : Transports) (takes : ChannelOp Packet → Bool)
  /-- A handler goes on with its next action. -/
  | act
  /-- A worker or its connection is lost. -/
  | lose

section Steps

variable (M : Mongoose) (bcrypt : Bcrypt) (jwt : Jwt) (config : AuthConfig) (names : QueueNames)
  (b : Broker) (env : Entries)

/-- The copies of the events that the call from `s` to `s'` has published. -/
def publications (s s' : AuthState) : List (Copy Packet) :=
  ((s'.events.drop s.events.length).zipIdx s.events.length).flatMap fun e =>
    b.send (names.emit e.1) e.2

inductive PlatformStep : Platform → PlatformEvent → Platform → Prop where
  | call {s : Platform} {request : SessionRequest} {result : Except Thrown (List AuthEvent)}
      {auth : AuthState} : (request.run M bcrypt jwt config).exec s.auth = (result, auth) →
      PlatformStep s (.call request)
        { s with auth, ready := s.ready + publications names b s.auth auth }
  | deliver {s : Platform} {c : Copy Packet} {rest : Multiset (Copy Packet)} {t : Transports}
      {takes : ChannelOp Packet → Bool} : s.ready = c ::ₘ rest → c.queue = names.notifications →
      PlatformStep s (.deliver t takes)
        { s with ready := rest,
                 handling := ⟨c, Work.actions env t takes c.message.content⟩ ::ₘ s.handling }
  | transport {s : Platform} {c : Copy Packet} {r : Request} {completed : Bool}
      {todo : List Action} {rest : Multiset InFlight} :
      s.handling = ⟨c, .transport r completed :: todo⟩ ::ₘ rest →
      PlatformStep s .act
        { s with handling := ⟨c, todo⟩ ::ₘ rest,
                 welcomed := s.welcomed ++ if completed then [(c.origin, r)] else [] }
  | refuse {s : Platform} {c : Copy Packet} {op : ChannelOp Packet} {todo : List Action}
      {rest : Multiset InFlight} :
      s.handling = ⟨c, .channel op false :: todo⟩ ::ₘ rest →
      PlatformStep s .act { s with handling := ⟨c, todo⟩ ::ₘ rest }
  | settle {s : Platform} {c : Copy Packet} {op : ChannelOp Packet} {todo : List Action}
      {rest : Multiset InFlight} :
      s.handling = ⟨c, .channel op true :: todo⟩ ::ₘ rest →
      PlatformStep s .act { s with ready := s.ready + b.perform c op, handling := rest }
  /-- What the lost worker had not settled is ready again. -/
  | lose {s : Platform} {lost kept : Multiset InFlight} : s.handling = lost + kept →
      PlatformStep s .lose { s with ready := s.ready + lost.map InFlight.copy, handling := kept }

end Steps

/-! ## The property -/

/-- The mail that welcomes an account, to the email it has in the event. -/
def welcomeMail (env : Entries) (d : Doc) : Request :=
  EmailStrategy.request env (d.fields "email") (.str "Welcome to Our App")
    (.str "Thank you for registering!")

/-- The call is a registration, which has stored the account and announced it. -/
structure Announces (request : SessionRequest) (s s' : AuthState) (d : Doc) : Prop where
  register : ∃ dto, request.call = .of (.register dto)
  new : s.users.get d.id = none
  stored : s'.users.get d.id = some d
  events : s'.events = s.events ++ [userCreated d]

/-- The events are those of `accounts`. Each is outstanding once until its account has got the mail,
and no other mail completes. -/
structure Accounted (env : Entries) (accounts : List Doc) (s : Platform) : Prop where
  events : s.auth.events = accounts.map userCreated
  owed : ∀ i d, accounts[i]? = some d →
    s.outstanding i = 1 ∨ (s.outstanding i = 0 ∧ (i, welcomeMail env d) ∈ s.welcomed)
  welcomed : ∀ p ∈ s.welcomed, ∃ d, accounts[p.1]? = some d ∧ p.2 = welcomeMail env d

/-- A registration of the run has stored the account and announced it. -/
def RegisteredIn (Step : Platform → PlatformEvent → Platform → Prop) (start : Platform)
    (events : List PlatformEvent) (d : Doc) : Prop :=
  ∃ earlier request s s', earlier ++ [.call request] <+: events ∧ Run Step start earlier s ∧
    Step s (.call request) s' ∧ Announces request s.auth s'.auth d

/-! ## What the auth service publishes -/

section Auth

variable {M : Mongoose} {bcrypt : Bcrypt} {jwt : Jwt} {config : AuthConfig}

/-- Nothing is published. -/
def Quiet (s s' : AuthState) : Prop := s'.events = s.events

namespace Quiet

variable {env : Auth.AuthEnv} {α β : Type}

theorem refl (s : AuthState) : Quiet s s := rfl

theorem trans {s s' s'' : AuthState} (h : Quiet s s') (h' : Quiet s' s'') : Quiet s s'' :=
  Eq.trans h' h

theorem bind {x : Auth.AuthAction α} {f : α → Auth.AuthAction β} (hx : Keeps Quiet x)
    (hf : ∀ a, Keeps Quiet (f a)) : Keeps Quiet (x >>= f) :=
  Keeps.bind (R := Quiet) trans hx hf

theorem map {x : Auth.AuthAction α} (f : α → β) (hx : Keeps Quiet x) : Keeps Quiet (f <$> x) := by
  intro s
  rw [exec_map]
  exact hx s

theorem onUsers (x : Store α) : Keeps Quiet (Auth.onUsers x) := fun s => by
  rw [Auth.exec_onUsers]
  rfl

theorem orThrow (a : Option α) : Keeps Quiet (Auth.orThrow a) := by
  cases a with
  | none => exact Keeps.throw refl _
  | some a => exact Keeps.pure refl a

theorem tokensFor (user : Doc) : Keeps Quiet (Auth.AuthService.tokensFor jwt config env user) := by
  unfold Auth.AuthService.tokensFor
  split
  · exact Keeps.pure refl _
  · exact Keeps.throw refl _

theorem login (dto : Entries) :
    Keeps Quiet (Auth.AuthService.login M bcrypt jwt config env dto) := by
  apply bind (onUsers _)
  intro found
  cases found with
  | none => exact Keeps.throw refl _
  | some user =>
    apply bind (orThrow _)
    intro valid
    cases valid with
    | false => exact Keeps.throw refl _
    | true => exact bind (onUsers _) fun _ => bind (tokensFor user) fun _ => Keeps.pure refl _

theorem refreshToken (dto : Entries) :
    Keeps Quiet (Auth.AuthService.refreshToken M jwt config env dto) := by
  refine Keeps.tryCatch (R := Quiet) trans ?_ fun _ => Keeps.throw refl _
  apply bind (orThrow _)
  intro payload
  apply bind (onUsers _)
  intro found
  cases found with
  | none => exact Keeps.throw refl _
  | some user => exact tokensFor user

/-- Only a registration publishes. -/
theorem run {request : SessionRequest} (h : ∀ dto, request.call ≠ .of (.register dto)) :
    Keeps Quiet (request.run M bcrypt jwt config) := by
  obtain ⟨env, call⟩ := request
  cases call with
  | of call =>
    cases call with
    | register dto => exact absurd rfl (h dto)
    | login dto => exact map _ (login dto)
    | refreshToken dto => exact map _ (refreshToken dto)
    | validateToken dto => exact map _ (Keeps.pure refl _)
    | update id updates => exact map _ (onUsers _)
    | delete id => exact map _ (onUsers _)
  | logout dto => exact map _ (Keeps.pure refl _)
  | edit users => exact map _ fun _ => refl _

end Quiet

/-- A user who has been created has an email. -/
theorem email_of_created (hM : M.Typed) {env : Env} {dto : Entries} {hashedPassword : String}
    {c c' : Collection} {user : Doc}
    (h : Mongo.create M UserSchema env (Auth.newUser dto hashedPassword) c = .ok (user, c')) :
    ∃ email, email ≠ "" ∧ user.fields "email" = .str email := by
  obtain ⟨hconstruct, hvalid, -⟩ := create_eq_ok h
  have hpath : UserSchema.path "email" = some Auth.emailPath := rfl
  have hdotted : "email" ∉ dottedRoots (Auth.newUser dto hashedPassword) := by
    have hnone : dottedRoots (Auth.newUser dto hashedPassword) = [] := by
      simp [dottedRoots, Auth.newUser, Entries.keys, isDottedKey]
    rw [hnone]
    exact List.not_mem_nil
  have hrequired : Auth.emailPath.valid (user.fields "email") = true :=
    List.all_eq_true.mp hvalid Auth.emailPath List.mem_cons_self
  rcases construct_cases hconstruct hpath hdotted (by decide) with hdefault | ⟨v, -, hset, -⟩
  · rw [hdefault] at hrequired
    cases hrequired
  · have hpresent : (user.fields "email").nullish = false ∧ user.fields "email" ≠ .str "" := by
      have hfirst := (Bool.and_eq_true_iff.mp hrequired).1
      simpa [Auth.emailPath] using hfirst
    obtain ⟨email, hemail⟩ := SchemaPath.set_string hM rfl hset hpresent.1
    refine ⟨email, ?_, hemail⟩
    rintro rfl
    exact hpresent.2 hemail

/-- A call publishes nothing, or it announces an account that has an email. -/
theorem run_announces (hM : M.Typed) {request : SessionRequest} {s s' : AuthState}
    {result : Except Thrown (List AuthEvent)}
    (h : (request.run M bcrypt jwt config).exec s = (result, s')) :
    Quiet s s' ∨ ∃ d, Announces request s s' d ∧
      ∃ email, email ≠ "" ∧ d.fields "email" = .str email := by
  by_cases hregister : ∃ dto, request.call = .of (.register dto)
  · obtain ⟨dto, hcall⟩ := hregister
    obtain ⟨env, call⟩ := request
    subst hcall
    have hattempt := @Auth.RegisterRequest.attempt_eq_register M bcrypt jwt config ⟨env, dto⟩ s
    have hafter : s' = ((Auth.AuthService.register M bcrypt jwt config env dto).exec s).2 := by
      simp only [SessionRequest.run, Auth.AuthRequest.run, exec_map, Prod.mk.injEq] at h
      exact h.2.symm
    rw [← congrArg Prod.snd hattempt] at hafter
    rcases @Auth.RegisterRequest.attempt_cases M bcrypt jwt config ⟨env, dto⟩ {} s with
      ⟨e, hfails, -⟩ | ⟨user, hnew, hcreates, ⟨-, tokens, hdone⟩ | ⟨-, e, hfails⟩⟩
    · rw [hfails] at hafter
      exact .inl (hafter ▸ rfl)
    · rw [hdone] at hafter
      subst hafter
      obtain ⟨-, -, hashedPassword, c, -, hcreate⟩ := hcreates.create
      cases hpublishes : env.publishes with
      | false => 
        left
        simp [Quiet, Auth.RegisterRequest.announced, hpublishes]
      | true =>
        refine .inr ⟨user, ⟨⟨dto, rfl⟩, hnew, ?_, ?_⟩, email_of_created hM hcreate⟩
        · exact Collection.get_insert_self hnew
        · simp [Auth.RegisterRequest.announced, hpublishes]
    · rw [hfails] at hafter
      exact .inl (hafter ▸ rfl)
  · have hquiet : Keeps Quiet (request.run M bcrypt jwt config) :=
      Quiet.run fun dto hcall => hregister ⟨dto, hcall⟩
    have hs := hquiet s
    rw [h] at hs
    exact .inl hs

end Auth

/-! ## What the worker does -/

section Worker

variable {env : Entries} {t : Transports} {takes : ChannelOp Packet → Bool}

/-- The packet of the event that announces an account. -/
def packet (d : Doc) : Packet := ⟨.USER_CREATED, .obj (Gateway.encode (userCreated d))⟩

theorem fieldValue_packet (d : Doc) (k : String) :
    fieldValue (packet d).data k = Gateway.encodeValue (Entries.get (userCreated d) k) :=
  Gateway.get_encode (by simp [Entries.keys, userCreated]) k

/-- What the worker does to welcome an account, by whether the mail is sent and what the channel
takes. -/
theorem actions_packet {d : Doc} {email : String} (hemail : d.fields "email" = .str email)
    (hne : email ≠ "") :
    Work.actions env t takes (packet d) =
      if t.carries (welcomeMail env d) then
        .transport (welcomeMail env d) true ::
          if takes .ack then [.channel .ack true]
          else [.channel .ack false, .channel (.nack false true) (takes (.nack false true))]
      else
        [.transport (welcomeMail env d) false,
          .channel (.nack false true) (takes (.nack false true))] := by
  have huserId : fieldValue (packet d).data "userId" = .str d.id.toString := fieldValue_packet d _
  have hto : fieldValue (packet d).data "email" = .str email := by
    rw [fieldValue_packet]
    exact congrArg Gateway.encodeValue hemail
  have hprints : (ofExcept (template (.str d.id.toString)) : Work Unit).exec [] = (.ok (), []) := rfl
  -- the welcome is a notification by email with an address
  have hsend : (NotificationService.send env t (welcome (.str d.id.toString) (.str email))).exec [] =
      (sent (t.carries (welcomeMail env d)),
        [.transport (welcomeMail env d) (t.carries (welcomeMail env d))]) := by
    have haddressed := @exec_addressed t (welcome (.str d.id.toString) (.str email)) []
      "recipientEmail" (EmailStrategy.request env) _ rfl (decide_eq_true hne) rfl
    have hmail : welcomeMail env d = EmailStrategy.request env (.str email)
        (.str "Welcome to Our App") (.str "Thank you for registering!") := by
      rw [welcomeMail, hemail]
    rw [hmail]
    refine haddressed.trans (Prod.ext ?_ rfl)
    exact bind_pure _
  have hactions : Work.actions env t takes (packet d) =
      ((handleUserCreated env t takes (packet d).data).exec []).2 := rfl
  rw [hactions]
  unfold handleUserCreated
  rw [exec_tryCatch, exec_bind_ok (exec_field rfl "userId"), huserId, exec_bind_ok hprints,
    exec_bind_ok (exec_field rfl "email"), hto]
  cases hcarries : t.carries (welcomeMail env d) with
  | false =>
    rw [hcarries] at hsend
    rw [exec_bind_error hsend, if_neg Bool.false_ne_true]
    exact congrArg Prod.snd (exec_settle _)
  | true =>
    rw [hcarries] at hsend
    rw [exec_bind_ok hsend, exec_settle, if_pos rfl]
    cases takes .ack with
    | true => rfl
    | false => exact congrArg Prod.snd (exec_settle _)

/-- The request is the only one, and what the channel takes puts the delivery back or comes after the
request has completed. -/
def Careful (r : Request) : Prop → List Action → Prop
  | _, [] => True
  | mailed, .transport r' completed :: todo =>
    r' = r ∧ Careful r (mailed ∨ completed = true) todo
  | mailed, .channel op taken :: todo =>
    (taken = true → op = .nack false true ∨ (op = .ack ∧ mailed)) ∧ Careful r mailed todo

theorem Careful.mono {r : Request} {mailed mailed' : Prop} {todo : List Action}
    (h : Careful r mailed todo) (hmailed : mailed → mailed') : Careful r mailed' todo := by
  induction todo generalizing mailed mailed' with
  | nil => trivial
  | cons action todo ih =>
    cases action with
    | transport r' completed => exact ⟨h.1, ih h.2 (Or.imp_left hmailed)⟩
    | channel op taken =>
      refine ⟨fun htaken => ?_, ih h.2 hmailed⟩
      exact (h.1 htaken).imp_right (And.imp_right hmailed)

theorem careful_actions {d : Doc} {email : String} (hemail : d.fields "email" = .str email)
    (hne : email ≠ "") :
    Careful (welcomeMail env d) False (Work.actions env t takes (packet d)) := by
  rw [actions_packet hemail hne]
  cases t.carries (welcomeMail env d) with
  | false => exact ⟨rfl, fun _ => .inl rfl, trivial⟩
  | true =>
    rw [if_pos rfl]
    cases takes .ack with
    | true => exact ⟨rfl, fun _ => .inr ⟨rfl, .inr rfl⟩, trivial⟩
    | false => exact ⟨rfl, fun h => absurd h Bool.false_ne_true, fun _ => .inl rfl, trivial⟩

end Worker

end Notification
