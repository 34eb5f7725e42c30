-- SUMMARY: Runs of the notification worker on one message, and which messages it gives up on when every transport fails.
import Mathlib.Data.Multiset.AddSub
import NestPlatform.Lib.Transition
import NestPlatform.Notification.Delivery

/-!
# Poison messages

A delivery that fails goes back to its queue unchanged, so the worker gives up on a
message only if it settles it without reaching a transport.
-/
namespace Notification

open Amqp Js Nest Effect Transition

/-! ## Nothing to send -/

/-- The field with the address that the strategy of a channel sends to. -/
def NotificationChannel.addressField : NotificationChannel → Option String
  | .EMAIL => some "recipientEmail"
  | .PUSH => some "deviceToken"
  | .SMS => some "phoneNumber"
  | .IN_APP => none

/-- The payload has no address for the channel. -/
def Unaddressed (payload : Value) (c : NotificationChannel) : Prop :=
  ∃ k address, c.addressField = some k ∧ payload.prop k = some address ∧ address.truthy = false

/-- The service returns for the payload without calling a transport. -/
def Unsent (payload : Value) : Prop :=
  ∃ channel, payload.prop "channel" = some channel ∧
    match NotificationChannel.ofValue channel with
    | none => channel.stringThrows = false
    | some c => Unaddressed payload c

/-- The handler of the packet has nothing to send, and every text it logs before it settles
the delivery can be built. -/
def Packet.NothingToSend (packet : Packet) : Prop :=
  match packet.pattern with
  | .NOTIFICATION_SEND => Unsent packet.data
  | .USER_CREATED =>
    ∃ userId email, packet.data.prop "userId" = some userId ∧ userId.stringThrows = false ∧
      packet.data.prop "email" = some email ∧ email.truthy = false

section

variable {env : Entries} {t : Transports} {payload : Value}

theorem prop_of_not_nullish (h : payload.nullish = false) (k : String) :
    payload.prop k = some (fieldValue payload k) := by
  cases payload with
  | undefined | null => cases h
  | _ => rfl

theorem prop_of_nullish (h : payload.nullish = true) (k : String) : payload.prop k = none := by
  cases payload with
  | undefined | null => rfl
  | _ => cases h

theorem unaddressed_iff {c : NotificationChannel} (h : payload.nullish = false) (hc : c ≠ .IN_APP) :
    Unaddressed payload c ↔ (fieldValue payload c.recipientField).truthy = false := by
  have hfield : c.addressField = some c.recipientField := by
    cases c <;> first | rfl | exact absurd rfl hc
  unfold Unaddressed
  simp [hfield, prop_of_not_nullish h]

theorem unsent_welcome {userId email : Value} :
    Unsent (welcome userId email) ↔ email.truthy = false := by
  have hchannel : (welcome userId email).prop "channel" = some (.str "email") := rfl
  have hemail : NotificationChannel.ofValue (.str "email") = some .EMAIL := by decide
  have haddress : (welcome userId email).prop "recipientEmail" = some email := rfl
  simp [Unsent, hchannel, hemail, Unaddressed, NotificationChannel.addressField, haddress]

/-! ## Every transport fails -/

theorem Transports.Fails.carries (ht : t.Fails) (r : Request) : t.carries r = false := by
  obtain ⟨hmail, hpush, hsms, hemit⟩ := ht
  cases r with
  | sendMail mail => exact hmail mail
  | messaging message => exact hpush message
  | createMessage message => exact hsms message
  | emit room data => exact hemit room data

/-- The service fails safely exactly if there is something to send. -/
theorem unsent_iff (ht : t.Fails) (acked : Prop) :
    Unsent payload ↔ ¬ SendsSafely env t acked payload := by
  unfold Unsent
  cases h : payload.nullish with
  | true =>
    rw [prop_of_nullish h]
    exact iff_of_false (by simp) (not_not_intro (sendsSafely_of_nullish h))
  | false =>
    simp only [prop_of_not_nullish h, Option.some.injEq, exists_eq_left']
    cases hchannel : NotificationChannel.ofValue (fieldValue payload "channel") with
    | none =>
      rw [sendsSafely_unknown h hchannel, Bool.not_eq_true]
    | some c =>
      by_cases hc : c = .IN_APP
      · subst hc
        rw [sendsSafely_inApp h hchannel, ht.carries]
        simp [Unaddressed, NotificationChannel.addressField]
      · rw [sendsSafely_addressed h hchannel hc, ht.carries]
        dsimp only
        rw [unaddressed_iff h hc]
        simp

/-- Nothing is asked of the channel while a payload is sent, and the service returns exactly if
there was nothing to send. -/
theorem exec_send_fails (ht : t.Fails) : ∃ result sends,
    (NotificationService.send env t payload).exec [] = (result, sends) ∧ channelOps sends = [] ∧
      (result = .ok () ↔ Unsent payload) := by
  obtain ⟨result, sends, hexec, hsending⟩ := @exec_send env t payload [] True
  refine ⟨result, sends, hexec, ?_⟩
  rw [@unsent_iff env t payload ht True]
  cases hsending with
  | refused e hsafe | failed r e hsafe => exact ⟨rfl, iff_of_false (by simp) (not_not_intro hsafe)⟩
  | silent hunsafe => exact ⟨rfl, iff_of_true rfl hunsafe⟩
  | completed r hcarries | unlogged r e hcarries =>
    rw [ht.carries] at hcarries
    cases hcarries

/-! ## Settling a delivery -/

theorem channelOps_append (actions actions' : List Action) :
    channelOps (actions ++ actions') = channelOps actions ++ channelOps actions' :=
  List.filterMap_append

/-- An error puts the delivery back, and otherwise it is acknowledged first. -/
theorem Settling.ops {acked : Prop} {result : Except Thrown Unit} {rest : List Action}
    (h : Settling acked result rest) :
    (result = .ok () ∧ ∃ later, channelOps rest = .ack :: later) ∨
      (result ≠ .ok () ∧ channelOps rest = [.nack false true]) := by
  cases h with
  | requeued e taken => exact .inr ⟨by simp, rfl⟩
  | acknowledged => exact .inl ⟨rfl, [], rfl⟩
  | retracted taken taken' => exact .inl ⟨rfl, [.nack false true], rfl⟩

/-- A delivery without anything to send is acknowledged, and any other goes back to its queue. -/
theorem operations_fails (packet : Packet) (ht : t.Fails) :
    (packet.NothingToSend ∧ ∃ later, operations env t packet = .ack :: later) ∨
      (¬ packet.NothingToSend ∧ operations env t packet = [.nack false true]) := by
  obtain ⟨pattern, data⟩ := packet
  unfold operations
  cases pattern with
  | NOTIFICATION_SEND =>
    obtain ⟨result, sends, hexec, hquiet, hok⟩ := @exec_send_fails env t data ht
    obtain ⟨rest, hactions, hsettling⟩ :=
      @settling_notificationSend env t (fun _ => true) data _ Iff.rfl _ _ hexec
    have hnothing : Packet.NothingToSend ⟨.NOTIFICATION_SEND, data⟩ ↔ result = .ok () := hok.symm
    rw [hactions, channelOps_append, hquiet, List.nil_append, hnothing]
    exact hsettling.ops
  | USER_CREATED =>
    by_cases h : data.nullish = false ∧ (fieldValue data "userId").stringThrows = false
    · obtain ⟨hnullish, htext⟩ := h
      obtain ⟨result, sends, hexec, hquiet, hok⟩ :=
        @exec_send_fails env t (Packet.payload ⟨.USER_CREATED, data⟩) ht
      obtain ⟨rest, hactions, hsettling⟩ :=
        @settling_userCreated env t (fun _ => true) data _ Iff.rfl hnullish htext _ _ hexec
      have hnothing : Packet.NothingToSend ⟨.USER_CREATED, data⟩ ↔ result = .ok () := by
        rw [hok]
        unfold Packet.payload
        rw [unsent_welcome]
        simp [Packet.NothingToSend, prop_of_not_nullish hnullish, htext]
      rw [hactions, channelOps_append, hquiet, List.nil_append, hnothing]
      exact hsettling.ops
    · have hunnamed : data.nullish = true ∨ (fieldValue data "userId").stringThrows = true := by
        simpa [or_iff_not_imp_left] using h
      rw [actions_userCreated_unnamed hunnamed]
      refine .inr ⟨?_, rfl⟩
      rintro ⟨userId, email, huserId, htext, -⟩
      cases hnullish : data.nullish with
      | true =>
        rw [prop_of_nullish hnullish] at huserId
        cases huserId
      | false =>
        obtain rfl := Option.some.inj ((prop_of_not_nullish hnullish "userId").symm.trans huserId)
        exact h ⟨hnullish, htext⟩

end

/-! ## Runs -/

section Runs

variable (b : Broker) (env : Entries)

/-- One delivery from `queue` is handled and settled; the label says what the transports do
meanwhile. What the handler sends after it has settled the delivery closes the channel and
makes no copy. -/
inductive WorkerStep (queue : String) :
    Multiset (Copy Packet) → Transports → Multiset (Copy Packet) → Prop where
  | handle {s rest : Multiset (Copy Packet)} {c : Copy Packet} {t : Transports}
      {op : ChannelOp Packet} {ops : List (ChannelOp Packet)} :
      s = c ::ₘ rest → c.queue = queue → operations env t c.message.content = op :: ops →
      WorkerStep queue s t (↑(b.perform c op) + rest)

/-- The worker handles the message of `c` at most `n` times while every transport fails. -/
def GivesUpWithin (n : ℕ) (c : Copy Packet) : Prop :=
  ∀ ts s, Run (WorkerStep b env c.queue) {c} ts s → (∀ t ∈ ts, t.Fails) → ts.length ≤ n

/-- A message with something to send comes back as often as it is handled. -/
theorem run_requeues {c : Copy Packet} (h : ¬ c.message.content.NothingToSend) (n : ℕ) :
    ∃ unacked, Run (WorkerStep b env c.queue) {c} (List.replicate n .down)
      {{ c with unacked := unacked }} := by
  induction n with
  | zero => exact ⟨c.unacked, .nil _⟩
  | succ n ih =>
    obtain ⟨unacked, hrun⟩ := ih
    obtain ⟨hnothing, -⟩ | ⟨-, hops⟩ :=
      @operations_fails env .down c.message.content Transports.down_fails
    · exact absurd hnothing h
    have hstep : WorkerStep b env c.queue {{ c with unacked := unacked }} .down
        {{ c with unacked := false }} :=
      @WorkerStep.handle b env c.queue {{ c with unacked := unacked }} 0
        { c with unacked := unacked } .down _ _ rfl rfl hops
    rw [List.replicate_succ']
    exact ⟨false, hrun.snoc hstep⟩

theorem not_givesUpWithin {c : Copy Packet} (h : ¬ c.message.content.NothingToSend) (n : ℕ) :
    ¬ GivesUpWithin b env n c := by
  intro hbound
  obtain ⟨unacked, hrun⟩ := run_requeues b env h (n + 1)
  have hlength := hbound _ _ hrun fun t ht => List.eq_of_mem_replicate ht ▸ Transports.down_fails
  rw [List.length_replicate] at hlength
  omega

/-- A message with nothing to send is handled once. -/
theorem run_acks {c : Copy Packet} (h : c.message.content.NothingToSend) {ts : List Transports}
    {s : Multiset (Copy Packet)} (hrun : Run (WorkerStep b env c.queue) {c} ts s)
    (hfails : ∀ t ∈ ts, t.Fails) : (ts = [] ∧ s = {c}) ∨ (ts.length = 1 ∧ s = 0) := by
  induction hrun with
  | nil => exact .inl ⟨rfl, rfl⟩
  | @snoc _ _ ts t _ hlast ih =>
    cases hlast with
    | @handle rest c' _ op ops hcopies _ hops =>
      rcases ih fun t ht => hfails t (List.mem_append_left _ ht) with ⟨rfl, hone⟩ | ⟨-, hnone⟩
      · obtain ⟨rfl, rfl⟩ := (Multiset.singleton_eq_cons_iff rest).mp (hone.symm.trans hcopies)
        obtain ⟨-, later, hacks⟩ | ⟨hsomething, -⟩ :=
          @operations_fails env t c.message.content (hfails t (by simp))
        case inr => exact absurd h hsomething
        obtain ⟨rfl, -⟩ : op = .ack ∧ ops = later := by simpa [hacks] using hops.symm
        exact .inr ⟨rfl, rfl⟩
      · simp [hnone] at hcopies

/-- When every transport fails, a message leaves its queue after one delivery if there is
nothing to send, and never otherwise. -/
theorem givesUpWithin_iff (b : Broker) (env : Entries) (c : Copy Packet) (n : ℕ) :
    GivesUpWithin b env (n + 1) c ↔ c.message.content.NothingToSend := by
  constructor
  · intro hbound
    by_contra h
    exact not_givesUpWithin b env h _ hbound
  · intro h ts s hrun hfails
    rcases run_acks b env h hrun hfails with ⟨rfl, -⟩ | ⟨hlength, -⟩
    · exact Nat.zero_le _
    · omega

def smsCopy : Copy Packet where
  message :=
    { exchange := ""
      routingKey := "notification.queue"
      content := ⟨.NOTIFICATION_SEND,
        .obj [("userId", .str "u1"), ("channel", .str "sms"), ("body", .str "hi"),
          ("phoneNumber", .str "+100")]⟩
      properties := {} }
  queue := "notification.queue"
  unacked := false
  deaths := []
  origin := 0

/-- An SMS to a number comes back however often it fails. -/
theorem smsCopy_comes_back : ¬ ∃ n, GivesUpWithin .empty [] n smsCopy := by
  rintro ⟨n, hbound⟩
  refine not_givesUpWithin .empty [] ?_ n hbound
  rintro ⟨channel, hchannel, haddress⟩
  obtain rfl : channel = .str "sms" := by simpa [smsCopy, Value.prop, Entries.get] using hchannel.symm
  have hsms : NotificationChannel.ofValue (.str "sms") = some .SMS := by decide
  rw [hsms] at haddress
  obtain ⟨k, address, hk, hphone, hfalsy⟩ := haddress
  obtain rfl : k = "phoneNumber" := by simpa [NotificationChannel.addressField] using hk.symm
  obtain rfl : address = .str "+100" := by simpa [smsCopy, Value.prop, Entries.get] using hphone.symm
  simp [Value.truthy] at hfalsy

end Runs
end Notification
