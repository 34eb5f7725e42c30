-- SUMMARY: When the worker acknowledges exactly the notifications that it has sent.
import NestPlatform.Notification.Service

/-!
# Sent and acknowledged

A message should be acknowledged after its one send has completed, and not be put back then.
-/
namespace Notification

open Amqp Js Nest Effect

/-! ## The property -/

/-- The field with the recipient of a channel. -/
def NotificationChannel.recipientField : NotificationChannel → String
  | .EMAIL => "recipientEmail"
  | .PUSH => "deviceToken"
  | .SMS => "phoneNumber"
  | .IN_APP => "userId"

/-- `payload.k`, for a payload that has properties. -/
def fieldValue (payload : Value) (k : String) : Value := (payload.prop k).getD .undefined

/-- The request is what the payload asks for: on its channel, to its recipient, with its body. -/
structure Asks (payload : Value) (r : Request) : Prop where
  channel : NotificationChannel.ofValue (fieldValue payload "channel") = some r.channel
  recipient : r.recipient = fieldValue payload r.channel.recipientField
  body : r.body = fieldValue payload "body"

/-- The payload that the handler passes on to the service. -/
def Packet.payload (packet : Packet) : Value :=
  match packet.pattern with
  | .NOTIFICATION_SEND => packet.data
  | .USER_CREATED => welcome (fieldValue packet.data "userId") (fieldValue packet.data "email")

/-- The requests to transports, with whether they completed. -/
def requests (actions : List Action) : List (Request × Bool) :=
  actions.filterMap fun
    | .transport r completed => some (r, completed)
    | .channel _ _ => none

structure Accountable (packet : Packet) (actions : List Action) : Prop where
  /-- Before a message is acknowledged, one request is made, the one that the message asks for, and
  it completes. -/
  acked : ∀ before taken after, actions = before ++ .channel .ack taken :: after →
    ∃ r, Asks packet.payload r ∧ requests before = [(r, true)]
  /-- A message that was sent is not put back. -/
  kept : ∀ r, .transport r true ∈ actions → ∀ allUpTo taken,
    .channel (.nack allUpTo true) taken ∉ actions

/-! ## The condition -/

section

variable (env : Entries) (t : Transports) (takes : ChannelOp Packet → Bool)

/-- The request that the strategy of a channel makes. -/
def NotificationChannel.request (payload : Value) : NotificationChannel → Request
  | .EMAIL => EmailStrategy.request env (fieldValue payload "recipientEmail")
      (fieldValue payload "subject") (fieldValue payload "body")
  | .PUSH => PushStrategy.request (fieldValue payload "deviceToken")
      (fieldValue payload "subject") (fieldValue payload "body")
  | .SMS => SmsStrategy.request env (fieldValue payload "phoneNumber")
      (fieldValue payload "subject") (fieldValue payload "body")
  | .IN_APP => .emit (fieldValue payload "userId") [("subject", fieldValue payload "subject"),
      ("body", fieldValue payload "body"), ("metadata", fieldValue payload "metadata")]

/-- The payload names a channel and a recipient, and if its request completes, the recipient can
be logged and `acked` holds. Where the service throws before it gets so far, nothing is asked. -/
def SendsSafely (acked : Prop) (payload : Value) : Prop :=
  payload.nullish = false →
    match NotificationChannel.ofValue (fieldValue payload "channel") with
    | none => (fieldValue payload "channel").stringThrows = true
    | some .IN_APP => (fieldValue payload "userId").stringThrows = false →
        t.carries (NotificationChannel.IN_APP.request env payload) = true → acked
    | some c => (fieldValue payload c.recipientField).truthy = true ∧
        (t.carries (c.request env payload) = true →
          (fieldValue payload c.recipientField).stringThrows = false ∧ acked)

def Packet.SentAndAcked (packet : Packet) : Prop :=
  match packet.pattern with
  | .NOTIFICATION_SEND =>
    SendsSafely env t (takes .ack = true ∧ (fieldValue packet.data "userId").stringThrows = false)
      packet.data
  | .USER_CREATED =>
    packet.data.nullish = false → (fieldValue packet.data "userId").stringThrows = false →
      SendsSafely env t (takes .ack = true) packet.payload

end

/-! ## What the service does -/

/-- What comes of sending a payload, and how that bears on the condition. -/
inductive Sending (t : Transports) (payload : Value) (safe acked : Prop) :
    Except Thrown Unit → List Action → Prop where
  | refused (e : Thrown) : safe → Sending t payload safe acked (.error e) []
  | silent : ¬ safe → Sending t payload safe acked (.ok ()) []
  | failed (r : Request) (e : Thrown) : safe →
      Sending t payload safe acked (.error e) [.transport r false]
  | completed (r : Request) : t.carries r = true → Asks payload r → (safe ↔ acked) →
      Sending t payload safe acked (.ok ()) [.transport r true]
  | unlogged (r : Request) (e : Thrown) : t.carries r = true → ¬ safe →
      Sending t payload safe acked (.error e) [.transport r true]

section

variable {env : Entries} {t : Transports} {takes : ChannelOp Packet → Bool} {payload : Value}
  {log : List Action}

theorem field_of_not_nullish (h : payload.nullish = false) (k : String) :
    field payload k = .ok (fieldValue payload k) := by
  cases payload with
  | undefined | null => cases h
  | _ => rfl

theorem field_of_nullish (h : payload.nullish = true) (k : String) :
    field payload k = .error (.error "TypeError") := by
  cases payload with
  | undefined | null => rfl
  | _ => cases h

theorem exec_field (h : payload.nullish = false) (k : String) :
    (ofExcept (field payload k) : Work Value).exec log = (.ok (fieldValue payload k), log) := by
  rw [exec_ofExcept, field_of_not_nullish h]

theorem exec_addressed_absent {k : String} {make : Value → Value → Value → Request}
    (h : payload.nullish = false) (haddress : (fieldValue payload k).truthy = false) :
    (addressed t k make payload).exec log = (.ok (), log) := by
  unfold addressed
  rw [exec_bind_ok (exec_field h k), haddress]
  rfl

theorem exec_addressed {k : String} {make : Value → Value → Value → Request} {r : Request}
    (h : payload.nullish = false) (haddress : (fieldValue payload k).truthy = true)
    (hr : make (fieldValue payload k) (fieldValue payload "subject") (fieldValue payload "body") = r) :
    (addressed t k make payload).exec log =
      (sent (t.carries r) >>= fun _ => template (fieldValue payload k),
        log ++ [.transport r (t.carries r)]) := by
  unfold addressed
  rw [exec_bind_ok (exec_field h k), haddress, if_pos rfl, exec_bind_ok (exec_field h "subject"),
    exec_bind_ok (exec_field h "body"), hr, exec_bind, exec_request]
  cases sent (t.carries r) with
  | error e => rfl
  | ok _ => exact exec_ofExcept _ _

theorem exec_inApp (h : payload.nullish = false) :
    (InAppStrategy.send t payload).exec log =
      if (fieldValue payload "userId").stringThrows then (.error (.error "TypeError"), log)
      else (sent (t.carries (NotificationChannel.IN_APP.request env payload)),
        log ++ [.transport (NotificationChannel.IN_APP.request env payload)
          (t.carries (NotificationChannel.IN_APP.request env payload))]) := by
  unfold InAppStrategy.send
  rw [exec_bind_ok (exec_field h "userId"), exec_bind_ok (exec_field h "subject"),
    exec_bind_ok (exec_field h "body"), exec_bind_ok (exec_field h "metadata"), exec_bind,
    exec_ofExcept]
  unfold template
  cases (fieldValue payload "userId").stringThrows with
  | true => rfl
  | false => exact exec_request _

theorem asks_request {c : NotificationChannel}
    (hchannel : NotificationChannel.ofValue (fieldValue payload "channel") = some c) :
    Asks payload (c.request env payload) := by
  cases c <;> exact ⟨hchannel, rfl, rfl⟩

/-- A channel whose strategy sends to an address. -/
theorem strategies_addressed {c : NotificationChannel} (hc : c ≠ .IN_APP) :
    ∃ make, strategies env t c = addressed t c.recipientField make ∧
      ∀ payload, make (fieldValue payload c.recipientField) (fieldValue payload "subject")
        (fieldValue payload "body") = c.request env payload := by
  cases c with
  | EMAIL => exact ⟨_, rfl, fun _ => rfl⟩
  | PUSH => exact ⟨_, rfl, fun _ => rfl⟩
  | SMS => exact ⟨_, rfl, fun _ => rfl⟩
  | IN_APP => exact absurd rfl hc

theorem sendsSafely_of_nullish {acked : Prop} (h : payload.nullish = true) :
    SendsSafely env t acked payload := by
  intro hnot
  rw [h] at hnot
  cases hnot

theorem sendsSafely_unknown {acked : Prop} (h : payload.nullish = false)
    (hchannel : NotificationChannel.ofValue (fieldValue payload "channel") = none) :
    SendsSafely env t acked payload ↔ (fieldValue payload "channel").stringThrows = true := by
  simp only [SendsSafely, h, forall_const, hchannel]

theorem sendsSafely_inApp {acked : Prop} (h : payload.nullish = false)
    (hchannel : NotificationChannel.ofValue (fieldValue payload "channel") = some .IN_APP) :
    SendsSafely env t acked payload ↔ ((fieldValue payload "userId").stringThrows = false →
      t.carries (NotificationChannel.IN_APP.request env payload) = true → acked) := by
  simp only [SendsSafely, h, forall_const, hchannel]

theorem sendsSafely_addressed {acked : Prop} {c : NotificationChannel} (h : payload.nullish = false)
    (hchannel : NotificationChannel.ofValue (fieldValue payload "channel") = some c)
    (hc : c ≠ .IN_APP) :
    SendsSafely env t acked payload ↔ (fieldValue payload c.recipientField).truthy = true ∧
      (t.carries (c.request env payload) = true →
        (fieldValue payload c.recipientField).stringThrows = false ∧ acked) := by
  cases c with
  | EMAIL | PUSH | SMS => simp only [SendsSafely, h, forall_const, hchannel]
  | IN_APP => exact absurd rfl hc

theorem sending_inApp (acked : Prop) (h : payload.nullish = false)
    (hchannel : NotificationChannel.ofValue (fieldValue payload "channel") = some .IN_APP) :
    ∃ result sends, (InAppStrategy.send t payload).exec log = (result, log ++ sends) ∧
      Sending t payload (SendsSafely env t acked payload) acked result sends := by
  have hsafe := @sendsSafely_inApp env t payload acked h hchannel
  rw [@exec_inApp env t payload log h]
  cases htext : (fieldValue payload "userId").stringThrows with
  | true =>
    refine ⟨_, [], by rw [if_pos rfl, List.append_nil], .refused _ (hsafe.mpr fun hprints => ?_)⟩
    rw [htext] at hprints
    cases hprints
  | false =>
    rw [if_neg Bool.false_ne_true]
    refine ⟨_, _, rfl, ?_⟩
    cases hcarries : t.carries (NotificationChannel.IN_APP.request env payload) with
    | true =>
      exact .completed _ hcarries (asks_request hchannel)
        (hsafe.trans ⟨fun hacked => hacked htext hcarries, fun hacked _ _ => hacked⟩)
    | false =>
      refine .failed _ _ (hsafe.mpr fun _ hdone => ?_)
      rw [hcarries] at hdone
      cases hdone

theorem sending_addressed (acked : Prop) {c : NotificationChannel} (hc : c ≠ .IN_APP)
    (h : payload.nullish = false)
    (hchannel : NotificationChannel.ofValue (fieldValue payload "channel") = some c) :
    ∃ result sends, (strategies env t c payload).exec log = (result, log ++ sends) ∧
      Sending t payload (SendsSafely env t acked payload) acked result sends := by
  have hsafe := @sendsSafely_addressed env t payload acked c h hchannel hc
  obtain ⟨make, hmake, hrequest⟩ := @strategies_addressed env t c hc
  rw [hmake]
  cases haddress : (fieldValue payload c.recipientField).truthy with
  | false =>
    refine ⟨_, [], by rw [exec_addressed_absent h haddress, List.append_nil], .silent fun hall => ?_⟩
    rw [hsafe, haddress] at hall
    cases hall.1
  | true =>
    refine ⟨_, _, exec_addressed h haddress (hrequest payload), ?_⟩
    cases hcarries : t.carries (c.request env payload) with
    | false =>
      refine .failed _ _ (hsafe.mpr ⟨haddress, fun hdone => ?_⟩)
      rw [hcarries] at hdone
      cases hdone
    | true =>
      cases htext : (fieldValue payload c.recipientField).stringThrows with
      | true =>
        have hresult : (sent true >>= fun _ => template (fieldValue payload c.recipientField)) =
            .error (.error "TypeError") := by
          unfold template
          rw [htext]
          rfl
        rw [hresult]
        refine .unlogged _ _ hcarries fun hall => ?_
        rw [hsafe, htext] at hall
        cases (hall.2 hcarries).1
      | false =>
        have hresult : (sent true >>= fun _ => template (fieldValue payload c.recipientField)) =
            .ok () := by
          unfold template
          rw [htext]
          rfl
        rw [hresult]
        refine .completed _ hcarries (asks_request hchannel) (hsafe.trans ⟨fun hall => (hall.2 hcarries).2, ?_⟩)
        exact fun hacked => ⟨haddress, fun _ => ⟨htext, hacked⟩⟩

theorem exec_send (acked : Prop) : ∃ result sends,
    (NotificationService.send env t payload).exec log = (result, log ++ sends) ∧
      Sending t payload (SendsSafely env t acked payload) acked result sends := by
  unfold NotificationService.send
  cases h : payload.nullish with
  | true =>
    refine ⟨_, [], ?_, .refused (.error "TypeError") (sendsSafely_of_nullish h)⟩
    rw [exec_bind, exec_ofExcept, field_of_nullish h, List.append_nil]
  | false =>
    rw [exec_bind_ok (exec_field h "channel")]
    cases hchannel : NotificationChannel.ofValue (fieldValue payload "channel") with
    | none =>
      have hsafe := @sendsSafely_unknown env t payload acked h hchannel
      simp only [exec_ofExcept]
      refine ⟨_, [], by rw [List.append_nil], ?_⟩
      unfold template
      cases htext : (fieldValue payload "channel").stringThrows with
      | true => exact .refused _ (hsafe.mpr htext)
      | false =>
        refine .silent fun hthrows => ?_
        rw [hsafe, htext] at hthrows
        cases hthrows
    | some c =>
      by_cases hc : c = .IN_APP
      · subst hc
        exact sending_inApp acked h hchannel
      · exact sending_addressed acked hc h hchannel

/-! ## What the handlers do -/

/-- What a handler does after the service, by what came of it. -/
inductive Settling (acked : Prop) : Except Thrown Unit → List Action → Prop where
  | requeued (e : Thrown) (taken : Bool) :
      Settling acked (.error e) [.channel (.nack false true) taken]
  | acknowledged : acked → Settling acked (.ok ()) [.channel .ack true]
  | retracted (taken taken' : Bool) : ¬ acked →
      Settling acked (.ok ()) [.channel .ack taken, .channel (.nack false true) taken']

theorem not_nullish_of_send {log' : List Action}
    (h : (NotificationService.send env t payload).exec log = (.ok (), log')) :
    payload.nullish = false := by
  cases hnullish : payload.nullish with
  | false => rfl
  | true =>
    unfold NotificationService.send at h
    rw [exec_bind, exec_ofExcept, field_of_nullish hnullish] at h
    cases h

theorem settling_notificationSend {acked : Prop}
    (hacked : acked ↔ takes .ack = true ∧ (fieldValue payload "userId").stringThrows = false)
    {result : Except Thrown Unit} {sends : List Action}
    (hexec : (NotificationService.send env t payload).exec [] = (result, sends)) :
    ∃ rest, Work.actions env t takes ⟨.NOTIFICATION_SEND, payload⟩ = sends ++ rest ∧
      Settling acked result rest := by
  simp only [Work.actions, handle, handleNotificationSend, exec_tryCatch]
  cases result with
  | error e =>
    rw [exec_bind_error hexec]
    simp only [exec_settle]
    exact ⟨_, rfl, .requeued e _⟩
  | ok _ =>
    have hpayload : payload.nullish = false := not_nullish_of_send hexec
    rw [exec_bind_ok hexec, exec_bind, exec_settle]
    cases htaken : takes .ack with
    | false =>
      simp only [sent, Bool.false_eq_true, if_false, exec_settle, List.append_assoc]
      exact ⟨_, rfl, .retracted _ _ (by simp [hacked, htaken])⟩
    | true =>
      simp only [sent, if_true]
      rw [exec_bind_ok (exec_field hpayload "userId"), exec_ofExcept]
      unfold template
      cases htext : (fieldValue payload "userId").stringThrows with
      | false => exact ⟨_, rfl, .acknowledged (hacked.mpr ⟨htaken, htext⟩)⟩
      | true =>
        simp only [if_true, exec_settle, List.append_assoc]
        exact ⟨_, rfl, .retracted _ _ (by simp [hacked, htext])⟩

theorem settling_userCreated {acked : Prop} (hacked : acked ↔ takes .ack = true)
    (h : payload.nullish = false) (htext : (fieldValue payload "userId").stringThrows = false)
    {result : Except Thrown Unit} {sends : List Action}
    (hexec : (NotificationService.send env t (Packet.payload ⟨.USER_CREATED, payload⟩)).exec [] =
      (result, sends)) :
    ∃ rest, Work.actions env t takes ⟨.USER_CREATED, payload⟩ = sends ++ rest ∧
      Settling acked result rest := by
  have hprints : (ofExcept (template (fieldValue payload "userId")) : Work Unit).exec [] =
      (.ok (), []) := by
    rw [exec_ofExcept, template_eq_ok.mpr htext]
  change Effect.exec (NotificationService.send env t (welcome _ _)) [] = _ at hexec
  simp only [Work.actions, handle, handleUserCreated, exec_tryCatch]
  rw [exec_bind_ok (exec_field h "userId"), exec_bind_ok hprints, exec_bind_ok (exec_field h "email")]
  cases result with
  | error e =>
    rw [exec_bind_error hexec]
    simp only [exec_settle]
    exact ⟨_, rfl, .requeued e _⟩
  | ok _ =>
    rw [exec_bind_ok hexec, exec_settle]
    cases htaken : takes .ack with
    | true => exact ⟨_, rfl, .acknowledged (hacked.mpr htaken)⟩
    | false =>
      simp only [sent, Bool.false_eq_true, if_false, exec_settle, List.append_assoc]
      exact ⟨_, rfl, .retracted _ _ (by simp [hacked, htaken])⟩

/-- A message that names no user goes back. -/
theorem actions_userCreated_unnamed
    (h : payload.nullish = true ∨ (fieldValue payload "userId").stringThrows = true) :
    Work.actions env t takes ⟨.USER_CREATED, payload⟩ =
      [.channel (.nack false true) (takes (.nack false true))] := by
  simp only [Work.actions, handle, handleUserCreated, exec_tryCatch]
  cases hnullish : payload.nullish with
  | true =>
    rw [exec_bind, exec_ofExcept, field_of_nullish hnullish]
    exact congrArg Prod.snd (exec_settle _)
  | false =>
    have htext : (fieldValue payload "userId").stringThrows = true := by simpa [hnullish] using h
    rw [exec_bind_ok (exec_field hnullish "userId"), exec_bind, exec_ofExcept]
    unfold template
    rw [htext]
    exact congrArg Prod.snd (exec_settle _)

/-! ## The property in each case -/

/-- Nothing is acknowledged and nothing has been sent. -/
theorem accountable_of_unsettled {packet : Packet} {actions : List Action}
    (hack : ∀ taken, .channel .ack taken ∉ actions) (hsent : ∀ r, .transport r true ∉ actions) :
    Accountable packet actions := by
  constructor
  · rintro before taken after rfl
    exact absurd (by simp) (hack taken)
  · intro r hr
    exact absurd hr (hsent r)

theorem accountable_of_sent {packet : Packet} {r : Request} (hasks : Asks packet.payload r) :
    Accountable packet [.transport r true, .channel .ack true] := by
  constructor
  · intro before taken after hsplit
    refine ⟨r, hasks, ?_⟩
    match before with
    | [] => simp at hsplit
    | [a] =>
      obtain ⟨rfl, -⟩ : .transport r true = a ∧ _ := by simpa using hsplit
      rfl
    | _ :: _ :: _ => simp at hsplit
  · simp

/-- Acknowledged without a request. -/
theorem not_accountable_of_unsent {packet : Packet} {taken : Bool} {rest : List Action} :
    ¬ Accountable packet (.channel .ack taken :: rest) := by
  intro hacc
  obtain ⟨r, -, hone⟩ := hacc.acked [] taken rest rfl
  cases hone

/-- Sent and put back. -/
theorem not_accountable_of_requeued {packet : Packet} {r : Request} {taken : Bool}
    {actions : List Action} (hr : .transport r true ∈ actions)
    (hnack : .channel (.nack false true) taken ∈ actions) : ¬ Accountable packet actions :=
  fun hacc => hacc.kept r hr false taken hnack

theorem accountable_iff_safe {packet : Packet} {safe acked : Prop} {result : Except Thrown Unit}
    {sends rest : List Action} (hsending : Sending t packet.payload safe acked result sends)
    (hsettling : Settling acked result rest) : Accountable packet (sends ++ rest) ↔ safe := by
  cases hsending with
  | refused e hsafe =>
    cases hsettling
    exact iff_of_true (accountable_of_unsettled (by simp) (by simp)) hsafe
  | silent hunsafe =>
    cases hsettling <;> exact iff_of_false not_accountable_of_unsent hunsafe
  | failed r e hsafe =>
    cases hsettling
    exact iff_of_true (accountable_of_unsettled (by simp) (by simp)) hsafe
  | completed r _ hasks hsafe =>
    cases hsettling with
    | acknowledged hacked => exact iff_of_true (accountable_of_sent hasks) (hsafe.mpr hacked)
    | retracted taken taken' hnot =>
      have hreq : ¬ Accountable packet
          [.transport r true, .channel .ack taken, .channel (.nack false true) taken'] :=
        @not_accountable_of_requeued packet r taken' _ (by simp) (by simp)
      exact iff_of_false hreq fun h => hnot (hsafe.mp h)
  | unlogged r e _ hunsafe =>
    cases hsettling with
    | requeued _ taken =>
      have hreq : ¬ Accountable packet [.transport r true, .channel (.nack false true) taken] :=
        @not_accountable_of_requeued packet r taken _ (by simp) (by simp)
      exact iff_of_false hreq hunsafe

/-- While a message is handled, it is acknowledged only once sent, and not put back then, exactly
if its payload asks for a request, and what follows that request does not throw. -/
theorem accountable_iff (env : Entries) (t : Transports) (takes : ChannelOp Packet → Bool)
    (packet : Packet) :
    Accountable packet (Work.actions env t takes packet) ↔ packet.SentAndAcked env t takes := by
  obtain ⟨pattern, data⟩ := packet
  cases pattern with
  | NOTIFICATION_SEND =>
    obtain ⟨result, sends, hexec, hsending⟩ := exec_send _
    obtain ⟨rest, hactions, hsettling⟩ :=
      @settling_notificationSend env t takes data _ Iff.rfl _ _ hexec
    rw [hactions]
    exact accountable_iff_safe hsending hsettling
  | USER_CREATED =>
    by_cases h : data.nullish = false ∧ (fieldValue data "userId").stringThrows = false
    · obtain ⟨result, sends, hexec, hsending⟩ := exec_send _
      obtain ⟨rest, hactions, hsettling⟩ :=
        @settling_userCreated env t takes data _ Iff.rfl h.1 h.2 _ _ hexec
      rw [hactions]
      have hcond : Packet.SentAndAcked env t takes ⟨.USER_CREATED, data⟩ ↔
          SendsSafely env t (takes .ack = true) (Packet.payload ⟨.USER_CREATED, data⟩) :=
        ⟨fun hall => hall h.1 h.2, fun hall _ _ => hall⟩
      exact (accountable_iff_safe hsending hsettling).trans hcond.symm
    · have hunnamed : data.nullish = true ∨ (fieldValue data "userId").stringThrows = true := by
        simpa [or_iff_not_imp_left] using h
      rw [actions_userCreated_unnamed hunnamed]
      exact iff_of_true (accountable_of_unsettled (by simp) (by simp))
        fun hnullish htext => absurd ⟨hnullish, htext⟩ h

end

/-! ## The contract of the producers -/

theorem ofValue_value (c : NotificationChannel) :
    NotificationChannel.ofValue (.str c.value) = some c := by
  cases c <;> decide

structure NotificationEvent where
  messageId : String
  userId : String
  channel : NotificationChannel
  title : String
  body : String
  data : Option Entries
  occurredAt : String
  /-- The contract offers no mail. -/
  offered : channel ≠ .EMAIL

namespace NotificationEvent

def payload (event : NotificationEvent) : Value :=
  .obj ([("messageId", .str event.messageId), ("userId", .str event.userId),
    ("channel", .str event.channel.value), ("title", .str event.title), ("body", .str event.body),
    ("occurredAt", .str event.occurredAt)] ++ (event.data.map fun o => ("data", .obj o)).toList)

/-- No field of the contract is an address. -/
theorem recipient_undefined (event : NotificationEvent) {c : NotificationChannel}
    (hc : c ≠ .IN_APP) : fieldValue event.payload c.recipientField = .undefined := by
  unfold fieldValue payload Value.prop
  cases c with
  | EMAIL | PUSH | SMS =>
    cases event.data <;> simp [Entries.get, NotificationChannel.recipientField]
  | IN_APP => exact absurd rfl hc

/-- Nothing is asked of a transport for a push or a text message of the contract. -/
theorem exec_send_payload (event : NotificationEvent) (h : event.channel ≠ .IN_APP)
    {env : Entries} {t : Transports} :
    (NotificationService.send env t event.payload).exec [] = (.ok (), []) := by
  have hpayload : event.payload.nullish = false := rfl
  have hchannel : NotificationChannel.ofValue (fieldValue event.payload "channel") =
      some event.channel := ofValue_value event.channel
  obtain ⟨make, hmake, -⟩ := @strategies_addressed env t event.channel h
  have haddress : (fieldValue event.payload event.channel.recipientField).truthy = false := by
    rw [event.recipient_undefined h]
    rfl
  unfold NotificationService.send
  rw [exec_bind_ok (exec_field hpayload "channel"), hchannel]
  simp only [hmake]
  exact exec_addressed_absent hpayload haddress

/-- What the contract calls a push or a text message is acknowledged and never sent. -/
theorem actions_payload (env : Entries) (t : Transports) (takes : ChannelOp Packet → Bool)
    (event : NotificationEvent) (h : event.channel ≠ .IN_APP) :
    ∃ taken rest, Work.actions env t takes ⟨.NOTIFICATION_SEND, event.payload⟩ =
      .channel .ack taken :: rest ∧ requests rest = [] := by
  obtain ⟨rest, hactions, hsettling⟩ :=
    @settling_notificationSend env t takes event.payload _ Iff.rfl _ _ (event.exec_send_payload h)
  rw [hactions]
  cases hsettling with
  | acknowledged _ => exact ⟨true, [], rfl, rfl⟩
  | retracted taken taken' _ => exact ⟨taken, _, rfl, rfl⟩

end NotificationEvent

def pushEvent : NotificationEvent where
  messageId := "m1"
  userId := "u1"
  channel := .PUSH
  title := "Hello"
  body := "Somebody likes your post"
  data := none
  occurredAt := "2024-01-01T00:00:00.000Z"
  offered := by decide

/-- The worker acknowledges a push notification that it has not sent. -/
theorem push_acknowledged_unsent : ¬ ∀ env t takes packet,
    Accountable packet (Work.actions env t takes packet) := by
  intro hall
  obtain ⟨taken, rest, hactions, -⟩ :=
    pushEvent.actions_payload [] .down (fun _ => true) (by decide)
  have hacc := hall [] .down (fun _ => true) ⟨.NOTIFICATION_SEND, pushEvent.payload⟩
  rw [hactions] at hacc
  exact not_accountable_of_unsent hacc

end Notification
