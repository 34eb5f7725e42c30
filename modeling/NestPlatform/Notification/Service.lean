-- SUMMARY: The notification service: one strategy per channel, and the two event handlers that settle deliveries.
import NestPlatform.Amqp.Broker
import NestPlatform.Js.ToNumber
import NestPlatform.Lib.Effect
import NestPlatform.Nest.Exception

/-!
# The notification worker

A strategy sends a notification through a transport outside the program. The handlers
acknowledge what has been sent and put back what has not. They are modelled with what they ask of
the transports and of the channel of the delivery, both of which can fail.
-/
namespace Notification

open Amqp Js Nest Effect

/-! ## Transports -/

/-- Whether the libraries carry out a request that the strategies make. -/
structure Transports where
  /-- `transporter.sendMail` -/
  sendMail : Entries → Bool
  /-- Firebase, with the initialisation of the application before the first message. -/
  messaging : Entries → Bool
  /-- `client.messages.create` of Twilio -/
  createMessage : Entries → Bool
  /-- `server.to(room).emit` -/
  emit : Value → Entries → Bool

namespace Transports

/-- No request succeeds. -/
def Fails (t : Transports) : Prop :=
  (∀ r, t.sendMail r = false) ∧ (∀ r, t.messaging r = false) ∧
    (∀ r, t.createMessage r = false) ∧ ∀ room r, t.emit room r = false

/-- Nothing can be reached. -/
def down : Transports := ⟨fun _ => false, fun _ => false, fun _ => false, fun _ _ => false⟩

theorem down_fails : down.Fails := ⟨fun _ => rfl, fun _ => rfl, fun _ => rfl, fun _ _ => rfl⟩

end Transports

/-! ## Channels -/

inductive NotificationChannel where
  | EMAIL
  | PUSH
  | SMS
  | IN_APP
  deriving DecidableEq

namespace NotificationChannel

def value : NotificationChannel → String
  | .EMAIL => "email"
  | .PUSH => "push"
  | .SMS => "sms"
  | .IN_APP => "in-app"

/-- The key of `strategies` that `v` is. -/
def ofValue (v : Value) : Option NotificationChannel :=
  [EMAIL, PUSH, SMS, IN_APP].find? fun c => v = .str c.value

end NotificationChannel

/-! ## Messages -/

/-- The events of the worker, by their patterns. -/
inductive EventPattern where
  | NOTIFICATION_SEND
  | USER_CREATED
  deriving DecidableEq

def EventPattern.value : EventPattern → String
  | .NOTIFICATION_SEND => "notification.send"
  | .USER_CREATED => "user.created"

/-- The content of a message: its pattern and the payload of the handler. -/
structure Packet where
  pattern : EventPattern
  data : Value

/-! ## Requests to transports -/

inductive Request where
  | sendMail (mail : Entries)
  | messaging (message : Entries)
  | createMessage (message : Entries)
  | emit (room : Value) (data : Entries)

namespace Request

/-- The channel that the transport belongs to. -/
def channel : Request → NotificationChannel
  | sendMail _ => .EMAIL
  | messaging _ => .PUSH
  | createMessage _ => .SMS
  | emit _ _ => .IN_APP

def recipient : Request → Value
  | sendMail mail => mail.get "to"
  | messaging message => message.get "token"
  | createMessage message => message.get "to"
  | emit room _ => room

def body : Request → Value
  | sendMail mail => mail.get "text"
  | messaging message => ((message.get "notification").prop "body").getD .undefined
  | createMessage message => message.get "body"
  | emit _ data => data.get "body"

end Request

def Transports.carries (t : Transports) : Request → Bool
  | .sendMail mail => t.sendMail mail
  | .messaging message => t.messaging message
  | .createMessage message => t.createMessage message
  | .emit room data => t.emit room data

/-- What a handler does. -/
inductive Action where
  | transport (request : Request) (completed : Bool)
  /-- `taken` is false if the call throws. -/
  | channel (op : ChannelOp Packet) (taken : Bool)

/-! ## Strategies -/

/-- `payload.k` -/
def field (payload : Value) (k : String) : Except Thrown Value :=
  match payload.prop k with
  | some v => .ok v
  | none => .error (.error "TypeError")

/-- A text with `${v}` in it. -/
def template (v : Value) : Except Thrown Unit :=
  if v.stringThrows then .error (.error "TypeError") else .ok ()

theorem template_eq_ok {v : Value} : template v = .ok () ↔ v.stringThrows = false := by
  unfold template
  cases v.stringThrows <;> simp

/-- What has failed throws. -/
def sent (ok : Bool) : Except Thrown Unit := if ok then .ok () else .error (.error "Error")

/-- `payload.subject || 'Notification'` -/
def titled (subject : Value) : Value := subject.or (.str "Notification")

/-- A handler works on the list of what it has done. -/
abbrev Work := Effect (List Action) Thrown

/-- Every strategy logs what the transport throws and throws it again. -/
def Work.request (t : Transports) (r : Request) : Work Unit := do
  modify (· ++ [.transport r (t.carries r)])
  ofExcept (sent (t.carries r))

def Work.settle (takes : ChannelOp Packet → Bool) (op : ChannelOp Packet) : Work Unit := do
  modify (· ++ [.channel op (takes op)])
  ofExcept (sent (takes op))

section

variable {t : Transports} {takes : ChannelOp Packet → Bool} {log : List Action}

theorem exec_request (r : Request) :
    (Work.request t r).exec log = (sent (t.carries r), log ++ [.transport r (t.carries r)]) := by
  unfold Work.request
  rw [exec_bind]
  simp only [exec_modify, exec_ofExcept]

theorem exec_settle (op : ChannelOp Packet) :
    (Work.settle takes op).exec log = (sent (takes op), log ++ [.channel op (takes op)]) := by
  unfold Work.settle
  rw [exec_bind]
  simp only [exec_modify, exec_ofExcept]

end

section

variable (env : Entries) (t : Transports) (takes : ChannelOp Packet → Bool)

/-- The strategies that send to an address do nothing when the payload has none. The request
is made of the address, the subject and the body. -/
def addressed (addressField : String) (make : Value → Value → Value → Request) (payload : Value) :
    Work Unit := do
  let address ← ofExcept (field payload addressField)
  if address.truthy then
    let subject ← ofExcept (field payload "subject")
    let body ← ofExcept (field payload "body")
    Work.request t (make address subject body)
    ofExcept (template address)

def EmailStrategy.request (address subject body : Value) : Request :=
  .sendMail [("from", (env.get "SMTP_FROM_EMAIL").or (.str "noreply@app.com")), ("to", address),
    ("subject", titled subject), ("text", body)]

def PushStrategy.request (address subject body : Value) : Request :=
  .messaging [("token", address),
    ("notification", .obj [("title", titled subject), ("body", body)])]

def SmsStrategy.request (address _subject body : Value) : Request :=
  .createMessage [("body", body), ("from", env.get "TWILIO_PHONE_NUMBER"), ("to", address)]

def EmailStrategy.send : Value → Work Unit :=
  addressed t "recipientEmail" (EmailStrategy.request env)

def PushStrategy.send : Value → Work Unit := addressed t "deviceToken" PushStrategy.request

def SmsStrategy.send : Value → Work Unit := addressed t "phoneNumber" (SmsStrategy.request env)

/-- `sendToUser` and the log line both print the user's id. -/
def InAppStrategy.send (payload : Value) : Work Unit := do
  let userId ← ofExcept (field payload "userId")
  let subject ← ofExcept (field payload "subject")
  let body ← ofExcept (field payload "body")
  let metadata ← ofExcept (field payload "metadata")
  ofExcept (template userId)
  Work.request t (.emit userId [("subject", subject), ("body", body), ("metadata", metadata)])

def strategies : NotificationChannel → Value → Work Unit
  | .EMAIL => EmailStrategy.send env t
  | .PUSH => PushStrategy.send t
  | .SMS => SmsStrategy.send env t
  | .IN_APP => InAppStrategy.send t

/-- A channel without a strategy is logged and counts as sent. -/
def NotificationService.send (payload : Value) : Work Unit := do
  let channel ← ofExcept (field payload "channel")
  match NotificationChannel.ofValue channel with
  | none => ofExcept (template channel)
  | some c => strategies env t c payload

/-! ## Handlers -/

def handleNotificationSend (payload : Value) : Work Unit :=
  tryCatch
    (do
      NotificationService.send env t payload
      Work.settle takes .ack
      let userId ← ofExcept (field payload "userId")
      ofExcept (template userId))
    fun _ => Work.settle takes (.nack false true)

def welcome (userId email : Value) : Value :=
  .obj [("userId", userId), ("channel", .str NotificationChannel.EMAIL.value),
    ("subject", .str "Welcome to Our App"), ("body", .str "Thank you for registering!"),
    ("recipientEmail", email)]

def handleUserCreated (payload : Value) : Work Unit :=
  tryCatch
    (do
      let userId ← ofExcept (field payload "userId")
      ofExcept (template userId)
      let email ← ofExcept (field payload "email")
      NotificationService.send env t (welcome userId email)
      Work.settle takes .ack)
    fun _ => Work.settle takes (.nack false true)

def handle : EventPattern → Value → Work Unit
  | .NOTIFICATION_SEND => handleNotificationSend env t takes
  | .USER_CREATED => handleUserCreated env t takes

/-- What the handler does, in order, while one delivery is handled. -/
def Work.actions (packet : Packet) : List Action :=
  ((handle env t takes packet.pattern packet.data).exec []).2

/-- What is asked of the channel of the delivery. -/
def channelOps (actions : List Action) : List (ChannelOp Packet) :=
  actions.filterMap fun
    | .transport _ _ => none
    | .channel op _ => some op

/-- The operations on a channel that takes them all. -/
def operations (packet : Packet) : List (ChannelOp Packet) :=
  channelOps (Work.actions env t (fun _ => true) packet)

end

end Notification
