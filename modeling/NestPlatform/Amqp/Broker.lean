-- SUMMARY: Messages, queue declarations and routing of an AMQP broker, and the copies a channel operation produces.
import NestPlatform.Amqp.Topic
import NestPlatform.Js.Value

/-!
# The broker

What RabbitMQ does with the declarations and the channel operations of its
clients: routing through topic exchanges, dead-lettering, and the copies that
settling a delivery produces. A copy also carries the number of the publication
it descends from, which the broker never reads.
-/
namespace Amqp

/-! ## Messages -/

structure Properties where
  contentType : Option String := none
  headers : Option Js.Entries := none
  deliveryMode : Option ℕ := none
  correlationId : Option String := none
  expiration : Option String := none
  messageId : Option String := none

/-- A message as a consumer receives it: `fields`, `content` and `properties`. -/
structure Message (P : Type) where
  exchange : String
  routingKey : String
  content : P
  properties : Properties

/-- An operation on the channel while one delivery is being handled; `ack` and
`nack` settle that delivery. -/
inductive ChannelOp (P : Type) where
  | publish (message : Message P)
  | ack
  | nack (allUpTo requeue : Bool)

/-! ## Declarations -/

structure QueueDecl where
  name : String
  durable : Bool
  /-- `x-dead-letter-exchange` and `x-dead-letter-routing-key`. -/
  deadLetter : Option (String × String)
  deriving DecidableEq

structure Binding where
  queue : String
  exchange : String
  pattern : String

structure Broker where
  exchanges : List String
  queues : List QueueDecl
  bindings : List Binding

namespace Broker

def empty : Broker := ⟨[], [], []⟩

/-- Every exchange is declared with the same type and arguments, so declaring
one again changes nothing. -/
def assertExchange (b : Broker) (name : String) : Broker :=
  if name ∈ b.exchanges then b else { b with exchanges := b.exchanges ++ [name] }

def findQueue (b : Broker) (name : String) : Option QueueDecl :=
  b.queues.find? (·.name = name)

/-- Declaring a queue again with other arguments is a channel error
(`PRECONDITION_FAILED`), here `none`. -/
def assertQueue (b : Broker) (q : QueueDecl) : Option Broker :=
  match b.findQueue q.name with
  | some q' => if q' = q then some b else none
  | none => some { b with queues := b.queues ++ [q] }

/-- Binding a queue or an exchange that does not exist is a channel error. -/
def bindQueue (b : Broker) (queue exchange pattern : String) : Option Broker :=
  if (b.findQueue queue).isSome ∧ exchange ∈ b.exchanges then
    some { b with bindings := b.bindings ++ [⟨queue, exchange, pattern⟩] }
  else none

/-- `queue` has a binding on `exchange` that accepts `key`. -/
def binds (b : Broker) (queue exchange key : String) : Bool :=
  b.bindings.any fun bd => bd.queue = queue ∧ bd.exchange = exchange ∧ Topic.accepts bd.pattern key

/-- The queues a message published to `exchange` with `key` is put in, each once. -/
def route (b : Broker) (exchange key : String) : List String :=
  (b.queues.map QueueDecl.name).filter (b.binds · exchange key)

end Broker

/-! ## Copies in flight -/

inductive DeathReason where
  | rejected
  | expired

/-- One entry of the `x-death` record, which the broker keeps beside the headers
of the publisher. -/
structure Death where
  queue : String
  reason : DeathReason

structure Copy (P : Type) where
  message : Message P
  queue : String
  unacked : Bool
  deaths : List Death
  /-- The publication the copy descends from. -/
  origin : ℕ

namespace Broker

variable {P : Type} (b : Broker)

/-- The copies of a message accepted from a publisher or a dead-lettering queue. -/
def enqueue (m : Message P) (origin : ℕ) (deaths : List Death) : List (Copy P) :=
  (b.route m.exchange m.routingKey).map fun q => ⟨m, q, false, deaths, origin⟩

/-- The queues that a message sent to `exchange` reaches. The default exchange sends it to
the queue that the key names. -/
def targets (exchange key : String) : List String :=
  if exchange = "" then (b.queues.map QueueDecl.name).filter (· = key) else b.route exchange key

/-- The copies of a message that a client sends. -/
def send (m : Message P) (origin : ℕ) : List (Copy P) :=
  (b.targets m.exchange m.routingKey).map fun q => ⟨m, q, false, [], origin⟩

/-- Dead-lettering routes the message through the dead-letter exchange of its
queue and removes its expiration. -/
def deadLetter (c : Copy P) (reason : DeathReason) : List (Copy P) :=
  match (b.findQueue c.queue).bind QueueDecl.deadLetter with
  | none => []
  | some (exchange, key) =>
    b.enqueue
      { c.message with
        exchange := exchange
        routingKey := key
        properties := { c.message.properties with expiration := none } }
      c.origin (⟨c.queue, reason⟩ :: c.deaths)

/-- The copies that exist because of one operation on the delivery `c`. -/
def perform (c : Copy P) : ChannelOp P → List (Copy P)
  | .publish m => b.enqueue m c.origin []
  | .ack => []
  | .nack _ true => [{ c with unacked := false }]
  | .nack _ false => b.deadLetter c .rejected

end Broker
end Amqp
