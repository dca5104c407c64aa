/-
# NestAmqp.Amqp.Message — deliveries, publications, and the events of a consumer.

What a consumer callback sees of a message, what it can publish, and the log of everything it does.
A publication is logged with the call site it comes from and with the broker's answer; nothing in the
code reads that log, it is there for the statements about the code.
-/
import NestAmqp.Js.Thrown
import NestAmqp.Lib.Traced

namespace NestAmqp.Amqp

open NestAmqp.Js
open NestAmqp.Lib

/-- The bytes of a message. -/
abbrev Content := List UInt8

/-- `msg.properties`: the properties the code reads by name, and the remaining ones (content type,
message id, priority and so on), which it only copies. -/
structure Properties where
  headers : Option Obj := none
  replyTo : Option String := none
  correlationId : Option String := none
  expiration : Option String := none
  other : Obj := []

/-- `ConsumeMessage`: the routing key comes from `msg.fields`. -/
structure Delivery where
  routingKey : String
  content : Content
  properties : Properties := {}

/-- The header `name` of a delivery, `undefined` when it has none. -/
def Delivery.header (msg : Delivery) (name : String) : Value :=
  Obj.get (msg.properties.headers.getD []) name

/-- The message argument of `publish`: bytes as they are, or a value still to be serialised. -/
inductive Body where
  | raw (content : Content)
  | json (v : Value)

/-- The arguments of one `publish` call. -/
structure Publication where
  exchange : String
  routingKey : String
  body : Body
  properties : Properties
  persistent : Option Bool := none

/-- The call sites of `publish` in a consumer. -/
inductive Purpose where
  | retry
  | deadLetter
  | errorReply
  | reply
  deriving DecidableEq, Repr

/-- What a handler returns: a value, or a `Nack`. -/
inductive Response where
  | value (v : Value)
  | nack (requeue : Bool)

/-- What the retry handler puts together of values it knows nothing about; each can throw. -/
inductive Conversion where
  /-- `Number(…)` of the counter's header. -/
  | counter
  /-- The error as the error reply reports it. -/
  | replyCause
  /-- The log line about a reply that could not be sent. -/
  | replyLine
  /-- The error as the dead letter reports it. -/
  | deadLetterCause
  /-- The log line about what became of the message. -/
  | outcomeLine
  deriving DecidableEq, Repr

/-- What a consumer does with one delivery. -/
inductive Event where
  /-- The handler ran on a delivery; `failure` is what it threw, if it threw. -/
  | handled (msg : Delivery) (failure : Option Thrown)
  | asserted (waitQueue : String) (delayMs : Int) (targetQueue : String) (ok : Bool)
  | published (purpose : Purpose) (message : Publication) (confirmed : Bool)
  | acked (ok : Bool)
  | nacked (requeue : Bool) (ok : Bool)
  /-- A conversion threw. -/
  | unconverted (what : Conversion)

/-- What the channel fails with: an `Error` of the AMQP libraries, whose name and message are texts. -/
structure ChannelFailure where
  name : String
  message : String
  deriving DecidableEq, Repr

/-- The failure as it is thrown. -/
def ChannelFailure.thrown (failure : ChannelFailure) : Thrown :=
  .error { name := failure.name, message := failure.message }

theorem ChannelFailure.reads_thrown (failure : ChannelFailure) : failure.thrown.reads = true := rfl

/-- What the channel, the broker and the application answer to a consumer. -/
structure ConsumerEnv where
  publish : List Event → Purpose → Publication → Except ChannelFailure Unit
  assertRetryWaitQueue : List Event → String → Except ChannelFailure Unit
  ack : List Event → Except ChannelFailure Unit
  nack : List Event → Except ChannelFailure Unit
  /-- `options.deserializer || config.deserializer`. -/
  deserialize : Delivery → Except Thrown Value
  /-- `msg.content.toString()`. -/
  contentText : Content → String
  /-- `config.serializer`, which may fail with anything. -/
  serialize : Value → Except Thrown Unit
  handler : List Event → Value → Delivery → Except Thrown Response

/-- A computation of a consumer. -/
abbrev Consuming := Traced Event Thrown

/-- Did the call return? -/
def succeeded {α : Type} : Except Thrown α → Bool
  | .ok _ => true
  | .error _ => false

@[simp] theorem succeeded_ok {α : Type} (a : α) : succeeded (.ok a : Except Thrown α) = true := rfl

@[simp] theorem succeeded_error {α : Type} (e : Thrown) :
    succeeded (.error e : Except Thrown α) = false := rfl

namespace ConsumerEnv

variable (env : ConsumerEnv)

/-- What `channel.ack` comes to. -/
def ackAnswer (log : List Event) : Except Thrown Unit := (env.ack log).mapError ChannelFailure.thrown

/-- What `channel.nack` comes to. -/
def nackAnswer (log : List Event) : Except Thrown Unit := (env.nack log).mapError ChannelFailure.thrown

/-- What the assertion of a wait queue comes to. -/
def assertAnswer (log : List Event) (waitQueue : String) : Except Thrown Unit :=
  (env.assertRetryWaitQueue log waitQueue).mapError ChannelFailure.thrown

/-- The bytes of a body: a value that is not missing is serialised. -/
def serialized : Body → Except Thrown Unit
  | .raw _ => .ok ()
  | .json v => if v.nullish then .ok () else env.serialize v

/-- What a `publish` call comes to. -/
def publishAnswer (log : List Event) (purpose : Purpose) (message : Publication) : Except Thrown Unit :=
  match env.serialized message.body with
  | .ok _ => (env.publish log purpose message).mapError ChannelFailure.thrown
  | .error e => .error e

/-- `channel.ack(msg)`. -/
def ackMessage : Consuming Unit := Traced.perform env.ackAnswer fun r => .acked (succeeded r)

/-- `channel.nack(msg, false, requeue)`. -/
def nackMessage (requeue : Bool) : Consuming Unit :=
  Traced.perform env.nackAnswer fun r => .nacked requeue (succeeded r)

/-- `publish(exchange, routingKey, message, options)`. -/
def publishMessage (purpose : Purpose) (message : Publication) : Consuming Unit :=
  Traced.perform (fun log => env.publishAnswer log purpose message)
    fun r => .published purpose message (succeeded r)

/-- `assertRetryWaitQueue(waitQueue, delayMs, targetQueue)`. -/
def assertWaitQueue (waitQueue : String) (delayMs : Int) (targetQueue : String) : Consuming Unit :=
  Traced.perform (fun log => env.assertAnswer log waitQueue)
    fun r => .asserted waitQueue delayMs targetQueue (succeeded r)

/-- `handler(message, msg, headers)`. -/
def runHandler (message : Value) (msg : Delivery) : Consuming Response :=
  Traced.perform (fun log => env.handler log message msg) fun r => .handled msg <|
    match r with
    | .ok _ => none
    | .error e => some e

/-- Acknowledgements and rejections never throw. -/
def SettlesSafely : Prop := ∀ log, env.ack log = .ok () ∧ env.nack log = .ok ()

variable {env}

theorem SettlesSafely.ackAnswer (h : env.SettlesSafely) (log : List Event) : env.ackAnswer log = .ok () := by
  unfold ConsumerEnv.ackAnswer
  rw [(h log).1]
  rfl

theorem SettlesSafely.nackAnswer (h : env.SettlesSafely) (log : List Event) : env.nackAnswer log = .ok () := by
  unfold ConsumerEnv.nackAnswer
  rw [(h log).2]
  rfl

/-- A channel's own failure always prints. -/
theorem reads_of_mapError {x : Except ChannelFailure Unit} {e : Thrown}
    (h : x.mapError ChannelFailure.thrown = .error e) : e.reads = true := by
  cases x with
  | ok _ => cases h
  | error failure =>
      obtain rfl := Except.error.inj h
      exact failure.reads_thrown

/-- What is published as bytes fails with the channel alone. -/
theorem reads_of_publishAnswer {log : List Event} {purpose : Purpose} {message : Publication}
    {content : Content} (hbody : message.body = .raw content) {e : Thrown}
    (h : env.publishAnswer log purpose message = .error e) : e.reads = true := by
  unfold publishAnswer at h
  rw [hbody] at h
  exact reads_of_mapError h

end ConsumerEnv

/-! ## Conversions -/

/-- A value is put together; that it threw is logged. -/
def convert {α : Type} (what : Conversion) (value : Except Thrown α) : Consuming α :=
  match value with
  | .ok a => pure a
  | .error e => Traced.perform (fun _ => .error e) fun _ => .unconverted what

/-- A conversion comes to what its value comes to. -/
theorem ensures_convert {α : Type} (what : Conversion) (value : Except Thrown α) :
    (convert what value).Ensures fun r t =>
      r = value ∧ t = if succeeded value then [] else [.unconverted what] := by
  cases value with
  | ok a => exact Traced.ensures_pure ⟨rfl, rfl⟩
  | error e =>
      unfold convert
      refine (Traced.ensures_perform _ _).mono ?_
      rintro r t ⟨⟨log, rfl⟩, rfl⟩
      exact ⟨rfl, rfl⟩

/-! ## Counting settlements -/

/-- An event that settles the delivery: an ack or a nack that went through. -/
def Event.settles : Event → Bool
  | .acked ok => ok
  | .nacked _ ok => ok
  | _ => false

/-- How often a run settles its delivery. -/
def settlements (run : List Event) : Nat := run.countP Event.settles

@[simp] theorem settlements_nil : settlements [] = 0 := rfl

@[simp] theorem settlements_append (l r : List Event) :
    settlements (l ++ r) = settlements l + settlements r := List.countP_append

@[simp] theorem settlements_cons (e : Event) (l : List Event) :
    settlements (e :: l) = settlements l + if e.settles then 1 else 0 := List.countP_cons

end NestAmqp.Amqp
