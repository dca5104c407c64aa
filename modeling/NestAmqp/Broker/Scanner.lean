/-
# NestAmqp.Broker.Scanner — the consumers of decorated actions.

`MetadataScannerService.onModuleInit`: it resolves the AMQP path of every topic that has decorated
actions and registers one RPC consumer a topic.  The consumer's handler is a closure over the topic's
actions: it finds the action, resolves the parameters, runs the method and wraps what comes of it.
-/
import NestAmqp.Amqp.Consumer
import NestAmqp.Js.PlainObject

namespace NestAmqp.Broker

open NestAmqp.Js
open NestAmqp.Amqp

/-! ## Configuration -/

/-- `RabbitMQQueueConfig`, the fields that decide what a queue is bound to. -/
structure RabbitMQQueueConfig where
  name : String
  exchange : Option String := none
  routingKey : Option OneOrMany := none
  deriving DecidableEq, Repr

/-- `RabbitMQExchangeConfig`. -/
structure RabbitMQExchangeConfig where
  name : String
  type : Option String := none
  createExchangeIfNotExists : Bool := true
  deriving DecidableEq, Repr

/-- `BrokerConfig`: the broker's exchanges and queues, and what chooses an error handler. -/
structure BrokerConfig where
  exchanges : List RabbitMQExchangeConfig := []
  queues : List RabbitMQQueueConfig := []
  defaultExchangeType : String := "topic"
  connection : RabbitMQConfig := {}

/-- `BrokerTopic`, the fields the scanner reads. -/
structure BrokerTopic where
  name : String
  queue : Option String := none
  routingKey : Option String := none
  exchange : Option String := none
  errorBehavior : Option String := none
  retry : Option RetryPolicyConfig := none

/-! ## The AMQP path of a topic -/

/-- `a || b` on optional text. -/
def textOr (a b : Option String) : Option String := if truthyText a then a else b

/-- What `onModuleInit` passes to `createRpc`: `qName`, `eName`, and the options built from `kName`
and the topic. -/
structure RpcBinding where
  queue : Option String
  exchange : Option String
  options : MessageHandlerOptions

/-- `queues.find(q => q.name === cfgTopic.queue)`. -/
def findQueue (config : BrokerConfig) (name : Option String) : Option RabbitMQQueueConfig :=
  config.queues.find? fun q => some q.name == name

/-- `exchanges.find(e => e.name === ...)`. -/
def findExchange (config : BrokerConfig) (name : Option String) : Option RabbitMQExchangeConfig :=
  config.exchanges.find? fun e => some e.name == name

/-- `Array.isArray(routingKey) ? routingKey[0] : routingKey`. -/
def firstKey : Option OneOrMany → Option String
  | none => none
  | some (.one k) => some k
  | some (.many ks) => ks.head?

/-- `!queue?.routingKey` is false: an empty list is a key. -/
def hasRoutingKey (queue : Option RabbitMQQueueConfig) : Bool :=
  match queue.bind (·.routingKey) with
  | none => false
  | some (.one k) => k != ""
  | some (.many _) => true

/-- `kName`: the topic's own routing key, or the first one of its queue. -/
def routingKeyName (config : BrokerConfig) (cfgTopic : BrokerTopic) : Option String :=
  textOr cfgTopic.routingKey (firstKey ((findQueue config cfgTopic.queue).bind (·.routingKey)))

/-- The resolution of one topic. -/
def bindTopic (config : BrokerConfig) (cfgTopic : BrokerTopic) : Except Thrown RpcBinding :=
  let queue := findQueue config cfgTopic.queue
  let exchange := findExchange config (textOr (queue.bind (·.exchange)) cfgTopic.exchange)
  -- a queue on a topic exchange needs a key of its own
  if exchange.bind (·.type) = some "topic" ∧ ¬ hasRoutingKey queue then
    .error (.error
      { name := "Error"
        message := "Queue " ++ template (queue.map (·.name)) ++ " has no routing key" })
  else .ok
    { queue := textOr (queue.map (·.name)) cfgTopic.queue
      exchange := textOr (exchange.map (·.name)) cfgTopic.exchange
      options :=
        { routingKey := (routingKeyName config cfgTopic).map .one
          errorBehavior := cfgTopic.errorBehavior
          retry := cfgTopic.retry } }

/-! ## Running an action -/

/-- What calling a decorated method comes to: a plain value, a throw, a promise, an observable with
the values it emits and the error it may end with, or nothing when it is no function. -/
inductive Outcome where
  | returned (v : Value)
  | threw (e : Thrown)
  | promised (result : Except Thrown Value)
  | observed (values : List Value) (failure : Option Thrown)
  | notCallable

/-- `new EmptyError()`: all three properties are its own, and enumerable. -/
def emptyError : Thrown := .error
  { name := "EmptyError", message := "no elements in sequence",
    fields := [("stack", .str ""), ("name", .str "EmptyError"), ("message", .str "no elements in sequence")] }

/-- `lastValueFrom`: an error rejects, and so does an observable that completes without a value. -/
def lastValueFrom (values : List Value) (failure : Option Thrown) : Except Thrown Value :=
  match failure, values.getLast? with
  | some e, _ => .error e
  | none, some v => .ok v
  | none, none => .error emptyError

/-- What `await` sees of it. -/
def Outcome.awaited : Outcome → Except Thrown Value
  | .returned v => .ok v
  | .threw e => .error e
  | .promised result => result
  | .observed values failure => lastValueFrom values failure
  | .notCallable => .ok .undefined

/-- `{ success: false, error }`. -/
def failureResult (error : Value) : Value := .obj [("success", .bool false), ("error", error)]

/-- `executeFunction`: a failure becomes a result.  Only describing the failure can throw. -/
def executeFunction (devEnv : Bool) (outcome : Outcome) : Except Thrown Value :=
  match outcome.awaited with
  | .ok v => .ok (.obj [("success", .bool true), ("payload", v)])
  | .error e => (error2Object e devEnv).map failureResult

/-- `BrokerParamSource`; an unknown source pushes no argument. -/
inductive ParamSource where
  | header | bodyFull | body | tag | action | topic | other
  deriving DecidableEq, Repr

/-- The metadata of one parameter. -/
structure ParamMeta where
  source : ParamSource := .body
  name : Option String := none
  pipe : Option (Value → String → Except Thrown Value) := none

/-- One entry of `actions`: the parameters, and what running the method comes to.  A run may answer
differently each time; it is told by the log. -/
structure ActionHandler where
  params : List (String × ParamMeta)
  method : List Event → List Value → Outcome

/-- What the closure of one topic captures. -/
structure ActionConsumer where
  topic : String
  actions : List (String × ActionHandler)
  consumerTag : Value := .undefined
  devEnv : Bool := true

section Dispatch

variable (consumer : ActionConsumer)

/-- `transform(o, name)`. -/
def transform (meta' : ParamMeta) (v : Value) (name : String) : Except Thrown (List Value) :=
  match meta'.pipe with
  | none => .ok [v]
  | some pipe => (pipe v name).map fun r => [r]

/-- The argument one parameter pushes.  Reading a header of a message without headers throws. -/
def resolveParam (action payload : Value) (headers : Option Obj) (param : String)
    (meta' : ParamMeta) : Except Thrown (List Value) :=
  let name := (textOr meta'.name (some param)).getD param
  match meta'.source with
  | .header =>
      match member ((headers.map .obj).getD .undefined) name with
      | .ok v => transform meta' v name
      | .error e => .error e
  | .bodyFull => transform meta' payload ""
  | .body => transform meta' (property payload name) name
  | .tag => transform meta' consumer.consumerTag "tag"
  | .action => transform meta' action "action"
  | .topic => transform meta' (.str consumer.topic) "topic"
  -- an unknown source pushes nothing: the arguments behind it move up
  | .other => .ok []

/-- The arguments, in order; the first failure ends the loop. -/
def resolveParams (action payload : Value) (headers : Option Obj) :
    List (String × ParamMeta) → Except Thrown (List Value)
  | [] => .ok []
  | (param, meta') :: rest =>
      match resolveParam consumer action payload headers param meta' with
      | .error e => .error e
      | .ok pushed => (resolveParams action payload headers rest).map (pushed ++ ·)

/-- A failed resolution is answered, not thrown: retrying it is pointless.  The log line before the answer
reads and prints `err.message`, and throws where it cannot. -/
def paramFailure (err : Thrown) : Except Thrown Response :=
  match err.messageLine with
  | .error e => .error e
  | .ok _ => (error2Object err consumer.devEnv).map fun error => .value (failureResult error)

theorem paramFailure_ok {consumer : ActionConsumer} {err : Thrown} {response : Response}
    (h : paramFailure consumer err = .ok response) :
    ∃ error, error2Object err consumer.devEnv = .ok error ∧ response = .value (failureResult error) := by
  unfold paramFailure at h
  split at h
  · cases h
  · cases herror : error2Object err consumer.devEnv with
    | error e =>
        rw [herror] at h
        cases h
    | ok error =>
        rw [herror] at h
        exact ⟨error, rfl, (Except.ok.inj h).symm⟩

/-- `Object.entries(undefined)`. -/
def noEntries : Thrown := .typeError "Cannot convert undefined or null to object"

/-- `msg.payload || {}`, `msg.action`. -/
def readAction (message : Value) : Except Thrown (Value × Value) :=
  match member message "payload", member message "action" with
  | .ok payload, .ok action => .ok (action, payload.orElse (.obj []))
  | .error e, _ => .error e
  | _, .error e => .error e

/-- The consumer callback `onModuleInit` hands to `createRpc`.  `actions[msg.action]` is a plain read: a name
that every object carries finds a function that has no parameters to list. -/
def dispatch (log : List Event) (message : Value) (msg : Delivery) : Except Thrown Response :=
  match readAction message with
  | .error e => .error e
  | .ok (action, payload) =>
    match printed action with
    | .error e => .error e
    | .ok name =>
      match consumer.actions.lookup name with
      | none => if objectPrototype.contains name then paramFailure consumer noEntries else .ok (.nack false)
      | some handler =>
          match resolveParams consumer action payload msg.properties.headers handler.params with
          | .error err => paramFailure consumer err
          | .ok args => (executeFunction consumer.devEnv (handler.method log args)).map .value

/-- The method run inside the callback, when there is one, and what it came to. -/
def methodRun (log : List Event) (message : Value) (msg : Delivery) : Option (Except Thrown Value) :=
  match readAction message with
  | .error _ => none
  | .ok (action, payload) =>
    match printed action with
    | .error _ => none
    | .ok name =>
      match consumer.actions.lookup name with
      | none => none
      | some handler =>
          match resolveParams consumer action payload msg.properties.headers handler.params with
          | .error _ => none
          | .ok args => some (handler.method log args).awaited

/-- **A failing method is answered, not thrown.**  The callback returns an error result, so nothing
past it can tell the failure from a success; only a failure without a value throws, in the attempt to
describe it. -/
theorem dispatch_of_failure {log : List Event} {message : Value} {msg : Delivery} {e : Thrown}
    (h : methodRun consumer log message msg = some (.error e)) :
    dispatch consumer log message msg =
      (error2Object e consumer.devEnv).map fun error => .value (failureResult error) := by
  unfold methodRun at h
  unfold dispatch
  split at h
  · cases h
  · split at h
    · cases h
    · split at h
      · cases h
      · split at h
        · cases h
        next args hargs =>
          simp only [executeFunction, Option.some.inj h]
          cases error2Object e consumer.devEnv <;> rfl

theorem dispatch_of_nullish {log : List Event} {message : Value} {msg : Delivery} {e : Thrown}
    (h : methodRun consumer log message msg = some (.error e)) (hnull : e.nullish = true) :
    ∃ e', dispatch consumer log message msg = .error e' ∧ e'.isDeserialization = false ∧
      e'.reads = true := by
  obtain ⟨e', he', hplain⟩ := error2Object_of_nullish hnull consumer.devEnv
  refine ⟨e', ?_, hplain⟩
  rw [dispatch_of_failure consumer h, he']
  rfl

theorem dispatch_of_not_nullish {log : List Event} {message : Value} {msg : Delivery} {e : Thrown}
    (h : methodRun consumer log message msg = some (.error e)) (hnull : e.nullish = false) :
    ∃ error, dispatch consumer log message msg = .ok (.value (failureResult error)) := by
  obtain ⟨error, herror⟩ := (error2Object_isOk_iff e consumer.devEnv).mpr hnull
  refine ⟨error, ?_⟩
  rw [dispatch_of_failure consumer h, herror]
  rfl

end Dispatch

end NestAmqp.Broker
