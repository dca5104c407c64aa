/-
# NestAmqp.Broker.Registration — the consumers and handlers of the broker service.

`registerHandler` and `registerRpc` subscribe a consumer for a topic and put the handler into the
registry the consumer looks it up in.  The two are separate steps: the call waits for the promise of the
subscription in between.  `unregisterAll` cancels the consumers, waits for the cancels, and clears the
registry.  The machine here runs those calls over the machine of the connection; a delivery to a live
consumer looks its handler up in the registry as it stands then.
-/
import NestAmqp.Amqp.Subscriptions
import NestAmqp.Broker.ExecuteFunction

namespace NestAmqp.Broker

open NestAmqp.Js
open NestAmqp.Amqp

/-! ## Topics and pools -/

/-- `BrokerTopic.mode`; `other` is none of the four. -/
inductive TopicMode where
  | rpc | event | broadcast | handle | other
  deriving DecidableEq, Repr

/-- `BrokerTopic`, with the fields the service reads. -/
structure ServiceTopic extends BrokerTopic where
  mode : TopicMode
  toObservable : Bool := false
  persistent : Option Bool := none

/-- What the service is built with. -/
structure ServiceConfig (F : Type) where
  broker : BrokerConfig := {}
  /-- `connectionManagerOptions?.connectionOptions?.clientProperties?.connection_name`. -/
  connectionName : Option String := none
  topics : List ServiceTopic := []
  consumers : ConsumersConfig := {}
  app : AppConfig := { environment := .production }
  /-- What calling a handler with a message comes to. -/
  call : F → Value → Outcome

/-- An entry of `rpcsPool` or `handlersPool`. -/
structure PoolEntry where
  queue : Option String := none
  exchange : Option String := none
  routingKey : Option OneOrMany := none
  subscribed : Bool := false
  consumerTag : Option ConsumerTag := none
  deriving DecidableEq, Repr

/-- `rpcsPool` is the pool of kind `rpc`, `handlersPool` the one of kind `subscribe`. -/
abbrev Pools := ConsumerKind → String → Option PoolEntry

/-- `pool.set(topic, entry)`. -/
def Pools.set (pools : Pools) (kind : ConsumerKind) (topic : String) (entry : PoolEntry) : Pools :=
  fun k t => if k = kind ∧ t = topic then some entry else pools k t

/-- `x ? { [k]: x } : {}`. -/
def given (text : Option String) : Option String := if truthyText text then text else none

section Pools

variable {F : Type} (config : ServiceConfig F)

/-- `onModuleInit`, one topic. -/
def addToPool (pools : Pools) (topic : ServiceTopic) : Except Thrown Pools :=
  match topic.mode with
  | .rpc =>
      if !truthyText topic.queue && !truthyText topic.exchange then .ok pools
      else if (pools .rpc topic.name).isSome then .ok pools
      else .ok (pools.set .rpc topic.name
        { queue := given topic.queue, exchange := given topic.exchange,
          routingKey := (given topic.routingKey).map .one })
  | .broadcast =>
      if !truthyText topic.exchange || !truthyText topic.routingKey then .ok pools
      else if !truthyText config.connectionName then
        .error (.error { name := "Error", message := "Client name is required for topic exchange" })
      else .ok (pools.set .subscribe topic.name
        { queue := some (topic.name ++ "-" ++ template config.connectionName)
          exchange := topic.exchange
          routingKey := topic.routingKey.map .one })
  | .handle =>
      let queue := findQueue config.broker topic.queue
      let exchange := findExchange config.broker ((queue.bind (·.exchange)).or topic.exchange)
      if exchange.bind (·.type) = some "topic" ∧ ¬ hasRoutingKey queue then
        -- the message names the queue, which may be missing
        match queue with
        | some q => .error (.error { name := "Error", message := "Queue " ++ q.name ++ " has no routing key" })
        | none => .error (.typeError "Cannot read properties of undefined (reading 'name')")
      else if (pools .subscribe topic.name).isSome then
        match queue with
        | some _ => .ok pools
        | none => .error (.typeError "Cannot read properties of undefined (reading 'name')")
      else .ok (pools.set .subscribe topic.name
        { queue := textOr (queue.map (·.name)) topic.queue
          exchange := textOr (exchange.map (·.name)) topic.exchange
          routingKey := (textOr (firstKey (queue.bind (·.routingKey))) topic.routingKey).map .one })
  | .event | .other => .ok pools

/-- `onModuleInit`: the pools of all topics. -/
def initPools : Except Thrown Pools := config.topics.foldlM (addToPool config) fun _ _ => none

/-- `topicConfigurations.find(t => t.name === name)`. -/
def findTopic (name : String) : Option ServiceTopic := config.topics.find? fun t => t.name == name

/-- The topic goes to the event stream, not to a handler. -/
def observable (name : String) : Bool := ((findTopic config name).map (·.toObservable)).getD false

end Pools

/-! ## The service -/

/-- A call of `registerHandler` or `registerRpc` that has got as far as its subscription. -/
structure RegisterCall (F : Type) where
  kind : ConsumerKind
  topic : String
  handler : Option F
  entry : PoolEntry
  subscription : Nat
  /-- What the call came to, once its promise has settled. -/
  result : Option (Except Thrown Unit) := none

/-- A message a consumer of the service was given, and what its callback made of it. -/
structure DispatchedMessage where
  kind : ConsumerKind
  topic : String
  /-- A registered handler has run on it. -/
  ran : Bool
  /-- A returned value is answered, when somebody waits, and the message acknowledged. -/
  result : Except Thrown Value

/-- `BrokerService`, its `HandlerRegistryService` and the connection below. -/
structure Service (F : Type) where
  /-- The handler of a consumer of the service is told by its topic; others have none. -/
  connection : Connection (Option String) := {}
  detached : Bool := false
  pools : Pools := fun _ _ => none
  /-- `registry` and `rpcRegistry`: the topics that have an entry, which may be `undefined`. -/
  registry : ConsumerKind → String → Option (Option F) := fun _ _ => none
  calls : List (RegisterCall F) := []
  /-- The calls of `unregisterAll`: the drain each waits for, and whether it has resolved. -/
  unregisters : List (Nat × Bool) := []
  dispatched : List DispatchedMessage := []

/-- One step of the service, of a delivery, or of the connection and its other users. -/
inductive ServiceInput (F : Type) where
  | connection (input : ConnectionInput (Option String))
  | registerHandler (topic : String) (handler : Option F)
  | registerRpc (topic : String) (handler : Option F)
  /-- A register call goes on after its `await`. -/
  | resume (call : Nat)
  | unregisterAll
  /-- An `unregisterAll` call goes on after its `await`. -/
  | unregistered (call : Nat)
  /-- The broker delivers to a consumer. -/
  | deliver (consumer : LiveConsumer) (message : Value)

/-- A subscription that somebody else makes has a handler of their own. -/
def foreign : ConnectionInput (Option String) → ConnectionInput (Option String)
  | .subscribe kind _ options => .subscribe kind none options
  | input => input

/-- `Array.isArray(routingKey) ? routingKey : [routingKey]`. -/
def routingKeysOf : Option OneOrMany → List (Option String)
  | none => [none]
  | some (.one k) => [some k]
  | some (.many ks) => ks.map some

/-- The options a pool entry is subscribed with. -/
def PoolEntry.options (entry : PoolEntry) : SubscribeOptions :=
  { queue := entry.queue, exchange := entry.exchange, routingKeys := routingKeysOf entry.routingKey }

namespace Service

variable {F : Type} (config : ServiceConfig F)

/-- The service as its module starts it.  Where `onModuleInit` throws the application does not come up,
and no topic is registered. -/
def start : Service F := { pools := (initPools config).toOption.getD fun _ _ => none }

/-- `getHandlers`. -/
def getHandlers (s : Service F) (kind : ConsumerKind) (topic : String) : Option F :=
  (s.registry kind topic).join

/-- `HandlerRegistryService.registerHandler`: an entry is never replaced. -/
def registerInto (s : Service F) (kind : ConsumerKind) (topic : String) (handler : Option F) :
    Service F × Except Thrown Unit :=
  if (s.registry kind topic).isSome then
    (s, .error (.error
      { name := "Error", message := "Handler for topic " ++ topic ++ " already exists" }))
  else
    ({ s with registry := fun k t => if k = kind ∧ t = topic then some handler else s.registry k t },
      .ok ())

/-- The call of `createSubscriber` or `createRpc`, up to the `await`. -/
def subscribe (s : Service F) (kind : ConsumerKind) (topic : String) (handler : Option F)
    (entry : PoolEntry) : Service F :=
  { s with
    connection := s.connection.step config.consumers (.subscribe kind (some topic) entry.options)
    calls := s.calls ++
      [{ kind, topic, handler, entry, subscription := s.connection.subscriptions.length }] }

/-- `registerHandler`, up to its `await`. -/
def registerHandler (s : Service F) (topic : String) (handler : Option F) : Service F :=
  match s.pools .subscribe topic with
  | none => s
  | some entry => if entry.subscribed then s else s.subscribe config .subscribe topic handler entry

/-- `a ?? b` on routing keys. -/
def rpcEntry (queue : Option RabbitMQQueueConfig) (entry : PoolEntry) : PoolEntry :=
  { entry with
    queue := (queue.map (·.name)).or entry.queue
    exchange := (queue.bind (·.exchange)).or entry.exchange
    routingKey := (queue.bind (·.routingKey)).or entry.routingKey }

/-- `registerRpc`, up to its `await`; of a subscribed topic only the handler is registered. -/
def registerRpc (s : Service F) (topic : String) (handler : Option F) : Service F :=
  match s.pools .rpc topic with
  | none => s
  | some entry =>
      if entry.subscribed then (s.registerInto .rpc topic handler).1
      else
        let queue := if truthyText entry.queue then findQueue config.broker entry.queue else none
        if truthyText entry.queue && queue.isNone then s
        else s.subscribe config .rpc topic handler (rpcEntry queue entry)

/-- The pool entry of a topic whose subscription has settled. -/
def subscribed (s : Service F) (call : RegisterCall F) (tag : ConsumerTag) : Service F :=
  let entry := { call.entry with subscribed := true, consumerTag := some tag }
  { s with pools := s.pools.set call.kind call.topic entry }

/-- What a register call does with a settled promise.  A failed subscription of an rpc rejects the
call; `registerHandler` logs it and goes on. -/
def settle (s : Service F) (call : RegisterCall F) (promise : SubscriptionPromise) :
    Service F × Option (Except Thrown Unit) :=
  match promise with
  | .pending => (s, none)
  | .resolved tag => register (s.subscribed call tag) call
  | .rejected =>
      match call.kind with
      | .rpc => (s, some (.error (.error
          { name := "Error"
            message := "Consumers were canceled (graceful drain): refusing to subscribe to queue '" ++
              template call.entry.queue ++ "'" })))
      | .subscribe => register s call
where
  /-- The registration that ends a call. -/
  register (s : Service F) (call : RegisterCall F) : Service F × Option (Except Thrown Unit) :=
    match call.kind with
    | .rpc => (s.registerInto .rpc call.topic call.handler).map id some
    | .subscribe =>
        if observable config call.topic then (s, some (.ok ()))
        else match call.handler with
          | none => (s, some (.error (.error
              { name := "Error"
                message := "Topic " ++ call.topic ++
                  " requires a handler function becouse it has handle property set to true" })))
          | some f => (s.registerInto .subscribe call.topic (some f)).map id some

/-- A register call goes on. -/
def resume (s : Service F) (i : Nat) : Service F :=
  match s.calls[i]? with
  | none => s
  | some call =>
      match call.result, s.connection.subscriptions[call.subscription]? with
      | none, some sub =>
          let (s', result) := s.settle config call sub.promise
          { s' with calls := s'.calls.modify i fun call => { call with result } }
      | _, _ => s

/-- `unregisterAll`, up to its `await`. -/
def unregisterAll (s : Service F) : Service F :=
  { s with
    detached := true
    connection := s.connection.step config.consumers .cancelAll
    unregisters := s.unregisters ++ [(s.connection.drains.length, false)] }

/-- The `unregisterAll` call waits no longer. -/
def Drained (s : Service F) (i : Nat) : Prop :=
  ∃ drain, s.unregisters[i]? = some (drain, false) ∧ s.connection.drains[drain]? = some []

instance (s : Service F) (i : Nat) : Decidable (s.Drained i) :=
  match h : s.unregisters[i]? with
  | none => .isFalse fun ⟨_, h', _⟩ => by simp [h] at h'
  | some (drain, resolved) =>
      decidable_of_iff (resolved = false ∧ s.connection.drains[drain]? = some []) (by
        unfold Drained
        simp only [h, Option.some.injEq, Prod.mk.injEq]
        constructor
        · rintro ⟨hresolved, hdrain⟩
          exact ⟨drain, ⟨rfl, hresolved⟩, hdrain⟩
        · rintro ⟨_, ⟨rfl, hresolved⟩, hdrain⟩
          exact ⟨hresolved, hdrain⟩)

/-- An `unregisterAll` call goes on: the pools are reset and the registry is cleared. -/
def unregistered (s : Service F) (i : Nat) : Service F :=
  if s.Drained i then
    { s with
      unregisters := s.unregisters.modify i fun u => (u.1, true)
      pools := fun kind topic =>
        (s.pools kind topic).map fun entry => { entry with subscribed := false, consumerTag := none }
      registry := fun _ _ => none }
  else s

/-- What the callback of a consumer makes of the result `executeFunction` wraps: an rpc returns it, a
subscriber throws the error of a failure. -/
def unwrap (kind : ConsumerKind) (result : Value) : Except Thrown Value :=
  match kind, result with
  | .rpc, result => .ok result
  | .subscribe, .obj fields =>
      if (Obj.get fields "success").truthy then .ok .undefined
      else .error (.value (Obj.get fields "error"))
  | .subscribe, _ => .error (.value .undefined)

/-- The callback of a consumer, on one message. -/
def dispatch (s : Service F) (kind : ConsumerKind) (topic : String) (message : Value) : DispatchedMessage :=
  if kind = .subscribe ∧ observable config topic then
    { kind, topic, ran := false, result := .ok .undefined }
  else
    let func := s.getHandlers kind topic
    let outcome := func.elim .notCallable fun f => config.call f message
    { kind, topic, ran := func.isSome
      result := (BrokerService.executeFunction config.app outcome).bind (unwrap kind) }

/-- A delivery to a consumer of the service. -/
def deliver (s : Service F) (consumer : LiveConsumer) (message : Value) : Service F :=
  if consumer ∈ s.connection.live then
    match s.connection.subscriptions[consumer.subscription]? with
    | some { kind, handler := some topic, .. } =>
        { s with dispatched := s.dispatched ++ [s.dispatch config kind topic message] }
    | _ => s
  else s

/-- One step. -/
def step (s : Service F) : ServiceInput F → Service F
  | .connection input => { s with connection := s.connection.step config.consumers (foreign input) }
  | .registerHandler topic handler => s.registerHandler config topic handler
  | .registerRpc topic handler => s.registerRpc config topic handler
  | .resume call => s.resume config call
  | .unregisterAll => s.unregisterAll config
  | .unregistered call => s.unregistered call
  | .deliver consumer message => s.deliver config consumer message

end Service

end NestAmqp.Broker
