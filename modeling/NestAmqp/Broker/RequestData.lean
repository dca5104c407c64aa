/-
# NestAmqp.Broker.RequestData — a request and its deadline.

`requestData` resolves the path of a topic and sends a request whose expiration is the caller's timeout,
so that nothing runs for a caller who has given up.  The expiration is relative, and a retry publishes the
request again: the deadline holds for the requests that are not retried, and only for them.
-/
import Mathlib
import NestAmqp.Amqp.Deadline
import NestAmqp.Amqp.Request
import NestAmqp.Broker.Registration

namespace NestAmqp.Broker

open NestAmqp.Js
open NestAmqp.Amqp
open NestAmqp.Lib.Machine

/-! ## `requestData` -/

/-- What `requestData` reads of the configuration, and of the service. -/
structure RequesterConfig where
  broker : BrokerConfig := {}
  topics : List ServiceTopic := []
  /-- `replyQueues?.[exchange]`. -/
  replyQueues : String → Option String := fun _ => none
  defaultRpcTimeout : Option Int := none
  detached : Bool := false

/-- `timeout || this.brokerConfig.defaultRpcTimeout || 10000`. -/
def rpcTimeout (config : RequesterConfig) (timeout : Option Int) : Int :=
  ((timeout.filter (· != 0)).or (config.defaultRpcTimeout.filter (· != 0))).getD 10000

/-- `new Error(message)`. -/
def plainError (message : String) : Thrown := .error { name := "Error", message }

/-- What `requestData` hands to `request`: the two ids are the ones `randomUUID` makes up. -/
def requestData (config : RequesterConfig) (topic action : String) (payload : Value)
    (headers : Option Obj) (timeout : Option Int) (correlationId requestId : String) :
    Except Thrown RequestOptions :=
  if config.detached then
    .error (plainError ("Broker is detached: cannot request data on topic '" ++ topic ++
      "'. Outgoing traffic was disabled by unregisterAll()."))
  else match config.topics.find? fun t => t.name == topic with
    | none => .error (plainError ("Topic " ++ topic ++ " not found in configuration"))
    | some msTopic =>
        let queue := if truthyText msTopic.queue then findQueue config.broker msTopic.queue else none
        -- of the exchange the queue's comes first, of the routing key the topic's
        let exchange := textOr (queue.bind (·.exchange)) msTopic.exchange
        let routingKey := textOr msTopic.routingKey (firstKey (queue.bind (·.routingKey)))
        if !truthyText exchange || !truthyText routingKey then
          .error (plainError ("Invalid topic configuration for topic " ++ topic ++
            ". Exchange and routing key are required"))
        else .ok
          { exchange := exchange.getD ""
            routingKey := routingKey.getD ""
            payload := .obj [("action", .str action), ("payload", payload)]
            correlationId := some correlationId
            replyTo := config.replyQueues (exchange.getD "")
            headers := some (Obj.set (headers.getD []) "X-Request-ID" (.str requestId))
            timeout := some (rpcTimeout config timeout)
            -- the request expires in its queue when its caller gives up
            expiration := some (rpcTimeout config timeout)
            persistent := msTopic.persistent }

/-- A request as it comes into the queue it is routed to, with its payload serialised. -/
def requestDelivery (rpc : RequestConfig) (options : RequestOptions) (correlationId : String)
    (content : Content) : Delivery :=
  let publication := (RpcCall.request rpc options correlationId).publication
  { routingKey := publication.routingKey, content, properties := publication.properties }

/-! ## The deadline -/

section Deadline

variable {config : RequesterConfig} {topic action : String} {payload : Value} {headers : Option Obj}
  {timeout : Option Int} {correlationId requestId : String} {options : RequestOptions}

/-- The expiration is the timeout. -/
theorem expiration_requestData
    (h : requestData config topic action payload headers timeout correlationId requestId = .ok options) :
    options.expiration = some (rpcTimeout config timeout) := by
  unfold requestData at h
  split at h
  · cases h
  · split at h
    · cases h
    · dsimp only at h
      generalize (if truthyText _ = true then findQueue config.broker _ else none) = queue at h
      split at h
      · cases h
      · obtain rfl := Except.ok.inj h
        rfl

/-- The broker reads the time to live it was meant to. -/
theorem ttl_requestDelivery (rpc : RequestConfig) (content : Content)
    (h : requestData config topic action payload headers timeout correlationId requestId = .ok options) :
    (requestDelivery rpc options correlationId content).properties.expiration.bind String.toInt? =
      some (rpcTimeout config timeout) := by
  show (options.expiration.map toString).bind String.toInt? = _
  rw [expiration_requestData h]
  exact Int.toInt?_repr _

/-- **Exactly the requests that are not retried meet their deadline.**  Under every schedule of delivering,
failing and redelivering the handler starts before the caller has given up, on the request and all its
copies, if and only if no retry copy of it can run. -/
theorem requestData_inTime_iff (rpc : RequestConfig) (content : Content) (consumer : QueueConsumer)
    (published : Int) (names : List String)
    (h : requestData config topic action payload headers timeout correlationId requestId = .ok options) :
    (∀ inputs : List (WorkInput names),
        ∀ a ∈ (run (WorkQueue.step consumer)
          (.start (requestDelivery rpc options correlationId content) published) inputs).attempts,
        a ≤ published + rpcTimeout config timeout) ↔
      ¬ RetriesRun consumer (requestDelivery rpc options correlationId content)
        (rpcTimeout config timeout) :=
  attempts_le_iff (ttl_requestDelivery rpc content h)

end Deadline

/-! ## A request that is retried -/

/-- One topic `t` on the exchange `e`. -/
def requester : RequesterConfig :=
  { topics := [{ name := "t", exchange := some "e", routingKey := some "q", mode := .rpc }] }

/-- What the request of that topic is. -/
def requestOfT : RequestOptions where
  exchange := "e"
  routingKey := "q"
  payload := .obj [("action", .str "act"), ("payload", .num 1)]
  correlationId := some "c"
  headers := some [("X-Request-ID", .str "r")]
  timeout := some 5000
  expiration := some 5000

theorem requestData_t :
    requestData requester "t" "act" (.num 1) none (some 5000) "c" "r" = .ok requestOfT := by
  rfl

/-- A consumer of the queue `q` that takes the queue's own name, with that many attempts. -/
def consumerOfQ (maxAttempts : Int) : QueueConsumer where
  queue := "q"
  policy := { maxAttempts := some maxAttempts }
  options := { routingKey := some (.one "q") }
  deserializer := fun _ => .ok (.obj [])

/-- One attempt, and no retry. -/
theorem requestData_inTime_iff_once :
    (∀ inputs : List (WorkInput []),
        ∀ a ∈ (run (WorkQueue.step (consumerOfQ 1))
          (.start (requestDelivery { deserializer := fun _ => .ok .null } requestOfT "c" []) 0)
            inputs).attempts,
        a ≤ 0 + rpcTimeout requester (some 5000)) ↔
      ¬ RetriesRun (consumerOfQ 1)
        (requestDelivery { deserializer := fun _ => .ok .null } requestOfT "c" [])
        (rpcTimeout requester (some 5000)) :=
  requestData_inTime_iff { deserializer := fun _ => .ok .null } [] (consumerOfQ 1) 0 [] requestData_t

/-- Two attempts: the handler fails after five seconds, and runs again. -/
theorem not_requestData_inTime : ¬ ∀ (config : RequesterConfig) (topic action : String) (payload : Value)
    (headers : Option Obj) (timeout : Option Int) (correlationId requestId : String)
    (options : RequestOptions) (rpc : RequestConfig) (content : Content) (consumer : QueueConsumer)
    (published : Int) (inputs : List (WorkInput [])),
    requestData config topic action payload headers timeout correlationId requestId = .ok options →
    ∀ a ∈ (run (WorkQueue.step consumer)
      (.start (requestDelivery rpc options correlationId content) published) inputs).attempts,
      a ≤ published + rpcTimeout config timeout := by
  intro h
  let rpc : RequestConfig := { deserializer := fun _ => .ok .null }
  have hretries : RetriesRun (consumerOfQ 2) (requestDelivery rpc requestOfT "c" [])
      (rpcTimeout requester (some 5000)) := by
    refine ⟨by decide, ⟨.num 1, rfl, by decide⟩, rfl, ?_⟩
    simp [QueueConsumer.admitsKey, consumerOfQ, matchesRoutingKey]
  obtain ⟨inputs, a, ha, hlate⟩ : ∃ inputs : List (WorkInput []),
      ∃ a ∈ (run (WorkQueue.step (consumerOfQ 2)) (.start (requestDelivery rpc requestOfT "c" []) 0)
        inputs).attempts, 0 + rpcTimeout requester (some 5000) < a :=
    exists_late (ttl_requestDelivery rpc [] requestData_t) hretries
  exact absurd (h requester "t" "act" (.num 1) none (some 5000) "c" "r" requestOfT rpc []
    (consumerOfQ 2) 0 inputs requestData_t a ha) (by omega)

end NestAmqp.Broker
