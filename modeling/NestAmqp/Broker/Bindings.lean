/-
# NestAmqp.Broker.Bindings — what the bindings of a queue bring in, and what its consumer lets through.

The routing keys of a queue are read twice.  `setupQueuesWithBindings` binds the queue once for every
key of its list; the scanner gives the consumer of a topic one key, the topic's own or the first of the
list, and the consumer discards every message whose routing key does not match it.  This module puts
the two readings side by side and says exactly when nothing that is bound is discarded.
-/
import NestAmqp.Broker.RetryCoverage

namespace NestAmqp.Broker

open NestAmqp.Js
open NestAmqp.Lib
open NestAmqp.Lib.Topic
open NestAmqp.Amqp

/-! ## Exchanges and bindings on the broker -/

/-- How an exchange picks the queues of a message. -/
inductive ExchangeKind where
  | topic
  | direct
  | fanout
  deriving DecidableEq, Repr

/-- The kind of an exchange of this type. -/
def ExchangeKind.ofType? : String → Option ExchangeKind
  | "topic" => some .topic
  | "direct" => some .direct
  | "fanout" => some .fanout
  | _ => none

/-- The kind of the exchange `name` once the connection is set up: the type the configuration declares it
with (`x.type || defaultExchangeType`), or `existing name` where the configuration does not create it. -/
def exchangeKind (config : BrokerConfig) (existing : String → ExchangeKind) (name : String) :
    ExchangeKind :=
  match findExchange config (some name) with
  | none => existing name
  | some x =>
      if x.createExchangeIfNotExists then
        (ExchangeKind.ofType? ((textOr x.type (some config.defaultExchangeType)).getD "")).getD
          (existing name)
      else existing name

/-- One `bindQueue` call. -/
structure QueueBinding where
  exchange : String
  routingKey : String
  deriving DecidableEq, Repr

/-- `Array.isArray(routingKey) ? routingKey : [routingKey]`, without the missing one. -/
def routingKeys : Option OneOrMany → List String
  | none => []
  | some (.one k) => [k]
  | some (.many ks) => ks

/-- The `bindQueue` calls of `setupQueue` for one configured queue. -/
def setupQueue (configuredQueue : RabbitMQQueueConfig) : List QueueBinding :=
  if truthyText configuredQueue.exchange then
    (routingKeys configuredQueue.routingKey).map (.mk (configuredQueue.exchange.getD ""))
  else []

/-- The bindings `setupQueuesWithBindings` gives to the queue `name`.  Asserting an empty name makes a new
queue each time, which no consumer shares. -/
def queueBindings (config : BrokerConfig) (name : String) : List QueueBinding :=
  if name = "" then [] else (config.queues.filter fun q => q.name == name).flatMap setupQueue

/-- Does a binding with key `boundKey` to an exchange of this kind bring in a message with this key? -/
def ExchangeKind.routesTo : ExchangeKind → (boundKey key : String) → Bool
  | .topic, boundKey, key => topicRoutes boundKey key
  | .direct, boundKey, key => key == boundKey
  | .fanout, _, _ => true

theorem ExchangeKind.routesTo_self (kind : ExchangeKind) (boundKey : String) :
    kind.routesTo boundKey boundKey = true := by
  cases kind with
  | topic => exact topicRoutes_self boundKey
  | direct => exact beq_self_eq_true boundKey
  | fanout => rfl

/-- Some binding of the queue brings in messages with this key. -/
def Receives (config : BrokerConfig) (existing : String → ExchangeKind) (name key : String) : Prop :=
  ∃ b ∈ queueBindings config name,
    (exchangeKind config existing b.exchange).routesTo b.routingKey key = true

/-! ## What the consumer lets through -/

/-- The delivery passes the routing-key check, and the handler is run on it if it can be deserialised. -/
def Dispatched (env : ConsumerEnv) (options : MessageHandlerOptions) (d : Delivery) : Prop :=
  matchesRoutingKey d.routingKey options.routingKey = true ∧
    ∀ log message, tryDeserializeMessage env options d = .ok message →
      ∃ failure, .handled d failure ∈ (rpcProcess env options d).added log

/-- The routing-key check is all that stands before the handler. -/
theorem dispatched_iff (env : ConsumerEnv) (options : MessageHandlerOptions) (d : Delivery) :
    Dispatched env options d ↔ matchesRoutingKey d.routingKey options.routingKey = true := by
  refine ⟨fun h => h.1, fun hkey => ⟨hkey, fun log message hmsg => ?_⟩⟩
  have hadmits : ConsumerKind.rpc.admits options d = true := by
    simpa [ConsumerKind.admits] using hkey
  have hrun := ((ensures_process env options .rpc d).added log).2
  show ∃ failure, .handled d failure ∈ (ConsumerKind.rpc.process env options d).added log
  generalize (ConsumerKind.rpc.process env options d).added log = t at hrun ⊢
  generalize (ConsumerKind.rpc.process env options d log).1 = r at hrun
  cases hrun with
  | misrouted h => rw [hadmits] at h; cases h
  | undecodable _ h => rw [hmsg] at h; cases h
  | threw => exact ⟨_, .head _⟩
  | refused => exact ⟨_, .head _⟩
  | unanswered => exact ⟨_, .head _⟩
  | answered => exact ⟨_, .head _⟩

/-- Every message the queue receives through its bindings is dispatched. -/
def EveryMessageDispatched (env : ConsumerEnv) (config : BrokerConfig)
    (existing : String → ExchangeKind) (name : String) (options : MessageHandlerOptions) : Prop :=
  ∀ d : Delivery, Receives config existing name d.routingKey → Dispatched env options d

/-! ## When the two agree -/

/-- Does a consumer with the pattern `p` let through all that a binding brings in?  A direct exchange
brings in the bound key alone, a fanout exchange every key. -/
def ExchangeKind.coveredBy : ExchangeKind → (boundKey p : String) → Bool
  | .topic, boundKey, p => covers (patternOf boundKey) (patternOf p)
  | .direct, boundKey, p => matchesPattern boundKey p
  | .fanout, _, p => overruns (patternOf p)

/-- Every binding of the queue is covered by the key the topic names, or else the queue's first; with
neither, nothing may be bound. -/
def BindingsCovered (config : BrokerConfig) (existing : String → ExchangeKind) (cfgTopic : BrokerTopic)
    (queue : RabbitMQQueueConfig) : Prop :=
  match textOr cfgTopic.routingKey (firstKey queue.routingKey) with
  | none => queueBindings config queue.name = []
  | some p => ∀ b ∈ queueBindings config queue.name,
      (exchangeKind config existing b.exchange).coveredBy b.routingKey p = true

instance (config : BrokerConfig) (existing : String → ExchangeKind) (cfgTopic : BrokerTopic)
    (queue : RabbitMQQueueConfig) : Decidable (BindingsCovered config existing cfgTopic queue) := by
  unfold BindingsCovered
  cases textOr cfgTopic.routingKey (firstKey queue.routingKey) <;> infer_instance

theorem covers_hash (P : List (Token String)) : covers [.hash] P = overruns P := by
  cases P with
  | nil => rfl
  | cons p P => cases p <;> rfl

/-- **One binding.** -/
theorem ExchangeKind.coveredBy_iff (kind : ExchangeKind) (boundKey p : String) :
    kind.coveredBy boundKey p = true ↔
      ∀ key, kind.routesTo boundKey key = true → matchesPattern key p = true := by
  cases kind with
  | topic => exact covers_iff boundKey p
  | direct =>
      constructor
      · intro h key hkey
        rw [beq_iff_eq.mp hkey]
        exact h
      · exact fun h => h boundKey (beq_self_eq_true boundKey)
  | fanout =>
      have hall := covers_iff "#" p
      show overruns (patternOf p) = true ↔ _
      rw [← covers_hash]
      exact hall.trans ⟨fun h key _ => h key (topicRoutes_hash key), fun h key _ => h key rfl⟩

/-- The key the consumer of a bound topic filters by. -/
theorem bindTopic_routingKey {config : BrokerConfig} {cfgTopic : BrokerTopic} {binding : RpcBinding}
    (h : bindTopic config cfgTopic = .ok binding) {queue : RabbitMQQueueConfig}
    (hqueue : findQueue config cfgTopic.queue = some queue) :
    binding.options.routingKey =
      (textOr cfgTopic.routingKey (firstKey queue.routingKey)).map OneOrMany.one := by
  unfold bindTopic at h
  dsimp only at h
  split at h
  · cases h
  · obtain rfl := Except.ok.inj h
    show (routingKeyName config cfgTopic).map OneOrMany.one = _
    unfold routingKeyName
    rw [hqueue]
    rfl

/-- **When every message of a bound queue is dispatched.**  For every configuration and every topic bound
to one of its queues: all that the queue's bindings bring in passes the consumer's routing-key check
exactly when its pattern covers every one of the bindings. -/
theorem everyMessageDispatched_iff (env : ConsumerEnv) (config : BrokerConfig)
    (existing : String → ExchangeKind) (consumer : ActionConsumer) (cfgTopic : BrokerTopic)
    (queue : RabbitMQQueueConfig) (hqueue : findQueue config cfgTopic.queue = some queue)
    (binding : RpcBinding) (hbinding : bindTopic config cfgTopic = .ok binding) :
    EveryMessageDispatched (actionEnv env consumer) config existing queue.name binding.options ↔
      BindingsCovered config existing cfgTopic queue := by
  unfold EveryMessageDispatched BindingsCovered
  simp only [dispatched_iff, bindTopic_routingKey hbinding hqueue]
  cases textOr cfgTopic.routingKey (firstKey queue.routingKey) with
  | none =>
      -- no pattern lets nothing through, and every binding brings in its own key
      constructor
      · intro h
        rw [List.eq_nil_iff_forall_not_mem]
        intro b hb
        have hmatch := h { routingKey := b.routingKey, content := [] }
          ⟨b, hb, ExchangeKind.routesTo_self _ _⟩
        cases hmatch
      · rintro hnone d ⟨b, hb, -⟩
        rw [hnone] at hb
        cases hb
  | some p =>
      constructor
      · intro h b hb
        rw [ExchangeKind.coveredBy_iff]
        exact fun key hkey => h { routingKey := key, content := [] } ⟨b, hb, hkey⟩
      · rintro h d ⟨b, hb, hroutes⟩
        exact (ExchangeKind.coveredBy_iff _ _ p).mp (h b hb) d.routingKey hroutes

/-- A topic exchange and a queue bound to it by two keys, with a topic that names no key of its own. -/
def twoKeysConfig : BrokerConfig where
  exchanges := [{ name := "rlb", type := some "topic" }]
  queues := [{ name := "docs", exchange := some "rlb", routingKey := some (.many ["doc.*", "note.*"]) }]

def docsTopic : BrokerTopic := { name := "docs", queue := some "docs" }

/-- The same queue bound by one key. -/
def oneKeyConfig : BrokerConfig where
  exchanges := [{ name := "rlb", type := some "topic" }]
  queues := [{ name := "docs", exchange := some "rlb", routingKey := some (.one "doc.*") }]

theorem everyMessageDispatched_oneKey :
    EveryMessageDispatched (actionEnv publishedEnv (failingAction (.value .null))) oneKeyConfig
      (fun _ => .topic) "docs"
      { routingKey := some (.one "doc.*") } :=
  (everyMessageDispatched_iff publishedEnv oneKeyConfig (fun _ => .topic) (failingAction (.value .null))
    docsTopic { name := "docs", exchange := some "rlb", routingKey := some (.one "doc.*") } rfl
    { queue := some "docs", exchange := some "rlb", options := { routingKey := some (.one "doc.*") } }
    rfl).mpr (by decide)

/-- The second key of the list: what it brings in is thrown away. -/
theorem not_everyMessageDispatched_twoKeys :
    ¬ ∀ (env : ConsumerEnv) (config : BrokerConfig) (existing : String → ExchangeKind)
      (consumer : ActionConsumer) (cfgTopic : BrokerTopic) (queue : RabbitMQQueueConfig)
      (binding : RpcBinding), findQueue config cfgTopic.queue = some queue →
      bindTopic config cfgTopic = .ok binding →
      EveryMessageDispatched (actionEnv env consumer) config existing queue.name binding.options := by
  intro h
  have hnote := h publishedEnv twoKeysConfig (fun _ => .topic) (failingAction (.value .null)) docsTopic
    { name := "docs", exchange := some "rlb", routingKey := some (.many ["doc.*", "note.*"]) }
    { queue := some "docs", exchange := some "rlb", options := { routingKey := some (.one "doc.*") } }
    rfl rfl { routingKey := "note.created", content := [] }
    ⟨{ exchange := "rlb", routingKey := "note.*" }, .tail _ (.head _), by decide⟩
  exact absurd hnote.1 (by decide)

end NestAmqp.Broker
