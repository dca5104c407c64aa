/-
# NestAmqp.Broker.PublishMessage — where a message to a topic goes, and where a request does.

`publishMessage` and `requestData` resolve a topic each in its own way.  The one takes exchange and routing
key both from the topic or both from its queue, by whether the topic has a routing key; the other takes each
by itself, the exchange from the queue first and the routing key from the topic first.  They meet where the
queue's exchange and the topic's do not compete.
-/
import NestAmqp.Broker.RequestData

namespace NestAmqp.Broker

open NestAmqp.Js
open NestAmqp.Amqp

/-! ## `publishMessage` -/

/-- What is handed to `publish`; exchange and routing key may be missing. -/
structure PublishCall where
  exchange : Option String
  routingKey : Option String
  message : Value
  headers : Option Obj
  persistent : Option Bool

/-- `['event', 'broadcast', 'rpc', 'handle'].includes(mode)`. -/
def TopicMode.isPublishable : TopicMode → Bool
  | .rpc | .event | .broadcast | .handle => true
  | .other => false

/-- `publishMessage`, up to the call of `publish`. -/
def publishMessage (config : RequesterConfig) (topic action : String) (payload : Value) (headers : Option Obj) :
    Except Thrown PublishCall :=
  if config.detached then
    .error (plainError ("Broker is detached: cannot publish to topic '" ++ topic ++
      "'. Outgoing traffic was disabled by unregisterAll()."))
  else match config.topics.find? fun t => t.name == topic with
    | none => .error (plainError ("Topic " ++ topic ++ " not found in configuration"))
    | some msTopic =>
        let call (exchange routingKey : Option String) : PublishCall :=
          { exchange, routingKey, headers, persistent := msTopic.persistent
            message := .obj [("action", .str action), ("payload", payload)] }
        if !msTopic.mode.isPublishable then
          .error (plainError ("Topic " ++ topic ++ " is not configured for publishing"))
        else if !truthyText msTopic.routingKey then
          -- without a queue there is no routing key either
          match findQueue config.broker msTopic.queue with
          | none => .error (plainError ("No routing key found for topic " ++ topic))
          | some queue => .ok (call queue.exchange (firstKey queue.routingKey))
        else if !truthyText msTopic.exchange then
          .error (plainError ("Exchange not found for topic " ++ topic))
        else .ok (call msTopic.exchange msTopic.routingKey)

/-! ## The two resolutions -/

/-- The queue of a topic does not compete with the topic: where the topic has a routing key, the queue names no
exchange or the topic's own; where it has none, the queue names one. -/
structure Uncontested (config : RequesterConfig) (msTopic : ServiceTopic) : Prop where
  keyed : truthyText msTopic.routingKey = true → truthyText msTopic.queue = true →
    ∀ queue, findQueue config.broker msTopic.queue = some queue → truthyText queue.exchange = true →
      queue.exchange = msTopic.exchange
  keyless : truthyText msTopic.routingKey = false →
    ∀ queue, findQueue config.broker msTopic.queue = some queue → truthyText queue.exchange = true

section Resolutions

variable {config : RequesterConfig} {topic action : String} {payload : Value} {headers : Option Obj}
  {timeout : Option Int} {correlationId requestId : String} {options : RequestOptions} {call : PublishCall}
  {msTopic : ServiceTopic}

theorem eq_some_of_truthyText {text : Option String} (h : truthyText text = true) :
    text = some (text.getD "") := by
  cases text with
  | none => cases h
  | some s => rfl

/-- A topic that can be published to: both from the topic, or both from its queue. -/
theorem publishMessage_cases (hfind : (config.topics.find? fun t => t.name == topic) = some msTopic)
    (h : publishMessage config topic action payload headers = .ok call) :
    (truthyText msTopic.routingKey = true ∧ truthyText msTopic.exchange = true ∧
        call.exchange = msTopic.exchange ∧ call.routingKey = msTopic.routingKey) ∨
      truthyText msTopic.routingKey = false ∧ ∃ queue, findQueue config.broker msTopic.queue = some queue ∧
        call.exchange = queue.exchange ∧ call.routingKey = firstKey queue.routingKey := by
  unfold publishMessage at h
  rw [hfind] at h
  split at h
  · cases h
  · dsimp only at h
    split at h
    · cases h
    · cases hkey : truthyText msTopic.routingKey with
      | false =>
          rw [hkey] at h
          simp only [Bool.not_false, if_true] at h
          split at h
          next => cases h
          next queue hqueue =>
            obtain rfl := Except.ok.inj h
            exact .inr ⟨rfl, queue, hqueue, rfl, rfl⟩
      | true =>
          rw [hkey] at h
          simp only [Bool.not_true, Bool.false_eq_true, if_false] at h
          split at h
          next => cases h
          next hexchange =>
            obtain rfl := Except.ok.inj h
            exact .inl ⟨rfl, by simpa using hexchange, rfl, rfl⟩

/-- The queue whose fields a request reads. -/
def requestQueue (config : RequesterConfig) (msTopic : ServiceTopic) : Option RabbitMQQueueConfig :=
  if truthyText msTopic.queue then findQueue config.broker msTopic.queue else none

/-- A topic that can be requested on: the exchange of its queue first, its own routing key first. -/
theorem requestData_cases (hfind : (config.topics.find? fun t => t.name == topic) = some msTopic)
    (h : requestData config topic action payload headers timeout correlationId requestId = .ok options) :
    some options.exchange = textOr ((requestQueue config msTopic).bind (·.exchange)) msTopic.exchange ∧
      some options.routingKey =
        textOr msTopic.routingKey (firstKey ((requestQueue config msTopic).bind (·.routingKey))) ∧
      truthyText (some options.exchange) = true := by
  unfold requestQueue
  unfold requestData at h
  rw [hfind] at h
  split at h
  · cases h
  · dsimp only at h
    generalize (if truthyText _ = true then findQueue config.broker _ else none) = queue at h ⊢
    split at h
    · cases h
    next hfound =>
      obtain rfl := Except.ok.inj h
      rw [Bool.or_eq_true, not_or, Bool.not_eq_true', Bool.not_eq_true', Bool.not_eq_false,
        Bool.not_eq_false] at hfound
      have hexchange := eq_some_of_truthyText hfound.1
      exact ⟨hexchange.symm, (eq_some_of_truthyText hfound.2).symm, hexchange ▸ hfound.1⟩

/-- **A message and a request to a topic go to the same place** exactly when the queue of the topic does not
compete with it; to an rpc topic as to any other. -/
theorem publish_request_same_iff (hfind : (config.topics.find? fun t => t.name == topic) = some msTopic)
    (hpublish : publishMessage config topic action payload headers = .ok call)
    (hrequest : requestData config topic action payload headers timeout correlationId requestId = .ok options) :
    (call.exchange = some options.exchange ∧ call.routingKey = some options.routingKey) ↔
      Uncontested config msTopic := by
  obtain ⟨hexchange, hkey, hconfigured⟩ := requestData_cases hfind hrequest
  unfold requestQueue at hexchange hkey
  rcases publishMessage_cases hfind hpublish with
    ⟨hkeyed, hown, hcall, hcallKey⟩ | ⟨hkeyless, queue, hqueue, hcall, hcallKey⟩
  · -- the topic has a routing key
    have hsameKey : call.routingKey = some options.routingKey := by
      rw [hcallKey, hkey]
      unfold textOr
      rw [if_pos hkeyed]
    rw [and_iff_left hsameKey, hcall, hexchange]
    constructor
    · intro hsame
      refine ⟨fun _ hnamed queue hqueue hgiven => ?_, fun hno => absurd (hkeyed.symm.trans hno) nofun⟩
      rw [if_pos hnamed, hqueue] at hsame
      unfold textOr at hsame
      rw [Option.bind_some, if_pos hgiven] at hsame
      exact hsame.symm
    · intro huncontested
      -- a queue that is not named does not take part
      by_cases hnamed : truthyText msTopic.queue = true
      · rw [if_pos hnamed]
        cases hqueue : findQueue config.broker msTopic.queue with
        | none => rfl
        | some queue =>
            unfold textOr
            rw [Option.bind_some]
            split
            next hgiven => exact (huncontested.keyed hkeyed hnamed queue hqueue hgiven).symm
            next => rfl
      · rw [if_neg hnamed]
        rfl
  · -- the topic has none: the request goes on only with a queue of that name
    have hkeyOf : textOr msTopic.routingKey = id := by
      funext other
      unfold textOr
      rw [if_neg (by rw [hkeyless]; exact Bool.false_ne_true)]
      rfl
    rw [hkeyOf] at hkey
    have hnamed : truthyText msTopic.queue = true := by
      by_contra hno
      rw [if_neg hno] at hkey
      cases hkey
    rw [if_pos hnamed, hqueue, Option.bind_some] at hexchange hkey
    have hsameKey : call.routingKey = some options.routingKey := hcallKey.trans hkey.symm
    rw [and_iff_left hsameKey, hcall, hexchange]
    constructor
    · intro hsame
      refine ⟨fun hyes => absurd (hkeyless.symm.trans hyes) nofun, fun _ queue' hqueue' => ?_⟩
      obtain rfl := Option.some.inj (hqueue.symm.trans hqueue')
      by_contra hno
      unfold textOr at hsame hexchange
      rw [if_neg hno] at hsame hexchange
      rw [hsame, ← hexchange] at hno
      exact hno hconfigured
    · intro huncontested
      unfold textOr
      rw [if_pos (huncontested.keyless hkeyless queue hqueue)]

end Resolutions

/-! ## A queue on another exchange -/

/-- An rpc topic on the exchange `e` with the queue `q`, which is on this exchange. -/
def queuedTopic : ServiceTopic :=
  { name := "t", queue := some "q", exchange := some "e", routingKey := some "k", mode := .rpc }

def queuedOn (exchange : String) : RequesterConfig :=
  { broker := { queues := [{ name := "q", exchange := some exchange, routingKey := some (.one "k") }] }
    topics := [queuedTopic] }

/-- What is published to it. -/
def publishedToT : PublishCall where
  exchange := some "e"
  routingKey := some "k"
  message := .obj [("action", .str "act"), ("payload", .null)]
  headers := none
  persistent := none

/-- What is requested, when the queue is on this exchange. -/
def requestedOn (exchange : String) : RequestOptions where
  exchange := exchange
  routingKey := "k"
  payload := .obj [("action", .str "act"), ("payload", .null)]
  correlationId := some "c"
  headers := some [("X-Request-ID", .str "r")]
  timeout := some 10000
  expiration := some 10000

theorem publishMessage_queuedOn (exchange : String) :
    publishMessage (queuedOn exchange) "t" "act" .null none = .ok publishedToT := rfl

theorem publish_request_same_iff_queued : publishedToT.exchange = some (requestedOn "e").exchange ∧
    publishedToT.routingKey = some (requestedOn "e").routingKey := by
  have hrequest : requestData (queuedOn "e") "t" "act" .null none none "c" "r" = .ok (requestedOn "e") := rfl
  have hfind : ((queuedOn "e").topics.find? fun t => t.name == "t") = some queuedTopic := rfl
  refine (publish_request_same_iff hfind (publishMessage_queuedOn "e") hrequest).mpr
    ⟨fun _ _ queue hqueue _ => ?_, fun h => by cases h⟩
  obtain rfl := Option.some.inj hqueue
  rfl

/-- The message goes to the exchange of the topic, the request to that of its queue. -/
theorem not_publish_request_same_queued :
    ¬ ∀ (config : RequesterConfig) (topic action : String) (payload : Value) (headers : Option Obj)
      (timeout : Option Int) (correlationId requestId : String) (options : RequestOptions) (call : PublishCall)
      (msTopic : ServiceTopic), (config.topics.find? fun t => t.name == topic) = some msTopic →
      msTopic.mode = .rpc →
      publishMessage config topic action payload headers = .ok call →
      requestData config topic action payload headers timeout correlationId requestId = .ok options →
        call.exchange = some options.exchange ∧ call.routingKey = some options.routingKey := by
  intro h
  have hsame := h (queuedOn "f") "t" "act" .null none none "c" "r"
    (requestedOn "f") publishedToT queuedTopic rfl rfl
    (publishMessage_queuedOn "f") rfl
  exact absurd hsame.1 (by decide)

end NestAmqp.Broker
