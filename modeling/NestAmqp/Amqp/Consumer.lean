/-
# NestAmqp.Amqp.Consumer — the consumer callbacks of a connection.

The callbacks that `setupRpcChannel` and `setupSubscriberChannel` register: deserialise, run the
handler, answer, settle, and give every failure to the error handler that `resolveErrorHandler`
chose.  The second half says, case by case, what one delivery can lead to, and from it that every
delivery is settled exactly once.
-/
import NestAmqp.Amqp.RoutingKey
import NestAmqp.Amqp.RetryPolicy

namespace NestAmqp.Amqp

open NestAmqp.Js
open NestAmqp.Lib

/-! ## Options and error handlers -/

/-- What to do with a delivery that failed. -/
abbrev MessageErrorHandler := Delivery → Thrown → Consuming Unit

/-- `MessageHandlerOptions`, the fields a consumer reads. -/
structure MessageHandlerOptions where
  routingKey : Option OneOrMany := none
  errorBehavior : Option String := none
  errorHandler : Option MessageErrorHandler := none
  retry : Option RetryPolicyConfig := none
  allowNonJsonMessages : Bool := false
  usePersistentReplyTo : Option Bool := none

/-- `RabbitMQConfig`, the fields that choose an error handler. -/
structure RabbitMQConfig where
  defaultRpcErrorHandler : Option MessageErrorHandler := none
  defaultSubscribeErrorBehavior : Option String := none
  retry : Option RetryPolicyConfig := none

/-- The two kinds of consumer. -/
inductive ConsumerKind where
  | rpc
  | subscribe
  deriving DecidableEq, Repr

/-- The error handlers a consumer can end up with. -/
inductive ErrorHandler where
  | custom (handler : MessageErrorHandler)
  | retry (policy : RetryPolicyConfig)
  | legacy (behavior : String)

/-- The handlers of the library: everything but a handler the application brings along. -/
def ErrorHandler.BuiltIn : ErrorHandler → Prop
  | .custom _ => False
  | .retry _ | .legacy _ => True

def ackErrorHandler (env : ConsumerEnv) : MessageErrorHandler := fun _ _ => env.ackMessage

def requeueErrorHandler (env : ConsumerEnv) : MessageErrorHandler := fun _ _ => env.nackMessage true

def defaultNackErrorHandler (env : ConsumerEnv) : MessageErrorHandler :=
  fun _ _ => env.nackMessage false

/-- `getHandlerForLegacyBehavior`, of an upper-cased behavior. -/
def getHandlerForLegacyBehavior (env : ConsumerEnv) (behavior : String) : MessageErrorHandler :=
  if behavior = "ACK" then ackErrorHandler env
  else if behavior = "REQUEUE" then requeueErrorHandler env
  else defaultNackErrorHandler env

/-- The handler itself, for a consumer of `queue`. -/
def ErrorHandler.handle (env : ConsumerEnv) (queue : String) : ErrorHandler → MessageErrorHandler
  | .custom handler => handler
  | .retry policy => retryErrorHandler env queue policy
  | .legacy behavior => getHandlerForLegacyBehavior env (toUpperCase behavior)

/-- `resolveErrorHandler`: most specific first.  An empty behavior counts as none. -/
def resolveErrorHandler (config : RabbitMQConfig) (options : MessageHandlerOptions)
    (kind : ConsumerKind) : ErrorHandler :=
  match options.errorHandler with
  | some handler => .custom handler
  | none => match options.retry with
    | some policy => .retry policy
    | none =>
        if truthyText options.errorBehavior then .legacy (options.errorBehavior.getD "")
        else match config.retry with
          | some policy => .retry policy
          -- the connection's default handler is for RPC consumers only
          | none => match (if kind = .rpc then config.defaultRpcErrorHandler else none) with
            | some handler => .custom handler
            | none =>
                if truthyText config.defaultSubscribeErrorBehavior then
                  .legacy (config.defaultSubscribeErrorBehavior.getD "")
                else .retry DEFAULT_RETRY_POLICY

/-! ## Processing one delivery -/

/-- `` `${cause?.message ?? cause}` ``. -/
def causeText (cause : Thrown) : Except Thrown String :=
  if (cause.prop "message").nullish then cause.printed else printed (cause.prop "message")

/-- What `throw new MessageDeserializationError(cause)` throws: over a cause that does not print, the
constructor's own `TypeError`. -/
def messageDeserializationError (cause : Thrown) : Thrown :=
  match causeText cause with
  | .ok text => .deserialization
      { name := "MessageDeserializationError", message := "Failed to deserialize message: " ++ text }
  | .error e => e

section Processing

variable (env : ConsumerEnv) (options : MessageHandlerOptions)

/-- `deserializeMessage`: with `allowNonJsonMessages` the raw text stands in for a failed parse. -/
def deserializeMessage (msg : Delivery) : Except Thrown Value :=
  match env.deserialize msg with
  | .ok v => .ok v
  | .error e =>
      if options.allowNonJsonMessages then .ok (.str (env.contentText msg.content)) else .error e

/-- `tryDeserializeMessage`: a failure gets its own, non-retriable class, if it prints. -/
def tryDeserializeMessage (msg : Delivery) : Except Thrown Value :=
  match deserializeMessage env options msg with
  | .ok v => .ok v
  | .error e => .error (messageDeserializationError e)

/-- The reply an RPC consumer publishes. -/
def rpcReply (msg : Delivery) (response : Value) : Publication where
  exchange := ""
  routingKey := msg.properties.replyTo.getD ""
  body := .json response
  properties := { headers := msg.properties.headers, correlationId := msg.properties.correlationId,
                  expiration := msg.properties.expiration }
  persistent := some (options.usePersistentReplyTo.getD false)

/-- `if (replyTo) await this.publish(...)`. -/
def replyIfAsked (msg : Delivery) (response : Value) : Consuming Unit :=
  if truthyText msg.properties.replyTo then env.publishMessage .reply (rpcReply options msg response)
  else pure ()

/-- The warning about a subscriber that returns something serialises what it returned. -/
def warnResponse (response : Value) : Consuming Unit :=
  if response.truthy then Traced.ofExcept (env.serialize response) else pure ()

/-- What happens to a returned value before the ack. -/
def answer (kind : ConsumerKind) (msg : Delivery) (response : Value) : Consuming Unit :=
  match kind with
  | .rpc => replyIfAsked env options msg response
  | .subscribe => warnResponse env response

/-- What follows the handler: settle as it asked, or answer and ack. -/
def finish (kind : ConsumerKind) (msg : Delivery) (response : Response) : Consuming Unit :=
  match response with
  | .nack requeue => env.nackMessage requeue
  | .value v => do
      answer env options kind msg v
      env.ackMessage

/-- Deserialise, run the handler, finish. -/
def process (kind : ConsumerKind) (msg : Delivery) : Consuming Unit := do
  let message ← Traced.ofExcept (tryDeserializeMessage env options msg)
  let response ← env.runHandler message msg
  finish env options kind msg response

/-- The `try` block of the callback `setupRpcChannel` registers. -/
def rpcProcess (msg : Delivery) : Consuming Unit :=
  if matchesRoutingKey msg.routingKey options.routingKey then process env options .rpc msg
  else env.nackMessage false

/-- The `try` block of the callback `setupSubscriberChannel` registers: no routing-key check. -/
def subscriberProcess (msg : Delivery) : Consuming Unit := process env options .subscribe msg

def ConsumerKind.process : ConsumerKind → Delivery → Consuming Unit
  | .rpc => rpcProcess env options
  | .subscribe => subscriberProcess env options

/-- The callback: a failure goes to the error handler, whose own failure is logged.  A cancelled consumer
gets a null message, which is ignored. -/
def consume (kind : ConsumerKind) (errorHandler : MessageErrorHandler) :
    Option Delivery → Consuming Unit
  | none => pure ()
  | some msg =>
      Traced.tryCatch (kind.process env options msg) fun e =>
        Traced.tryCatch (errorHandler msg e) fun handlerError => Traced.ofExcept handlerError.messageLine

end Processing

/-! ## Everything one delivery can lead to -/

/-- The routing-key check lets the delivery through; a subscriber makes no such check. -/
def ConsumerKind.admits (kind : ConsumerKind) (options : MessageHandlerOptions) (msg : Delivery) :
    Bool :=
  kind = .subscribe || matchesRoutingKey msg.routingKey options.routingKey

section Spec

variable (env : ConsumerEnv) (options : MessageHandlerOptions) (kind : ConsumerKind)
  (msg : Delivery)

/-- The events of `answer`, by whether it returned: an RPC consumer publishes a reply when the message
names a queue for it, a subscriber publishes nothing. -/
inductive Answered (response : Value) : Bool → List Event → Prop
  | silent (ok : Bool) (h : kind = .rpc → truthyText msg.properties.replyTo = false ∧ ok = true) :
      Answered response ok []
  | replied (hkind : kind = .rpc) (hreply : truthyText msg.properties.replyTo = true) (ok : Bool) :
      Answered response ok [.published .reply (rpcReply options msg response) ok]

/-- How the `try` block of a consumer can end, with the events it logs on the way. -/
inductive Processed : Except Thrown Unit → List Event → Prop
  | misrouted (hkey : kind.admits options msg = false) {r : Except Thrown Unit}
      (hr : ∃ log, r = env.nackAnswer log) : Processed r [.nacked false (succeeded r)]
  | undecodable (hkey : kind.admits options msg = true) {e : Thrown}
      (hmsg : tryDeserializeMessage env options msg = .error e) : Processed (.error e) []
  | threw (hkey : kind.admits options msg = true) {message : Value}
      (hmsg : tryDeserializeMessage env options msg = .ok message) {e : Thrown}
      (he : ∃ log, env.handler log message msg = .error e) :
      Processed (.error e) [.handled msg (some e)]
  | refused (hkey : kind.admits options msg = true) {message : Value}
      (hmsg : tryDeserializeMessage env options msg = .ok message) {requeue : Bool}
      (hv : ∃ log, env.handler log message msg = .ok (.nack requeue)) {r : Except Thrown Unit}
      (hr : ∃ log, r = env.nackAnswer log) :
      Processed r [.handled msg none, .nacked requeue (succeeded r)]
  | unanswered (hkey : kind.admits options msg = true) {message : Value}
      (hmsg : tryDeserializeMessage env options msg = .ok message) {response : Value}
      (hv : ∃ log, env.handler log message msg = .ok (.value response)) {t : List Event}
      (ht : Answered options kind msg response false t) (e : Thrown) :
      Processed (.error e) (.handled msg none :: t)
  | answered (hkey : kind.admits options msg = true) {message : Value}
      (hmsg : tryDeserializeMessage env options msg = .ok message) {response : Value}
      (hv : ∃ log, env.handler log message msg = .ok (.value response)) {t : List Event}
      (ht : Answered options kind msg response true t) {r : Except Thrown Unit}
      (hr : ∃ log, r = env.ackAnswer log) :
      Processed r (.handled msg none :: (t ++ [.acked (succeeded r)]))

theorem ensures_answer (response : Value) :
    (answer env options kind msg response).Ensures fun r t =>
      Answered options kind msg response (succeeded r) t := by
  cases kind with
  | rpc =>
      show (replyIfAsked env options msg response).Ensures _
      unfold replyIfAsked
      split
      next hreply =>
        refine (Traced.ensures_perform _ _).mono ?_
        rintro r t ⟨-, rfl⟩
        exact .replied rfl hreply _
      next hreply =>
        exact Traced.ensures_pure (.silent true fun _ => ⟨Bool.eq_false_iff.mpr hreply, rfl⟩)
  | subscribe =>
      show (warnResponse env response).Ensures _
      unfold warnResponse
      split
      · exact Traced.ensures_ofExcept (.silent _ (by simp))
      · exact Traced.ensures_pure (.silent true (by simp))

theorem ensures_finish (hkey : kind.admits options msg = true) {message : Value}
    (hmsg : tryDeserializeMessage env options msg = .ok message) {response : Response}
    (hv : ∃ log, env.handler log message msg = .ok response) :
    (finish env options kind msg response).Ensures fun r t =>
      Processed env options kind msg r (.handled msg none :: t) := by
  cases response with
  | nack requeue =>
      show (env.nackMessage requeue).Ensures _
      refine (Traced.ensures_perform _ _).mono ?_
      rintro r t ⟨hr, rfl⟩
      exact .refused hkey hmsg hv hr
  | value v =>
      show (answer env options kind msg v >>= fun _ => env.ackMessage).Ensures _
      refine Traced.ensures_bind (ensures_answer env options kind msg v) ?_ ?_
      · intro u t ht
        refine (Traced.ensures_perform _ _).mono ?_
        rintro r t' ⟨hr, rfl⟩
        exact .answered hkey hmsg hv ht hr
      · intro e t ht
        exact .unanswered hkey hmsg hv ht e

theorem ensures_process_admitted (hkey : kind.admits options msg = true) :
    (Amqp.process env options kind msg).Ensures (Processed env options kind msg) := by
  unfold Amqp.process
  refine Traced.ensures_bind (P := fun r t => r = tryDeserializeMessage env options msg ∧ t = [])
    (Traced.ensures_ofExcept ⟨rfl, rfl⟩) ?_ ?_
  · rintro message t ⟨hmsg, rfl⟩
    refine Traced.ensures_bind (Traced.ensures_perform _ _) ?_ ?_
    · rintro response t ⟨⟨log, hv⟩, rfl⟩
      exact ensures_finish env options kind msg hkey hmsg.symm ⟨log, hv.symm⟩
    · rintro e t ⟨⟨log, hv⟩, rfl⟩
      exact .threw hkey hmsg.symm ⟨log, hv.symm⟩
  · rintro e t ⟨hmsg, rfl⟩
    exact .undecodable hkey hmsg.symm

/-- **The `try` block.**  Each of its runs is one of the cases of `Processed`. -/
theorem ensures_process :
    (kind.process env options msg).Ensures (Processed env options kind msg) := by
  cases kind with
  | subscribe => exact ensures_process_admitted env options .subscribe msg rfl
  | rpc =>
      show (rpcProcess env options msg).Ensures _
      unfold rpcProcess
      split
      next hkey =>
        exact ensures_process_admitted env options .rpc msg (by simpa [ConsumerKind.admits] using hkey)
      next hkey =>
        refine (Traced.ensures_perform _ _).mono ?_
        rintro r t ⟨hr, rfl⟩
        exact .misrouted (by simpa [ConsumerKind.admits] using hkey) hr

/-- What a callback leads to: the `try` block returned, or its failure went to the error handler,
whose events satisfy `Handled`. -/
inductive Consumed (Handled : Thrown → List Event → Prop) : List Event → Prop
  | returned {t : List Event} (h : Processed env options kind msg (.ok ()) t) : Consumed Handled t
  | failed {e : Thrown} {t t' : List Event} (h : Processed env options kind msg (.error e) t)
      (h' : Handled e t') : Consumed Handled (t ++ t')

/-- **The callback.**  It never rejects, as long as what the error handler throws prints. -/
theorem ensures_consume (errorHandler : MessageErrorHandler) {Handled : Thrown → List Event → Prop}
    (hhandler : ∀ e, (errorHandler msg e).Ensures fun r t => FailsReadably r ∧ Handled e t) :
    (consume env options kind errorHandler (some msg)).Ensures fun r t =>
      r = .ok () ∧ Consumed env options kind msg Handled t := by
  refine Traced.ensures_tryCatch (ensures_process env options kind msg) ?_ ?_
  · intro u t ht
    exact ⟨rfl, .returned ht⟩
  · intro e t ht
    refine Traced.ensures_tryCatch (hhandler e) ?_ ?_
    · rintro u t' ⟨-, ht'⟩
      exact ⟨rfl, .failed ht ht'⟩
    · rintro e' t' ⟨hreads, ht'⟩
      rw [Thrown.messageLine_of_reads (hreads e' rfl)]
      refine Traced.ensures_ofExcept ⟨rfl, ?_⟩
      rw [List.append_nil]
      exact .failed ht ht'

end Spec

end NestAmqp.Amqp
