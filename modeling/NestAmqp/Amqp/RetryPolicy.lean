/-
# NestAmqp.Amqp.RetryPolicy — the bounded retry policy of a failing message.

`createRetryErrorHandler`: a failed message is re-published with its attempt counter raised, at once
or through a wait queue, until its attempts are used up; then it is dead-lettered or dropped.  What the
handler says of the error, in its reply, in the dead letter's headers and in its log lines, it converts to
text, and a value that does not print makes it throw where it stands, behind the confirmed copy as well.
The last section describes, case by case, everything one call of the handler can do.
-/
import NestAmqp.Amqp.Message
import NestAmqp.Js.Number

namespace NestAmqp.Amqp

open NestAmqp.Js
open NestAmqp.Lib

/-! ## The policy -/

/-- `onExhausted`. -/
inductive OnExhausted where
  | deadLetter
  | drop
  deriving DecidableEq, Repr

/-- `deadLetter`: without a routing key the message's own is used. -/
structure DeadLetter where
  exchange : String
  routingKey : Option String := none
  deriving DecidableEq, Repr

/-- `RetryPolicyConfig`. -/
structure RetryPolicyConfig where
  maxAttempts : Option Int := none
  delayMs : Option Int := none
  onExhausted : Option OnExhausted := none
  deadLetter : Option DeadLetter := none
  deriving DecidableEq, Repr

def RETRY_COUNT_HEADER : String := "x-retry-count"
def RETRY_ERROR_HEADER : String := "x-retry-error"
def RETRY_ORIGIN_QUEUE_HEADER : String := "x-retry-origin-queue"
def RETRY_EXHAUSTED_ERROR : String := "RetryExhaustedError"

/-- `DEFAULT_RETRY_POLICY`. -/
def DEFAULT_RETRY_POLICY : RetryPolicyConfig :=
  { maxAttempts := some 5, delayMs := some 0, onExhausted := some .drop }

namespace RetryPolicyConfig

variable (policy : RetryPolicyConfig)

/-- `Math.max(1, policy.maxAttempts ?? 5)`. -/
def attemptLimit : Int := max 1 (policy.maxAttempts.getD 5)

/-- `policy.delayMs ?? 0`. -/
def delay : Int := policy.delayMs.getD 0

/-- `policy.onExhausted ?? (policy.deadLetter ? 'dead-letter' : 'drop')`. -/
def exhaustion : OnExhausted :=
  policy.onExhausted.getD (if policy.deadLetter.isSome then .deadLetter else .drop)

/-- Where exhausted messages go: `none` when the policy drops them. -/
def deadLetterTo : Option DeadLetter :=
  if policy.exhaustion = .deadLetter then policy.deadLetter.filter fun d => d.exchange != ""
  else none

theorem one_le_attemptLimit : 1 ≤ policy.attemptLimit := Int.le_max_left _ _

end RetryPolicyConfig

/-! ## The handler -/

/-- `Number(headers?.['x-retry-count'] ?? 0) + 1`. -/
def attemptsMade (msg : Delivery) : Except Thrown JsNumber :=
  (Number ((msg.header RETRY_COUNT_HEADER).coalesce (.num 0))).map JsNumber.addOne

/-- `retryProperties`: the original properties with the counter raised; a delayed copy drops the
message's own expiration. -/
def retryProperties (policy : RetryPolicyConfig) (msg : Delivery) (attempts : JsNumber)
    (extraHeaders : Obj) : Properties :=
  let headers := Obj.set (msg.properties.headers.getD []) RETRY_COUNT_HEADER attempts.toValue
  { msg.properties with
    headers := some (Obj.assign headers extraHeaders)
    expiration := if 0 < policy.delay then none else msg.properties.expiration }

/-- `` `${queue}.retry.${delayMs}` ``. -/
def waitQueueName (queue : String) (delayMs : Int) : String := queue ++ ".retry." ++ toString delayMs

/-- The copy `scheduleRetry` publishes: to the wait queue when the policy delays, straight back to
the work queue otherwise, through the default exchange in both cases. -/
def retryCopy (queue : String) (policy : RetryPolicyConfig) (msg : Delivery)
    (attempts : JsNumber) : Publication where
  exchange := ""
  routingKey := if 0 < policy.delay then waitQueueName queue policy.delay else queue
  body := .raw msg.content
  properties := retryProperties policy msg attempts []

/-- The copy `exhaust` publishes. -/
def deadLetterCopy (queue : String) (policy : RetryPolicyConfig) (dest : DeadLetter) (msg : Delivery)
    (cause : PlainError) (attempts : JsNumber) : Publication where
  exchange := dest.exchange
  routingKey := dest.routingKey.getD msg.routingKey
  body := .raw msg.content
  properties := retryProperties policy msg attempts
    [(RETRY_ERROR_HEADER, cause.message), (RETRY_ORIGIN_QUEUE_HEADER, .str queue)]

/-- The `error` of the reply to an RPC caller. -/
def exhaustedError (queue : String) (cause : PlainError) (text : String) (attempts : JsNumber) : Value :=
  .obj [("name", .str RETRY_EXHAUSTED_ERROR),
    ("message", .str ("Handler for queue '" ++ queue ++ "' failed after " ++ attempts.toValue.toStr ++
      " attempt(s): " ++ text)),
    ("cause", cause.toValue)]

/-- The reply `replyErrorToRpcCaller` publishes. -/
def exhaustedReply (queue : String) (msg : Delivery) (cause : PlainError) (text : String)
    (attempts : JsNumber) : Publication where
  exchange := ""
  routingKey := msg.properties.replyTo.getD ""
  body := .json (.obj [("success", .bool false), ("error", exhaustedError queue cause text attempts)])
  properties :=
    { headers := msg.properties.headers, correlationId := msg.properties.correlationId }

section Handler

variable (env : ConsumerEnv) (queue : String) (policy : RetryPolicyConfig)

def scheduleRetry (msg : Delivery) (attempts : JsNumber) : Consuming Unit :=
  if 0 < policy.delay then do
    env.assertWaitQueue (waitQueueName queue policy.delay) policy.delay queue
    env.publishMessage .retry (retryCopy queue policy msg attempts)
  else env.publishMessage .retry (retryCopy queue policy msg attempts)

/-- `!replyTo || !correlationId` is false: somebody waits for an answer. -/
def awaitsReply (msg : Delivery) : Bool :=
  truthyText msg.properties.replyTo && truthyText msg.properties.correlationId

/-- The `try` block of `replyErrorToRpcCaller`. -/
def sendErrorReply (msg : Delivery) (cause : PlainError) (attempts : JsNumber) : Consuming Unit := do
  let text ← Traced.ofExcept (printed cause.message)
  env.publishMessage .errorReply (exhaustedReply queue msg cause text attempts)

/-- A failed reply is logged and forgotten; the error is converted outside the `try`. -/
def replyErrorToRpcCaller (msg : Delivery) (error : Thrown) (attempts : JsNumber) : Consuming Unit :=
  if awaitsReply msg then do
    let cause ← convert .replyCause (errorToPlain error)
    Traced.tryCatch (sendErrorReply env queue msg cause attempts)
      fun replyError => convert .replyLine replyError.messageLine
  else pure ()

def exhaust (msg : Delivery) (error : Thrown) (attempts : JsNumber) : Consuming Unit :=
  match policy.deadLetterTo with
  | some dest => do
      let cause ← convert .deadLetterCause (errorToPlain error)
      env.publishMessage .deadLetter (deadLetterCopy queue policy dest msg cause attempts)
      convert .outcomeLine error.messageLine
  | none => convert .outcomeLine error.messageLine

/-- The message is retried: its failure can go away, and attempts are left. -/
def retries (attempts : JsNumber) (error : Thrown) : Bool :=
  !error.isDeserialization && attempts.below policy.attemptLimit

/-- The handler up to the ack: retry, or reply and exhaust, and say so. -/
def handOver (msg : Delivery) (error : Thrown) : Consuming Unit := do
  let attempts ← convert .counter (attemptsMade msg)
  if retries policy attempts error then do
    scheduleRetry env queue policy msg attempts
    convert .outcomeLine error.messageLine
  else do
    replyErrorToRpcCaller env queue msg error attempts
    exhaust env queue policy msg error attempts

/-- The handler `createRetryErrorHandler` builds for a queue and a policy. -/
def retryErrorHandler (msg : Delivery) (error : Thrown) : Consuming Unit :=
  Traced.tryCatch
    (do
      handOver env queue policy msg error
      env.ackMessage)
    -- the message could not be handed anywhere: keep it on the broker
    fun republishError => do
      Traced.ofExcept republishError.messageLine
      Traced.tryCatch (env.nackMessage true) fun nackError => Traced.ofExcept nackError.messageLine

end Handler

/-! ## Everything one call can do -/

theorem failsReadably_attemptsMade (msg : Delivery) : FailsReadably (attemptsMade msg) :=
  (failsReadably_Number _).map _

section Spec

variable (env : ConsumerEnv) (queue : String) (policy : RetryPolicyConfig) (msg : Delivery) (error : Thrown)
  (attempts : JsNumber)

/-- The events of `scheduleRetry`, by whether it returned. -/
inductive Scheduled : Bool → List Event → Prop
  | assertFailed (hdelay : 0 < policy.delay) :
      Scheduled false [.asserted (waitQueueName queue policy.delay) policy.delay queue false]
  | delayed (hdelay : 0 < policy.delay) (ok : Bool) :
      Scheduled ok [.asserted (waitQueueName queue policy.delay) policy.delay queue true,
        .published .retry (retryCopy queue policy msg attempts) ok]
  | immediate (hdelay : ¬ 0 < policy.delay) (ok : Bool) :
      Scheduled ok [.published .retry (retryCopy queue policy msg attempts) ok]

/-- The events of `replyErrorToRpcCaller`, by whether it returned: nothing when nobody waits, one reply when
it can be put together, whatever comes of it.  The serialiser apart, only describing the error throws. -/
inductive ErrorReplied : Bool → List Event → Prop
  | unasked (hawaits : awaitsReply msg = false) : ErrorReplied true []
  | undescribed (hawaits : awaitsReply msg = true) {e : Thrown} (hcause : errorToPlain error = .error e) :
      ErrorReplied false [.unconverted .replyCause]
  | untold (hawaits : awaitsReply msg = true) {cause : PlainError} (hcause : errorToPlain error = .ok cause)
      (htext : prints cause.message = false) : ErrorReplied true []
  | sent (hawaits : awaitsReply msg = true) {cause : PlainError} (hcause : errorToPlain error = .ok cause)
      {text : String} (htext : printed cause.message = .ok text)
      (hserialized : FailsReadably (env.serialized (exhaustedReply queue msg cause text attempts).body))
      (ok : Bool) :
      ErrorReplied true [.published .errorReply (exhaustedReply queue msg cause text attempts) ok]
  | lineThrew (hawaits : awaitsReply msg = true) {cause : PlainError} (hcause : errorToPlain error = .ok cause)
      {text : String} (htext : printed cause.message = .ok text) {e : Thrown}
      (hserialized : env.serialized (exhaustedReply queue msg cause text attempts).body = .error e)
      (hline : e.reads = false) :
      ErrorReplied false [.published .errorReply (exhaustedReply queue msg cause text attempts) false,
        .unconverted .replyLine]

/-- What the log line about the outcome leaves in the log. -/
def outcomeLine : List Event := if error.reads then [] else [.unconverted .outcomeLine]

/-- The events of `exhaust`, by whether it returned. -/
inductive Exhausted : Bool → List Event → Prop
  | undescribed {dest : DeadLetter} (hdest : policy.deadLetterTo = some dest) {e : Thrown}
      (hcause : errorToPlain error = .error e) : Exhausted false [.unconverted .deadLetterCause]
  | refused {dest : DeadLetter} (hdest : policy.deadLetterTo = some dest) {cause : PlainError}
      (hcause : errorToPlain error = .ok cause) :
      Exhausted false [.published .deadLetter (deadLetterCopy queue policy dest msg cause attempts) false]
  | deadLettered {dest : DeadLetter} (hdest : policy.deadLetterTo = some dest) {cause : PlainError}
      (hcause : errorToPlain error = .ok cause) :
      Exhausted error.reads
        (.published .deadLetter (deadLetterCopy queue policy dest msg cause attempts) true :: outcomeLine error)
  | dropped (hdest : policy.deadLetterTo = none) : Exhausted error.reads (outcomeLine error)

/-- The events of the handler before it settles the message, by whether it came through: then the message
is safe, re-published with confirmation, dead-lettered with confirmation, or to be dropped. -/
inductive HandedOver : Bool → List Event → Prop
  | uncounted {e : Thrown} (hcount : attemptsMade msg = .error e) : HandedOver false [.unconverted .counter]
  | rescheduleFailed {n : JsNumber} (hcount : attemptsMade msg = .ok n) (hretry : retries policy n error = true)
      {t : List Event} (h : Scheduled queue policy msg n false t) : HandedOver false t
  | rescheduled {n : JsNumber} (hcount : attemptsMade msg = .ok n) (hretry : retries policy n error = true)
      {t : List Event} (h : Scheduled queue policy msg n true t) :
      HandedOver error.reads (t ++ outcomeLine error)
  | replyFailed {n : JsNumber} (hcount : attemptsMade msg = .ok n) (hretry : retries policy n error = false)
      {reply : List Event} (hreply : ErrorReplied env queue msg error n false reply) : HandedOver false reply
  | exhausted {n : JsNumber} (hcount : attemptsMade msg = .ok n) (hretry : retries policy n error = false)
      {reply : List Event} (hreply : ErrorReplied env queue msg error n true reply) {done : Bool}
      {t : List Event} (h : Exhausted queue policy msg error n done t) : HandedOver done (reply ++ t)

/-- How the handler settles a message, by whether it is safe: an ack, or a nack with requeue.  Only
an ack or a nack that throws makes it do more than one of them. -/
inductive Settled : Bool → List Event → Prop
  | acked : Settled true [.acked true]
  | ackThrew (hthrows : ¬ env.SettlesSafely) (ok : Bool) :
      Settled true [.acked false, .nacked true ok]
  | requeued (ok : Bool) (hok : env.SettlesSafely → ok = true) : Settled false [.nacked true ok]

/-- A log line about an error throws nothing but what prints. -/
theorem ensures_messageLine (what : Conversion) :
    (convert what error.messageLine).Ensures fun r t =>
      FailsReadably r ∧ succeeded r = error.reads ∧ t = if error.reads then [] else [.unconverted what] := by
  refine (ensures_convert what _).mono ?_
  rintro r t ⟨rfl, rfl⟩
  refine ⟨error.failsReadably_messageLine, ?_⟩
  cases hreads : error.reads with
  | true => rw [Thrown.messageLine_of_reads hreads]; exact ⟨rfl, rfl⟩
  | false => rw [Thrown.messageLine_of_not_reads hreads]; exact ⟨rfl, rfl⟩

theorem ensures_publish_raw (purpose : Purpose) {message : Publication} {content : Content}
    (hbody : message.body = .raw content) :
    (env.publishMessage purpose message).Ensures fun r t =>
      FailsReadably r ∧ t = [.published purpose message (succeeded r)] := by
  refine (Traced.ensures_perform _ _).mono ?_
  rintro r t ⟨⟨log, hr⟩, rfl⟩
  refine ⟨fun e he => ?_, rfl⟩
  rw [he] at hr
  exact ConsumerEnv.reads_of_publishAnswer hbody hr.symm

theorem ensures_scheduleRetry :
    (scheduleRetry env queue policy msg attempts).Ensures fun r t =>
      FailsReadably r ∧ Scheduled queue policy msg attempts (succeeded r) t := by
  unfold scheduleRetry
  split
  next hdelay =>
    refine Traced.ensures_bind (Traced.ensures_perform _ _) ?_ ?_
    · rintro u t ⟨-, rfl⟩
      refine (ensures_publish_raw env .retry rfl).mono ?_
      rintro r t ⟨hreads, rfl⟩
      exact ⟨hreads, .delayed hdelay _⟩
    · rintro e t ⟨⟨log, he⟩, rfl⟩
      refine ⟨?_, .assertFailed hdelay⟩
      rintro e' ⟨⟩
      exact ConsumerEnv.reads_of_mapError he.symm
  next hdelay =>
    refine (ensures_publish_raw env .retry rfl).mono ?_
    rintro r t ⟨hreads, rfl⟩
    exact ⟨hreads, .immediate hdelay _⟩

theorem ensures_sendErrorReply (cause : PlainError) :
    (sendErrorReply env queue msg cause attempts).Ensures fun r t =>
      (prints cause.message = false ∧ FailsReadably r ∧ succeeded r = false ∧ t = []) ∨
        ∃ text, printed cause.message = .ok text ∧
          t = [.published .errorReply (exhaustedReply queue msg cause text attempts) (succeeded r)] ∧
          (FailsReadably r → FailsReadably
            (env.serialized (exhaustedReply queue msg cause text attempts).body)) ∧
          ∀ e, r = .error e → e.reads = false →
            env.serialized (exhaustedReply queue msg cause text attempts).body = .error e := by
  unfold sendErrorReply
  refine Traced.ensures_bind (P := fun r t => r = printed cause.message ∧ t = [])
    (Traced.ensures_ofExcept ⟨rfl, rfl⟩) ?_ ?_
  · rintro text t ⟨htext, rfl⟩
    refine (Traced.ensures_perform _ _).mono ?_
    rintro r t ⟨⟨log, hr⟩, rfl⟩
    unfold ConsumerEnv.publishAnswer at hr
    refine .inr ⟨text, htext.symm, rfl, fun hreads => ?_, fun e he hreads => ?_⟩
    · split at hr
      next hserialized =>
        rw [hserialized]
        exact failsReadably_ok _
      next hserialized =>
        rw [hserialized]
        exact hreads.rethrown hr
    · -- a failure that does not print is the serialiser's
      rw [he] at hr
      split at hr
      · rw [ConsumerEnv.reads_of_mapError hr.symm] at hreads
        cases hreads
      next hserialized => rw [hserialized, hr]
  · rintro e t ⟨htext, rfl⟩
    refine .inl ⟨?_, (failsReadably_printed _).rethrown htext.symm, rfl, rfl⟩
    unfold printed at htext
    split at htext
    · cases htext
    next hprints => exact Bool.eq_false_iff.mpr hprints

theorem ensures_replyErrorToRpcCaller :
    (replyErrorToRpcCaller env queue msg error attempts).Ensures fun r t =>
      FailsReadably r ∧ ErrorReplied env queue msg error attempts (succeeded r) t := by
  unfold replyErrorToRpcCaller
  split
  next hawaits =>
    refine Traced.ensures_bind (ensures_convert .replyCause (errorToPlain error)) ?_ ?_
    · rintro cause t ⟨hcause, rfl⟩
      rw [← hcause]
      refine Traced.ensures_tryCatch (ensures_sendErrorReply env queue msg attempts cause) ?_ ?_
      · rintro u t (⟨-, -, hfailed, -⟩ | ⟨text, htext, rfl, hsent, -⟩)
        · cases hfailed
        · exact ⟨failsReadably_ok _, .sent hawaits hcause.symm htext (hsent (failsReadably_ok _)) _⟩
      · rintro e t (⟨htext, hreads, -, rfl⟩ | ⟨text, htext, rfl, hsent, hserialized⟩)
        · refine (ensures_messageLine e .replyLine).mono ?_
          rintro r t ⟨hr, hdone, rfl⟩
          refine ⟨hr, ?_⟩
          rw [hdone, hreads e rfl]
          exact .untold hawaits hcause.symm htext
        · refine (ensures_messageLine e .replyLine).mono ?_
          rintro r t ⟨hr, hdone, rfl⟩
          refine ⟨hr, ?_⟩
          rw [hdone]
          cases hline : e.reads with
          | true =>
              refine .sent hawaits hcause.symm htext (hsent ?_) _
              rintro e' ⟨⟩
              exact hline
          | false => exact .lineThrew hawaits hcause.symm htext (hserialized e rfl hline) hline
    · rintro e t ⟨hcause, rfl⟩
      rw [← hcause]
      exact ⟨(failsReadably_errorToPlain error).rethrown hcause.symm, .undescribed hawaits hcause.symm⟩
  next hawaits => exact Traced.ensures_pure ⟨failsReadably_ok _, .unasked (Bool.eq_false_iff.mpr hawaits)⟩

theorem ensures_outcomeLine :
    (convert .outcomeLine error.messageLine).Ensures fun r t =>
      FailsReadably r ∧ succeeded r = error.reads ∧ t = outcomeLine error :=
  ensures_messageLine error .outcomeLine

theorem ensures_exhaust :
    (exhaust env queue policy msg error attempts).Ensures fun r t =>
      FailsReadably r ∧ Exhausted queue policy msg error attempts (succeeded r) t := by
  unfold exhaust
  split
  next dest hdest =>
    refine Traced.ensures_bind (ensures_convert .deadLetterCause (errorToPlain error)) ?_ ?_
    · rintro cause t ⟨hcause, rfl⟩
      rw [← hcause]
      refine Traced.ensures_bind (ensures_publish_raw env .deadLetter rfl) ?_ ?_
      · rintro u t ⟨-, rfl⟩
        refine (ensures_outcomeLine error).mono ?_
        rintro r t ⟨hreads, hdone, rfl⟩
        rw [hdone]
        exact ⟨hreads, .deadLettered hdest hcause.symm⟩
      · rintro e t ⟨hreads, rfl⟩
        exact ⟨hreads, .refused hdest hcause.symm⟩
    · rintro e t ⟨hcause, rfl⟩
      rw [← hcause]
      exact ⟨(failsReadably_errorToPlain error).rethrown hcause.symm, .undescribed hdest hcause.symm⟩
  next hdest =>
    refine (ensures_outcomeLine error).mono ?_
    rintro r t ⟨hreads, hdone, rfl⟩
    rw [hdone]
    exact ⟨hreads, .dropped hdest⟩

theorem ensures_handOver :
    (handOver env queue policy msg error).Ensures fun r t =>
      FailsReadably r ∧ HandedOver env queue policy msg error (succeeded r) t := by
  unfold handOver
  refine Traced.ensures_bind (ensures_convert .counter (attemptsMade msg)) ?_ ?_
  · rintro n t ⟨hcount, rfl⟩
    rw [← hcount]
    split
    next hretry =>
      refine Traced.ensures_bind (ensures_scheduleRetry env queue policy msg n) ?_ ?_
      · rintro u t ⟨-, ht⟩
        refine (ensures_outcomeLine error).mono ?_
        rintro r t' ⟨hreads, hdone, rfl⟩
        rw [hdone]
        exact ⟨hreads, .rescheduled hcount.symm hretry ht⟩
      · rintro e t ⟨hreads, ht⟩
        exact ⟨hreads, .rescheduleFailed hcount.symm hretry ht⟩
    next hretry =>
      refine Traced.ensures_bind (ensures_replyErrorToRpcCaller env queue msg error n) ?_ ?_
      · rintro u t ⟨-, hreply⟩
        refine (ensures_exhaust env queue policy msg error n).mono ?_
        rintro r t' ⟨hreads, ht'⟩
        exact ⟨hreads, .exhausted hcount.symm (Bool.eq_false_iff.mpr hretry) hreply ht'⟩
      · rintro e t ⟨hreads, hreply⟩
        exact ⟨hreads, .replyFailed hcount.symm (Bool.eq_false_iff.mpr hretry) hreply⟩
  · rintro e t ⟨hcount, rfl⟩
    rw [← hcount]
    exact ⟨(failsReadably_attemptsMade msg).rethrown hcount.symm, .uncounted hcount.symm⟩

/-- The fallback nack: logged, never thrown. -/
theorem ensures_requeue {republishError : Thrown} (hreads : republishError.reads = true) :
    ((Traced.ofExcept republishError.messageLine >>= fun _ =>
      Traced.tryCatch (env.nackMessage true) fun nackError => Traced.ofExcept nackError.messageLine) :
        Consuming Unit).Ensures fun r t =>
      r = .ok () ∧ ∃ ok, (env.SettlesSafely → ok = true) ∧ t = [.nacked true ok] := by
  rw [Thrown.messageLine_of_reads hreads]
  refine Traced.ensures_bind (P := fun r t => r = .ok () ∧ t = []) (Traced.ensures_ofExcept ⟨rfl, rfl⟩) ?_ ?_
  · rintro u t ⟨-, rfl⟩
    refine Traced.ensures_tryCatch (Traced.ensures_perform _ _) ?_ ?_
    · rintro u t ⟨-, rfl⟩
      exact ⟨rfl, true, fun _ => rfl, rfl⟩
    · rintro e t ⟨⟨log, hanswer⟩, rfl⟩
      rw [Thrown.messageLine_of_reads (ConsumerEnv.reads_of_mapError hanswer.symm)]
      refine Traced.ensures_ofExcept ⟨rfl, false, fun hsafe => ?_, rfl⟩
      rw [hsafe.nackAnswer] at hanswer
      cases hanswer
  · rintro e t ⟨h, -⟩
    cases h

/-- How the `try` block ends, with what it did to settle the message handed over or not. -/
inductive TryEnded : Except Thrown Unit → Bool → List Event → Prop
  | acked : TryEnded (.ok ()) true [.acked true]
  | handOverThrew {e : Thrown} (hreads : e.reads = true) : TryEnded (.error e) false []
  | ackThrew {e : Thrown} (hreads : e.reads = true) (hthrows : ¬ env.SettlesSafely) :
      TryEnded (.error e) true [.acked false]

/-- **One call of the retry handler.**  It never throws; it hands the message over, then acks it when
that came through and requeues it when it did not. -/
theorem ensures_retryErrorHandler :
    (retryErrorHandler env queue policy msg error).Ensures fun r t =>
      r = .ok () ∧ ∃ safe a s, HandedOver env queue policy msg error safe a ∧ Settled env safe s ∧
        t = a ++ s := by
  unfold retryErrorHandler
  refine Traced.ensures_tryCatch (P := fun r t => ∃ safe a s, HandedOver env queue policy msg error safe a ∧
    t = a ++ s ∧ TryEnded env r safe s) ?_ ?_ ?_
  · refine Traced.ensures_bind (ensures_handOver env queue policy msg error) ?_ ?_
    · rintro u a ⟨-, ha⟩
      refine (Traced.ensures_perform _ _).mono ?_
      rintro r t ⟨⟨log, hanswer⟩, rfl⟩
      cases r with
      | ok u => exact ⟨true, a, _, ha, rfl, .acked⟩
      | error e =>
          refine ⟨true, a, _, ha, rfl, .ackThrew (ConsumerEnv.reads_of_mapError hanswer.symm) fun hsafe => ?_⟩
          rw [hsafe.ackAnswer] at hanswer
          cases hanswer
    · rintro e a ⟨hreads, ha⟩
      exact ⟨false, a, [], ha, by simp, .handOverThrew (hreads e rfl)⟩
  · rintro u t ⟨safe, a, s, ha, rfl, hended⟩
    cases hended
    exact ⟨rfl, true, a, _, ha, .acked, rfl⟩
  · rintro e t ⟨safe, a, s, ha, rfl, hended⟩
    cases hended with
    | handOverThrew hreads =>
        refine (ensures_requeue env hreads).mono ?_
        rintro r t ⟨rfl, ok, hok, rfl⟩
        exact ⟨rfl, false, a, _, ha, .requeued ok hok, by simp⟩
    | ackThrew hreads hthrows =>
        refine (ensures_requeue env hreads).mono ?_
        rintro r t ⟨rfl, ok, -, rfl⟩
        exact ⟨rfl, true, a, _, ha, .ackThrew hthrows ok, by simp⟩

end Spec

end NestAmqp.Amqp
