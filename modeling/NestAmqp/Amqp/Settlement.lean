/-
# NestAmqp.Amqp.Settlement — every delivery is settled once, and acked only when it is safe.

A double ack closes the channel and an early ack loses the message.  Here the cases of one delivery
are counted: the `try` block settles when it returns and not when it fails, the error handlers settle
once, and the retry handler acks only what it has handed over.  A reply that cannot be sent should change
none of that, and does so where the error it is about does not convert.
-/
import NestAmqp.Amqp.Consumer

namespace NestAmqp.Amqp

open NestAmqp.Js
open NestAmqp.Lib

/-! ## Counting -/

@[simp] theorem Event.settles_acked (ok : Bool) : (Event.acked ok).settles = ok := rfl

@[simp] theorem Event.settles_nacked (requeue ok : Bool) :
    (Event.nacked requeue ok).settles = ok := rfl

@[simp] theorem Event.settles_handled (msg : Delivery) (failure : Option Thrown) :
    (Event.handled msg failure).settles = false := rfl

@[simp] theorem Event.settles_asserted (waitQueue : String) (delayMs : Int) (target : String)
    (ok : Bool) : (Event.asserted waitQueue delayMs target ok).settles = false := rfl

@[simp] theorem Event.settles_unconverted (what : Conversion) :
    (Event.unconverted what).settles = false := rfl

@[simp] theorem Event.settles_published (purpose : Purpose) (message : Publication) (ok : Bool) :
    (Event.published purpose message ok).settles = false := rfl

theorem Answered.settlements {options : MessageHandlerOptions} {kind : ConsumerKind} {msg : Delivery}
    {response : Value} {ok : Bool} {t : List Event} (h : Answered options kind msg response ok t) :
    settlements t = 0 := by
  cases h <;> simp

/-- With a channel that takes every settlement, a `try` block settles exactly when it returns. -/
theorem Processed.settlements {env : ConsumerEnv} {options : MessageHandlerOptions}
    {kind : ConsumerKind} {msg : Delivery} (hsafe : env.SettlesSafely) {r : Except Thrown Unit}
    {t : List Event} (h : Processed env options kind msg r t) :
    settlements t = if succeeded r then 1 else 0 := by
  cases h with
  | misrouted hkey hr => cases r <;> simp
  | undecodable hkey hmsg => simp
  | threw hkey hmsg he => simp
  | refused hkey hmsg hv hr => cases r <;> simp
  | unanswered hkey hmsg hv ht e => simp [ht.settlements]
  | answered hkey hmsg hv ht hr =>
      obtain ⟨log, rfl⟩ := hr
      simp [ht.settlements, hsafe.ackAnswer]

section

variable {env : ConsumerEnv} {queue : String} {policy : RetryPolicyConfig} {msg : Delivery} {error : Thrown}
  {n : JsNumber} {done : Bool} {t : List Event}

theorem Scheduled.settlements (h : Scheduled queue policy msg n done t) : settlements t = 0 := by
  cases h <;> simp

theorem ErrorReplied.settlements (h : ErrorReplied env queue msg error n done t) : settlements t = 0 := by
  cases h <;> simp

theorem settlements_outcomeLine (error : Thrown) : settlements (outcomeLine error) = 0 := by
  unfold outcomeLine
  split <;> simp

theorem Exhausted.settlements (h : Exhausted queue policy msg error n done t) : settlements t = 0 := by
  cases h <;> simp [settlements_outcomeLine]

theorem HandedOver.settlements (h : HandedOver env queue policy msg error done t) : settlements t = 0 := by
  cases h with
  | uncounted hcount => simp
  | rescheduleFailed hcount hretry h => exact h.settlements
  | rescheduled hcount hretry h => simp [h.settlements, settlements_outcomeLine]
  | replyFailed hcount hretry hreply => exact hreply.settlements
  | exhausted hcount hretry hreply h => simp [hreply.settlements, h.settlements]

end

theorem Settled.settlements {env : ConsumerEnv} (hsafe : env.SettlesSafely) {safe : Bool}
    {t : List Event} (h : Settled env safe t) : settlements t = 1 := by
  cases h with
  | acked => simp
  | ackThrew hthrows ok => exact absurd hsafe hthrows
  | requeued ok hok => simp [hok hsafe]

/-! ## The legacy handlers -/

/-- A legacy handler settles with one call, ack or nack, and throws what the channel throws. -/
theorem ensures_legacy (env : ConsumerEnv) (behavior : String) (msg : Delivery) (error : Thrown) :
    (getHandlerForLegacyBehavior env behavior msg error).Ensures fun r t =>
      FailsReadably r ∧ (env.SettlesSafely → settlements t = 1) := by
  have nacks (requeue : Bool) : (env.nackMessage requeue).Ensures fun r t =>
      FailsReadably r ∧ (env.SettlesSafely → settlements t = 1) := by
    refine (Traced.ensures_perform _ _).mono ?_
    rintro r t ⟨⟨log, rfl⟩, rfl⟩
    exact ⟨fun e he => ConsumerEnv.reads_of_mapError he, fun hsafe => by simp [hsafe.nackAnswer]⟩
  unfold getHandlerForLegacyBehavior
  split
  · show (env.ackMessage).Ensures _
    refine (Traced.ensures_perform _ _).mono ?_
    rintro r t ⟨⟨log, rfl⟩, rfl⟩
    exact ⟨fun e he => ConsumerEnv.reads_of_mapError he, fun hsafe => by simp [hsafe.ackAnswer]⟩
  · split
    · exact nacks true
    · exact nacks false

/-! ## The retry handler -/

/-- A step of handing the message over, or of saying what became of it, failed; a failed reply loses
nothing. -/
def Event.failedStep : Event → Bool
  | .asserted _ _ _ ok => !ok
  | .published .retry _ ok | .published .deadLetter _ ok => !ok
  | .unconverted .counter | .unconverted .deadLetterCause | .unconverted .outcomeLine => true
  | _ => false

/-- What must have happened before the retry handler may ack: a confirmed retry copy, a confirmed
dead-letter copy, or nothing at all when the message is used up and the policy drops it. -/
def SafeToAck (queue : String) (policy : RetryPolicyConfig) (msg : Delivery) (error : Thrown)
    (before : List Event) : Prop :=
  ∃ n, attemptsMade msg = .ok n ∧
    (.published .retry (retryCopy queue policy msg n) true ∈ before ∨
    (∃ dest cause, policy.deadLetterTo = some dest ∧ errorToPlain error = .ok cause ∧
      .published .deadLetter (deadLetterCopy queue policy dest msg cause n) true ∈ before) ∨
    (policy.deadLetterTo = none ∧
      (error.isDeserialization = true ∨ n.below policy.attemptLimit = false)))

/-- What the end of a message says of the error converts: the log line, and the dead letter's headers. -/
def Tellable (policy : RetryPolicyConfig) (error : Thrown) : Prop :=
  error.reads = true ∧ (policy.deadLetterTo ≠ none → ∃ cause, errorToPlain error = .ok cause)

/-- How the retry handler settles: once, with an ack only when that is safe, with an ack whenever nothing
but the error reply fails, and with a requeue whenever another step or the ack failed. -/
structure SettlesWell (env : ConsumerEnv) (queue : String) (policy : RetryPolicyConfig)
    (msg : Delivery) (error : Thrown) (t : List Event) : Prop where
  once : env.SettlesSafely → settlements t = 1
  safeAck : ∀ before ok after, t = before ++ .acked ok :: after →
    SafeToAck queue policy msg error before
  acks : (∀ e ∈ t, e.failedStep = false) → Tellable policy error → ∃ ok, .acked ok ∈ t
  requeues : (∃ e ∈ t, e.failedStep = true ∨ e = .acked false) → ∃ ok, .nacked true ok ∈ t

/-- The error reply of a used up message cannot make its handler fail: the error can be described, and what
the serialiser throws over the reply prints, wherever the rest can be told. -/
def ReplyContained (env : ConsumerEnv) (queue : String) (policy : RetryPolicyConfig) (msg : Delivery)
    (error : Thrown) : Prop :=
  ∀ n, attemptsMade msg = .ok n → retries policy n error = false → awaitsReply msg = true →
    Tellable policy error → ∃ cause, errorToPlain error = .ok cause ∧
      ∀ text, printed cause.message = .ok text →
        FailsReadably (env.serialized (exhaustedReply queue msg cause text n).body)

section HandOver

variable {env : ConsumerEnv} {queue : String} {policy : RetryPolicyConfig} {msg : Delivery} {error : Thrown}
  {n : JsNumber} {done : Bool} {t : List Event}

/-- Nothing of a list acks, and a step of it failed exactly when it has not come through. -/
def Quietly (done : Bool) (t : List Event) : Prop :=
  (∀ ok, .acked ok ∉ t) ∧ ((∃ e ∈ t, e.failedStep = true) ↔ done = false)

theorem ErrorReplied.quiet_steps (h : ErrorReplied env queue msg error n done t) :
    (∀ ok, .acked ok ∉ t) ∧ ∀ e ∈ t, e.failedStep = false := by
  cases h <;> simp [Event.failedStep]

theorem Scheduled.quietly (h : Scheduled queue policy msg n done t) : Quietly done t := by
  cases h <;> simp [Quietly, Event.failedStep]

theorem quietly_outcomeLine (error : Thrown) : Quietly error.reads (outcomeLine error) := by
  unfold outcomeLine
  cases error.reads <;> simp [Quietly, Event.failedStep]

/-- A part without a failed step, and one with its own. -/
theorem Quietly.append {s : List Event} (hs : (∀ ok, .acked ok ∉ s) ∧ ∀ e ∈ s, e.failedStep = false)
    (ht : Quietly done t) : Quietly done (s ++ t) := by
  refine ⟨fun ok hok => ?_, ?_⟩
  · rcases List.mem_append.mp hok with hok | hok
    · exact hs.1 ok hok
    · exact ht.1 ok hok
  · rw [← ht.2]
    constructor
    · rintro ⟨e, he, hfailed⟩
      rcases List.mem_append.mp he with he | he
      · rw [hs.2 e he] at hfailed
        cases hfailed
      · exact ⟨e, he, hfailed⟩
    · rintro ⟨e, he, hfailed⟩
      exact ⟨e, List.mem_append_right _ he, hfailed⟩

theorem Quietly.steps (h : Quietly true t) : (∀ ok, .acked ok ∉ t) ∧ ∀ e ∈ t, e.failedStep = false := by
  refine ⟨h.1, fun e he => ?_⟩
  by_contra hfailed
  exact absurd (h.2.mp ⟨e, he, Bool.eq_true_of_not_eq_false hfailed⟩) (by decide)

theorem Exhausted.quietly (h : Exhausted queue policy msg error n done t) : Quietly done t := by
  cases h with
  | undescribed hdest hcause => simp [Quietly, Event.failedStep]
  | refused hdest hcause => simp [Quietly, Event.failedStep]
  | deadLettered hdest hcause =>
      exact Quietly.append (s := [_]) (by simp [Event.failedStep]) (quietly_outcomeLine error)
  | dropped hdest => exact quietly_outcomeLine error

/-- What was logged before the settlement holds no ack; some step of it failed exactly when it has not come
through, unless it was the reply that failed. -/
theorem HandedOver.quiet (h : HandedOver env queue policy msg error done t) :
    Quietly done t ∨ ∃ n, attemptsMade msg = .ok n ∧ retries policy n error = false ∧ done = false ∧
      ErrorReplied env queue msg error n false t := by
  cases h with
  | uncounted hcount => exact .inl (by simp [Quietly, Event.failedStep])
  | rescheduleFailed hcount hretry h => exact .inl h.quietly
  | rescheduled hcount hretry h => exact .inl (.append h.quietly.steps (quietly_outcomeLine error))
  | replyFailed hcount hretry hreply => exact .inr ⟨_, hcount, hretry, rfl, hreply⟩
  | exhausted hcount hretry hreply h => exact .inl (.append hreply.quiet_steps h.quietly)

theorem HandedOver.not_acked (h : HandedOver env queue policy msg error done t) (ok : Bool) :
    .acked ok ∉ t := by
  rcases h.quiet with h | ⟨n, -, -, -, hreply⟩
  · exact h.1 ok
  · exact hreply.quiet_steps.1 ok

theorem retries_eq_false_iff (policy : RetryPolicyConfig) (n : JsNumber) (error : Thrown) :
    retries policy n error = false ↔
      error.isDeserialization = true ∨ n.below policy.attemptLimit = false := by
  unfold retries
  cases error.isDeserialization <;> simp

/-- A message that is safe was handed over by a confirmed copy, or is to be dropped. -/
theorem HandedOver.safeToAck (h : HandedOver env queue policy msg error true t) :
    SafeToAck queue policy msg error t := by
  generalize hdone : true = done at h
  cases h with
  | uncounted hcount => cases hdone
  | rescheduleFailed hcount hretry h => cases hdone
  | replyFailed hcount hretry hreply => cases hdone
  | rescheduled hcount hretry h =>
      refine ⟨_, hcount, .inl (List.mem_append_left _ ?_)⟩
      cases h <;> simp
  | exhausted hcount hretry hreply h =>
      refine ⟨_, hcount, .inr ?_⟩
      cases h with
      | undescribed hdest hcause => cases hdone
      | refused hdest hcause => cases hdone
      | deadLettered hdest hcause => exact .inl ⟨_, _, hdest, hcause, by simp⟩
      | dropped hdest => exact .inr ⟨hdest, (retries_eq_false_iff policy _ error).mp hretry⟩

/-- An error whose message prints has one that its reply can take. -/
theorem prints_of_reads {cause : PlainError} (hreads : error.reads = true)
    (hcause : errorToPlain error = .ok cause) : prints cause.message = true := by
  unfold errorToPlain at hcause
  obtain ⟨name, -, hcause⟩ := bind_eq_ok.mp hcause
  obtain ⟨message, hmessage, hcause⟩ := bind_eq_ok.mp hcause
  obtain rfl := Except.ok.inj hcause
  unfold plainMessage at hmessage
  split at hmessage
  · cases htext : error.printed with
    | ok text =>
        rw [htext] at hmessage
        obtain rfl := Except.ok.inj hmessage
        rfl
    | error e =>
        rw [htext] at hmessage
        cases hmessage
  · obtain rfl := Except.ok.inj hmessage
    exact hreads

/-- A reply step that came through was contained. -/
theorem ErrorReplied.contained (h : ErrorReplied env queue msg error n true t)
    (hawaits : awaitsReply msg = true) (htellable : Tellable policy error) :
    ∃ cause, errorToPlain error = .ok cause ∧ ∀ text, printed cause.message = .ok text →
      FailsReadably (env.serialized (exhaustedReply queue msg cause text n).body) := by
  cases h with
  | unasked hnot =>
      rw [hnot] at hawaits
      cases hawaits
  | untold _ hcause htext =>
      rw [prints_of_reads htellable.1 hcause] at htext
      cases htext
  | sent _ hcause htext hserialized ok =>
      refine ⟨_, hcause, fun text htext' => ?_⟩
      obtain rfl := Except.ok.inj (htext.symm.trans htext')
      exact hserialized

/-- One that failed was not. -/
theorem ErrorReplied.not_contained (h : ErrorReplied env queue msg error n false t) :
    awaitsReply msg = true ∧ ¬ ∃ cause, errorToPlain error = .ok cause ∧
      ∀ text, printed cause.message = .ok text →
        FailsReadably (env.serialized (exhaustedReply queue msg cause text n).body) := by
  cases h with
  | undescribed hawaits hcause =>
      refine ⟨hawaits, ?_⟩
      rintro ⟨cause, hcause', -⟩
      rw [hcause] at hcause'
      cases hcause'
  | lineThrew hawaits hcause htext hserialized hline =>
      refine ⟨hawaits, ?_⟩
      rintro ⟨cause, hcause', hcontained⟩
      obtain rfl := Except.ok.inj (hcause.symm.trans hcause')
      rw [hcontained _ htext _ hserialized] at hline
      cases hline

end HandOver

/-- A settlement starts with its only ack, or is a requeue. -/
theorem Settled.shape {env : ConsumerEnv} {safe : Bool} {s : List Event} (h : Settled env safe s) :
    (safe = true ∧ ∃ ok rest, s = .acked ok :: rest ∧ ∀ ok', .acked ok' ∉ rest) ∨
      ∃ ok, s = [.nacked true ok] := by
  cases h with
  | acked => exact .inl ⟨rfl, true, [], rfl, by simp⟩
  | ackThrew hthrows ok => exact .inl ⟨rfl, false, [.nacked true ok], rfl, by simp⟩
  | requeued ok hok => exact .inr ⟨ok, rfl⟩

/-- The only ack of a run splits it in one way. -/
theorem first_ack_unique {a rest before after : List Event} {ok ok' : Bool}
    (ha : ∀ b, .acked b ∉ a) (hrest : ∀ b, .acked b ∉ rest)
    (heq : a ++ .acked ok :: rest = before ++ .acked ok' :: after) : before = a := by
  rcases List.append_eq_append_iff.mp heq with ⟨c, rfl, hc⟩ | ⟨c, rfl, hc⟩
  · cases c with
    | nil => exact List.append_nil a
    | cons x c =>
        have htail : rest = c ++ .acked ok' :: after := (List.cons.inj hc).2
        exact absurd (by simp [htail]) (hrest ok')
  · cases c with
    | nil => exact (List.append_nil before).symm
    | cons x c =>
        have hx : Event.acked ok' = x := (List.cons.inj hc).1
        exact absurd (by simp [hx]) (ha ok')

section SettlesWell

variable {env : ConsumerEnv} {queue : String} {policy : RetryPolicyConfig} {msg : Delivery} {error : Thrown}
  {safe : Bool} {a s : List Event}

/-- An ack of the run is the first event of the settlement, so `a` is what came before it. -/
theorem safeAck_of_handedOver (ha : HandedOver env queue policy msg error safe a) (hs : Settled env safe s)
    {before after : List Event} {ok : Bool} (heq : a ++ s = before ++ .acked ok :: after) :
    SafeToAck queue policy msg error before := by
  rcases hs.shape with ⟨rfl, ok', rest, rfl, hrest⟩ | ⟨ok', rfl⟩
  · have hbefore : before = a := first_ack_unique ha.not_acked hrest heq
    rw [hbefore]
    exact ha.safeToAck
  · have hmem : Event.acked ok ∈ a ++ [.nacked true ok'] := by simp [heq]
    rcases List.mem_append.mp hmem with h | h
    · exact absurd h (ha.not_acked ok)
    · simp at h

/-- A failed step leads to a requeue. -/
theorem requeues_of_handedOver (ha : HandedOver env queue policy msg error safe a) (hs : Settled env safe s)
    (hfail : ∃ e ∈ a ++ s, e.failedStep = true ∨ e = .acked false) : ∃ ok, .nacked true ok ∈ a ++ s := by
  cases hs with
  | ackThrew hthrows ok => exact ⟨ok, by simp⟩
  | requeued ok hok => exact ⟨ok, by simp⟩
  | acked =>
      exfalso
      obtain ⟨e, he, hfail⟩ := hfail
      rcases List.mem_append.mp he with he | he
      · rcases hfail with hfail | rfl
        · rcases ha.quiet with hquiet | ⟨n, -, -, hdone, -⟩
          · exact absurd (hquiet.2.mp ⟨e, he, hfail⟩) (by decide)
          · cases hdone
        · exact ha.not_acked false he
      · rw [List.mem_singleton] at he
        subst he
        simp [Event.failedStep] at hfail

/-- **The reply decides.**  A call of the handler settles as it should exactly when its error reply is
contained. -/
theorem settlesWell_iff_of_handedOver (ha : HandedOver env queue policy msg error safe a)
    (hs : Settled env safe s) :
    SettlesWell env queue policy msg error (a ++ s) ↔ ReplyContained env queue policy msg error := by
  constructor
  · intro hwell n hcount hretry hawaits htellable
    -- the events tell whether the reply came through
    cases ha with
    | uncounted hcount' =>
        rw [hcount'] at hcount
        cases hcount
    | rescheduleFailed hcount' hretry' _ | rescheduled hcount' hretry' _ =>
        obtain rfl := Except.ok.inj (hcount'.symm.trans hcount)
        rw [hretry] at hretry'
        cases hretry'
    | exhausted hcount' _ hreply h =>
        obtain rfl := Except.ok.inj (hcount'.symm.trans hcount)
        exact hreply.contained hawaits htellable
    | replyFailed hcount' _ hreply =>
        exfalso
        rcases hs.shape with ⟨h, -⟩ | ⟨ok, rfl⟩
        · cases h
        · obtain ⟨ok', hack⟩ := hwell.acks (fun e he => by
            rcases List.mem_append.mp he with he | he
            · exact hreply.quiet_steps.2 e he
            · rw [List.mem_singleton.mp he]
              rfl) htellable
          rcases List.mem_append.mp hack with hack | hack
          · exact hreply.quiet_steps.1 ok' hack
          · simp at hack
  · intro hcontained
    refine ⟨fun hsafe => ?_, fun before ok after heq => safeAck_of_handedOver ha hs heq, ?_,
      requeues_of_handedOver ha hs⟩
    · rw [settlements_append, ha.settlements, hs.settlements hsafe]
    · intro hall htellable
      cases hs with
      | acked => exact ⟨true, by simp⟩
      | ackThrew hthrows ok => exact ⟨false, by simp⟩
      | requeued ok hok =>
          exfalso
          rcases ha.quiet with hquiet | ⟨n, hcount, hretry, -, hreply⟩
          · obtain ⟨e, he, hfail⟩ := hquiet.2.mpr rfl
            rw [hall e (List.mem_append_left _ he)] at hfail
            cases hfail
          · obtain ⟨hawaits, hnot⟩ := hreply.not_contained
            exact hnot (hcontained n hcount hretry hawaits htellable)

/-- A call of the handler settles once, and as it should if its error reply is contained. -/
theorem ensures_retryErrorHandler_settles (env : ConsumerEnv) (queue : String)
    (policy : RetryPolicyConfig) (msg : Delivery) (error : Thrown) :
    (retryErrorHandler env queue policy msg error).Ensures fun r t =>
      r = .ok () ∧ (env.SettlesSafely → settlements t = 1) ∧
        (SettlesWell env queue policy msg error t ↔ ReplyContained env queue policy msg error) := by
  refine (ensures_retryErrorHandler env queue policy msg error).mono ?_
  rintro r t ⟨hr, safe, a, s, ha, hs, rfl⟩
  refine ⟨hr, fun hsafe => ?_, settlesWell_iff_of_handedOver ha hs⟩
  rw [settlements_append, ha.settlements, hs.settlements hsafe]

end SettlesWell

/-! ## The consumers -/

theorem ErrorHandler.ensures_once (env : ConsumerEnv) (queue : String) {handler : ErrorHandler}
    (hbuiltIn : handler.BuiltIn) (msg : Delivery) (error : Thrown) :
    (handler.handle env queue msg error).Ensures fun r t =>
      FailsReadably r ∧ (env.SettlesSafely → settlements t = 1) := by
  cases handler with
  | custom handler => exact hbuiltIn.elim
  | retry policy =>
      refine (ensures_retryErrorHandler_settles env queue policy msg error).mono ?_
      rintro r t ⟨rfl, honce, -⟩
      exact ⟨failsReadably_ok _, honce⟩
  | legacy behavior => exact ensures_legacy env (toUpperCase behavior) msg error

/-- When the error handler settles once, so does the callback. -/
theorem Consumed.once {env : ConsumerEnv} {options : MessageHandlerOptions} {kind : ConsumerKind}
    {msg : Delivery} (hsafe : env.SettlesSafely) {Handled : Thrown → List Event → Prop}
    (hhandled : ∀ e t, Handled e t → settlements t = 1) {t : List Event}
    (h : Consumed env options kind msg Handled t) : settlements t = 1 := by
  cases h with
  | returned h => simpa using h.settlements hsafe
  | failed h h' => rw [settlements_append, h.settlements hsafe, hhandled _ _ h']; rfl

/-- A consumer whose handler always throws this, on a broker and a channel that take everything. -/
def throwingConsumer (thrown : Thrown) : ConsumerEnv where
  publish _ _ _ := .ok ()
  assertRetryWaitQueue _ _ := .ok ()
  ack _ := .ok ()
  nack _ := .ok ()
  deserialize _ := .ok (.obj [])
  contentText _ := ""
  serialize _ := .ok ()
  handler _ _ _ := .error thrown

/-- One whose handler throws an ordinary error. -/
def failingConsumer : ConsumerEnv := throwingConsumer (.error { name := "Error", message := "boom" })

theorem settlesSafely_throwingConsumer (thrown : Thrown) : (throwingConsumer thrown).SettlesSafely :=
  fun _ => ⟨rfl, rfl⟩

theorem failingConsumer_settlesSafely : failingConsumer.SettlesSafely := settlesSafely_throwingConsumer _

/-- An error whose name does not print. -/
def namelessError : Thrown :=
  .value (.obj [("name", .obj [("toString", .num 1)]), ("message", .str "boom")])

/-- A request that somebody waits for. -/
def awaitedRequest : Delivery where
  routingKey := "orders"
  content := []
  properties := { replyTo := some "reply", correlationId := some "c" }

end NestAmqp.Amqp
