/-
# NestAmqp.Broker.RetryCoverage — which failures of a decorated action reach the retry policy.

The consumer of a topic runs `dispatch` as its handler.  `dispatch` turns the failure of an action into
an ordinary result, and an RPC consumer acks a delivery whose handler returned; when nobody waits for
the reply, the failure leaves no trace.  This module follows a message without `replyTo` whose action
fails every time, and says exactly which hops acknowledge it without having handed it over.
-/
import NestAmqp.Broker.Scanner
import NestAmqp.Amqp.RpcLineage

namespace NestAmqp.Broker

open NestAmqp.Js
open NestAmqp.Lib
open NestAmqp.Lib.Machine
open NestAmqp.Amqp

/-- The environment of a topic's consumer: its handler is the scanner's callback. -/
def actionEnv (env : ConsumerEnv) (consumer : ActionConsumer) : ConsumerEnv :=
  { env with handler := dispatch consumer }

/-- The consumer `createRpc` sets up for a topic, on the queue the broker named. -/
def topicConsumer (env : ConsumerEnv) (config : BrokerConfig) (consumer : ActionConsumer)
    (binding : RpcBinding) (queue : String) : Option Delivery → Consuming Unit :=
  consume (actionEnv env consumer) binding.options .rpc
    ((resolveErrorHandler config.connection binding.options .rpc).handle (actionEnv env consumer) queue)

/-! ## What the callback does at a given log -/

section Callback

variable {env : ConsumerEnv} {options : MessageHandlerOptions} {queue : String}
  {policy : RetryPolicyConfig} {d : Delivery} {message : Value} {log : List Event}

/-- The `try` block up to the handler's return. -/
theorem rpcProcess_of_ok (hkey : matchesRoutingKey d.routingKey options.routingKey = true)
    (hmsg : tryDeserializeMessage env options d = .ok message) {response : Response}
    (hv : env.handler log message d = .ok response) :
    rpcProcess env options d log = finish env options .rpc d response (log ++ [.handled d none]) := by
  unfold rpcProcess
  rw [if_pos hkey]
  unfold Amqp.process
  rw [hmsg]
  refine (Traced.bind_of_ok rfl).trans (Traced.bind_of_ok ?_)
  simp only [ConsumerEnv.runHandler, Traced.perform, hv]

/-- A handler that returned a value to a message nobody waits for: the message is acked. -/
theorem added_of_value (hsafe : env.SettlesSafely)
    (hkey : matchesRoutingKey d.routingKey options.routingKey = true)
    (hmsg : tryDeserializeMessage env options d = .ok message) {v : Value}
    (hv : env.handler log message d = .ok (.value v))
    (hreply : truthyText d.properties.replyTo = false) :
    (retryConsumer env options .rpc queue policy (some d)).added log =
      [.handled d none, .acked true] := by
  have hanswer : answer env options .rpc d v (log ++ [.handled d none]) =
      (.ok (), log ++ [.handled d none]) := by
    show replyIfAsked env options d v _ = _
    unfold replyIfAsked
    rw [if_neg (by simp [hreply])]
    rfl
  have hack : env.ackMessage (log ++ [.handled d none]) =
      (.ok (), log ++ [.handled d none, .acked true]) := by
    unfold ConsumerEnv.ackMessage Traced.perform
    rw [hsafe.ackAnswer, List.append_assoc]
    rfl
  have hprocess : rpcProcess env options d log = (.ok (), log ++ [.handled d none, .acked true]) := by
    rw [rpcProcess_of_ok hkey hmsg hv]
    exact (Traced.bind_of_ok hanswer).trans hack
  exact Traced.added_of_run (Traced.tryCatch_of_ok hprocess)

end Callback

/-! ## Which acknowledgements are safe -/

section Coverage

variable (env : ConsumerEnv) (consumer : ActionConsumer) (options : MessageHandlerOptions)
  (queue : String) (policy : RetryPolicyConfig)

/-- The run of the action in the next hop, when the delivery gets that far. -/
def actionRun (s : Lineage) : Option (Except Thrown Value) :=
  s.pending.head?.bind fun d =>
    if matchesRoutingKey d.routingKey options.routingKey then
      match tryDeserializeMessage env options d with
      | .ok message => methodRun consumer s.log message d
      | .error _ => none
    else none

/-- The next hop runs the action and the action fails, unless the check turns the delivery away. -/
def ActionFails (s : Lineage) : Prop :=
  ∀ d, s.pending.head? = some d → matchesRoutingKey d.routingKey options.routingKey = true →
    ∃ e, actionRun env consumer options s = some (.error e)

/-- A hop from `s` to `s'` acknowledges its delivery only with a confirmed retry copy or dead letter of
it, or once the handler was run as often as the policy says and the policy drops the message. -/
def AcksSafely (s s' : Lineage) : Prop :=
  .acked true ∈ s'.log.drop s.log.length →
    confirmedCopies .retry (s'.log.drop s.log.length) ≠ [] ∨
    confirmedCopies .deadLetter (s'.log.drop s.log.length) ≠ [] ∨
    (policy.deadLetterTo = none ∧ policy.attemptLimit ≤ handlerRuns s'.log)

/-- The failures that do no harm: the last run under a policy that drops, and `null` and `undefined`, whose
description throws and so reaches the retry handler, unless that drops the message because its counter is
ahead of the runs. -/
def Harmless (s : Lineage) : Prop :=
  ∀ e, actionRun env consumer options s = some (.error e) →
    (policy.deadLetterTo = none ∧ policy.attemptLimit ≤ handlerRuns s.log + 1) ∨
    (e.nullish = true ∧ ∀ d, s.pending.head? = some d → ∀ n, attemptsMade d = .ok n →
      n.below policy.attemptLimit = true ∨ policy.deadLetterTo ≠ none)

/-- Nobody waits for a reply. -/
def Unattended (s : Lineage) : Prop := ∀ d ∈ s.pending, truthyText d.properties.replyTo = false

variable {env consumer options queue policy} {names : List String} {s : Lineage} {d : Delivery}
  {rest : List Delivery} {a t : List Event} {safe : Bool} {error : Thrown}

theorem actionRun_error (hpending : s.pending = d :: rest) {e : Thrown}
    (h : actionRun env consumer options s = some (.error e)) :
    ∃ message, tryDeserializeMessage env options d = .ok message ∧
      methodRun consumer s.log message d = some (.error e) := by
  unfold actionRun at h
  rw [hpending, List.head?_cons, Option.bind_some] at h
  split at h
  · split at h
    next message hmsg => exact ⟨message, hmsg, h⟩
    next => cases h
  · cases h

/-- Nobody waits after a hop either: a copy has the reply address of what it copies. -/
theorem Unattended.hop {kind : ConsumerKind} (hsafe : env.SettlesSafely) (h : Unattended s)
    (stamps : DeathHeaders names) :
    Unattended (hop (retryConsumer env options kind queue policy) queue s stamps) := by
  cases hpending : s.pending with
  | nil => rwa [hop_of_empty hpending]
  | cons d rest =>
      unfold Unattended at h
      rw [hpending, List.forall_mem_cons] at h
      have hfate := hop_fate options kind queue policy hsafe stamps hpending
      generalize Amqp.hop (retryConsumer env options kind queue policy) queue s stamps = s' at hfate ⊢
      have hkept (gone : Bool) : ∀ d' ∈ (if gone then [] else [d]) ++ rest,
          truthyText d'.properties.replyTo = false := by
        cases gone with
        | true => exact h.2
        | false => exact List.forall_mem_cons.mpr h
      cases hfate with
      | @returned new hretried hdead =>
          have hrest := hkept (!requeued new)
          cases hrequeued : requeued new <;> simpa [Unattended, hrequeued] using hrest
      | @failed e t new safe back hfail houtcome =>
          refine List.forall_mem_append.mpr ⟨hkept safe, ?_⟩
          generalize confirmedCopies .retry new = retried at houtcome
          generalize confirmedCopies .deadLetter new = dead at houtcome
          cases houtcome with
          | nothing | deadLettered | dropped => exact List.forall_mem_nil _
          | retried hcount hretry =>
              refine List.forall_mem_singleton.mpr ?_
              rw [((Descends.refl names queue policy d).copyBack hcount stamps).replyTo]
              exact h.1

/-- A message whose attempts are used up, under a policy that drops and with nobody waiting, comes through
the hand-over. -/
theorem safe_of_dropped (h : HandedOver env queue policy d error safe a) {n : JsNumber}
    (hcount : attemptsMade d = .ok n) (hretry : retries policy n error = false)
    (hdest : policy.deadLetterTo = none) (hreply : truthyText d.properties.replyTo = false)
    (hreads : error.reads = true) : safe = true := by
  have hunasked : awaitsReply d = false := by
    unfold awaitsReply
    rw [hreply, Bool.false_and]
  cases h with
  | uncounted hcount' =>
      rw [hcount] at hcount'
      cases hcount'
  | rescheduleFailed hcount' hretry' | rescheduled hcount' hretry' =>
      obtain rfl := Except.ok.inj (hcount.symm.trans hcount')
      rw [hretry] at hretry'
      cases hretry'
  | replyFailed hcount' hretry' hreplied =>
      have hawaits := hreplied.not_contained.1
      rw [hunasked] at hawaits
      cases hawaits
  | exhausted hcount' hretry' hreplied h =>
      cases h with
      | undescribed hdest' | refused hdest' | deadLettered hdest' =>
          rw [hdest] at hdest'
          cases hdest'
      | dropped hdest' => exact hreads

/-- The ack of a hop whose failure reached the retry handler. -/
theorem acked_mem_iff (hsafe : env.SettlesSafely) (ha : HandedOver env queue policy d error safe a)
    (ht : Settled env safe t) (failure : Option Thrown) :
    .acked true ∈ [.handled d failure] ++ (a ++ t) ↔ safe = true := by
  have hquiet := ha.not_acked true
  cases ht with
  | acked => simp
  | ackThrew hthrows ok => exact absurd hsafe hthrows
  | requeued ok hok => simp [hquiet]

/-- **A failure that reached the retry handler** is acknowledged safely, unless the message is dropped with
its counter ahead of the runs. -/
theorem acksSafely_handedOver_iff (hsafe : env.SettlesSafely) (stamps : DeathHeaders names)
    (hreply : truthyText d.properties.replyTo = false) (hretriable : error.isDeserialization = false)
    (hreads : error.reads = true) (ha : HandedOver env queue policy d error safe a)
    (ht : Settled env safe t) (hquiet : Quiet [.handled d (some error)]) (pending : List Delivery) :
    AcksSafely policy s { log := s.log ++ ([.handled d (some error)] ++ (a ++ t)), pending } ↔
      (policy.deadLetterTo = none ∧ policy.attemptLimit ≤ handlerRuns s.log + 1) ∨
        ∀ n, attemptsMade d = .ok n → n.below policy.attemptLimit = true ∨ policy.deadLetterTo ≠ none := by
  have houtcome := HandedOver.outcome stamps hquiet ha ht
  have hruns : handlerRuns (s.log ++ ([.handled d (some error)] ++ (a ++ t))) = handlerRuns s.log + 1 := by
    rw [handlerRuns_append, handlerRuns_append, handlerRuns_append, ha.handlerRuns_eq, ht.handlerRuns_eq]
    rfl
  unfold AcksSafely
  dsimp only
  rw [List.drop_left, acked_mem_iff hsafe ha ht, hruns]
  push_cast
  generalize copiesBack queue stamps ([.handled d (some error)] ++ (a ++ t)) = back at houtcome
  generalize confirmedCopies .retry ([.handled d (some error)] ++ (a ++ t)) = retried at houtcome ⊢
  generalize confirmedCopies .deadLetter ([.handled d (some error)] ++ (a ++ t)) = dead at houtcome ⊢
  constructor
  · intro hacks
    -- only a message that is dropped with its counter ahead of the runs is at stake
    by_cases hdropped : ∃ n, attemptsMade d = .ok n ∧ n.below policy.attemptLimit = false ∧
        policy.deadLetterTo = none
    · obtain ⟨n, hcount, hlimit, hdest⟩ := hdropped
      have hretry : retries policy n error = false :=
        (retries_eq_false_iff policy n error).mpr (.inr hlimit)
      have hthrough := safe_of_dropped ha hcount hretry hdest hreply hreads
      obtain ⟨hburied, -⟩ := houtcome.of_not_retries hthrough hcount hretry
      refine .inl ?_
      rcases hacks hthrough with hcopy | hletter | hlast
      · cases houtcome with
        | retried hcount' hretry' =>
            obtain rfl := Except.ok.inj (hcount.symm.trans hcount')
            rw [hretry] at hretry'
            cases hretry'
        | nothing | deadLettered | dropped => exact absurd rfl hcopy
      · cases hburied with
        | deadLettered hdest' =>
            rw [hdest] at hdest'
            cases hdest'
        | dropped hdest' => exact absurd rfl hletter
      · exact hlast
    · refine .inr fun n hcount => ?_
      by_contra hnot
      rw [not_or, Bool.not_eq_true, not_not] at hnot
      exact hdropped ⟨n, hcount, hnot⟩
  · intro hcase hthrough
    cases houtcome with
    | nothing => cases hthrough
    | retried hcount hretry => exact .inl (List.cons_ne_nil _ _)
    | deadLettered hcount hretry hdest hcause => exact .inr (.inl (List.cons_ne_nil _ _))
    | dropped hcount hretry hdest =>
        refine .inr (.inr (hcase.resolve_right fun hcounted => ?_))
        rw [retries_eq_false_iff, hretriable] at hretry
        rcases hcounted _ hcount with hbelow | hkept
        · rw [hretry.resolve_left (by decide)] at hbelow
          cases hbelow
        · exact hkept hdest

/-- **One hop.**  When the action fails, the hop acknowledges safely exactly when the failure is
harmless. -/
theorem hop_acksSafely_iff (hsafe : env.SettlesSafely) (stamps : DeathHeaders names) (hs : Unattended s)
    (hfails : ActionFails env consumer options s) :
    AcksSafely policy s (hop (retryConsumer (actionEnv env consumer) options .rpc queue policy) queue s
      stamps) ↔ Harmless env consumer options policy s := by
  have hsafe' : (actionEnv env consumer).SettlesSafely := hsafe
  cases hpending : s.pending with
  | nil =>
      rw [hop_of_empty hpending]
      refine iff_of_true (fun hack => ?_) (fun e he => ?_)
      · rw [List.drop_length] at hack
        cases hack
      · simp [actionRun, hpending] at he
  | cons d rest =>
      have hreply := hs d (by rw [hpending]; exact .head _)
      have hhop {new : List Event} (hnew : (retryConsumer (actionEnv env consumer) options .rpc queue
          policy (some d)).added s.log = new) :
          hop (retryConsumer (actionEnv env consumer) options .rpc queue policy) queue s stamps =
            { log := s.log ++ new, pending := pendingAfter queue stamps d rest new } := by
        unfold hop
        rw [hpending]
        dsimp only
        rw [hnew]
      cases hkey : matchesRoutingKey d.routingKey options.routingKey with
      | false =>
          rw [hhop (rpc_misrouted hsafe' hkey s.log)]
          refine iff_of_true (fun hack => ?_) (fun e he => ?_)
          · dsimp only at hack
            rw [List.drop_left] at hack
            simp at hack
          · simp [actionRun, hpending, hkey] at he
      | true =>
          obtain ⟨e, he⟩ := hfails d (by rw [hpending]; rfl) hkey
          obtain ⟨message, hmsg, hmethod⟩ := actionRun_error hpending he
          have hharmless : Harmless env consumer options policy s ↔
              (policy.deadLetterTo = none ∧ policy.attemptLimit ≤ handlerRuns s.log + 1) ∨
                (e.nullish = true ∧ ∀ n, attemptsMade d = .ok n →
                  n.below policy.attemptLimit = true ∨ policy.deadLetterTo ≠ none) := by
            unfold Harmless
            simp [he, hpending]
          rw [hharmless]
          cases hnull : e.nullish with
          | true =>
              -- describing the failure throws, and the retry handler gets the message after all
              obtain ⟨e', he', hretriable, hreads⟩ := dispatch_of_nullish consumer hmethod hnull
              have hdecoded : tryDeserializeMessage (actionEnv env consumer) options d = .ok message := hmsg
              have hthrew : (actionEnv env consumer).handler s.log message d = .error e' := he'
              have hfail : FailsAt (actionEnv env consumer) options d s.log e' [.handled d (some e')] :=
                .threw hdecoded hthrew
              have hadmits : ConsumerKind.rpc.admits options d = true := by simp [ConsumerKind.admits, hkey]
              obtain ⟨safe, a, t, ha, ht, -, hadded⟩ := added_of_failsAt queue policy hadmits hfail
              rw [hhop hadded, acksSafely_handedOver_iff hsafe' stamps hreply hretriable hreads ha ht
                (hfail.failed .rpc).quiet]
              simp
          | false =>
              -- the failure is an ordinary result here: no reply, one ack
              obtain ⟨error, hvalue⟩ := dispatch_of_not_nullish consumer hmethod hnull
              rw [hhop (added_of_value hsafe' hkey hmsg hvalue hreply)]
              have hruns : handlerRuns (s.log ++ [.handled d none, .acked true]) =
                  handlerRuns s.log + 1 := handlerRuns_append _ _
              unfold AcksSafely
              dsimp only
              rw [List.drop_left, hruns]
              simp [confirmedCopies, Event.confirmed?]

end Coverage

/-! ## Every run -/

/-- **Which failures of an action are covered by its retry policy.**  For every topic whose consumer has
a retry policy, every message that nobody awaits a reply to, and every run in which the action fails
whenever it is run, with any failures of the broker on the way: all acknowledgements of the run are safe
exactly when all its failures are harmless. -/
theorem action_acksSafely_iff (env : ConsumerEnv) (hsafe : env.SettlesSafely) (config : BrokerConfig)
    (consumer : ActionConsumer) (binding : RpcBinding) (queue : String) (policy : RetryPolicyConfig)
    (hpolicy : resolveErrorHandler config.connection binding.options .rpc = .retry policy)
    (names : List String) (msg : Delivery) (hreply : truthyText msg.properties.replyTo = false)
    (hops : List (DeathHeaders names)) :
    let step (s : Lineage) (stamps : DeathHeaders names) : Lineage :=
      hop (topicConsumer env config consumer binding queue) queue s stamps
    Along step (fun s _ => ActionFails env consumer binding.options s) { pending := [msg] } hops →
    (Along step (fun s stamps => AcksSafely policy s (step s stamps)) { pending := [msg] } hops ↔
      Along step (fun s _ => Harmless env consumer binding.options policy s) { pending := [msg] } hops) := by
  intro step hfails
  have hconsumer : topicConsumer env config consumer binding queue =
      retryConsumer (actionEnv env consumer) binding.options .rpc queue policy := by
    unfold topicConsumer retryConsumer
    rw [hpolicy]
  have hsafe' : (actionEnv env consumer).SettlesSafely := hsafe
  have hstart : Unattended { pending := [msg] } := List.forall_mem_singleton.mpr hreply
  refine hfails.congr (fun s stamps hs hfail => ?_) hstart
  show Unattended (hop (topicConsumer env config consumer binding queue) queue s stamps) ∧
    (AcksSafely policy s (hop (topicConsumer env config consumer binding queue) queue s stamps) ↔ _)
  rw [hconsumer]
  exact ⟨hs.hop hsafe' stamps, hop_acksSafely_iff hsafe stamps hs hfail⟩

/-- A topic of one action, `write`, that throws `thrown` on every run. -/
def failingAction (thrown : Thrown) : ActionConsumer where
  topic := "docs"
  actions := [("write", { params := [], method := fun _ _ => .threw thrown })]

/-- The message `publishMessage` sends to it, as the default deserialiser reads it. -/
def publishedEnv : ConsumerEnv :=
  { failingConsumer with deserialize := fun _ => .ok (.obj [("action", .str "write"), ("payload", .obj [])]) }

/-- The topic's path: a queue bound to its own name, three attempts, then the dead-letter exchange. -/
def docsBinding : RpcBinding where
  queue := some "docs"
  exchange := some "rlb"
  options :=
    { routingKey := some (.one "docs")
      retry := some { maxAttempts := some 3, deadLetter := some { exchange := "dead" } } }

/-- An action that throws `null`: every hop is covered. -/
theorem action_acksSafely_null :
    Along (fun s stamps => hop (topicConsumer publishedEnv {} (failingAction (.value .null)) docsBinding
        "docs") "docs" s stamps)
      (fun s stamps => AcksSafely { maxAttempts := some 3, deadLetter := some { exchange := "dead" } } s
        (hop (topicConsumer publishedEnv {} (failingAction (.value .null)) docsBinding "docs") "docs" s
          stamps))
      { pending := [{ routingKey := "docs", content := [] }] } [noHeaders] := by
  refine (action_acksSafely_iff publishedEnv (fun _ => ⟨rfl, rfl⟩) {} (failingAction (.value .null))
    docsBinding "docs" { maxAttempts := some 3, deadLetter := some { exchange := "dead" } } rfl []
    { routingKey := "docs", content := [] } rfl [noHeaders] ?_).mpr ?_
  · refine ⟨fun d hd hkey => ⟨.value .null, ?_⟩, trivial⟩
    obtain rfl := Option.some.inj hd
    rfl
  · refine ⟨fun e he => .inr ⟨?_, fun d _ n _ => .inr (by decide)⟩, trivial⟩
    obtain rfl : Thrown.value .null = e := by
      have hrun : actionRun publishedEnv (failingAction (.value .null)) docsBinding.options
        { pending := [{ routingKey := "docs", content := [] }] } =
          some (.error (.value .null)) := rfl
      rw [hrun] at he
      exact Except.error.inj (Option.some.inj he)
    rfl

/-- An action that throws an `Error`: its first failure is acknowledged and gone, two attempts and a
dead letter short of the policy. -/
theorem action_acksUnsafely_error :
    ¬ ∀ (env : ConsumerEnv) (config : BrokerConfig) (consumer : ActionConsumer) (binding : RpcBinding)
      (queue : String) (policy : RetryPolicyConfig) (msg : Delivery) (hops : List (DeathHeaders [])),
      env.SettlesSafely →
      resolveErrorHandler config.connection binding.options .rpc = .retry policy →
      truthyText msg.properties.replyTo = false →
      Along (fun s stamps => hop (topicConsumer env config consumer binding queue) queue s stamps)
        (fun s _ => ActionFails env consumer binding.options s) { pending := [msg] } hops →
      Along (fun s stamps => hop (topicConsumer env config consumer binding queue) queue s stamps)
        (fun s stamps => AcksSafely policy s
          (hop (topicConsumer env config consumer binding queue) queue s stamps))
        { pending := [msg] } hops := by
  intro h
  have hlost := h publishedEnv {} (failingAction (.error { name := "Error", message := "boom" }))
    docsBinding "docs" { maxAttempts := some 3, deadLetter := some { exchange := "dead" } }
    { routingKey := "docs", content := [] } [noHeaders] (fun _ => ⟨rfl, rfl⟩) rfl rfl
    ⟨fun d hd hkey => ⟨_, by obtain rfl := Option.some.inj hd; rfl⟩, trivial⟩
  rcases hlost.1 (.tail _ (.head _)) with hcase | hcase | hcase
  · exact hcase rfl
  · exact hcase rfl
  · exact absurd hcase.1 (by decide)

end NestAmqp.Broker
