/-
# NestAmqp.Amqp.RpcLineage — the retries of an RPC consumer, and its routing-key check on the way back.

A retry copy comes back through the default exchange, so its routing key is the name of the work queue.
An RPC consumer checks the routing key of every delivery against its own pattern, copies included.  On a
broker that takes everything this module follows a failing message to its end and says exactly when the
retries the policy promises are made.
-/
import NestAmqp.Amqp.SubscriberLineage

namespace NestAmqp.Amqp

open NestAmqp.Js
open NestAmqp.Lib
open NestAmqp.Lib.Machine

/-! ## Counting replies -/

def Event.isReply : Event → Bool
  | .published .reply _ _ | .published .errorReply _ _ => true
  | _ => false

/-- How many replies, of either kind, were sent. -/
def replies (log : List Event) : Nat := log.countP Event.isReply

/-- The error replies that were sent. -/
def errorReplies (log : List Event) : List Publication := log.filterMap fun
  | .published .errorReply message _ => some message
  | _ => none

/-- A rejection threw a delivery away. -/
def Discards (log : List Event) : Prop := ∃ ok, .nacked false ok ∈ log

@[simp] theorem replies_append (l r : List Event) : replies (l ++ r) = replies l + replies r :=
  List.countP_append

@[simp] theorem errorReplies_append (l r : List Event) :
    errorReplies (l ++ r) = errorReplies l ++ errorReplies r := List.filterMap_append

theorem discards_append (l r : List Event) : Discards (l ++ r) ↔ Discards l ∨ Discards r := by
  unfold Discards
  simp only [List.mem_append, exists_or]

/-! ## A broker that takes everything -/

/-- Every publish, assertion and settlement succeeds. -/
structure ConsumerEnv.AllSucceed (env : ConsumerEnv) : Prop where
  publish : ∀ log purpose message, env.publish log purpose message = .ok ()
  serialize : ∀ v, env.serialize v = .ok ()
  assertRetryWaitQueue : ∀ log waitQueue, env.assertRetryWaitQueue log waitQueue = .ok ()
  settles : env.SettlesSafely

/-- Every step that hands a message over succeeds, and so does the ack; a rejection may fail. -/
structure ConsumerEnv.HandsOver (env : ConsumerEnv) : Prop where
  publish : ∀ log purpose message, env.publish log purpose message = .ok ()
  serialize : ∀ v, env.serialize v = .ok ()
  assertRetryWaitQueue : ∀ log waitQueue, env.assertRetryWaitQueue log waitQueue = .ok ()
  ack : ∀ log, env.ack log = .ok ()

theorem ConsumerEnv.AllSucceed.handsOver {env : ConsumerEnv} (h : env.AllSucceed) : env.HandsOver :=
  ⟨h.publish, h.serialize, h.assertRetryWaitQueue, fun log => (h.settles log).1⟩

/-- The error replies of a message that is used up: one, to a caller that waits. -/
inductive ErrorRepliesFor (queue : String) (d : Delivery) (error : Thrown) (n : JsNumber) :
    List Publication → Prop
  | unasked (hawaits : awaitsReply d = false) : ErrorRepliesFor queue d error n []
  | sent (hawaits : awaitsReply d = true) {cause : PlainError} (hcause : errorToPlain error = .ok cause)
      {text : String} (htext : printed cause.message = .ok text) :
      ErrorRepliesFor queue d error n [exhaustedReply queue d cause text n]

section Success

variable {env : ConsumerEnv} {queue : String} {policy : RetryPolicyConfig} {d : Delivery}
  {error : Thrown} {n : JsNumber} {a t : List Event}

theorem ConsumerEnv.HandsOver.publishAnswer (hall : env.HandsOver) (log : List Event) (purpose : Purpose)
    (message : Publication) : env.publishAnswer log purpose message = .ok () := by
  have hserialized : env.serialized message.body = .ok () := by
    unfold ConsumerEnv.serialized
    split
    · rfl
    · split
      · rfl
      · exact hall.serialize _
  unfold ConsumerEnv.publishAnswer
  rw [hserialized, hall.publish]
  rfl

theorem ensures_publish_ok (hall : env.HandsOver) (purpose : Purpose) (message : Publication) :
    (env.publishMessage purpose message).Ensures fun r _ => r = .ok () := by
  refine (Traced.ensures_perform _ _).mono ?_
  rintro r t ⟨⟨log, hr⟩, -⟩
  rw [hr]
  exact hall.publishAnswer log purpose message

theorem ensures_scheduleRetry_ok (hall : env.HandsOver) :
    (scheduleRetry env queue policy d n).Ensures fun r _ => r = .ok () := by
  unfold scheduleRetry
  split
  · refine Traced.ensures_bind (Traced.ensures_perform _ _) ?_ ?_
    · rintro u t -
      exact ensures_publish_ok hall _ _
    · rintro e t ⟨⟨log, hr⟩, -⟩
      unfold ConsumerEnv.assertAnswer at hr
      rw [hall.assertRetryWaitQueue] at hr
      cases hr
  · exact ensures_publish_ok hall _ _

theorem ensures_line_ok (hreads : error.reads = true) :
    (convert .outcomeLine error.messageLine).Ensures fun r _ => r = .ok () := by
  rw [Thrown.messageLine_of_reads hreads]
  exact Traced.ensures_pure rfl

theorem ensures_handOver_ok (hall : env.HandsOver) (hcount : attemptsMade d = .ok n)
    (htold : Told env queue policy d error) :
    (handOver env queue policy d error).Ensures fun r _ => r = .ok () := by
  unfold handOver
  rw [hcount]
  refine Traced.ensures_bind (P := fun r _ => r = .ok n) (Traced.ensures_pure rfl) ?_ ?_
  · rintro n' t ⟨⟩
    split
    · refine Traced.ensures_bind (ensures_scheduleRetry_ok hall) ?_ ?_
      · rintro u t -
        exact ensures_line_ok htold.reads
      · rintro e t ⟨⟩
    next hretry =>
      have hretry : retries policy n error = false := Bool.eq_false_iff.mpr hretry
      refine Traced.ensures_bind (ensures_replyErrorToRpcCaller env queue d error n) ?_ ?_
      · rintro u t -
        unfold exhaust
        split
        next dest hdest =>
          obtain ⟨cause, hcause⟩ := htold.described n hcount hretry (by simp [hdest])
          rw [hcause]
          refine Traced.ensures_bind (P := fun r _ => r = .ok cause) (Traced.ensures_pure rfl) ?_ ?_
          · rintro cause' t ⟨⟩
            refine Traced.ensures_bind (ensures_publish_ok hall _ _) ?_ ?_
            · rintro u t -
              exact ensures_line_ok htold.reads
            · rintro e t ⟨⟩
          · rintro e t ⟨⟩
        next => exact ensures_line_ok htold.reads
      · -- a reply that can be told does not fail
        rintro e t ⟨-, hreply⟩
        obtain ⟨hawaits, hnot⟩ := hreply.not_contained
        exact absurd (htold.replied n hcount hretry hawaits (htold.tellable hcount hretry)) hnot
  · rintro e t ⟨⟩

/-- On such a broker the retry handler hands the message over and acks it. -/
theorem ensures_retryErrorHandler_ok (hall : env.HandsOver) (hcount : attemptsMade d = .ok n)
    (htold : Told env queue policy d error) :
    (retryErrorHandler env queue policy d error).Ensures fun _ t =>
      ∃ a, HandedOver env queue policy d error true a ∧ t = a ++ [.acked true] := by
  unfold retryErrorHandler
  refine Traced.ensures_tryCatch (P := fun r t => r = .ok () ∧
    ∃ a, HandedOver env queue policy d error true a ∧ t = a ++ [.acked true]) ?_ ?_ ?_
  · refine Traced.ensures_bind ((ensures_handOver env queue policy d error).and
      (ensures_handOver_ok hall hcount htold)) ?_ ?_
    · rintro u a ⟨⟨-, ha⟩, -⟩
      refine (Traced.ensures_perform _ _).mono ?_
      rintro r t ⟨⟨log, hr⟩, rfl⟩
      have hack : env.ackAnswer log = .ok () := by
        unfold ConsumerEnv.ackAnswer
        rw [hall.ack]
        rfl
      rw [hack] at hr
      subst hr
      exact ⟨rfl, a, ha, rfl⟩
    · rintro e t ⟨-, h⟩
      cases h
  · rintro u t ⟨-, h⟩
    exact h
  · rintro e t ⟨h, -⟩
    cases h

/-- The error replies of a reply step that came through. -/
theorem ErrorReplied.errorRepliesFor (hreads : error.reads = true)
    (h : ErrorReplied env queue d error n true t) :
    ErrorRepliesFor queue d error n (errorReplies t) := by
  cases h with
  | unasked hawaits => exact .unasked hawaits
  | untold hawaits hcause htext =>
      rw [prints_of_reads hreads hcause] at htext
      cases htext
  | sent hawaits hcause htext hserialized ok => exact .sent hawaits hcause htext

theorem replies_outcomeLine (error : Thrown) :
    replies (outcomeLine error) = 0 ∧ errorReplies (outcomeLine error) = [] ∧
      ¬ Discards (outcomeLine error) := by
  unfold outcomeLine Discards
  split <;> simp [replies, errorReplies, Event.isReply]

theorem ErrorReplied.not_discards {done : Bool} (h : ErrorReplied env queue d error n done t) :
    ¬ Discards t := by
  unfold Discards
  cases h <;> simp

/-- Scheduling a retry replies to nobody. -/
theorem Scheduled.counts (h : Scheduled queue policy d n true t) :
    replies t = 0 ∧ errorReplies t = [] ∧ ¬ Discards t := by
  unfold Discards
  cases h with
  | delayed hdelay ok => exact ⟨rfl, rfl, by simp⟩
  | immediate hdelay ok => exact ⟨rfl, rfl, by simp⟩

/-- What a hand-over that came through is: a retry that replied to nobody, or the end. -/
theorem HandedOver.counts (hreads : error.reads = true) (hcount : attemptsMade d = .ok n)
    {done : Bool} (h : HandedOver env queue policy d error done a) (hdone : done = true) : ¬ Discards a ∧
      ((retries policy n error = true ∧ replies a = 0 ∧ errorReplies a = []) ∨
        (retries policy n error = false ∧ ErrorRepliesFor queue d error n (errorReplies a))) := by
  cases h with
  | uncounted hcount' => cases hdone
  | rescheduleFailed hcount' hretry h => cases hdone
  | replyFailed hcount' hretry hreply => cases hdone
  | rescheduled hcount' hretry h =>
      obtain rfl := Except.ok.inj (hcount.symm.trans hcount')
      obtain ⟨hline, hlineReplies, hlineKept⟩ := replies_outcomeLine error
      obtain ⟨hnone, hreplies, hkept⟩ := h.counts
      rw [discards_append, replies_append, errorReplies_append, hnone, hreplies, hline, hlineReplies]
      exact ⟨not_or.mpr ⟨hkept, hlineKept⟩, .inl ⟨hretry, rfl, rfl⟩⟩
  | @exhausted n' hcount' hretry reply hreply done t h =>
      obtain rfl := Except.ok.inj (hcount.symm.trans hcount')
      obtain ⟨-, hlineReplies, hlineKept⟩ := replies_outcomeLine error
      have hend : errorReplies t = [] ∧ ¬ Discards t := by
        cases h with
        | undescribed hdest hcause => cases hdone
        | refused hdest hcause => cases hdone
        | dropped hdest => exact ⟨hlineReplies, hlineKept⟩
        | deadLettered hdest hcause =>
            refine ⟨hlineReplies, ?_⟩
            rintro ⟨ok, hok⟩
            exact hlineKept ⟨ok, by simpa using hok⟩
      rw [discards_append, errorReplies_append, hend.1, List.append_nil]
      exact ⟨not_or.mpr ⟨hreply.not_discards, hend.2⟩, .inr ⟨hretry, hreply.errorRepliesFor hreads⟩⟩

end Success

/-! ## The lineage -/

/-- What the policy promises for a message that keeps failing: `maxAttempts` handler runs, the first of the
message and the others of its copies, no reply before the last, one error reply to a caller that waits, the
last copy dead-lettered or dropped, and no copy thrown away on the way. -/
structure CompletesRetries (queue : String) (policy : RetryPolicyConfig) (msg : Delivery)
    (log : List Event) : Prop where
  runs : (handlerRuns log : Int) = policy.attemptLimit
  copies : ((confirmedCopies .retry log).length : Int) + 1 = policy.attemptLimit
  noEarlyReply : ∀ l r, log = l ++ r → 0 < handlerRuns r → replies l = 0
  /-- Of the last run, of a copy `d` that failed with `error`. -/
  last : ∃ before d error rest n, log = before ++ .handled d (some error) :: rest ∧ handlerRuns rest = 0 ∧
    d.properties.replyTo = msg.properties.replyTo ∧
    d.properties.correlationId = msg.properties.correlationId ∧ attemptsMade d = .ok n ∧
    ErrorRepliesFor queue d error n (errorReplies log) ∧
    Buried queue policy d error n (confirmedCopies .deadLetter log)
  kept : ¬ Discards log

/-- A failing message on a broker that takes everything, while it is retried.  Its counter is `a` at
first. -/
structure Retrying (options : MessageHandlerOptions) (names : List String) (queue : String)
    (policy : RetryPolicyConfig) (msg : Delivery) (a : JsNumber) (n : Nat) (d : Delivery)
    (log : List Event) : Prop where
  descends : Descends names queue policy msg n d
  runs : handlerRuns log = n
  copies : (confirmedCopies .retry log).length = n
  noReply : replies log = 0
  noErrorReply : errorReplies log = []
  noDeadLetter : confirmedCopies .deadLetter log = []
  kept : ¬ Discards log
  /-- Every copy but the last to come back has passed the check. -/
  admitted : 1 < n → matchesRoutingKey queue options.routingKey = true
  below : ∀ j < n, (raised a j).below policy.attemptLimit = true

/-- How the lineage of a failing message ends there: used up, or thrown away by the check. -/
inductive EndsAs (options : MessageHandlerOptions) (names : List String) (queue : String)
    (policy : RetryPolicyConfig) (msg : Delivery) (a : JsNumber) (log : List Event) : Prop
  | exhausted {n : Nat} {d : Delivery} {before rest : List Event} {error : Thrown}
      (h : Retrying options names queue policy msg a n d before)
      (hadmitted : 0 < n → matchesRoutingKey queue options.routingKey = true)
      (hlimit : (raised a n).below policy.attemptLimit = false)
      (hlog : log = before ++ .handled d (some error) :: rest) (hruns : handlerRuns rest = 0)
      (hcopies : confirmedCopies .retry rest = []) (hkept : ¬ Discards rest)
      (hreplies : ErrorRepliesFor queue d error (raised a n) (errorReplies rest))
      (hdead : Buried queue policy d error (raised a n) (confirmedCopies .deadLetter rest))
  | discarded (hlimit : a.below policy.attemptLimit = true)
      (hkey : matchesRoutingKey queue options.routingKey = false) (h : Discards log)

section Lineage

variable {env : ConsumerEnv} {options : MessageHandlerOptions} {names : List String}
  {queue : String} {policy : RetryPolicyConfig} {msg d : Delivery} {a : JsNumber}

/-- The check turns a delivery away: it is rejected for good. -/
theorem rpc_misrouted (hsafe : env.SettlesSafely)
    (hkey : matchesRoutingKey d.routingKey options.routingKey = false) (log : List Event) :
    (retryConsumer env options .rpc queue policy (some d)).added log = [.nacked false true] := by
  refine Traced.added_of_run (Traced.tryCatch_of_ok (a := ()) ?_)
  show rpcProcess env options d log = _
  unfold rpcProcess
  rw [if_neg (by simp [hkey])]
  unfold ConsumerEnv.nackMessage Traced.perform
  rw [hsafe.nackAnswer]
  rfl

/-- The invariant: retrying after `hops` hops, or ended. -/
structure RpcTracked (options : MessageHandlerOptions) (names : List String) (queue : String)
    (policy : RetryPolicyConfig) (msg : Delivery) (a : JsNumber) (hops : Nat) (s : Lineage) : Prop where
  retrying : ∀ d rest, s.pending = d :: rest →
    rest = [] ∧ Retrying options names queue policy msg a hops d s.log
  ended : s.pending = [] → EndsAs options names queue policy msg a s.log

theorem Retrying.start : Retrying options names queue policy msg a 0 msg [] where
  descends := Descends.refl names queue policy msg
  runs := rfl
  copies := rfl
  noReply := rfl
  noErrorReply := rfl
  noDeadLetter := rfl
  kept := by rintro ⟨ok, h⟩; cases h
  admitted h := by omega
  below j h := by omega

/-- What one hop makes of a copy that passes the check: the next copy, or the end. -/
inductive RpcFate (env : ConsumerEnv) (options : MessageHandlerOptions) (queue : String)
    (policy : RetryPolicyConfig) (stamps : DeathHeaders names) (log : List Event) (d : Delivery)
    (n : JsNumber) : Lineage → Prop
  | retried {e : Thrown} {rest : List Event} (hretry : retries policy n e = true)
      (hruns : handlerRuns rest = 0) (hcopies : confirmedCopies .retry rest = [retryCopy queue policy d n])
      (hreplies : replies rest = 0) (hnone : errorReplies rest = []) (hkept : ¬ Discards rest)
      (hdead : confirmedCopies .deadLetter rest = []) :
      RpcFate env options queue policy stamps log d n
        { log := log ++ .handled d (some e) :: rest, pending := [copyBack queue policy stamps d n] }
  | buried {e : Thrown} {rest : List Event} (hlimit : n.below policy.attemptLimit = false)
      (hruns : handlerRuns rest = 0) (hcopies : confirmedCopies .retry rest = [])
      (hreplies : ErrorRepliesFor queue d e n (errorReplies rest)) (hkept : ¬ Discards rest)
      (hdead : Buried queue policy d e n (confirmedCopies .deadLetter rest)) :
      RpcFate env options queue policy stamps log d n
        { log := log ++ .handled d (some e) :: rest, pending := [] }

/-- The check lets a delivery through: its handler throws, and the retry handler takes over. -/
theorem rpc_fate (hall : env.AllSucceed) (hfails : env.AlwaysRetriable)
    (hkey : matchesRoutingKey d.routingKey options.routingKey = true) {message : Value}
    (hmsg : tryDeserializeMessage env options d = .ok message) {n : JsNumber}
    (hcount : attemptsMade d = .ok n) {s : Lineage} (htold : s.Told env options .rpc queue policy)
    (hpending : s.pending = [d]) (stamps : DeathHeaders names) :
    RpcFate env options queue policy stamps s.log d n
      (hop (retryConsumer env options .rpc queue policy) queue s stamps) := by
  have hadmits : ConsumerKind.rpc.admits options d = true := by simp [ConsumerKind.admits, hkey]
  obtain ⟨e, he, hretriable⟩ := hfails s.log message d
  have hfail : FailsAt env options d s.log e [.handled d (some e)] := .threw hmsg he
  have htold : Told env queue policy d e := (htold d [] hpending hadmits).2 _ _ hfail
  obtain ⟨_, _, _, -, -, hadded, hrun⟩ := added_of_failsAt queue policy hadmits hfail
  -- nothing fails here: the hand-over comes through and the delivery is acked
  obtain ⟨-, b, hb, hend⟩ := (ensures_retryErrorHandler_ok hall.handsOver hcount htold).added
    (s.log ++ [.handled d (some e)])
  rw [← hadded, hend] at hrun
  have hquiet := (hfail.failed .rpc).quiet
  have hsettled : Settled env true [.acked true] := .acked
  have houtcome := HandedOver.outcome stamps hquiet hb hsettled
  have hhop : hop (retryConsumer env options .rpc queue policy) queue s stamps =
      { log := s.log ++ .handled d (some e) :: (b ++ [.acked true]),
        pending := copiesBack queue stamps ([.handled d (some e)] ++ (b ++ [.acked true])) } := by
    unfold hop pendingAfter
    rw [hpending]
    dsimp only
    rw [hrun, HandedOver.requeued_hop hall.settles hquiet hb hsettled]
    rfl
  rw [hhop]
  obtain ⟨hkept, hcases⟩ := hb.counts htold.reads hcount rfl
  have hruns : handlerRuns (b ++ [.acked true]) = 0 := by
    rw [handlerRuns_append, hb.handlerRuns_eq]
    rfl
  have hkept : ¬ Discards (b ++ [.acked true]) := by
    rw [discards_append, not_or]
    exact ⟨hkept, by simp [Discards]⟩
  have hsent (purpose : Purpose) : confirmedCopies purpose ([.handled d (some e)] ++ (b ++ [.acked true])) =
      confirmedCopies purpose (b ++ [.acked true]) := rfl
  rw [hsent, hsent] at houtcome
  generalize hretried : confirmedCopies .retry (b ++ [.acked true]) = retried at houtcome
  generalize hdead : confirmedCopies .deadLetter (b ++ [.acked true]) = dead at houtcome
  generalize copiesBack queue stamps ([.handled d (some e)] ++ (b ++ [.acked true])) = back at houtcome ⊢
  rcases hcases with ⟨hretry, hreplies, hnone⟩ | ⟨hretry, hreplies⟩
  · obtain ⟨rfl, rfl, rfl⟩ := houtcome.of_retries rfl hcount hretry
    refine .retried hretry hruns hretried ?_ ?_ hkept hdead
    · rw [replies_append, hreplies]
      rfl
    · rw [errorReplies_append, hnone]
      rfl
  · obtain ⟨hburied, rfl, rfl⟩ := houtcome.of_not_retries rfl hcount hretry
    rw [← hdead] at hburied
    refine .buried ?_ hruns hretried ?_ hkept hburied
    · rw [retries_eq_false_iff, hretriable] at hretry
      exact hretry.resolve_left (by decide)
    · rw [errorReplies_append]
      simpa [errorReplies] using hreplies

/-- One more failing run below the limit. -/
theorem Retrying.next {n : Nat} {log rest : List Event} {e : Thrown} {attempts : JsNumber}
    (h : Retrying options names queue policy msg a n d log)
    (hnames : RETRY_COUNT_HEADER ∉ names) (hmsg : attemptsMade msg = .ok a)
    (hfirst : 0 < n → matchesRoutingKey queue options.routingKey = true)
    (hcount : attemptsMade d = .ok attempts) (hretry : retries policy attempts e = true)
    (hruns : handlerRuns rest = 0) (hcopies : confirmedCopies .retry rest = [retryCopy queue policy d attempts])
    (hreplies : replies rest = 0) (hnone : errorReplies rest = []) (hkept : ¬ Discards rest)
    (hdead : confirmedCopies .deadLetter rest = []) (stamps : DeathHeaders names) :
    Retrying options names queue policy msg a (n + 1) (copyBack queue policy stamps d attempts)
      (log ++ .handled d (some e) :: rest) := by
  obtain rfl : raised a n = attempts := Except.ok.inj ((h.descends.attempts hnames a hmsg).symm.trans hcount)
  have hlog : log ++ .handled d (some e) :: rest = log ++ ([.handled d (some e)] ++ rest) := rfl
  rw [hlog]
  refine ⟨h.descends.copyBack hcount stamps, ?_, ?_, ?_, ?_, ?_, ?_, fun hn => hfirst (by omega),
    fun j hj => ?_⟩
  · rw [handlerRuns_append, handlerRuns_append, h.runs, hruns]
    rfl
  · rw [confirmedCopies_append, confirmedCopies_append, hcopies, List.length_append, h.copies]
    rfl
  · rw [replies_append, replies_append, h.noReply, hreplies]
    rfl
  · rw [errorReplies_append, errorReplies_append, h.noErrorReply, hnone]
    rfl
  · rw [confirmedCopies_append, confirmedCopies_append, h.noDeadLetter, hdead]
    rfl
  · simp only [discards_append, not_or]
    exact ⟨h.kept, by simp [Discards], hkept⟩
  · rcases Nat.lt_succ_iff_lt_or_eq.mp hj with hj | rfl
    · exact h.below j hj
    · exact below_of_retries hretry

/-- A copy that the check turns away: the message itself passed it. -/
theorem Retrying.discarded {hops : Nat} {log : List Event}
    (h : Retrying options names queue policy msg a hops d log)
    (hfirst : matchesRoutingKey msg.routingKey options.routingKey = true)
    (hkey : matchesRoutingKey d.routingKey options.routingKey = false) :
    EndsAs options names queue policy msg a (log ++ [.nacked false true]) := by
  have hpos : 0 < hops := by
    rcases Nat.eq_zero_or_pos hops with rfl | hpos
    · rw [h.descends.same rfl, hfirst] at hkey
      cases hkey
    · exact hpos
  refine .discarded (h.below 0 hpos) ?_ ⟨true, by simp⟩
  rwa [h.descends.routingKey hpos] at hkey

theorem RpcTracked.step (hall : env.AllSucceed) (hfails : env.AlwaysRetriable)
    (hnames : RETRY_COUNT_HEADER ∉ names) (hmsg : attemptsMade msg = .ok a)
    (hfirst : matchesRoutingKey msg.routingKey options.routingKey = true)
    (hdecodes : ∀ d, d.content = msg.content → ∃ v, tryDeserializeMessage env options d = .ok v)
    {hops : Nat} {s : Lineage} (h : RpcTracked options names queue policy msg a hops s)
    (htold : s.Told env options .rpc queue policy) (stamps : DeathHeaders names) :
    RpcTracked options names queue policy msg a (hops + 1)
      (hop (retryConsumer env options .rpc queue policy) queue s stamps) := by
  cases hpending : s.pending with
  | nil =>
      rw [hop_of_empty hpending]
      refine ⟨fun d rest hd => ?_, h.ended⟩
      rw [hpending] at hd
      cases hd
  | cons d rest =>
      obtain ⟨rfl, hretrying⟩ := h.retrying d rest hpending
      cases hkey : matchesRoutingKey d.routingKey options.routingKey with
      | false =>
          -- the check turns the copy away, for good
          have hhop : hop (retryConsumer env options .rpc queue policy) queue s stamps =
              { log := s.log ++ [.nacked false true], pending := [] } := by
            unfold hop
            rw [hpending]
            dsimp only
            rw [rpc_misrouted hall.settles hkey]
            rfl
          rw [hhop]
          exact ⟨fun d' rest hd' => (by cases hd'), fun _ => hretrying.discarded hfirst hkey⟩
      | true =>
          have hadmitted (hpos : 0 < hops) : matchesRoutingKey queue options.routingKey = true := by
            rwa [hretrying.descends.routingKey hpos] at hkey
          obtain ⟨message, hdecoded⟩ := hdecodes d hretrying.descends.content
          have hcount := hretrying.descends.attempts hnames a hmsg
          have hfate := rpc_fate hall hfails hkey hdecoded hcount htold hpending stamps
          generalize hop (retryConsumer env options .rpc queue policy) queue s stamps = s' at hfate ⊢
          cases hfate with
          | retried hretry hruns hcopies hreplies hnone hkept hdead =>
              refine ⟨fun d' rest hd' => ?_, fun hnone => (by cases hnone)⟩
              cases hd'
              exact ⟨rfl, hretrying.next hnames hmsg hadmitted hcount hretry hruns hcopies hreplies hnone hkept
                hdead stamps⟩
          | buried hlimit hruns hcopies hreplies hkept hdead =>
              exact ⟨fun d' rest hd' => (by cases hd'), fun _ =>
                .exhausted hretrying hadmitted hlimit rfl hruns hcopies hkept hreplies hdead⟩

end Lineage

/-! ## When the retries are made -/

/-- The retries the policy promises are possible: the counter is below the limit at each of the first
`maxAttempts - 1` failures and not at the next, and when there is a copy at all, the queue's own name passes
the check. -/
def RetriesReturn (options : MessageHandlerOptions) (queue : String) (policy : RetryPolicyConfig)
    (msg : Delivery) : Prop :=
  ∃ a, attemptsMade msg = .ok a ∧
    (∀ k : Nat, (k : Int) + 1 < policy.attemptLimit → (raised a k).below policy.attemptLimit = true) ∧
    (raised a (policy.attemptLimit - 1).toNat).below policy.attemptLimit = false ∧
    (1 < policy.attemptLimit → matchesRoutingKey queue options.routingKey = true)

/-- A run of the handler splits the log: no reply precedes the last run. -/
theorem noEarlyReply_of_last {before rest : List Event} {d : Delivery} {error : Thrown}
    (hbefore : replies before = 0) (hrest : handlerRuns rest = 0) {l r : List Event}
    (heq : before ++ .handled d (some error) :: rest = l ++ r) (hr : 0 < handlerRuns r) :
    replies l = 0 := by
  rcases List.append_eq_append_iff.mp heq with ⟨c, rfl, hc⟩ | ⟨c, rfl, hc⟩
  · cases c with
    | nil => rwa [List.append_nil]
    | cons x c =>
        -- `l` reaches past the last run, so `r` holds none
        exfalso
        have htail : rest = c ++ r := (List.cons.inj hc).2
        rw [htail, handlerRuns_append] at hrest
        omega
  · rw [replies_append] at hbefore
    omega

section Ended

variable {options : MessageHandlerOptions} {names : List String} {queue : String}
  {policy : RetryPolicyConfig} {msg d : Delivery} {a : JsNumber} {n : Nat} {log before rest : List Event}
  {error : Thrown}

/-- A lineage that was used up after `n` copies has had one run more. -/
theorem Retrying.completesRetries_iff (hnames : RETRY_COUNT_HEADER ∉ names)
    (hmsg : attemptsMade msg = .ok a) (h : Retrying options names queue policy msg a n d before)
    (hruns : handlerRuns rest = 0) (hcopies : confirmedCopies .retry rest = []) (hkept : ¬ Discards rest)
    (hreplies : ErrorRepliesFor queue d error (raised a n) (errorReplies rest))
    (hdead : Buried queue policy d error (raised a n) (confirmedCopies .deadLetter rest)) :
    CompletesRetries queue policy msg (before ++ .handled d (some error) :: rest) ↔
      (n : Int) + 1 = policy.attemptLimit := by
  have hlog : before ++ .handled d (some error) :: rest =
      before ++ ([.handled d (some error)] ++ rest) := rfl
  have hall : handlerRuns (before ++ .handled d (some error) :: rest) = n + 1 := by
    rw [hlog, handlerRuns_append, handlerRuns_append, h.runs, hruns]
    rfl
  constructor
  · intro hcompletes
    have hlimit := hcompletes.runs
    rw [hall] at hlimit
    push_cast at hlimit
    exact hlimit
  · intro hlimit
    refine ⟨by rw [hall]; push_cast; exact hlimit, ?_, fun l r heq hr =>
      noEarlyReply_of_last h.noReply hruns heq hr, ?_, ?_⟩
    · have hnone : confirmedCopies .retry ([.handled d (some error)] ++ rest) = [] := hcopies
      rw [hlog, confirmedCopies_append, hnone, List.append_nil, h.copies]
      exact hlimit
    · refine ⟨before, d, error, rest, raised a n, rfl, hruns, h.descends.replyTo,
        h.descends.correlationId, h.descends.attempts hnames a hmsg, ?_, ?_⟩
      · rw [hlog, errorReplies_append, errorReplies_append, h.noErrorReply]
        exact hreplies
      · rw [hlog, confirmedCopies_append, confirmedCopies_append, h.noDeadLetter]
        exact hdead
    · rw [hlog, discards_append, discards_append]
      rintro (hd | ⟨ok, hok⟩ | hd)
      · exact h.kept hd
      · simp at hok
      · exact hkept hd

/-- At the end of a lineage the promise is kept exactly when `RetriesReturn` held at its start. -/
theorem EndsAs.completesRetries_iff (hnames : RETRY_COUNT_HEADER ∉ names)
    (hmsg : attemptsMade msg = .ok a) (h : EndsAs options names queue policy msg a log) :
    CompletesRetries queue policy msg log ↔ RetriesReturn options queue policy msg := by
  have hlimit := policy.one_le_attemptLimit
  cases h with
  -- the copy was discarded: the promise is broken, and no key lets it come back
  | discarded hbelow hkey h =>
      refine iff_of_false (fun hcompletes => hcompletes.kept h) ?_
      rintro ⟨a', ha', -, hlast, hmatches⟩
      obtain rfl := Except.ok.inj (hmsg.symm.trans ha')
      rcases Int.lt_or_eq_of_le hlimit with hmany | hone
      · rw [hkey] at hmatches
        exact absurd (hmatches hmany) (by decide)
      · rw [← hone] at hlast hbelow
        rw [show ((1 : Int) - 1).toNat = 0 from rfl] at hlast
        exact absurd (hbelow.symm.trans hlast) (by decide)
  -- the retries ran out: the promise is about how many runs there were
  | @exhausted n d before rest error h hadmitted hbelow hlog hruns hcopies hkept hreplies hdead =>
      subst hlog
      rw [h.completesRetries_iff hnames hmsg hruns hcopies hkept hreplies hdead]
      constructor
      · intro hcount
        refine ⟨a, hmsg, fun k hk => h.below k (by omega), ?_, fun hmany => hadmitted (by omega)⟩
        rwa [show (policy.attemptLimit - 1).toNat = n by omega]
      · rintro ⟨a', ha', hearly, hlast, -⟩
        obtain rfl := Except.ok.inj (hmsg.symm.trans ha')
        rcases Int.lt_trichotomy ((n : Int) + 1) policy.attemptLimit with hlt | heq | hgt
        · rw [hearly n hlt] at hbelow
          cases hbelow
        · exact heq
        · rw [h.below _ (by omega)] at hlast
          cases hlast

end Ended

/-! ## Runs, copies and what was put back -/

section Accounted

variable {env : ConsumerEnv} {options : MessageHandlerOptions} {names : List String}
  {queue : String} {policy : RetryPolicyConfig} {msg : Delivery} {s : Lineage}

/-- Unless a delivery was thrown away, the runs and the deliveries still waiting make up for the message, its
confirmed copies and whatever was put back. -/
structure Accounted (msg : Delivery) (s : Lineage) : Prop where
  content : ∀ d ∈ s.pending, d.content = msg.content
  balance : ¬ Discards s.log →
    (confirmedCopies .retry s.log).length + 1 + (requeued s.log).toNat ≤ handlerRuns s.log + s.pending.length

/-- A failing run makes a copy, or puts its delivery back, or both; or it is the last of its message. -/
theorem Accounted.failed (h : Accounted msg s) {d : Delivery} {rest : List Delivery}
    (hpending : s.pending = d :: rest) {e : Thrown} {safe : Bool} {dead : List Publication}
    {back : List Delivery} {new : List Event} (stamps : DeathHeaders names) (hruns : handlerRuns new = 1)
    (hrequeued : requeued new = !safe)
    (houtcome : Outcome queue policy stamps d e safe (confirmedCopies .retry new) dead back) :
    Accounted msg
      { log := s.log ++ new, pending := (if safe then [] else [d]) ++ rest ++ back } := by
  have hback : (∀ d' ∈ back, d'.content = d.content) ∧
      (confirmedCopies .retry new).length = back.length := by
    generalize confirmedCopies .retry new = retried at houtcome
    cases houtcome with
    | nothing => exact ⟨by simp, rfl⟩
    | retried hcount hretry => exact ⟨fun d' hd' => by rw [List.mem_singleton.mp hd']; rfl, rfl⟩
    | deadLettered hcount hretry hdest hcause => exact ⟨by simp, rfl⟩
    | dropped hcount hretry hdest => exact ⟨by simp, rfl⟩
  have hd : d.content = msg.content := h.content d (by simp [hpending])
  constructor
  · intro d' hd'
    rcases List.mem_append.mp hd' with hd' | hd'
    · rcases List.mem_append.mp hd' with hd' | hd'
      · cases safe with
        | true => cases hd'
        | false => rw [List.mem_singleton.mp hd', hd]
      · exact h.content d' (by simp [hpending, hd'])
    · rw [hback.1 d' hd', hd]
  · intro hkept
    have hbalance := h.balance fun hdiscards => hkept ((discards_append _ _).mpr (.inl hdiscards))
    rw [hpending, List.length_cons] at hbalance
    rw [confirmedCopies_append, handlerRuns_append, requeued_append, hruns, hrequeued, List.length_append,
      List.length_append, List.length_append, hback.2]
    cases safe <;> cases hsome : requeued s.log <;> simp [hsome] at hbalance ⊢ <;> omega

/-- What a hop logs is behind what was logged before. -/
theorem requeued_hop_of_requeued {consumer : Option Delivery → Consuming Unit} (h : requeued s.log = true)
    (stamps : DeathHeaders names) : requeued (hop consumer queue s stamps).log = true := by
  unfold hop
  split
  · exact h
  · rw [requeued_append, h, Bool.true_or]

theorem Accounted.step (hsafe : env.SettlesSafely) (hfails : env.AlwaysFails)
    (hdecodes : ∀ d, d.content = msg.content → ∃ v, tryDeserializeMessage env options d = .ok v)
    (h : Accounted msg s) (stamps : DeathHeaders names) :
    Accounted msg (hop (retryConsumer env options .rpc queue policy) queue s stamps) := by
  cases hpending : s.pending with
  | nil => rwa [hop_of_empty hpending]
  | cons d rest =>
      cases hkey : matchesRoutingKey d.routingKey options.routingKey with
      | false =>
          unfold hop
          rw [hpending]
          dsimp only
          rw [rpc_misrouted hsafe hkey]
          refine ⟨fun d' hd' => h.content d' ?_, fun hkept => absurd ⟨true, by simp⟩ hkept⟩
          rw [hpending]
          exact List.mem_cons_of_mem _ (by simpa [pendingAfter, copiesBack, requeued, confirmedCopies,
            Event.confirmed?] using hd')
      | true =>
          have hadmits : ConsumerKind.rpc.admits options d = true := by simp [ConsumerKind.admits, hkey]
          obtain ⟨message, hmsg⟩ := hdecodes d (h.content d (by simp [hpending]))
          obtain ⟨e, he⟩ := hfails s.log message d
          have hfail : FailsAt env options d s.log e [.handled d (some e)] := .threw hmsg he
          obtain ⟨safe, a, s', ha, hs, hrequeued, hhop⟩ :=
            hop_of_failsAt queue policy hsafe hpending hadmits hfail stamps
          rw [hhop]
          refine h.failed hpending stamps ?_ hrequeued
            (HandedOver.outcome stamps (hfail.failed .rpc).quiet ha hs)
          rw [handlerRuns_append, handlerRuns_append, ha.handlerRuns_eq, hs.handlerRuns_eq]
          rfl

theorem accounted_lineage (hsafe : env.SettlesSafely) (hfails : env.AlwaysFails)
    (hdecodes : ∀ d, d.content = msg.content → ∃ v, tryDeserializeMessage env options d = .ok v)
    (hops : List (DeathHeaders names)) :
    Accounted msg (lineage (retryConsumer env options .rpc queue policy) queue msg hops) :=
  run_invariant (fun _ stamps h => h.step hsafe hfails hdecodes stamps)
    ⟨by simp, fun _ => Nat.le_refl 1⟩ hops

/-- A failure that cannot be told puts its delivery back. -/
theorem requeued_hop_of_untold (hsafe : env.SettlesSafely)
    (hcontent : ∀ d ∈ s.pending, d.content = msg.content)
    (hdecodes : ∀ d, d.content = msg.content → ∃ v, tryDeserializeMessage env options d = .ok v)
    (huntold : ¬ s.Told env options .rpc queue policy) (stamps : DeathHeaders names) :
    requeued (hop (retryConsumer env options .rpc queue policy) queue s stamps).log = true := by
  by_contra hkept
  refine huntold fun d rest hpending hadmits => ⟨fun cause hcause => ?_, fun e t hfail => ?_⟩
  · obtain ⟨v, hv⟩ := hdecodes d (hcontent d (by simp [hpending]))
    unfold tryDeserializeMessage at hv
    rw [hcause] at hv
    cases hv
  · obtain ⟨safe, a, s', ha, -, hrequeued, hhop⟩ :=
      hop_of_failsAt queue policy hsafe hpending hadmits hfail stamps
    rw [hhop, requeued_append, hrequeued] at hkept
    cases safe with
    | true => exact ha.told
    | false => simp at hkept

end Accounted

/-! ## The retries of a failing message -/

/-- A message whose counter does not convert stays where it is. -/
theorem uncounted_lineage {env : ConsumerEnv} (hall : env.AllSucceed) (hfails : env.AlwaysRetriable)
    {options : MessageHandlerOptions} {queue : String} {policy : RetryPolicyConfig} {names : List String}
    {msg : Delivery} (hfirst : matchesRoutingKey msg.routingKey options.routingKey = true) {e : Thrown}
    (huncounted : attemptsMade msg = .error e) (hops : List (DeathHeaders names)) :
    (lineage (retryConsumer env options .rpc queue policy) queue msg hops).pending = [msg] := by
  refine run_invariant (I := fun s : Lineage => s.pending = [msg]) (fun s stamps hpending => ?_) rfl hops
  obtain ⟨e', t, hfail⟩ := hfails.alwaysFails.failsAt options msg s.log
  have hadmits : ConsumerKind.rpc.admits options msg = true := by simp [ConsumerKind.admits, hfirst]
  obtain ⟨safe, b, s', hb, hs, -, hhop⟩ := hop_of_failsAt queue policy hall.settles hpending hadmits hfail
    stamps
  have houtcome := HandedOver.outcome stamps (hfail.failed .rpc).quiet hb hs
  rw [hhop]
  dsimp only
  generalize confirmedCopies .retry (t ++ (b ++ s')) = retried at houtcome
  generalize confirmedCopies .deadLetter (t ++ (b ++ s')) = dead at houtcome
  generalize copiesBack queue stamps (t ++ (b ++ s')) = back at houtcome ⊢
  cases houtcome with
  | nothing => rfl
  | retried hcount | deadLettered hcount | dropped hcount =>
      rw [huncounted] at hcount
      cases hcount

/-- As long as the errors can be told, the counter of the message and the queue's own name decide. -/
theorem completesRetries_of_told (env : ConsumerEnv) (hall : env.AllSucceed)
    (hfails : env.AlwaysRetriable) (options : MessageHandlerOptions) (queue : String)
    (policy : RetryPolicyConfig) (names : List String) (hnames : RETRY_COUNT_HEADER ∉ names)
    (msg : Delivery) (hfirst : matchesRoutingKey msg.routingKey options.routingKey = true)
    (hdecodes : ∀ d, d.content = msg.content → ∃ v, tryDeserializeMessage env options d = .ok v) :
    let step (s : Lineage) (stamps : DeathHeaders names) : Lineage :=
      hop (retryConsumer env options .rpc queue policy) queue s stamps
    let after (hops : List (DeathHeaders names)) : Lineage :=
      lineage (retryConsumer env options .rpc queue policy) queue msg hops
    (∀ hops, Along step (fun s _ => s.Told env options .rpc queue policy) { pending := [msg] } hops) →
    ((∃ n, ∀ hops, n ≤ hops.length →
        (after hops).pending = [] ∧ CompletesRetries queue policy msg (after hops).log) ↔
      RetriesReturn options queue policy msg) := by
  intro step after htold
  have hlong (n : Nat) : ∃ hops : List (DeathHeaders names), n ≤ hops.length :=
    ⟨List.replicate n ⟨[], by simp⟩, by simp⟩
  cases hmsg : attemptsMade msg with
  | error e =>
      refine iff_of_false ?_ ?_
      · rintro ⟨n, h⟩
        obtain ⟨hops, hlength⟩ := hlong n
        have hended := (h hops hlength).1
        rw [show (after hops).pending = [msg] from uncounted_lineage hall hfails hfirst hmsg hops] at hended
        cases hended
      · rintro ⟨a, ha, -⟩
        rw [hmsg] at ha
        cases ha
  | ok a =>
      have htracked (hops : List (DeathHeaders names)) :
          RpcTracked options names queue policy msg a hops.length (after hops) := by
        have h := (htold hops).counted (I := RpcTracked options names queue policy msg a)
          (fun _ _ stamps h htold => h.step hall hfails hnames hmsg hfirst hdecodes htold stamps)
          (n := 0) ⟨fun d rest hd => (by cases hd; exact ⟨rfl, .start⟩), fun h => (by cases h)⟩
        rwa [Nat.zero_add] at h
      constructor
      · rintro ⟨n, h⟩
        obtain ⟨hops, hlength⟩ := hlong n
        obtain ⟨hended, hcompletes⟩ := h hops hlength
        exact (((htracked hops).ended hended).completesRetries_iff hnames hmsg).mp hcompletes
      · intro hreturn
        refine ⟨policy.attemptLimit.toNat, fun hops hlength => ?_⟩
        have hended : (after hops).pending = [] := by
          -- a lineage that goes on is below the limit at every failure so far
          obtain ⟨a', ha', -, hlast, -⟩ := hreturn
          obtain rfl := Except.ok.inj (hmsg.symm.trans ha')
          by_contra hsome
          obtain ⟨d, rest, hpending⟩ := List.exists_cons_of_ne_nil hsome
          have hlimit := policy.one_le_attemptLimit
          rw [((htracked hops).retrying d rest hpending).2.below _ (by omega)] at hlast
          cases hlast
        exact ⟨hended, (((htracked hops).ended hended).completesRetries_iff hnames hmsg).mpr hreturn⟩

/-- **The retries of an RPC consumer.**  For every queue, pattern, policy and message that passes the
check at first and whose handler always throws a retriable error, on a broker that takes everything: the
lineage comes to an end with the policy's promise kept exactly when every failure can be told, the counter
of the message lets it and, where there is a copy, the queue's own name passes the check. -/
theorem rpc_completesRetries_iff (env : ConsumerEnv) (hall : env.AllSucceed)
    (hfails : env.AlwaysRetriable) (options : MessageHandlerOptions) (queue : String)
    (policy : RetryPolicyConfig) (names : List String) (hnames : RETRY_COUNT_HEADER ∉ names)
    (msg : Delivery) (hfirst : matchesRoutingKey msg.routingKey options.routingKey = true)
    (hdecodes : ∀ d, d.content = msg.content → ∃ v, tryDeserializeMessage env options d = .ok v) :
    let step (s : Lineage) (stamps : DeathHeaders names) : Lineage :=
      hop (retryConsumer env options .rpc queue policy) queue s stamps
    let after (hops : List (DeathHeaders names)) : Lineage :=
      lineage (retryConsumer env options .rpc queue policy) queue msg hops
    (∃ n, ∀ hops, n ≤ hops.length →
        (after hops).pending = [] ∧ CompletesRetries queue policy msg (after hops).log) ↔
      (∀ hops, Along step (fun s _ => s.Told env options .rpc queue policy) { pending := [msg] } hops) ∧
        RetriesReturn options queue policy msg := by
  intro step after
  have haccounted (hops : List (DeathHeaders names)) : Accounted msg (after hops) :=
    accounted_lineage hall.settles hfails.alwaysFails hdecodes hops
  have hiff := completesRetries_of_told env hall hfails options queue policy names hnames msg hfirst hdecodes
  constructor
  · intro hcompletes
    have htold : ∀ hops,
        Along step (fun s _ => s.Told env options .rpc queue policy) { pending := [msg] } hops := by
      obtain ⟨n, h⟩ := hcompletes
      intro hops
      refine along_iff_split.mpr fun l stamps r _ => ?_
      by_contra huntold
      -- what was put back is run again, beside every copy
      have hlong : n ≤ (l ++ stamps :: List.replicate n stamps).length := by
        rw [List.length_append, List.length_cons, List.length_replicate]
        omega
      obtain ⟨hended, hkept⟩ := h _ hlong
      have hback : requeued (after (l ++ stamps :: List.replicate n stamps)).log = true := by
        show requeued (run step { pending := [msg] } (l ++ stamps :: List.replicate n stamps)).log = true
        rw [run_append, run_cons]
        refine run_invariant (I := fun s : Lineage => requeued s.log = true)
          (fun s i hs => requeued_hop_of_requeued hs i) ?_ _
        exact requeued_hop_of_untold hall.settles (haccounted l).content hdecodes huntold stamps
      have hbalance := (haccounted (l ++ stamps :: List.replicate n stamps)).balance hkept.kept
      have hruns := hkept.runs
      have hcopies := hkept.copies
      rw [hended, hback, List.length_nil, Bool.toNat_true] at hbalance
      omega
    exact ⟨htold, (hiff htold).mp hcompletes⟩
  · rintro ⟨htold, hreturn⟩
    exact (hiff htold).mpr hreturn

/-- A fresh message under a pattern that also accepts the queue's name. -/
theorem rpc_completesRetries_orders :
    ∃ n, ∀ hops : List (DeathHeaders []), n ≤ hops.length →
      let s := lineage (retryConsumer failingConsumer { routingKey := some (.many ["order.*", "orders"]) }
        .rpc "orders" { maxAttempts := some 2 }) "orders" { routingKey := "order.created", content := [] } hops
      s.pending = [] ∧ CompletesRetries "orders" { maxAttempts := some 2 }
        { routingKey := "order.created", content := [] } s.log := by
  refine (rpc_completesRetries_iff failingConsumer
    ⟨fun _ _ _ => rfl, fun _ => rfl, fun _ _ => rfl, failingConsumer_settlesSafely⟩
    (fun _ _ _ => ⟨_, rfl, rfl⟩) { routingKey := some (.many ["order.*", "orders"]) } "orders"
    { maxAttempts := some 2 } [] (by simp) { routingKey := "order.created", content := [] } (by decide)
    (fun _ _ => ⟨_, rfl⟩)).mpr ⟨fun hops => ?_, ?_⟩
  · exact along_of_invariant (I := fun _ => True) (fun _ _ _ => trivial)
      (fun s _ _ => told_of_boom rfl (fun _ => rfl) (fun _ => rfl) _ .rpc "orders" _ s) trivial hops
  · refine ⟨.num 1, rfl, fun k hk => ?_, by decide, fun _ => by decide⟩
    obtain rfl : k = 0 := by
      change (k : Int) + 1 < 2 at hk
      omega
    decide

/-- Under the pattern `order.*` the first copy, now addressed to `orders`, is thrown away. -/
theorem rpc_completesRetries_lost :
    ¬ ∀ (env : ConsumerEnv) (options : MessageHandlerOptions) (queue : String)
      (policy : RetryPolicyConfig) (msg : Delivery) (hops : List (DeathHeaders [])),
      env.AllSucceed → env.AlwaysRetriable →
      (∀ d, ∃ v, tryDeserializeMessage env options d = .ok v) →
      matchesRoutingKey msg.routingKey options.routingKey = true →
      (lineage (retryConsumer env options .rpc queue policy) queue msg hops).pending = [] →
      CompletesRetries queue policy msg
        (lineage (retryConsumer env options .rpc queue policy) queue msg hops).log := by
  intro h
  have hlost := (h failingConsumer { routingKey := some (.one "order.*") } "orders"
    { maxAttempts := some 2 } { routingKey := "order.created", content := [] } [noHeaders, noHeaders]
    ⟨fun _ _ _ => rfl, fun _ => rfl, fun _ _ => rfl, failingConsumer_settlesSafely⟩
    (fun _ _ _ => ⟨_, rfl, rfl⟩) (fun _ => ⟨_, rfl⟩) (by decide) rfl).runs
  exact absurd hlost (by decide)

end NestAmqp.Amqp
