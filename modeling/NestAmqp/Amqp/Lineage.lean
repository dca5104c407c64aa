/-
# NestAmqp.Amqp.Lineage — a message and its retry copies, delivery after delivery.

A lineage is one message with all the copies its failures lead to.  One hop gives the first delivery in
the work queue to the consumer; what the callback logged decides what comes into the queue: the delivery
itself again after a requeue, in its old place, and the confirmed retry copy, at once or back from its wait
queue.  As long as whatever the handler says of an error converts to text, it is one of the two at most;
where it does not, a callback can both publish the copy and put the delivery back.
The broker's part is small and stated here: the default exchange routes by queue name, a wait queue
dead-letters to the queue it was asserted for, and a dead-lettered copy may carry headers the broker
adds.
-/
import NestAmqp.Amqp.Settlement
import NestAmqp.Lib.Machine

namespace NestAmqp.Amqp

open NestAmqp.Js
open NestAmqp.Lib

/-! ## What a log confirms -/

/-- The publication an event confirms, when it was made for `purpose`. -/
def Event.confirmed? (purpose : Purpose) : Event → Option Publication
  | .published p message true => if p = purpose then some message else none
  | _ => none

/-- The confirmed publications of a log that were made for `purpose`, in order. -/
def confirmedCopies (purpose : Purpose) (log : List Event) : List Publication :=
  log.filterMap (Event.confirmed? purpose)

/-- How many steps that hand the message over failed. -/
def failures (log : List Event) : Nat := log.countP Event.failedStep

def Event.isRun : Event → Bool
  | .handled _ _ => true
  | _ => false

/-- How often the handler was run. -/
def handlerRuns (log : List Event) : Nat := log.countP Event.isRun

/-- A rejection put the delivery back in its queue. -/
def requeued (log : List Event) : Bool := log.any fun
  | .nacked true true => true
  | _ => false

@[simp] theorem confirmedCopies_append (purpose : Purpose) (l r : List Event) :
    confirmedCopies purpose (l ++ r) = confirmedCopies purpose l ++ confirmedCopies purpose r :=
  List.filterMap_append

theorem confirmedCopies_cons (purpose : Purpose) (e : Event) (l : List Event) :
    confirmedCopies purpose (e :: l) = (e.confirmed? purpose).toList ++ confirmedCopies purpose l := by
  unfold confirmedCopies
  rw [List.filterMap_cons]
  cases e.confirmed? purpose <;> rfl

@[simp] theorem failures_append (l r : List Event) : failures (l ++ r) = failures l + failures r :=
  List.countP_append

@[simp] theorem handlerRuns_append (l r : List Event) :
    handlerRuns (l ++ r) = handlerRuns l + handlerRuns r := List.countP_append

@[simp] theorem requeued_append (l r : List Event) :
    requeued (l ++ r) = (requeued l || requeued r) := List.any_append

/-! ## The broker's part -/

/-- Headers the broker adds to a copy it dead-letters, all among `names`. -/
structure DeathHeaders (names : List String) where
  fields : Obj
  only : ∀ kv ∈ fields, kv.1 ∈ names

/-- The queue a wait queue was asserted to dead-letter to. -/
def waitTarget (t : List Event) (waitQueue : String) : Option String := t.findSome? fun
  | .asserted w _ target true => if w = waitQueue then some target else none
  | _ => none

/-- The bytes of a publication; a value still to be serialised is no retry copy. -/
def Body.bytes : Body → Content
  | .raw content => content
  | .json _ => []

/-- A broker that adds nothing. -/
def noHeaders : DeathHeaders [] := ⟨[], by simp⟩

/-- A copy published through the default exchange, as it is delivered: from the queue its routing key
names, or from the queue that wait queue dead-letters to.  The delivery's routing key is the one of the
last publish or dead-lettering. -/
def arrival {names : List String} (stamps : DeathHeaders names) (t : List Event)
    (message : Publication) : Delivery :=
  match waitTarget t message.routingKey with
  | some target =>
      { routingKey := target, content := message.body.bytes,
        properties := { message.properties with
          headers := some (Obj.assign (message.properties.headers.getD []) stamps.fields) } }
  | none =>
      { routingKey := message.routingKey, content := message.body.bytes,
        properties := message.properties }

/-- The copies a callback that logged `t` has sent to the work queue. -/
def copiesBack {names : List String} (queue : String) (stamps : DeathHeaders names) (t : List Event) :
    List Delivery :=
  ((confirmedCopies .retry t).map (arrival stamps t)).filter fun d => d.routingKey == queue

/-- What a callback that logged `t` on the first delivery `d` leaves in the queue. -/
def pendingAfter {names : List String} (queue : String) (stamps : DeathHeaders names) (d : Delivery)
    (rest : List Delivery) (t : List Event) : List Delivery :=
  (if requeued t then [d] else []) ++ rest ++ copiesBack queue stamps t

/-- A lineage: everything logged so far, and the deliveries in the work queue. -/
structure Lineage where
  log : List Event := []
  pending : List Delivery

/-- One hop: the consumer gets the first delivery. -/
def hop {names : List String} (consumer : Option Delivery → Consuming Unit) (queue : String)
    (s : Lineage) (stamps : DeathHeaders names) : Lineage :=
  match s.pending with
  | [] => s
  | d :: rest =>
      { log := s.log ++ (consumer (some d)).added s.log
        pending := pendingAfter queue stamps d rest ((consumer (some d)).added s.log) }

/-- The lineage of `msg` after some hops. -/
def lineage {names : List String} (consumer : Option Delivery → Consuming Unit) (queue : String)
    (msg : Delivery) (hops : List (DeathHeaders names)) : Lineage :=
  Machine.run (hop consumer queue) { pending := [msg] } hops

/-! ## Copies -/

/-- The `n`-th retry copy of `d` as it comes back to the work queue. -/
def copyBack {names : List String} (queue : String) (policy : RetryPolicyConfig)
    (stamps : DeathHeaders names) (d : Delivery) (n : JsNumber) : Delivery where
  routingKey := queue
  content := d.content
  properties :=
    let properties := retryProperties policy d n []
    if 0 < policy.delay then
      { properties with headers := some (Obj.assign (properties.headers.getD []) stamps.fields) }
    else properties

theorem DeathHeaders.own_eq_none {names : List String} (stamps : DeathHeaders names) {name : String}
    (h : name ∉ names) : Obj.own stamps.fields name = none := by
  rw [Obj.own_eq_none_iff]
  rintro kv hkv rfl
  exact h (stamps.only kv hkv)

theorem own_retryProperties (policy : RetryPolicyConfig) (d : Delivery) (attempts : JsNumber)
    (extra : Obj) (name : String) :
    Obj.own ((retryProperties policy d attempts extra).headers.getD []) name =
      (Obj.own extra name).or (if name = RETRY_COUNT_HEADER then some attempts.toValue
        else Obj.own (d.properties.headers.getD []) name) := by
  simp [retryProperties]

/-- The broker's headers aside, a copy carries the counter and the headers of what it copies. -/
theorem own_copyBack {names : List String} (queue : String) (policy : RetryPolicyConfig)
    (stamps : DeathHeaders names) (d : Delivery) (n : JsNumber) {name : String} (h : name ∉ names) :
    Obj.own ((copyBack queue policy stamps d n).properties.headers.getD []) name =
      if name = RETRY_COUNT_HEADER then some n.toValue
      else Obj.own (d.properties.headers.getD []) name := by
  unfold copyBack
  dsimp only
  split
  · simp [own_retryProperties, stamps.own_eq_none h]
  · simp [own_retryProperties]

/-- The counter survives the hop: the next failure is the next attempt. -/
theorem attemptsMade_copyBack {names : List String} (hnames : RETRY_COUNT_HEADER ∉ names)
    (queue : String) (policy : RetryPolicyConfig) (stamps : DeathHeaders names) (d : Delivery)
    (n : JsNumber) : attemptsMade (copyBack queue policy stamps d n) = .ok n.addOne := by
  have hheader : (copyBack queue policy stamps d n).header RETRY_COUNT_HEADER = n.toValue := by
    unfold Delivery.header Obj.get
    rw [own_copyBack queue policy stamps d n hnames, if_pos rfl]
    rfl
  have hcoalesce : n.toValue.coalesce (.num 0) = n.toValue := by cases n <;> rfl
  unfold attemptsMade
  rw [hheader, hcoalesce, Number_toValue]
  rfl

/-- A counter after so many more attempts. -/
def raised (n : JsNumber) : Nat → JsNumber
  | 0 => n
  | k + 1 => (raised n k).addOne

@[simp] theorem raised_num (a : Int) (k : Nat) : raised (.num a) k = .num (a + k) := by
  induction k with
  | zero => simp [raised]
  | succ k ih =>
      rw [raised, ih, JsNumber.addOne_num]
      congr 1
      push_cast
      omega

/-- `d` is `msg` after `n` retry hops: the message itself at first, then a delivery from the work queue
with the same content, properties and headers, the counter and the broker's own headers aside. -/
structure Descends (names : List String) (queue : String) (policy : RetryPolicyConfig)
    (msg : Delivery) (n : Nat) (d : Delivery) : Prop where
  same : n = 0 → d = msg
  routingKey : 0 < n → d.routingKey = queue
  content : d.content = msg.content
  replyTo : d.properties.replyTo = msg.properties.replyTo
  correlationId : d.properties.correlationId = msg.properties.correlationId
  other : d.properties.other = msg.properties.other
  expiration : d.properties.expiration =
    if 0 < n ∧ 0 < policy.delay then none else msg.properties.expiration
  headers : ∀ name, name ≠ RETRY_COUNT_HEADER → name ∉ names →
    Obj.own (d.properties.headers.getD []) name = Obj.own (msg.properties.headers.getD []) name
  attempts : RETRY_COUNT_HEADER ∉ names → ∀ a, attemptsMade msg = .ok a →
    attemptsMade d = .ok (raised a n)

theorem Descends.refl (names : List String) (queue : String) (policy : RetryPolicyConfig)
    (msg : Delivery) : Descends names queue policy msg 0 msg where
  same _ := rfl
  routingKey h := absurd h (Nat.lt_irrefl 0)
  content := rfl
  replyTo := rfl
  correlationId := rfl
  other := rfl
  expiration := by simp
  headers _ _ _ := rfl
  attempts _ a h := h

/-- One more hop. -/
theorem Descends.copyBack {names : List String} {queue : String} {policy : RetryPolicyConfig}
    {msg d : Delivery} {n : Nat} (h : Descends names queue policy msg n d) {attempts : JsNumber}
    (hcount : attemptsMade d = .ok attempts) (stamps : DeathHeaders names) :
    Descends names queue policy msg (n + 1) (copyBack queue policy stamps d attempts) where
  same h := by omega
  routingKey _ := rfl
  content := h.content
  replyTo := by
    rw [← h.replyTo]
    unfold Amqp.copyBack
    dsimp only
    split <;> rfl
  correlationId := by
    rw [← h.correlationId]
    unfold Amqp.copyBack
    dsimp only
    split <;> rfl
  other := by
    rw [← h.other]
    unfold Amqp.copyBack
    dsimp only
    split <;> rfl
  expiration := by
    unfold Amqp.copyBack
    dsimp only
    split
    next hdelay => simp [retryProperties, hdelay]
    next hdelay => simp [retryProperties, hdelay, h.expiration]
  headers name hname hnames := by
    rw [own_copyBack queue policy stamps d attempts hnames, if_neg hname]
    exact h.headers name hname hnames
  attempts hnames a ha := by
    obtain rfl := Except.ok.inj (hcount.symm.trans (h.attempts hnames a ha))
    exact attemptsMade_copyBack hnames queue policy stamps d _

/-! ## One hop of a failing delivery -/

/-- Events that neither hand the message over nor settle it. -/
structure Quiet (t : List Event) : Prop where
  retried : confirmedCopies .retry t = []
  deadLettered : confirmedCopies .deadLetter t = []
  failures : failures t = 0
  requeued : requeued t = false
  waitTarget : ∀ w, waitTarget t w = none

/-- What a failing hop confirmed and sends back, by whether the message came through. -/
inductive Outcome {names : List String} (queue : String) (policy : RetryPolicyConfig)
    (stamps : DeathHeaders names) (d : Delivery) (error : Thrown) :
    Bool → List Publication → List Publication → List Delivery → Prop
  | nothing : Outcome queue policy stamps d error false [] [] []
  | retried {n : JsNumber} (hcount : attemptsMade d = .ok n) (hretry : retries policy n error = true) :
      Outcome queue policy stamps d error error.reads [retryCopy queue policy d n] []
        [copyBack queue policy stamps d n]
  | deadLettered {n : JsNumber} (hcount : attemptsMade d = .ok n) (hretry : retries policy n error = false)
      {dest : DeadLetter} (hdest : policy.deadLetterTo = some dest) {cause : PlainError}
      (hcause : errorToPlain error = .ok cause) :
      Outcome queue policy stamps d error error.reads []
        [deadLetterCopy queue policy dest d cause n] []
  | dropped {n : JsNumber} (hcount : attemptsMade d = .ok n) (hretry : retries policy n error = false)
      (hdest : policy.deadLetterTo = none) : Outcome queue policy stamps d error error.reads [] [] []

/-- What the end of a delivery that failed with `error` leaves behind: a dead letter, if the policy keeps
exhausted messages. -/
inductive Buried (queue : String) (policy : RetryPolicyConfig) (d : Delivery) (error : Thrown)
    (n : JsNumber) : List Publication → Prop
  | deadLettered {dest : DeadLetter} (hdest : policy.deadLetterTo = some dest) {cause : PlainError}
      (hcause : errorToPlain error = .ok cause) :
      Buried queue policy d error n [deadLetterCopy queue policy dest d cause n]
  | dropped (hdest : policy.deadLetterTo = none) : Buried queue policy d error n []

section Hop

variable {env : ConsumerEnv} {queue : String} {policy : RetryPolicyConfig} {d : Delivery}
  {error : Thrown} {n : JsNumber} {safe done : Bool} {t a s : List Event}

theorem Settled.requeued_eq (hsafe : env.SettlesSafely) (h : Settled env safe s) :
    Amqp.requeued s = !safe := by
  cases h with
  | acked => rfl
  | ackThrew hthrows ok => exact absurd hsafe hthrows
  | requeued ok hok => simp [Amqp.requeued, hok hsafe]

theorem Settled.confirmed (h : Settled env safe s) (purpose : Purpose) :
    confirmedCopies purpose s = [] := by
  cases h <;> simp [confirmedCopies, Event.confirmed?]

theorem Settled.failures_eq (h : Settled env safe s) : failures s = 0 := by
  cases h <;> simp [failures, Event.failedStep]

theorem Settled.waitTarget_eq (h : Settled env safe s) (w : String) : waitTarget s w = none := by
  cases h <;> simp [waitTarget]

@[simp] theorem confirmedCopies_outcomeLine (purpose : Purpose) (error : Thrown) :
    confirmedCopies purpose (outcomeLine error) = [] := by
  unfold outcomeLine
  split <;> rfl

@[simp] theorem requeued_outcomeLine (error : Thrown) : requeued (outcomeLine error) = false := by
  unfold outcomeLine
  split <;> rfl

@[simp] theorem failures_outcomeLine (error : Thrown) :
    failures (outcomeLine error) = if error.reads then 0 else 1 := by
  unfold outcomeLine
  split <;> rfl

theorem waitTarget_outcomeLine (error : Thrown) (w : String) : waitTarget (outcomeLine error) w = none := by
  unfold outcomeLine
  split <;> rfl

theorem ErrorReplied.confirmed (h : ErrorReplied env queue d error n done t) {purpose : Purpose}
    (hpurpose : purpose ≠ .errorReply) : confirmedCopies purpose t = [] := by
  cases h with
  | unasked hawaits => rfl
  | undescribed hawaits hcause => rfl
  | untold hawaits hcause htext => rfl
  | sent hawaits hcause htext hserialized ok =>
      cases ok <;> simp [confirmedCopies, Event.confirmed?, hpurpose.symm]
  | lineThrew hawaits hcause htext hserialized hline => simp [confirmedCopies, Event.confirmed?]

/-- A reply requeues nothing, and its failure is no failed step. -/
theorem ErrorReplied.unsettled (h : ErrorReplied env queue d error n done t) :
    requeued t = false ∧ failures t = 0 := by
  cases h <;> exact ⟨rfl, rfl⟩

/-- A copy that came through was confirmed. -/
theorem Scheduled.confirmed (h : Scheduled queue policy d n done t) :
    confirmedCopies .retry t = (if done then [retryCopy queue policy d n] else []) ∧
      confirmedCopies .deadLetter t = [] := by
  cases h with
  | assertFailed hdelay => exact ⟨rfl, rfl⟩
  | delayed hdelay ok => cases done <;> exact ⟨rfl, rfl⟩
  | immediate hdelay ok => cases done <;> exact ⟨rfl, rfl⟩

theorem Scheduled.unsettled (h : Scheduled queue policy d n done t) :
    requeued t = false ∧ failures t = if done then 0 else 1 := by
  cases h with
  | assertFailed hdelay => exact ⟨rfl, rfl⟩
  | delayed hdelay ok => cases done <;> exact ⟨rfl, rfl⟩
  | immediate hdelay ok => cases done <;> exact ⟨rfl, rfl⟩

/-- Where the log says a confirmed retry copy goes: home through its wait queue, or straight home. -/
theorem Scheduled.waitTarget_eq (h : Scheduled queue policy d n true t) :
    waitTarget t (retryCopy queue policy d n).routingKey = if 0 < policy.delay then some queue else none := by
  cases h with
  | delayed hdelay ok => simp [waitTarget, retryCopy, hdelay]
  | immediate hdelay ok => simp [waitTarget, hdelay]

/-- A hand-over itself requeues nothing. -/
theorem HandedOver.requeued_eq (h : HandedOver env queue policy d error safe a) : requeued a = false := by
  cases h with
  | uncounted hcount => rfl
  | rescheduleFailed hcount hretry h => exact h.unsettled.1
  | rescheduled hcount hretry h => simp [h.unsettled.1]
  | replyFailed hcount hretry hreply => exact hreply.unsettled.1
  | exhausted hcount hretry hreply h =>
      rw [requeued_append, hreply.unsettled.1]
      cases h with
      | deadLettered hdest hcause => exact requeued_outcomeLine error
      | dropped hdest => exact requeued_outcomeLine error
      | undescribed hdest hcause => rfl
      | refused hdest hcause => rfl

theorem ErrorReplied.handlerRuns_eq (h : ErrorReplied env queue d error n done t) : handlerRuns t = 0 := by
  cases h <;> rfl

theorem Scheduled.handlerRuns_eq (h : Scheduled queue policy d n done t) : handlerRuns t = 0 := by
  cases h <;> rfl

theorem handlerRuns_outcomeLine (error : Thrown) : handlerRuns (outcomeLine error) = 0 := by
  unfold outcomeLine
  split <;> rfl

theorem Exhausted.handlerRuns_eq (h : Exhausted queue policy d error n done t) : handlerRuns t = 0 := by
  cases h with
  | undescribed hdest hcause => rfl
  | refused hdest hcause => rfl
  | deadLettered hdest hcause => exact handlerRuns_outcomeLine error
  | dropped hdest => exact handlerRuns_outcomeLine error

/-- Handing a message over runs no handler. -/
theorem HandedOver.handlerRuns_eq (h : HandedOver env queue policy d error safe a) : handlerRuns a = 0 := by
  cases h with
  | uncounted hcount => rfl
  | rescheduleFailed hcount hretry h => exact h.handlerRuns_eq
  | rescheduled hcount hretry h => rw [handlerRuns_append, h.handlerRuns_eq, handlerRuns_outcomeLine]
  | replyFailed hcount hretry hreply => exact hreply.handlerRuns_eq
  | exhausted hcount hretry hreply h => rw [handlerRuns_append, hreply.handlerRuns_eq, h.handlerRuns_eq]

theorem Settled.handlerRuns_eq (h : Settled env safe s) : handlerRuns s = 0 := by
  cases h <;> rfl

theorem waitTarget_append (l r : List Event) (w : String) :
    waitTarget (l ++ r) w = (waitTarget l w).or (waitTarget r w) := List.findSome?_append

/-- The rest of the hop does not change where the copy goes. -/
theorem Scheduled.waitTarget_hop (h : Scheduled queue policy d n true a) (ht : Quiet t)
    (hs : Settled env safe s) :
    waitTarget (t ++ ((a ++ outcomeLine error) ++ s)) (retryCopy queue policy d n).routingKey =
      if 0 < policy.delay then some queue else none := by
  rw [waitTarget_append, ht.waitTarget, waitTarget_append, waitTarget_append, waitTarget_outcomeLine,
    hs.waitTarget_eq, h.waitTarget_eq, Option.or_none, Option.or_none, Option.none_or]

/-- A confirmed retry copy comes back to the queue it left: an immediate one because the default exchange
routes by queue name, a delayed one because its wait queue was asserted for that queue. -/
theorem Scheduled.arrival_eq {names : List String} (stamps : DeathHeaders names)
    (h : Scheduled queue policy d n true a) (ht : Quiet t) (hs : Settled env safe s) :
    arrival stamps (t ++ ((a ++ outcomeLine error) ++ s)) (retryCopy queue policy d n) =
      copyBack queue policy stamps d n := by
  unfold arrival
  rw [h.waitTarget_hop ht hs]
  by_cases hdelay : 0 < policy.delay
  · simp [hdelay, copyBack, retryCopy, Body.bytes]
  · simp [hdelay, copyBack, retryCopy, Body.bytes]

/-- What a hand-over that came through is when the failure is retried. -/
theorem HandedOver.scheduled (h : HandedOver env queue policy d error done a) (hdone : done = true)
    (hcount : attemptsMade d = .ok n) (hretry : retries policy n error = true) :
    ∃ b, Scheduled queue policy d n true b ∧ a = b ++ outcomeLine error := by
  cases h with
  | uncounted hcount' => cases hdone
  | rescheduleFailed hcount' hretry' h => cases hdone
  | replyFailed hcount' hretry' hreply => cases hdone
  | rescheduled hcount' hretry' h =>
      obtain rfl := Except.ok.inj (hcount.symm.trans hcount')
      exact ⟨_, h, rfl⟩
  | exhausted hcount' hretry' hreply h =>
      obtain rfl := Except.ok.inj (hcount.symm.trans hcount')
      rw [hretry] at hretry'
      cases hretry'

theorem Exhausted.confirmed_retry (h : Exhausted queue policy d error n done t) :
    confirmedCopies .retry t = [] := by
  cases h with
  | undescribed hdest hcause => rfl
  | refused hdest hcause => rfl
  | deadLettered hdest hcause => exact confirmedCopies_outcomeLine .retry error
  | dropped hdest => exact confirmedCopies_outcomeLine .retry error

/-- A copy is made only of a delivery with attempts left. -/
theorem HandedOver.mem_confirmed (h : HandedOver env queue policy d error done a) {message : Publication}
    (hmem : message ∈ confirmedCopies .retry a) :
    ∃ n, attemptsMade d = .ok n ∧ retries policy n error = true ∧ message = retryCopy queue policy d n := by
  cases h with
  | uncounted hcount => cases hmem
  | rescheduleFailed hcount hretry h =>
      rw [h.confirmed.1] at hmem
      cases hmem
  | rescheduled hcount hretry h =>
      rw [confirmedCopies_append, h.confirmed.1, confirmedCopies_outcomeLine, List.append_nil] at hmem
      exact ⟨_, hcount, hretry, List.mem_singleton.mp hmem⟩
  | replyFailed hcount hretry hreply =>
      rw [hreply.confirmed (by decide)] at hmem
      cases hmem
  | exhausted hcount hretry hreply h =>
      rw [confirmedCopies_append, hreply.confirmed (by decide), h.confirmed_retry] at hmem
      cases hmem

/-- **What a failing hop leads to.** -/
theorem HandedOver.outcome {names : List String} (stamps : DeathHeaders names) (ht : Quiet t)
    (ha : HandedOver env queue policy d error safe a) (hs : Settled env safe s) :
    Outcome queue policy stamps d error safe (confirmedCopies .retry (t ++ (a ++ s)))
      (confirmedCopies .deadLetter (t ++ (a ++ s))) (copiesBack queue stamps (t ++ (a ++ s))) := by
  have hall {purpose : Purpose} (hquiet : confirmedCopies purpose t = []) :
      confirmedCopies purpose (t ++ (a ++ s)) = confirmedCopies purpose a := by
    rw [confirmedCopies_append, confirmedCopies_append, hquiet, hs.confirmed, List.append_nil,
      List.nil_append]
  unfold copiesBack
  rw [hall ht.retried, hall ht.deadLettered]
  cases ha with
  | uncounted hcount => exact .nothing
  | rescheduleFailed hcount hretry h =>
      rw [h.confirmed.1, h.confirmed.2]
      exact .nothing
  | @rescheduled n hcount hretry a h =>
      rw [confirmedCopies_append, confirmedCopies_append, h.confirmed.1, h.confirmed.2,
        confirmedCopies_outcomeLine, confirmedCopies_outcomeLine]
      simp only [if_true, List.append_nil, List.map_cons, List.map_nil, h.arrival_eq stamps ht hs]
      -- the copy is addressed to the work queue, so it comes back
      have hback : List.filter (fun d => d.routingKey == queue) [copyBack queue policy stamps d n] =
          [copyBack queue policy stamps d n] := List.filter_cons_of_pos (beq_self_eq_true queue)
      rw [hback]
      exact .retried hcount hretry
  | replyFailed hcount hretry hreply =>
      rw [hreply.confirmed (by decide), hreply.confirmed (by decide)]
      exact .nothing
  | exhausted hcount hretry hreply h =>
      rw [confirmedCopies_append, confirmedCopies_append, hreply.confirmed (by decide),
        hreply.confirmed (by decide)]
      cases h with
      | undescribed hdest hcause => exact .nothing
      | refused hdest hcause => exact .nothing
      | deadLettered hdest hcause =>
          rw [confirmedCopies_cons, confirmedCopies_cons, confirmedCopies_outcomeLine,
            confirmedCopies_outcomeLine]
          exact .deadLettered hcount hretry hdest hcause
      | dropped hdest =>
          rw [confirmedCopies_outcomeLine, confirmedCopies_outcomeLine]
          exact .dropped hcount hretry hdest

/-- A safe hop on a failure to be retried sends the one copy. -/
theorem Outcome.of_retries {names : List String} {stamps : DeathHeaders names}
    {retried dead : List Publication} {back : List Delivery}
    (h : Outcome queue policy stamps d error safe retried dead back) (hsafe : safe = true)
    (hcount : attemptsMade d = .ok n) (hretry : retries policy n error = true) :
    retried = [retryCopy queue policy d n] ∧ dead = [] ∧ back = [copyBack queue policy stamps d n] := by
  cases h with
  | nothing => cases hsafe
  | retried hcount' hretry' =>
      obtain rfl := Except.ok.inj (hcount.symm.trans hcount')
      exact ⟨rfl, rfl, rfl⟩
  | deadLettered hcount' hretry' | dropped hcount' hretry' =>
      obtain rfl := Except.ok.inj (hcount.symm.trans hcount')
      rw [hretry] at hretry'
      cases hretry'

/-- A safe hop on a failure that is not retried leaves nothing but the dead letter. -/
theorem Outcome.of_not_retries {names : List String} {stamps : DeathHeaders names}
    {retried dead : List Publication} {back : List Delivery}
    (h : Outcome queue policy stamps d error safe retried dead back) (hsafe : safe = true)
    (hcount : attemptsMade d = .ok n) (hretry : retries policy n error = false) :
    Buried queue policy d error n dead ∧ retried = [] ∧ back = [] := by
  cases h with
  | nothing => cases hsafe
  | retried hcount' hretry' =>
      obtain rfl := Except.ok.inj (hcount.symm.trans hcount')
      rw [hretry] at hretry'
      cases hretry'
  | deadLettered hcount' hretry' hdest hcause =>
      obtain rfl := Except.ok.inj (hcount.symm.trans hcount')
      exact ⟨.deadLettered hdest hcause, rfl, rfl⟩
  | dropped hcount' hretry' hdest => exact ⟨.dropped hdest, rfl, rfl⟩

/-- The delivery is put back exactly when the message did not come through. -/
theorem HandedOver.requeued_hop (hsafe : env.SettlesSafely) (ht : Quiet t)
    (ha : HandedOver env queue policy d error safe a) (hs : Settled env safe s) :
    requeued (t ++ (a ++ s)) = !safe := by
  rw [requeued_append, requeued_append, ht.requeued, ha.requeued_eq, hs.requeued_eq hsafe,
    Bool.false_or, Bool.false_or]

end Hop

/-! ## A consumer that always fails -/

/-- Every handler run throws. -/
def ConsumerEnv.AlwaysFails (env : ConsumerEnv) : Prop :=
  ∀ log message d, ∃ e, env.handler log message d = .error e

/-- Every handler run throws an error that a retry may cure. -/
def ConsumerEnv.AlwaysRetriable (env : ConsumerEnv) : Prop :=
  ∀ log message d, ∃ e, env.handler log message d = .error e ∧ e.isDeserialization = false

theorem ConsumerEnv.AlwaysRetriable.alwaysFails {env : ConsumerEnv} (h : env.AlwaysRetriable) :
    env.AlwaysFails := by
  intro log message d
  obtain ⟨e, he, -⟩ := h log message d
  exact ⟨e, he⟩

/-- The consumer of a queue with a retry policy. -/
def retryConsumer (env : ConsumerEnv) (options : MessageHandlerOptions) (kind : ConsumerKind)
    (queue : String) (policy : RetryPolicyConfig) : Option Delivery → Consuming Unit :=
  consume env options kind ((ErrorHandler.retry policy).handle env queue)

/-- The ways a delivery fails: it cannot be deserialised, its handler throws, or what the handler
returned cannot be answered. -/
inductive Failed (env : ConsumerEnv) (options : MessageHandlerOptions) (kind : ConsumerKind)
    (d : Delivery) : Thrown → List Event → Prop
  | undecodable {e : Thrown} (hmsg : tryDeserializeMessage env options d = .error e) :
      Failed env options kind d e []
  | threw {message : Value} (hmsg : tryDeserializeMessage env options d = .ok message) {e : Thrown}
      (he : ∃ log, env.handler log message d = .error e) :
      Failed env options kind d e [.handled d (some e)]
  | unanswered {message : Value} (hmsg : tryDeserializeMessage env options d = .ok message)
      {response : Value} (hv : ∃ log, env.handler log message d = .ok (.value response))
      {t : List Event} (ht : Answered options kind d response false t) (e : Thrown) :
      Failed env options kind d e (.handled d none :: t)

/-- The two ways a delivery fails whose handler, run with this log behind it, throws. -/
inductive FailsAt (env : ConsumerEnv) (options : MessageHandlerOptions) (d : Delivery) (log : List Event) :
    Thrown → List Event → Prop
  | undecodable {e : Thrown} (hmsg : tryDeserializeMessage env options d = .error e) :
      FailsAt env options d log e []
  | threw {message : Value} (hmsg : tryDeserializeMessage env options d = .ok message) {e : Thrown}
      (he : env.handler log message d = .error e) : FailsAt env options d log e [.handled d (some e)]

section Consumer

variable {env : ConsumerEnv} {options : MessageHandlerOptions} {kind : ConsumerKind}
  {queue : String} {policy : RetryPolicyConfig} {d : Delivery} {log : List Event}

theorem Failed.quiet {e : Thrown} {t : List Event} (h : Failed env options kind d e t) : Quiet t := by
  cases h with
  | undecodable hmsg => exact ⟨rfl, rfl, rfl, rfl, fun _ => rfl⟩
  | threw hmsg he => exact ⟨rfl, rfl, rfl, rfl, fun _ => rfl⟩
  | unanswered hmsg hv ht e => cases ht <;> exact ⟨rfl, rfl, rfl, rfl, fun _ => rfl⟩

theorem FailsAt.failed {e : Thrown} {t : List Event} (h : FailsAt env options d log e t)
    (kind : ConsumerKind) : Failed env options kind d e t := by
  cases h with
  | undecodable hmsg => exact .undecodable hmsg
  | threw hmsg he => exact .threw hmsg ⟨log, he⟩

theorem ConsumerEnv.AlwaysFails.failsAt (h : env.AlwaysFails) (options : MessageHandlerOptions)
    (d : Delivery) (log : List Event) : ∃ e t, FailsAt env options d log e t := by
  cases hmsg : tryDeserializeMessage env options d with
  | error e => exact ⟨e, [], .undecodable hmsg⟩
  | ok message =>
      obtain ⟨e, he⟩ := h log message d
      exact ⟨e, _, .threw hmsg he⟩

/-- Under a handler that always throws, an undecodable delivery is the only one that is not
retriable. -/
theorem Failed.isDeserialization_iff (hfails : env.AlwaysRetriable) {e : Thrown} {t : List Event}
    (h : Failed env options kind d e t) :
    e.isDeserialization = true ↔
      ∃ e', tryDeserializeMessage env options d = .error e' ∧ e'.isDeserialization = true := by
  cases h with
  | undecodable hmsg =>
      simp [hmsg]
  | @threw message hmsg e he =>
      obtain ⟨log, he⟩ := he
      obtain ⟨e', he', hretriable⟩ := hfails log message d
      obtain rfl : e' = e := Except.error.inj (he'.symm.trans he)
      simp [hretriable, hmsg]
  | @unanswered message hmsg response hv t ht e =>
      obtain ⟨log, hv⟩ := hv
      obtain ⟨e', he', -⟩ := hfails log message d
      rw [hv] at he'
      cases he'

/-- The `try` block of a delivery that passes the check and fails. -/
theorem process_of_failsAt (hadmits : kind.admits options d = true) {e : Thrown} {t : List Event}
    (h : FailsAt env options d log e t) : kind.process env options d log = (.error e, log ++ t) := by
  have hprocess : Amqp.process env options kind d log = (.error e, log ++ t) := by
    unfold Amqp.process
    cases h with
    | undecodable hmsg =>
        rw [hmsg, List.append_nil]
        exact Traced.bind_of_error rfl
    | threw hmsg he =>
        rw [hmsg]
        refine (Traced.bind_of_ok rfl).trans (Traced.bind_of_error ?_)
        simp only [ConsumerEnv.runHandler, Traced.perform, he]
  cases kind with
  | subscribe => exact hprocess
  | rpc =>
      have hkey : matchesRoutingKey d.routingKey options.routingKey = true := by
        simpa [ConsumerKind.admits] using hadmits
      show rpcProcess env options d log = _
      unfold rpcProcess
      rw [if_pos hkey]
      exact hprocess

/-- A delivery that passes the check and fails: the retry handler gets the message. -/
theorem added_of_failsAt (queue : String) (policy : RetryPolicyConfig)
    (hadmits : kind.admits options d = true) {e : Thrown} {t : List Event}
    (h : FailsAt env options d log e t) :
    ∃ safe a s, HandedOver env queue policy d e safe a ∧ Settled env safe s ∧
      (retryErrorHandler env queue policy d e).added (log ++ t) = a ++ s ∧
      (retryConsumer env options kind queue policy (some d)).added log = t ++ (a ++ s) := by
  obtain ⟨hlog, hok, safe, a, s, ha, hs, hadded⟩ :=
    (ensures_retryErrorHandler env queue policy d e).added (log ++ t)
  refine ⟨safe, a, s, ha, hs, hadded, Traced.added_of_run (r := .ok ()) ?_⟩
  refine (Traced.tryCatch_of_error (process_of_failsAt hadmits h)).trans (Traced.tryCatch_of_ok ?_)
  rw [hadded, List.append_assoc] at hlog
  exact Prod.ext hok hlog

/-- The hop of such a delivery: its log, and what it leaves. -/
theorem hop_of_failsAt (queue : String) (policy : RetryPolicyConfig) (hsafe : env.SettlesSafely)
    {names : List String} {s : Lineage} {rest : List Delivery} (hpending : s.pending = d :: rest)
    (hadmits : kind.admits options d = true) {e : Thrown} {t : List Event}
    (h : FailsAt env options d s.log e t) (stamps : DeathHeaders names) :
    ∃ safe a s', HandedOver env queue policy d e safe a ∧ Settled env safe s' ∧
      requeued (t ++ (a ++ s')) = !safe ∧
      hop (retryConsumer env options kind queue policy) queue s stamps =
        { log := s.log ++ (t ++ (a ++ s')),
          pending := (if safe then [] else [d]) ++ rest ++ copiesBack queue stamps (t ++ (a ++ s')) } := by
  obtain ⟨safe, a, s', ha, hs, -, hadded⟩ := added_of_failsAt queue policy hadmits h
  have hrequeued := HandedOver.requeued_hop hsafe (h.failed kind).quiet ha hs
  refine ⟨safe, a, s', ha, hs, hrequeued, ?_⟩
  unfold hop pendingAfter
  rw [hpending]
  dsimp only
  rw [hadded, hrequeued]
  cases safe <;> rfl

/-- What the callback did, in the case that the `try` block failed, and in the case that it did not. -/
theorem delivery_cases (options : MessageHandlerOptions) (kind : ConsumerKind) (queue : String)
    (policy : RetryPolicyConfig) (d : Delivery) (hsafe : env.SettlesSafely) (log : List Event) :
    let run := (retryConsumer env options kind queue policy (some d)).added log
    Processed env options kind d (.ok ()) run ∨
      ∃ e t safe a s, Failed env options kind d e t ∧ HandedOver env queue policy d e safe a ∧
        Settled env safe s ∧ run = t ++ (a ++ s) := by
  intro run
  have hhandler (e : Thrown) : ((ErrorHandler.retry policy).handle env queue d e).Ensures fun r t =>
      FailsReadably r ∧
        ∃ safe a s, HandedOver env queue policy d e safe a ∧ Settled env safe s ∧ t = a ++ s := by
    refine (ensures_retryErrorHandler env queue policy d e).mono ?_
    rintro r t ⟨rfl, h⟩
    exact ⟨failsReadably_ok _, h⟩
  have hrun : Consumed env options kind d _ run :=
    ((ensures_consume env options kind d _ hhandler).added log).2.2
  generalize run = run' at hrun ⊢
  cases hrun with
  | returned h => exact .inl h
  | @failed e t t' h h' =>
      obtain ⟨safe, a, s, ha, hs, rfl⟩ := h'
      refine .inr ⟨e, t, safe, a, s, ?_, ha, hs, rfl⟩
      -- a settlement never throws, so only the steps before it can
      cases h with
      | undecodable hkey hmsg => exact .undecodable hmsg
      | threw hkey hmsg he => exact .threw hmsg he
      | unanswered hkey hmsg hv ht e => exact .unanswered hmsg hv ht e
      | misrouted hkey hr =>
          obtain ⟨log', hr⟩ := hr
          rw [hsafe.nackAnswer] at hr
          cases hr
      | refused hkey hmsg hv hr =>
          obtain ⟨log', hr⟩ := hr
          rw [hsafe.nackAnswer] at hr
          cases hr
      | answered hkey hmsg hv ht hr =>
          obtain ⟨log', hr⟩ := hr
          rw [hsafe.ackAnswer] at hr
          cases hr

/-- What one hop does to its lineage, whatever the handler does. -/
inductive Fate {names : List String} (env : ConsumerEnv) (options : MessageHandlerOptions)
    (kind : ConsumerKind) (queue : String) (policy : RetryPolicyConfig) (stamps : DeathHeaders names)
    (log : List Event) (d : Delivery) (rest : List Delivery) : Lineage → Prop
  /-- The callback settled the delivery without a failure. -/
  | returned {new : List Event} (hretried : confirmedCopies .retry new = [])
      (hdead : confirmedCopies .deadLetter new = []) :
      Fate env options kind queue policy stamps log d rest
        { log := log ++ new, pending := (if requeued new then [d] else []) ++ rest }
  /-- The retry handler got the delivery. -/
  | failed {e : Thrown} {t new : List Event} {safe : Bool} {back : List Delivery}
      (hfail : Failed env options kind d e t)
      (houtcome : Outcome queue policy stamps d e safe (confirmedCopies .retry new)
        (confirmedCopies .deadLetter new) back) :
      Fate env options kind queue policy stamps log d rest
        { log := log ++ new, pending := (if safe then [] else [d]) ++ rest ++ back }

/-- A callback that returned handed nothing over. -/
theorem Processed.confirmed {t : List Event} (h : Processed env options kind d (.ok ()) t) {purpose : Purpose}
    (hpurpose : purpose ≠ .reply) : confirmedCopies purpose t = [] := by
  cases h with
  | misrouted hkey hr => rfl
  | refused hkey hmsg hv hr => rfl
  | answered hkey hmsg hv ht hr =>
      cases ht with
      | silent ok h => rfl
      | replied hkind hreply ok =>
          simp [confirmedCopies, Event.confirmed?, hpurpose.symm]

/-- **One hop.** -/
theorem hop_fate (options : MessageHandlerOptions) (kind : ConsumerKind) (queue : String)
    (policy : RetryPolicyConfig) {names : List String} (hsafe : env.SettlesSafely)
    (stamps : DeathHeaders names) {s : Lineage} {rest : List Delivery} (hpending : s.pending = d :: rest) :
    Fate env options kind queue policy stamps s.log d rest
      (hop (retryConsumer env options kind queue policy) queue s stamps) := by
  unfold hop
  rw [hpending]
  dsimp only
  rcases delivery_cases options kind queue policy d hsafe s.log with h |
    ⟨e, t, safe, a, s', hfail, ha, hs, hadded⟩
  · have hback {new : List Event} (hretried : confirmedCopies .retry new = []) :
        pendingAfter queue stamps d rest new = (if requeued new then [d] else []) ++ rest := by
      unfold pendingAfter copiesBack
      rw [hretried, List.map_nil, List.filter_nil, List.append_nil]
    rw [hback (h.confirmed (by decide))]
    exact .returned (h.confirmed (by decide)) (h.confirmed (by decide))
  · have houtcome := HandedOver.outcome stamps hfail.quiet ha hs
    have hrequeued := HandedOver.requeued_hop hsafe hfail.quiet ha hs
    rw [hadded]
    have hafter : pendingAfter queue stamps d rest (t ++ (a ++ s')) =
        (if safe then [] else [d]) ++ rest ++ copiesBack queue stamps (t ++ (a ++ s')) := by
      unfold pendingAfter
      rw [hrequeued]
      cases safe <;> rfl
    rw [hafter]
    exact .failed hfail houtcome

end Consumer

/-! ## Errors that can be told -/

/-- Everything the retry handler says of an error converts: its message in the log line, and, once the
message is used up, what goes into the dead letter and into the reply. -/
structure Told (env : ConsumerEnv) (queue : String) (policy : RetryPolicyConfig) (d : Delivery)
    (error : Thrown) : Prop where
  reads : error.reads = true
  described : ∀ n, attemptsMade d = .ok n → retries policy n error = false →
    policy.deadLetterTo ≠ none → ∃ cause, errorToPlain error = .ok cause
  replied : ReplyContained env queue policy d error

/-- What the next hop has to say of a delivery that passes the check converts: of a cause that the
deserialiser throws, and of the failure. -/
def Lineage.Told (env : ConsumerEnv) (options : MessageHandlerOptions) (kind : ConsumerKind)
    (queue : String) (policy : RetryPolicyConfig) (s : Lineage) : Prop :=
  ∀ d rest, s.pending = d :: rest → kind.admits options d = true →
    (∀ cause, deserializeMessage env options d = .error cause → ∃ text, causeText cause = .ok text) ∧
    ∀ e t, FailsAt env options d s.log e t → Amqp.Told env queue policy d e

section Told

variable {env : ConsumerEnv} {options : MessageHandlerOptions} {kind : ConsumerKind} {queue : String}
  {policy : RetryPolicyConfig} {d : Delivery} {error : Thrown} {safe : Bool} {a : List Event}

/-- A cause that prints makes a failure of its own class. -/
theorem isDeserialization_of_told
    (hcauses : ∀ cause, deserializeMessage env options d = .error cause → ∃ text, causeText cause = .ok text)
    {e : Thrown} (h : tryDeserializeMessage env options d = .error e) : e.isDeserialization = true := by
  unfold tryDeserializeMessage at h
  split at h
  · cases h
  next cause hcause =>
    obtain rfl := Except.error.inj h
    obtain ⟨text, htext⟩ := hcauses cause hcause
    unfold messageDeserializationError
    rw [htext]
    rfl

theorem Told.tellable (h : Told env queue policy d error) {n : JsNumber} (hcount : attemptsMade d = .ok n)
    (hretry : retries policy n error = false) : Tellable policy error :=
  ⟨h.reads, h.described n hcount hretry⟩

/-- A message that came through failed with an error of which everything said converts. -/
theorem HandedOver.told (h : HandedOver env queue policy d error true a) :
    Told env queue policy d error := by
  generalize hdone : true = done at h
  cases h with
  | uncounted hcount => cases hdone
  | rescheduleFailed hcount hretry h => cases hdone
  | replyFailed hcount hretry hreply => cases hdone
  | rescheduled hcount hretry h =>
      -- a message with attempts left has no end to tell of
      have hleft {n : JsNumber} (hn : attemptsMade d = .ok n) : retries policy n error ≠ false := by
        obtain rfl := Except.ok.inj (hcount.symm.trans hn)
        rw [hretry]
        decide
      exact ⟨hdone.symm, fun n hn hused => absurd hused (hleft hn), fun n hn hused => absurd hused (hleft hn)⟩
  | exhausted hcount hretry hreply h =>
      have htellable : Tellable policy error := by
        cases h with
        | undescribed hdest hcause => cases hdone
        | refused hdest hcause => cases hdone
        | deadLettered hdest hcause => exact ⟨hdone.symm, fun _ => ⟨_, hcause⟩⟩
        | dropped hdest => exact ⟨hdone.symm, fun hsome => absurd hdest hsome⟩
      refine ⟨htellable.1, fun _ _ _ => htellable.2, fun n hn _ hawaits _ => ?_⟩
      obtain rfl := Except.ok.inj (hcount.symm.trans hn)
      exact hreply.contained hawaits htellable

/-- Nothing but a step that the broker refuses, or a counter that does not convert, fails a hand-over that
can be told; it is one step. -/
theorem HandedOver.failures_eq (htold : Told env queue policy d error)
    (h : HandedOver env queue policy d error safe a) : failures a = if safe then 0 else 1 := by
  cases h with
  | uncounted hcount => rfl
  | rescheduleFailed hcount hretry h => rw [h.unsettled.2]
  | rescheduled hcount hretry h => simp [h.unsettled.2, htold.reads]
  | replyFailed hcount hretry hreply =>
      obtain ⟨hawaits, hnot⟩ := hreply.not_contained
      exact absurd (htold.replied _ hcount hretry hawaits (htold.tellable hcount hretry)) hnot
  | exhausted hcount hretry hreply h =>
      rw [failures_append, hreply.unsettled.2, Nat.zero_add]
      cases h with
      | undescribed hdest hcause =>
          obtain ⟨cause, hcause'⟩ := htold.described _ hcount hretry (by simp [hdest])
          rw [hcause] at hcause'
          cases hcause'
      | refused hdest hcause => rfl
      | deadLettered hdest hcause =>
          rw [show ∀ (e : Event) l, e :: l = [e] ++ l from fun _ _ => rfl, failures_append,
            failures_outcomeLine]
          exact Nat.zero_add _
      | dropped hdest => rw [failures_outcomeLine]

end Told

end NestAmqp.Amqp
