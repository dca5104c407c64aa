/-
# NestAmqp.Amqp.Deadline — a message with a time to live, and its retries.

A request carries its timeout as the message's expiration, and the broker drops a queued message whose
expiration has passed.  A retry is a new message: an immediate copy keeps the expiration and starts it
again, a delayed copy has none.  This module runs one request through a work queue and its consumer, with
every schedule of waiting, failing and redelivering, and says exactly when no handler starts after the
deadline.
-/
import NestAmqp.Amqp.RpcLineage

namespace NestAmqp.Amqp

open NestAmqp.Js
open NestAmqp.Lib
open NestAmqp.Lib.Machine

/-! ## The work queue and its consumer -/

/-- The consumer of a work queue, under a retry policy. -/
structure QueueConsumer where
  queue : String
  policy : RetryPolicyConfig
  kind : ConsumerKind := .rpc
  options : MessageHandlerOptions := {}
  /-- `options.deserializer || config.deserializer`, which looks at the bytes. -/
  deserializer : Content → Except Thrown Value

namespace QueueConsumer

variable (c : QueueConsumer)

/-- An environment whose deserialiser is the consumer's. -/
def within (env : ConsumerEnv) : ConsumerEnv :=
  { env with deserialize := fun msg => c.deserializer msg.content }

/-- The callback the consumer is registered with. -/
def callback (env : ConsumerEnv) : Option Delivery → Consuming Unit :=
  retryConsumer (c.within env) c.options c.kind c.queue c.policy

/-- The consumer takes deliveries with this routing key. -/
def admitsKey (routingKey : String) : Bool :=
  c.kind = .subscribe || matchesRoutingKey routingKey c.options.routingKey

/-- The content can be read. -/
def decodes (content : Content) : Bool :=
  (c.deserializer content).isOk || c.options.allowNonJsonMessages

/-- The delivery gets as far as the handler. -/
def runs (msg : Delivery) : Bool := c.admitsKey msg.routingKey && c.decodes msg.content

end QueueConsumer

/-- A message in a queue, and when the broker took it. -/
structure Queued where
  msg : Delivery
  publishedAt : Int

/-- The broker keeps the message until its expiration has passed. -/
def Queued.liveAt (h : Queued) (now : Int) : Prop :=
  ∀ ttl, h.msg.properties.expiration.bind String.toInt? = some ttl → now ≤ h.publishedAt + ttl

instance (h : Queued) (now : Int) : Decidable (h.liveAt now) :=
  match hexpiration : h.msg.properties.expiration.bind String.toInt? with
  | none => .isTrue fun _ h' => by simp [hexpiration] at h'
  | some ttl => decidable_of_iff (now ≤ h.publishedAt + ttl) (by simp [Queued.liveAt, hexpiration])

/-- A copy in a wait queue, and when it is passed on. -/
structure Waiting where
  msg : Delivery
  due : Int

/-- A work queue with the messages of one request. -/
structure WorkQueue where
  now : Int
  ready : List Queued := []
  waiting : List Waiting := []
  /-- The deliveries whose callback runs. -/
  running : List Queued := []
  /-- When the handler was started. -/
  attempts : List Int := []

/-- What can happen to them; the broker adds headers among `names` to what it dead-letters. -/
inductive WorkInput (names : List String) where
  | elapse (ms : Nat)
  /-- A message of the queue is delivered. -/
  | deliver (i : Nat)
  /-- The callback of a delivery comes to its end, with whatever it is answered. -/
  | finish (i : Nat) (env : ConsumerEnv) (stamps : DeathHeaders names)
  /-- A wait queue passes a copy on. -/
  | passOn (i : Nat)
  /-- The channel of a delivery is lost: the message goes back, with its old expiry. -/
  | redeliver (i : Nat)

/-- The delivery has been settled, and not put back. -/
def settledAway (t : List Event) : Bool := t.any fun
  | .acked true | .nacked false true => true
  | _ => false

namespace WorkQueue

/-- The queue when the request is published. -/
def start (msg : Delivery) (now : Int) : WorkQueue :=
  { now, ready := [{ msg, publishedAt := now }] }

/-- What a callback that logged `t` has published, if it is for this queue. -/
def publish {names : List String} (c : QueueConsumer) (s : WorkQueue) (stamps : DeathHeaders names)
    (t : List Event) : WorkQueue :=
  match (confirmedCopies .retry t).head? with
  | none => s
  | some message =>
      if (arrival stamps t message).routingKey = c.queue then
        if (waitTarget t message.routingKey).isSome then
          { s with waiting := s.waiting ++
              [{ msg := arrival stamps t message, due := s.now + c.policy.delay }] }
        else { s with ready := s.ready ++ [{ msg := arrival stamps t message, publishedAt := s.now }] }
      else s

/-- A message is delivered, or dropped when it has expired. -/
def deliver (c : QueueConsumer) (s : WorkQueue) (i : Nat) : WorkQueue :=
  match s.ready[i]? with
  | none => s
  | some h =>
      if h.liveAt s.now then
        { s with
          ready := s.ready.eraseIdx i
          running := s.running ++ [h]
          attempts := if c.runs h.msg then s.attempts ++ [s.now] else s.attempts }
      else { s with ready := s.ready.eraseIdx i }

/-- A callback has ended: its copy is published, and a message it has not settled is redelivered. -/
def finish {names : List String} (c : QueueConsumer) (s : WorkQueue) (i : Nat) (env : ConsumerEnv)
    (stamps : DeathHeaders names) : WorkQueue :=
  match s.running[i]? with
  | none => s
  | some h =>
      let t := (c.callback env (some h.msg)).added []
      let s := { s with
        running := s.running.eraseIdx i
        ready := if settledAway t then s.ready else s.ready ++ [h] }
      s.publish c stamps t

/-- A copy that is due comes back to the work queue. -/
def passOn (s : WorkQueue) (i : Nat) : WorkQueue :=
  match s.waiting[i]? with
  | none => s
  | some w =>
      if w.due ≤ s.now then
        { s with
          waiting := s.waiting.eraseIdx i
          ready := s.ready ++ [{ msg := w.msg, publishedAt := s.now }] }
      else s

/-- A lost channel: the broker keeps the expiry of what it requeues. -/
def redeliver (s : WorkQueue) (i : Nat) : WorkQueue :=
  match s.running[i]? with
  | none => s
  | some h => { s with running := s.running.eraseIdx i, ready := s.ready ++ [h] }

/-- One step. -/
def step {names : List String} (c : QueueConsumer) (s : WorkQueue) : WorkInput names → WorkQueue
  | .elapse ms => { s with now := s.now + ms }
  | .deliver i => s.deliver c i
  | .finish i env stamps => s.finish c i env stamps
  | .passOn i => s.passOn i
  | .redeliver i => s.redeliver i

end WorkQueue

/-! ## What a callback does -/

section Callback

variable {env : ConsumerEnv} {options : MessageHandlerOptions} {kind : ConsumerKind} {msg : Delivery}
  {r : Except Thrown Unit} {t : List Event}

/-- The handler runs on what is admitted and can be read, and a `try` block publishes no retry copy. -/
theorem Processed.runs_iff (h : Processed env options kind msg r t) :
    (0 < handlerRuns t ↔ kind.admits options msg = true ∧
      ∃ message, tryDeserializeMessage env options msg = .ok message) ∧
    confirmedCopies .retry t = [] := by
  have hrun (l : List Event) : 0 < handlerRuns (.handled msg none :: l) :=
    List.countP_pos_iff.mpr ⟨_, .head _, rfl⟩
  cases h with
  | misrouted hkey _ =>
      refine ⟨⟨fun h => absurd h (Nat.lt_irrefl 0), fun h => ?_⟩, rfl⟩
      rw [hkey] at h
      cases h.1
  | undecodable hkey hmsg =>
      refine ⟨⟨fun h => absurd h (Nat.lt_irrefl 0), fun ⟨_, message, h⟩ => ?_⟩, rfl⟩
      rw [hmsg] at h
      cases h
  | threw hkey hmsg _ => exact ⟨⟨fun _ => ⟨hkey, _, hmsg⟩, fun _ => Nat.one_pos⟩, rfl⟩
  | refused hkey hmsg _ _ => exact ⟨⟨fun _ => ⟨hkey, _, hmsg⟩, fun _ => Nat.one_pos⟩, rfl⟩
  | unanswered hkey hmsg _ ht _ =>
      refine ⟨⟨fun _ => ⟨hkey, _, hmsg⟩, fun _ => hrun _⟩, ?_⟩
      cases ht <;> rfl
  | answered hkey hmsg _ ht _ =>
      refine ⟨⟨fun _ => ⟨hkey, _, hmsg⟩, fun _ => hrun _⟩, ?_⟩
      cases ht <;> rfl

end Callback

namespace QueueConsumer

variable (c : QueueConsumer) {msg : Delivery}

/-- Whether the content can be read is up to the consumer alone. -/
theorem decodes_iff (env : ConsumerEnv) :
    (∃ message, tryDeserializeMessage (c.within env) c.options msg = .ok message) ↔
      c.decodes msg.content = true := by
  unfold tryDeserializeMessage deserializeMessage decodes within
  dsimp only
  cases c.deserializer msg.content with
  | ok v => simp [Except.isOk, Except.toBool]
  | error e => cases c.options.allowNonJsonMessages <;> simp [Except.isOk, Except.toBool]

/-- **One callback.**  The handler runs exactly on the deliveries that get as far, and a retry copy is the
copy of a delivery with attempts left. -/
theorem ensures_callback (env : ConsumerEnv) (msg : Delivery) :
    (c.callback env (some msg)).Ensures fun _ t => (0 < handlerRuns t ↔ c.runs msg = true) ∧
      ∀ message ∈ confirmedCopies .retry t,
        ∃ n, attemptsMade msg = .ok n ∧ n.below c.policy.attemptLimit = true ∧
          message = retryCopy c.queue c.policy msg n := by
  have hhandler (e : Thrown) : ((ErrorHandler.retry c.policy).handle (c.within env) c.queue msg e).Ensures
      fun r t => FailsReadably r ∧ ∃ safe a s, HandedOver (c.within env) c.queue c.policy msg e safe a ∧
        Settled (c.within env) safe s ∧ t = a ++ s := by
    refine (ensures_retryErrorHandler (c.within env) c.queue c.policy msg e).mono ?_
    rintro r t ⟨rfl, h⟩
    exact ⟨failsReadably_ok _, h⟩
  refine (ensures_consume (c.within env) c.options c.kind msg _ hhandler).mono ?_
  rintro r t ⟨-, hconsumed⟩
  have hruns : c.runs msg = true ↔ c.kind.admits c.options msg = true ∧
      ∃ message, tryDeserializeMessage (c.within env) c.options msg = .ok message := by
    rw [c.decodes_iff]
    exact Bool.and_eq_true_iff
  rw [hruns]
  cases hconsumed with
  | returned h =>
      refine ⟨h.runs_iff.1, fun message hmem => ?_⟩
      rw [h.runs_iff.2] at hmem
      cases hmem
  | failed h h' =>
      obtain ⟨safe, a, s, ha, hs, rfl⟩ := h'
      refine ⟨?_, fun message hmem => ?_⟩
      · rw [handlerRuns_append, handlerRuns_append, ha.handlerRuns_eq, hs.handlerRuns_eq]
        exact h.runs_iff.1
      · rw [confirmedCopies_append, confirmedCopies_append, h.runs_iff.2, hs.confirmed, List.nil_append,
          List.append_nil] at hmem
        obtain ⟨n, hcount, hretry, rfl⟩ := ha.mem_confirmed hmem
        exact ⟨n, hcount, below_of_retries hretry, rfl⟩

end QueueConsumer

/-! ## In time, or a copy -/

section Deadline

/-- The counter of the message lets its next failure be retried. -/
def AttemptsLeft (policy : RetryPolicyConfig) (msg : Delivery) : Prop :=
  ∃ n, attemptsMade msg = .ok n ∧ n.below policy.attemptLimit = true

variable {names : List String} (c : QueueConsumer) (msg : Delivery) (published timeout : Int)

/-- A failure of the message is retried, and the consumer runs its handler on the copy. -/
structure RetriesRun : Prop where
  lives : 0 ≤ timeout
  attemptsLeft : AttemptsLeft c.policy msg
  decodes : c.decodes msg.content = true
  admitsQueue : c.admitsKey c.queue = true

/-- A retry copy of the message, or a copy of a copy: it comes by the name of the queue. -/
structure Copied (d : Delivery) : Prop where
  lives : 0 ≤ timeout
  attemptsLeft : AttemptsLeft c.policy msg
  routingKey : d.routingKey = c.queue
  content : d.content = msg.content

/-- The message itself, or a copy of it. -/
def OfRequest (h : Queued) : Prop := h = ⟨msg, published⟩ ∨ Copied c msg timeout h.msg

/-- The messages around the queue are of the request, and the handler has started in time unless its
retries run. -/
structure Bounded (s : WorkQueue) : Prop where
  later : published ≤ s.now
  ready : ∀ h ∈ s.ready, OfRequest c msg published timeout h
  waiting : ∀ w ∈ s.waiting, Copied c msg timeout w.msg
  /-- What is delivered was alive. -/
  running : ∀ h ∈ s.running, OfRequest c msg published timeout h ∧ 0 ≤ timeout
  attempts : ∀ a ∈ s.attempts, a ≤ published + timeout ∨ RetriesRun c msg timeout

variable {c msg published timeout} {s : WorkQueue}

theorem bounded_start : Bounded c msg published timeout (.start msg published) where
  later := Int.le_refl _
  ready h hmem := .inl (List.mem_singleton.mp hmem)
  waiting := by simp [WorkQueue.start]
  running := by simp [WorkQueue.start]
  attempts := by simp [WorkQueue.start]

/-- The copy of something of the request is a copy of the request. -/
theorem OfRequest.copied {h : Queued} (hof : OfRequest c msg published timeout h) (hlives : 0 ≤ timeout)
    (hleft : AttemptsLeft c.policy h.msg) {d : Delivery}
    (hrouting : d.routingKey = c.queue) (hcontent : d.content = h.msg.content) :
    Copied c msg timeout d := by
  rcases hof with rfl | hcopied
  · exact ⟨hlives, hleft, hrouting, hcontent⟩
  · exact ⟨hlives, hcopied.attemptsLeft, hrouting, hcontent.trans hcopied.content⟩

theorem content_arrival (stamps : DeathHeaders names) (t : List Event) (message : Publication) :
    (arrival stamps t message).content = message.body.bytes := by
  unfold arrival
  split <;> rfl

/-- What a callback publishes for the queue is a copy. -/
theorem Bounded.publish (h : Bounded c msg published timeout s) {q : Queued}
    (hof : OfRequest c msg published timeout q) (hlives : 0 ≤ timeout) (env : ConsumerEnv)
    (stamps : DeathHeaders names) :
    Bounded c msg published timeout
      (s.publish c stamps ((c.callback env (some q.msg)).added [])) := by
  have hcallback := ((c.ensures_callback env q.msg).added []).2.2
  generalize (c.callback env (some q.msg)).added [] = t at hcallback ⊢
  unfold WorkQueue.publish
  split
  next => exact h
  next message hmessage =>
  split
  next hrouting =>
    obtain ⟨n, hcount, hbelow, rfl⟩ := hcallback message (List.mem_of_mem_head? hmessage)
    have hcopied : Copied c msg timeout (arrival stamps t (retryCopy c.queue c.policy q.msg n)) :=
      hof.copied hlives ⟨n, hcount, hbelow⟩ hrouting (content_arrival stamps t _)
    split
    · refine ⟨h.later, h.ready, fun w hw => ?_, h.running, h.attempts⟩
      rcases List.mem_append.mp hw with hw | hw
      · exact h.waiting w hw
      · rw [List.mem_singleton.mp hw]
        exact hcopied
    · refine ⟨h.later, fun q' hq' => ?_, h.waiting, h.running, h.attempts⟩
      rcases List.mem_append.mp hq' with hq' | hq'
      · exact h.ready q' hq'
      · rw [List.mem_singleton.mp hq']
        exact .inr hcopied
  next => exact h

/-- A callback that ends. -/
theorem Bounded.finish (h : Bounded c msg published timeout s) (i : Nat) (env : ConsumerEnv)
    (stamps : DeathHeaders names) : Bounded c msg published timeout (s.finish c i env stamps) := by
  unfold WorkQueue.finish
  split
  next => exact h
  next q hq =>
  obtain ⟨hof, hlives⟩ := h.running q (List.mem_of_getElem? hq)
  have hrest (settled : Bool) : Bounded c msg published timeout { s with
      running := s.running.eraseIdx i
      ready := if settled then s.ready else s.ready ++ [q] } := by
    refine ⟨h.later, fun q' hq' => ?_, h.waiting,
      fun q' hq' => h.running q' (List.mem_of_mem_eraseIdx hq'), h.attempts⟩
    cases settled with
    | true => exact h.ready q' hq'
    | false =>
        rcases List.mem_append.mp hq' with hq' | hq'
        · exact h.ready q' hq'
        · rw [List.mem_singleton.mp hq']
          exact hof
  exact (hrest _).publish hof hlives env stamps

/-- A delivery: the message itself in time, or a copy, on which the handler runs if its retries run. -/
theorem Bounded.deliver (hexpiration : msg.properties.expiration.bind String.toInt? = some timeout)
    (h : Bounded c msg published timeout s) (i : Nat) :
    Bounded c msg published timeout (s.deliver c i) := by
  unfold WorkQueue.deliver
  split
  next => exact h
  next q hq =>
  have hof := h.ready q (List.mem_of_getElem? hq)
  have hready : ∀ q' ∈ s.ready.eraseIdx i, OfRequest c msg published timeout q' :=
    fun q' hq' => h.ready q' (List.mem_of_mem_eraseIdx hq')
  split
  next hlive =>
    -- the request itself has not expired; a copy lives by a time of its own
    have hstarts : (q = ⟨msg, published⟩ ∧ s.now ≤ published + timeout) ∨ Copied c msg timeout q.msg :=
      hof.imp_left fun heq => ⟨heq, by
        subst heq
        exact hlive timeout hexpiration⟩
    have hlives : 0 ≤ timeout := by
      rcases hstarts with ⟨-, hnow⟩ | hcopied
      · have hlater := h.later
        omega
      · exact hcopied.lives
    refine ⟨h.later, hready, h.waiting, fun q' hq' => ?_, fun a ha => ?_⟩
    · rcases List.mem_append.mp hq' with hq' | hq'
      · exact h.running q' hq'
      · rw [List.mem_singleton.mp hq']
        exact ⟨hof, hlives⟩
    · dsimp only at ha
      split at ha
      next hruns =>
        rcases List.mem_append.mp ha with ha | ha
        · exact h.attempts a ha
        · rw [List.mem_singleton.mp ha]
          rcases hstarts with ⟨-, hnow⟩ | hcopied
          · exact .inl hnow
          · obtain ⟨hkey, hdecodes⟩ := Bool.and_eq_true_iff.mp hruns
            rw [hcopied.routingKey] at hkey
            rw [hcopied.content] at hdecodes
            exact .inr ⟨hlives, hcopied.attemptsLeft, hdecodes, hkey⟩
      next => exact h.attempts a ha
  next => exact ⟨h.later, hready, h.waiting, h.running, h.attempts⟩

theorem Bounded.passOn (h : Bounded c msg published timeout s) (i : Nat) :
    Bounded c msg published timeout (s.passOn i) := by
  unfold WorkQueue.passOn
  split
  next => exact h
  next w hw =>
  split
  next =>
    refine ⟨h.later, fun q hq => ?_, fun w' hw' => h.waiting w' (List.mem_of_mem_eraseIdx hw'),
      h.running, h.attempts⟩
    rcases List.mem_append.mp hq with hq | hq
    · exact h.ready q hq
    · rw [List.mem_singleton.mp hq]
      exact .inr (h.waiting w (List.mem_of_getElem? hw))
  next => exact h

theorem Bounded.redeliver (h : Bounded c msg published timeout s) (i : Nat) :
    Bounded c msg published timeout (s.redeliver i) := by
  unfold WorkQueue.redeliver
  split
  next => exact h
  next q hq =>
    refine ⟨h.later, fun q' hq' => ?_, h.waiting,
      fun q' hq' => h.running q' (List.mem_of_mem_eraseIdx hq'), h.attempts⟩
    rcases List.mem_append.mp hq' with hq' | hq'
    · exact h.ready q' hq'
    · rw [List.mem_singleton.mp hq']
      exact (h.running q (List.mem_of_getElem? hq)).1

/-- **One step.** -/
theorem Bounded.step (hexpiration : msg.properties.expiration.bind String.toInt? = some timeout)
    (h : Bounded c msg published timeout s) (input : WorkInput names) :
    Bounded c msg published timeout (s.step c input) := by
  cases input with
  | elapse ms =>
      refine ⟨?_, h.ready, h.waiting, h.running, h.attempts⟩
      have hlater := h.later
      show published ≤ s.now + ms
      omega
  | deliver i => exact h.deliver hexpiration i
  | finish i env stamps => exact h.finish i env stamps
  | passOn i => exact h.passOn i
  | redeliver i => exact h.redeliver i

end Deadline

/-! ## A retry that comes too late -/

/-- A handler that fails on a channel that no longer takes rejections. -/
def closingConsumer : ConsumerEnv :=
  { failingConsumer with
    nack := fun _ => .error { name := "IllegalOperationError", message := "Channel closed" } }

section Late

variable {names : List String} {c : QueueConsumer} {msg : Delivery} {published timeout : Int}

theorem handsOver_closing (c : QueueConsumer) : (c.within closingConsumer).HandsOver :=
  ⟨fun _ _ _ => rfl, fun _ => rfl, fun _ _ => rfl, fun _ => rfl⟩

/-- What can be read is not finished with: its handler throws, or rejecting it does. -/
theorem Processed.failed {r : Except Thrown Unit} {t : List Event}
    (h : Processed (c.within closingConsumer) c.options c.kind msg r t)
    (hdecodes : c.decodes msg.content = true) :
    ∃ name text, r = .error (.error { name, message := text }) ∧ Quiet t := by
  obtain ⟨message, hmessage⟩ := (c.decodes_iff closingConsumer).mpr hdecodes
  have hnever {message : Value} {response : Response} :
      ¬ ∃ log, (c.within closingConsumer).handler log message msg = .ok response := by
    rintro ⟨log, hv⟩
    cases hv
  cases h with
  | misrouted _ hr =>
      obtain ⟨log, rfl⟩ := hr
      exact ⟨_, _, rfl, ⟨rfl, rfl, rfl, rfl, fun _ => rfl⟩⟩
  | undecodable _ hmsg =>
      rw [hmessage] at hmsg
      cases hmsg
  | threw _ _ he =>
      obtain ⟨log, he⟩ := he
      cases he
      exact ⟨_, _, rfl, ⟨rfl, rfl, rfl, rfl, fun _ => rfl⟩⟩
  | refused _ _ hv => exact absurd hv hnever
  | unanswered _ _ hv => exact absurd hv hnever
  | answered _ _ hv => exact absurd hv hnever

/-- The callback publishes the retry copy, and acks. -/
theorem callback_closing (hretries : RetriesRun c msg timeout) {n : JsNumber}
    (hcount : attemptsMade msg = .ok n) :
    ∃ t b e, Quiet t ∧ Scheduled c.queue c.policy msg n true b ∧
      (c.callback closingConsumer (some msg)).added [] = t ++ ((b ++ outcomeLine e) ++ [.acked true]) := by
  obtain ⟨n', hcount', hbelow⟩ := hretries.attemptsLeft
  obtain rfl := Except.ok.inj (hcount.symm.trans hcount')
  have hhandler (e : Thrown) :
      ((ErrorHandler.retry c.policy).handle (c.within closingConsumer) c.queue msg e).Ensures
        fun r t => FailsReadably r ∧ (Told (c.within closingConsumer) c.queue c.policy msg e →
          ∃ a, HandedOver (c.within closingConsumer) c.queue c.policy msg e true a ∧
            t = a ++ [.acked true]) := by
    by_cases htold : Told (c.within closingConsumer) c.queue c.policy msg e
    · refine ((ensures_retryErrorHandler (c.within closingConsumer) c.queue c.policy msg e).and
        (ensures_retryErrorHandler_ok (handsOver_closing c) hcount htold)).mono ?_
      rintro r t ⟨⟨rfl, -⟩, h⟩
      exact ⟨failsReadably_ok _, fun _ => h⟩
    · refine (ensures_retryErrorHandler (c.within closingConsumer) c.queue c.policy msg e).mono ?_
      rintro r t ⟨rfl, -⟩
      exact ⟨failsReadably_ok _, fun h => absurd h htold⟩
  have hconsumed := ((ensures_consume (c.within closingConsumer) c.options c.kind msg _ hhandler).added
    []).2.2
  change Consumed _ _ _ _ _ ((c.callback closingConsumer (some msg)).added []) at hconsumed
  generalize (c.callback closingConsumer (some msg)).added [] = t at hconsumed ⊢
  cases hconsumed with
  | returned h =>
      obtain ⟨name, text, he, -⟩ := h.failed hretries.decodes
      cases he
  | failed h h' =>
      obtain ⟨name, text, he, hquiet⟩ := h.failed hretries.decodes
      cases he
      obtain ⟨a, ha, rfl⟩ := h' (told_plain (fun _ => rfl) c.queue c.policy msg name text)
      have hretry : retries c.policy n (.error { name, message := text }) = true := by
        simp [retries, Thrown.isDeserialization, hbelow]
      obtain ⟨b, hb, rfl⟩ := ha.scheduled rfl hcount hretry
      exact ⟨_, b, _, hquiet, hb, rfl⟩

/-- The callback ends, and all there is now is the copy: in the wait queue, or in the work queue. -/
theorem finish_closing (hretries : RetriesRun c msg timeout) {n : JsNumber}
    (hcount : attemptsMade msg = .ok n) (stamps : DeathHeaders names) {s : WorkQueue}
    {q : Queued} (hmsg : q.msg = msg) (hready : s.ready = []) (hwaiting : s.waiting = [])
    (hrunning : s.running = [q]) :
    s.finish c 0 closingConsumer stamps =
      if 0 < c.policy.delay then
        { s with
          running := []
          waiting := [⟨copyBack c.queue c.policy stamps msg n, s.now + c.policy.delay⟩] }
      else { s with running := [], ready := [⟨copyBack c.queue c.policy stamps msg n, s.now⟩] } := by
  obtain ⟨t, b, e, hquiet, hb, hadded⟩ := callback_closing hretries hcount
  have hacked : Settled (c.within closingConsumer) true [.acked true] := .acked
  have hcopies : (confirmedCopies .retry (t ++ ((b ++ outcomeLine e) ++ [.acked true]))).head? =
      some (retryCopy c.queue c.policy msg n) := by
    rw [confirmedCopies_append, confirmedCopies_append, confirmedCopies_append, hquiet.retried,
      hb.confirmed.1, confirmedCopies_outcomeLine]
    rfl
  have harrival : arrival stamps (t ++ ((b ++ outcomeLine e) ++ [.acked true]))
      (retryCopy c.queue c.policy msg n) = copyBack c.queue c.policy stamps msg n :=
    hb.arrival_eq stamps hquiet hacked
  have hwait : waitTarget (t ++ ((b ++ outcomeLine e) ++ [.acked true]))
      (retryCopy c.queue c.policy msg n).routingKey = if 0 < c.policy.delay then some c.queue else none :=
    hb.waitTarget_hop hquiet hacked
  have hsettled : settledAway (t ++ ((b ++ outcomeLine e) ++ [.acked true])) = true := by
    simp [settledAway]
  unfold WorkQueue.finish
  simp only [hrunning, List.getElem?_cons_zero, hmsg, hadded, hsettled, if_true]
  unfold WorkQueue.publish
  have hback : (copyBack c.queue c.policy stamps msg n).routingKey = c.queue := rfl
  simp only [hcopies, harrival, hback, if_true, hwait, hready, hwaiting]
  by_cases hdelay : 0 < c.policy.delay
  · simp [hdelay]
  · simp [hdelay]

/-- **A retry that comes too late.**  The handler fails after the deadline, and its copy runs. -/
theorem exists_late (hexpiration : msg.properties.expiration.bind String.toInt? = some timeout)
    (hretries : RetriesRun c msg timeout) : ∃ inputs : List (WorkInput names),
      ∃ a ∈ (run (WorkQueue.step c) (.start msg published) inputs).attempts, published + timeout < a := by
  have hlives := hretries.lives
  obtain ⟨n, hcount, -⟩ := hretries.attemptsLeft
  have hruns (stamps : DeathHeaders names) : c.runs (copyBack c.queue c.policy stamps msg n) = true :=
    Bool.and_eq_true_iff.mpr ⟨hretries.admitsQueue, hretries.decodes⟩
  let stamps : DeathHeaders names := ⟨[], by simp⟩
  refine ⟨[.deliver 0, .elapse (timeout + 1).toNat, .finish 0 closingConsumer stamps,
    .elapse c.policy.delay.toNat, .passOn 0, .deliver 0],
    published + (timeout + 1).toNat + c.policy.delay.toNat, ?_, by omega⟩
  have hlive : Queued.liveAt ⟨msg, published⟩ published := by
    intro ttl httl
    obtain rfl : timeout = ttl := Option.some.inj (hexpiration.symm.trans httl)
    show published ≤ published + timeout
    omega
  have hfirst : (WorkQueue.start msg published).deliver c 0 =
      { now := published, running := [⟨msg, published⟩],
        attempts := if c.runs msg then [published] else [] } := by
    unfold WorkQueue.deliver WorkQueue.start
    simp [hlive]
  simp only [run_cons, run_nil, WorkQueue.step, hfirst]
  rw [finish_closing hretries hcount stamps (q := ⟨msg, published⟩) rfl rfl rfl rfl]
  by_cases hdelay : 0 < c.policy.delay
  · -- the delayed copy has no expiration
    have hforever (at' now : Int) : Queued.liveAt ⟨copyBack c.queue c.policy stamps msg n, at'⟩ now := by
      intro ttl httl
      simp [copyBack, retryProperties, hdelay] at httl
    rw [if_pos hdelay]
    simp [WorkQueue.passOn, WorkQueue.deliver, hruns, hforever]
  · -- the immediate copy starts its expiration again
    have hnow : (c.policy.delay.toNat : Int) = 0 := by omega
    have hagain (now : Int) : Queued.liveAt ⟨copyBack c.queue c.policy stamps msg n, now⟩ now := by
      intro ttl httl
      have hsame : (copyBack c.queue c.policy stamps msg n).properties.expiration =
          msg.properties.expiration := by simp [copyBack, retryProperties, hdelay]
      rw [hsame] at httl
      obtain rfl : timeout = ttl := Option.some.inj (hexpiration.symm.trans httl)
      show now ≤ now + timeout
      omega
    rw [if_neg hdelay]
    simp [WorkQueue.passOn, WorkQueue.deliver, hruns, hnow, hagain]

/-- **Exactly the requests that are not retried are handled in time.** -/
theorem attempts_le_iff (hexpiration : msg.properties.expiration.bind String.toInt? = some timeout) :
    (∀ inputs : List (WorkInput names),
        ∀ a ∈ (run (WorkQueue.step c) (.start msg published) inputs).attempts, a ≤ published + timeout) ↔
      ¬ RetriesRun c msg timeout := by
  constructor
  · intro h hretries
    obtain ⟨inputs, a, ha, hlate⟩ : ∃ inputs : List (WorkInput names),
        ∃ a ∈ (run (WorkQueue.step c) (.start msg published) inputs).attempts, published + timeout < a :=
      exists_late hexpiration hretries
    exact absurd (h inputs a ha) (by omega)
  · intro hno inputs a ha
    have hbounded : Bounded c msg published timeout (run (WorkQueue.step c) (.start msg published) inputs) :=
      run_invariant (fun _ input h => h.step hexpiration input) bounded_start inputs
    exact (hbounded.attempts a ha).resolve_right hno

end Late

end NestAmqp.Amqp
