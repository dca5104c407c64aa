/-
# NestAmqp.Amqp.WaitQueue — delayed retries over time.

A delayed retry waits in a TTL queue of the broker, and that queue has a clock of its own: `expires`
deletes it when it is not used for a while, and a publish is no use.  The connection asserts a wait queue
once and remembers its name, and that is all it ever knows.  This module runs the connection and the
broker against a clock, with any number of deliveries failing in any order and every answer of the broker
an input, and says exactly in which runs every confirmed copy comes back to its work queue.
-/
import NestAmqp.Amqp.RetryPolicy
import NestAmqp.Lib.ExpiringQueue
import NestAmqp.Lib.Machine

namespace NestAmqp.Amqp

open NestAmqp.Js
open NestAmqp.Lib
open NestAmqp.Lib.Machine

/-! ## Wait queues -/

/-- The arguments of `assertRetryWaitQueue`; its first one is their `waitQueue`. -/
structure RetryWait where
  targetQueue : String
  delayMs : Int
  positive : 0 < delayMs

/-- The name of the wait queue. -/
def RetryWait.waitQueue (wait : RetryWait) : String := waitQueueName wait.targetQueue wait.delayMs

/-- The options of the `assertQueue` call, with the time the broker handles it. -/
def RetryWait.assertQueue (wait : RetryWait) (now : Int) :
    ExpiringQueue.Queue String Publication where
  key := wait.waitQueue
  target := wait.targetQueue
  ttl := wait.delayMs
  expires := wait.delayMs + 60000
  declaredAt := now

/-- A failed delivery that is to be retried later: `scheduleRetry` with a delay. -/
structure RetryJob where
  queue : String
  policy : RetryPolicyConfig
  msg : Delivery
  error : Thrown
  attempts : JsNumber
  counted : attemptsMade msg = .ok attempts
  retried : retries policy attempts error = true
  delayed : 0 < policy.delay

def RetryJob.wait (job : RetryJob) : RetryWait where
  targetQueue := job.queue
  delayMs := job.policy.delay
  positive := job.delayed

/-- The copy it publishes. -/
def RetryJob.copy (job : RetryJob) : Publication :=
  retryCopy job.queue job.policy job.msg job.attempts

/-- The copy, back in its work queue. -/
def RetryJob.homecoming (job : RetryJob) : Publication × String := (job.copy, job.queue)

/-- The default exchange routes the copy to the wait queue. -/
theorem RetryJob.copy_routingKey (job : RetryJob) : job.copy.routingKey = job.wait.waitQueue := by
  show (if 0 < job.policy.delay then _ else _) = _
  rw [if_pos job.delayed]
  rfl

/-! ## The name of a wait queue tells its work queue -/

theorem append_dot_inj {l l' r r' : List Char} (hr : '.' ∉ r) (hr' : '.' ∉ r')
    (h : l ++ '.' :: r = l' ++ '.' :: r') : l = l' ∧ r = r' := by
  rcases List.append_eq_append_iff.mp h with ⟨m, hl, hm⟩ | ⟨m, hl, hm⟩
  · cases m with
    | nil =>
        rw [List.nil_append, List.cons.injEq] at hm
        exact ⟨by rw [hl, List.append_nil], hm.2⟩
    | cons c m =>
        rw [List.cons_append, List.cons.injEq] at hm
        exact absurd (hm.2 ▸ List.mem_append_right m (.head _)) hr
  · cases m with
    | nil =>
        rw [List.nil_append, List.cons.injEq] at hm
        exact ⟨by rw [hl, List.append_nil], hm.2.symm⟩
    | cons c m =>
        rw [List.cons_append, List.cons.injEq] at hm
        exact absurd (hm.2 ▸ List.mem_append_right m (.head _)) hr'

/-- A positive delay prints as digits. -/
theorem dot_not_mem_delay {delayMs : Int} (h : 0 < delayMs) : '.' ∉ (toString delayMs).toList := by
  obtain ⟨n, rfl⟩ := Int.eq_ofNat_of_zero_le (Int.le_of_lt h)
  have hrepr : (toString (n : Int)).toList = Nat.toDigits 10 n := Nat.toList_repr
  rw [hrepr]
  intro hmem
  have hdigit := Nat.isDigit_of_mem_toDigits (by decide) (by decide) hmem
  cases hdigit

theorem waitQueue_inj {a b : RetryWait} (h : a.waitQueue = b.waitQueue) :
    a.targetQueue = b.targetQueue := by
  have hlist := congrArg String.toList h
  unfold RetryWait.waitQueue waitQueueName at hlist
  simp only [String.toList_append] at hlist
  have hdots (l r : List Char) : l ++ ".retry.".toList ++ r = (l ++ ".retry".toList) ++ '.' :: r := by
    rw [List.append_assoc, List.append_assoc]
    rfl
  rw [hdots, hdots] at hlist
  have hleft := (append_dot_inj (dot_not_mem_delay a.positive) (dot_not_mem_delay b.positive) hlist).1
  exact String.toList_inj.mp (List.append_cancel_right hleft)

/-! ## The connection and the broker -/

/-- How the assertion of a wait queue ends: without a channel it is put off until the next reconnect,
and `addSetup` resolves all the same. -/
inductive Assertion where
  | declared
  | refused
  | putOff
  deriving DecidableEq, Repr

/-- The state of one connection and of the wait queues on its broker. -/
structure DelayedRetries where
  now : Int := 0
  /-- `assertedRetryWaitQueues`. -/
  assertedRetryWaitQueues : List String := []
  /-- The setup functions `addSetup` has registered; every reconnect runs them. -/
  setups : List RetryWait := []
  /-- Jobs whose assertion is on its way. -/
  asserting : List RetryJob := []
  /-- Jobs whose copy is on its way. -/
  publishing : List RetryJob := []
  /-- The wait queues on the broker. -/
  queues : List (ExpiringQueue.Queue String Publication) := []
  /-- The jobs whose copy the broker has confirmed. -/
  confirmed : List RetryJob := []
  /-- The copies that were dead-lettered out of a wait queue, each with the queue it went to. -/
  returned : List (Publication × String) := []

/-- What can happen next. -/
inductive RetryInput where
  /-- Time passes. -/
  | elapse (ms : Nat)
  /-- A delivery fails and `scheduleRetry` starts. -/
  | fails (job : RetryJob)
  /-- One of the assertions is answered. -/
  | answered (i : Nat) (assertion : Assertion)
  /-- One of the publishes is answered. -/
  | published (i : Nat) (confirmed : Bool)
  /-- The connection comes back and runs its setup functions; some may fail. -/
  | reconnected (succeeds : String → Bool)
  /-- Another instance of the application declares the wait queue. -/
  | declaredElsewhere (wait : RetryWait)

namespace DelayedRetries

/-- `assertRetryWaitQueue`: a remembered name is not asserted again, whatever became of it. -/
def assertRetryWaitQueue (s : DelayedRetries) (job : RetryJob) : DelayedRetries :=
  if job.wait.waitQueue ∈ s.assertedRetryWaitQueues then
    { s with publishing := s.publishing ++ [job] }
  else
    { s with
      assertedRetryWaitQueues := job.wait.waitQueue :: s.assertedRetryWaitQueues
      setups := s.setups ++ [job.wait]
      asserting := s.asserting ++ [job] }

/-- The broker handles an `assertQueue`. -/
def declare (s : DelayedRetries) (wait : RetryWait) : DelayedRetries :=
  { s with queues := ExpiringQueue.declare s.now (wait.assertQueue s.now) s.queues }

/-- The assertion of a job is answered.  A refused one makes the handler requeue the message. -/
def answer (s : DelayedRetries) (job : RetryJob) : Assertion → DelayedRetries
  | .declared => { s.declare job.wait with publishing := s.publishing ++ [job] }
  | .refused => s
  | .putOff => { s with publishing := s.publishing ++ [job] }

def answered (s : DelayedRetries) (i : Nat) (assertion : Assertion) : DelayedRetries :=
  match s.asserting[i]? with
  | none => s
  | some job => { s with asserting := s.asserting.eraseIdx i }.answer job assertion

/-- The broker confirms the copy; without its wait queue it discards it. -/
def confirm (s : DelayedRetries) (job : RetryJob) : DelayedRetries :=
  { s with
    queues := ExpiringQueue.park s.now job.copy.routingKey job.copy s.queues
    confirmed := s.confirmed ++ [job] }

/-- The publish of a job is answered.  Without a confirm the handler requeues the message. -/
def published (s : DelayedRetries) (i : Nat) (confirmed : Bool) : DelayedRetries :=
  match s.publishing[i]? with
  | none => s
  | some job =>
      let s' := { s with publishing := s.publishing.eraseIdx i }
      if confirmed then s'.confirm job else s'

/-- The clocks run on. -/
def elapse (s : DelayedRetries) (ms : Nat) : DelayedRetries :=
  { s with
    now := s.now + ms
    queues := ExpiringQueue.rest (s.now + ms) s.queues
    returned := s.returned ++ ExpiringQueue.passedOn (s.now + ms) s.queues }

/-- One step. -/
def step (s : DelayedRetries) : RetryInput → DelayedRetries
  | .elapse ms => s.elapse ms
  | .fails job => s.assertRetryWaitQueue job
  | .answered i assertion => s.answered i assertion
  | .published i confirmed => s.published i confirmed
  | .reconnected succeeds => (s.setups.filter fun wait => succeeds wait.waitQueue).foldl declare s
  | .declaredElsewhere wait => s.declare wait

/-- **The property.**  Wait long enough, and every copy confirmed so far has been dead-lettered back to
its work queue, once. -/
def AllReturn (s : DelayedRetries) : Prop :=
  ∃ ms : Nat, (s.elapse ms).returned.Perm (s.confirmed.map RetryJob.homecoming)

/-- The condition on one step: a copy is confirmed only when its wait queue exists and was last declared,
by whatever means, at most a minute ago. -/
def Timely (s : DelayedRetries) : RetryInput → Prop
  | .published i true => ∀ job, s.publishing[i]? = some job →
      ∃ q, ExpiringQueue.find job.wait.waitQueue s.queues = some q ∧ s.now ≤ q.declaredAt + 60000
  | _ => True

/-! ## The invariant -/

/-- The queue was declared as some wait queue, not later than `now`. -/
def WellDeclared (now : Int) (q : ExpiringQueue.Queue String Publication) : Prop :=
  q.declaredAt ≤ now ∧ q.expires = q.ttl + 60000 ∧
    ∃ wait : RetryWait, q.key = wait.waitQueue ∧ q.target = wait.targetQueue

/-- Nothing is lost so far, and no queue will be deleted before its copies are due. -/
structure Sound (s : DelayedRetries) : Prop where
  declared : ∀ q ∈ s.queues, WellDeclared s.now q
  outlasts : ExpiringQueue.Outlasts s.queues
  conserved : (s.returned ++ ExpiringQueue.contents s.queues).Perm
    (s.confirmed.map RetryJob.homecoming)

theorem sound_start : Sound {} where
  declared := nofun
  outlasts := nofun
  conserved := List.Perm.refl _

/-- Declaring a wait queue. -/
theorem WellDeclared.declare {now : Int} {qs : List (ExpiringQueue.Queue String Publication)}
    (h : ∀ q ∈ qs, WellDeclared now q) (wait : RetryWait) :
    ∀ q ∈ ExpiringQueue.declare now (wait.assertQueue now) qs, WellDeclared now q :=
  ExpiringQueue.forall_declare h ⟨Int.le_refl now, rfl, wait, rfl, rfl⟩
    fun _ hq => ⟨Int.le_refl now, hq.2⟩

theorem Sound.declare {s : DelayedRetries} (h : Sound s) (wait : RetryWait) : Sound (s.declare wait) where
  declared := WellDeclared.declare h.declared wait
  outlasts := ExpiringQueue.outlasts_declare h.outlasts (fun q hq => (h.declared q hq).1) _
  conserved := by
    show (_ ++ ExpiringQueue.contents (ExpiringQueue.declare _ _ _)).Perm _
    rw [ExpiringQueue.contents_declare]
    exact h.conserved

/-- A reconnect declares one wait queue after the other. -/
theorem Sound.declareAll {s : DelayedRetries} (h : Sound s) (waits : List RetryWait) :
    Sound (waits.foldl DelayedRetries.declare s) := by
  induction waits generalizing s with
  | nil => exact h
  | cons wait waits ih => exact ih (h.declare wait)

theorem Sound.elapse {s : DelayedRetries} (h : Sound s) (ms : Nat) : Sound (s.elapse ms) where
  declared := by
    refine ExpiringQueue.forall_rest (fun q hq => ?_) fun q parked hq => hq
    obtain ⟨hlast, hrest⟩ := h.declared q hq
    refine ⟨?_, hrest⟩
    show q.declaredAt ≤ s.now + ms
    omega
  outlasts := ExpiringQueue.outlasts_rest h.outlasts _
  conserved := by
    have hall := ExpiringQueue.passedOn_append_rest h.outlasts (s.now + ms)
    show ((s.returned ++ _) ++ _).Perm _
    rw [List.append_assoc]
    exact (hall.append_left s.returned).trans h.conserved

/-- A timely confirm: the wait queue outlasts the copy, and belongs to its work queue. -/
theorem Sound.confirm {s : DelayedRetries} (h : Sound s) {job : RetryJob}
    {q : ExpiringQueue.Queue String Publication}
    (hq : ExpiringQueue.find job.wait.waitQueue s.queues = some q)
    (htimely : s.now ≤ q.declaredAt + 60000) : Sound (s.confirm job) := by
  obtain ⟨hmem, hkey⟩ := ExpiringQueue.mem_of_find hq
  obtain ⟨hlast, hexpires, wait, hwait, htarget⟩ := h.declared q hmem
  have hqueue : q.target = job.queue := htarget.trans (waitQueue_inj (hwait.symm.trans hkey))
  rw [← job.copy_routingKey] at hq
  refine ⟨?_, ?_, ?_⟩
  · exact ExpiringQueue.forall_park h.declared fun _ _ hq => hq
  · refine ExpiringQueue.outlasts_park h.outlasts hq ?_ job.copy
    unfold ExpiringQueue.Queue.deadline
    omega
  · have hpark := ExpiringQueue.contents_park hq s.now job.copy
    show (s.returned ++ ExpiringQueue.contents (ExpiringQueue.park _ _ _ _)).Perm _
    refine (hpark.append_left s.returned).trans ?_
    rw [← List.append_assoc, hqueue]
    show List.Perm _ ((s.confirmed ++ [job]).map RetryJob.homecoming)
    rw [List.map_append]
    exact h.conserved.append_right _

/-- What the handlers and the connection know is no part of it. -/
theorem Sound.of_same {s s' : DelayedRetries} (h : Sound s) (hnow : s'.now = s.now)
    (hqueues : s'.queues = s.queues) (hconfirmed : s'.confirmed = s.confirmed)
    (hreturned : s'.returned = s.returned) : Sound s' where
  declared := by
    rw [hnow, hqueues]
    exact h.declared
  outlasts := by
    rw [hqueues]
    exact h.outlasts
  conserved := by
    rw [hreturned, hqueues, hconfirmed]
    exact h.conserved

/-- **One timely step.** -/
theorem Sound.step {s : DelayedRetries} (h : Sound s) {input : RetryInput} (htimely : s.Timely input) :
    Sound (s.step input) := by
  cases input with
  | elapse ms => exact h.elapse ms
  | fails job =>
      show Sound (s.assertRetryWaitQueue job)
      unfold assertRetryWaitQueue
      split
      · exact h.of_same rfl rfl rfl rfl
      · exact h.of_same rfl rfl rfl rfl
  | answered i assertion =>
      show Sound (s.answered i assertion)
      unfold DelayedRetries.answered
      cases s.asserting[i]? with
      | none => exact h
      | some job =>
          have h' : Sound { s with asserting := s.asserting.eraseIdx i } := h.of_same rfl rfl rfl rfl
          cases assertion with
          | declared => exact (h'.declare job.wait).of_same rfl rfl rfl rfl
          | refused => exact h'
          | putOff => exact h'.of_same rfl rfl rfl rfl
  | published i confirmed =>
      show Sound (s.published i confirmed)
      unfold DelayedRetries.published
      cases hjob : s.publishing[i]? with
      | none => exact h
      | some job =>
          have h' : Sound { s with publishing := s.publishing.eraseIdx i } := h.of_same rfl rfl rfl rfl
          cases confirmed with
          | false => exact h'
          | true =>
              obtain ⟨q, hq, hlast⟩ := htimely job hjob
              exact h'.confirm hq hlast
  | reconnected succeeds => exact h.declareAll _
  | declaredElsewhere wait => exact h.declare wait

/-! ## Why it gives the property, and why the condition is needed -/

/-- From a sound state every copy returns. -/
theorem Sound.allReturn {s : DelayedRetries} (h : Sound s) : s.AllReturn := by
  obtain ⟨t, ht⟩ := ExpiringQueue.exists_rest_eq_nil s.queues
  refine ⟨(t - s.now).toNat, ?_⟩
  have hempty : (s.elapse (t - s.now).toNat).queues = [] := ht _ (by omega)
  have hconserved := (h.elapse (t - s.now).toNat).conserved
  rw [hempty, ExpiringQueue.contents_nil, List.append_nil] at hconserved
  exact hconserved

/-- When more copies are confirmed than can be passed on, some are missing for good. -/
theorem not_allReturn_of_lt {s : DelayedRetries}
    (h : ∀ t, (s.returned ++ ExpiringQueue.passedOn t s.queues).length < s.confirmed.length) :
    ¬ s.AllReturn := by
  rintro ⟨ms, hperm⟩
  have hlength := hperm.length_eq
  rw [List.length_map] at hlength
  have hlt := h (s.now + ms)
  have hreturned : (s.elapse ms).returned =
    s.returned ++ ExpiringQueue.passedOn (s.now + ms) s.queues := rfl
  rw [hreturned] at hlength
  rw [hlength] at hlt
  exact Nat.lt_irrefl _ hlt

/-- **One untimely step.**  The copy goes into no queue, or into one that will not last. -/
theorem not_allReturn_of_not_timely {s : DelayedRetries} (h : Sound s) {input : RetryInput}
    (huntimely : ¬ s.Timely input) : ¬ (s.step input).AllReturn := by
  have hcount := h.conserved.length_eq
  rw [List.length_append, List.length_map] at hcount
  cases input with
  | published i confirmed =>
      cases confirmed with
      | false => exact absurd trivial huntimely
      | true =>
          unfold DelayedRetries.Timely at huntimely
          push Not at huntimely
          obtain ⟨job, hjob, hnone⟩ := huntimely
          show ¬ (s.published i true).AllReturn
          unfold DelayedRetries.published
          rw [hjob]
          apply not_allReturn_of_lt
          intro t
          show (s.returned ++ ExpiringQueue.passedOn t (ExpiringQueue.park s.now job.copy.routingKey
            job.copy s.queues)).length < (s.confirmed ++ [job]).length
          rw [List.length_append, List.length_append, List.length_singleton, job.copy_routingKey]
          cases hq : ExpiringQueue.find job.wait.waitQueue s.queues with
          | none =>
              rw [ExpiringQueue.park_of_missing hq]
              have hle := ExpiringQueue.length_passedOn_le t s.queues
              omega
          | some q =>
              -- the copy is due after the wait queue is gone
              have hlate := hnone q hq
              obtain ⟨hmem, -⟩ := ExpiringQueue.mem_of_find hq
              obtain ⟨-, hexpires, -⟩ := h.declared q hmem
              obtain ⟨q', hmem', hdeadline, hparked⟩ :=
                ExpiringQueue.exists_mem_park hq s.now job.copy
              have hlt := ExpiringQueue.length_passedOn_lt hmem' hparked (by
                rw [hdeadline]
                show q.declaredAt + q.expires < s.now + q.ttl
                omega) t
              have hlength := (ExpiringQueue.contents_park hq s.now job.copy).length_eq
              rw [List.length_append, List.length_singleton] at hlength
              omega
  | elapse ms => exact absurd trivial huntimely
  | fails job => exact absurd trivial huntimely
  | answered i assertion => exact absurd trivial huntimely
  | reconnected succeeds => exact absurd trivial huntimely
  | declaredElsewhere wait => exact absurd trivial huntimely

/-- **When delayed retries lose nothing.**  In every run, of any deliveries failing at any times, with any
answers of the broker and any reconnections: at each of its states everything confirmed so far returns
to its work queue, exactly when every confirm of the run is timely. -/
theorem allReturn_iff_timely (inputs : List RetryInput) :
    (∀ s, Reaches DelayedRetries.step {} inputs s → s.AllReturn) ↔
      Along DelayedRetries.step DelayedRetries.Timely {} inputs := by
  have hsafe : ∀ s : DelayedRetries, Sound s → s.AllReturn := fun _ h => h.allReturn
  apply Along.iff_forall_reaches hsafe
  · intro s i h htimely
    exact h.step htimely
  · intro s i h huntimely
    exact not_allReturn_of_not_timely h huntimely
  · exact sound_start

/-- A delivery of the queue `orders` that failed once, with five seconds to the next attempt. -/
def ordersJob : RetryJob where
  queue := "orders"
  policy := { maxAttempts := some 3, delayMs := some 5000 }
  msg := { routingKey := "order.created", content := [] }
  error := .error { name := "Error", message := "boom" }
  attempts := .num 1
  counted := rfl
  retried := by decide
  delayed := by decide

/-- A failure, and another one seventy seconds later: the wait queue is gone by then, and its name is
still remembered. -/
def twoFailures : List RetryInput :=
  [.fails ordersJob, .answered 0 .declared, .published 0 true, .elapse 70000,
    .fails ordersJob, .published 0 true]

theorem not_allReturn_twoFailures :
    ¬ ∀ (inputs : List RetryInput) (s : DelayedRetries),
      Reaches DelayedRetries.step {} inputs s → s.AllReturn := by
  intro h
  have hlast := h twoFailures (run DelayedRetries.step {} twoFailures) (reaches_run _ _ _)
  refine not_allReturn_of_lt (fun t => ?_) hlast
  have hqueues : (run DelayedRetries.step {} twoFailures).queues = [] := rfl
  rw [hqueues]
  show 1 < 2
  decide

end DelayedRetries

end NestAmqp.Amqp
