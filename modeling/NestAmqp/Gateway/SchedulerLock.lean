/-
# NestAmqp.Gateway.SchedulerLock — one instance a tick.

The scheduled jobs of the gateway take a lease from the scheduler lock before they run and give it back
when they end.  A lease ends by itself, so a job may outlive it; `release` drops whatever lease the name
has; and an error of the lock is taken as leave to go on.

The lock answers as `InMemorySchedulerLock` does.  That one keeps its leases in its process; here all
instances share one lock, which outlives each of them.
-/
import NestAmqp.Lib.Machine
import Mathlib.Data.List.Induction
import Mathlib.Logic.Function.Basic

namespace NestAmqp.Gateway.SchedulerLock

open NestAmqp.Lib.Machine

/-! ## The lock -/

/-- The scheduled jobs. -/
inductive ScheduledJob
  | rollup
  | retention
  deriving DecidableEq, Repr

/-- `GW_SCHED_LOCK_NAMES`. -/
def ScheduledJob.lockName : ScheduledJob → String
  | rollup => "gw-metrics-rollup"
  | retention => "gw-retention"

/-- `LOCK_TTL_MS` of the service. -/
def ScheduledJob.lockTtlMs : ScheduledJob → Int
  | rollup => 5 * 60000
  | retention => 10 * 60000

/-- `leases`: when the lease of a name ends. -/
abbrev Leases := String → Option Int

/-- `tryAcquire(name, ttlMs)`. -/
def tryAcquire (leases : Leases) (name : String) (ttlMs now : Int) : Bool × Leases :=
  if (leases name).any fun held => decide (held > now) then (false, leases)
  else (true, Function.update leases name (some (now + ttlMs)))

/-- `release(name)`. -/
def release (leases : Leases) (name : String) : Leases := Function.update leases name none

/-! ## The instances -/

/-- A job that an instance runs, with the end of the lease it took, if the lock gave it one. -/
structure JobRun where
  job : ScheduledJob
  lease : Option Int
  running : Bool := true
  deriving DecidableEq, Repr

/-- The clock, the lock that all instances share, and their jobs. -/
structure Cluster where
  now : Int := 0
  leases : Leases := fun _ => none
  runs : List JobRun := []

/-- Time passes; a timer fires, and its call of the lock may throw; a job comes to its `finally`, where
the release may throw; an instance dies in a job. -/
inductive Event
  | pass (ms : Nat)
  | tick (job : ScheduledJob) (errors : Bool)
  | finish (i : Nat) (errors : Bool)
  | crash (i : Nat)
  deriving DecidableEq, Repr

namespace Cluster

/-- The job starts. -/
def start (s : Cluster) (run : JobRun) : Cluster := { s with runs := s.runs ++ [run] }

/-- The job is over. -/
def stop (s : Cluster) (i : Nat) (run : JobRun) : Cluster :=
  { s with runs := s.runs.set i { run with running := false } }

/-- `acquire(name)` and, when it is true, the beginning of the job. -/
def tick (s : Cluster) (job : ScheduledJob) (errors : Bool) : Cluster :=
  if errors then s.start { job, lease := none }
  else
    let (acquired, leases) := tryAcquire s.leases job.lockName job.lockTtlMs s.now
    if acquired then { s with leases }.start { job, lease := some (s.now + job.lockTtlMs) } else s

/-- The end of the job and its `finally`. -/
def finish (s : Cluster) (i : Nat) (errors : Bool) : Cluster :=
  match s.runs[i]? with
  | none => s
  | some run =>
      if run.running then
        { s with leases := if errors then s.leases else release s.leases run.job.lockName }.stop i run
      else s

/-- The instance dies: no `finally`. -/
def crash (s : Cluster) (i : Nat) : Cluster :=
  match s.runs[i]? with
  | none => s
  | some run => s.stop i run

/-- The cluster behind an event. -/
def step (s : Cluster) : Event → Cluster
  | .pass ms => { s with now := s.now + ms }
  | .tick job errors => s.tick job errors
  | .finish i errors => s.finish i errors
  | .crash i => s.crash i

variable {s : Cluster} {job : ScheduledJob} {i j : Nat}

theorem lockName_inj {job job' : ScheduledJob} : job.lockName = job'.lockName ↔ job = job' := by
  cases job <;> cases job' <;> decide

/-! ## Which jobs run -/

/-- The `i`-th run is of the job, and it is not over. -/
def Runs (s : Cluster) (job : ScheduledJob) (i : Nat) (run : JobRun) : Prop :=
  s.runs[i]? = some run ∧ run.running = true ∧ run.job = job

theorem runs_start {new run : JobRun} (hnew : new.running = true) :
    (s.start new).Runs job i run ↔ s.Runs job i run ∨ (i = s.runs.length ∧ run = new ∧ new.job = job) := by
  unfold Runs start
  dsimp only
  rcases Nat.lt_trichotomy i s.runs.length with hlt | rfl | hgt
  · rw [List.getElem?_append_left hlt]
    exact ⟨.inl, fun h => h.resolve_right fun ⟨heq, _⟩ => absurd heq (Nat.ne_of_lt hlt)⟩
  · rw [List.getElem?_concat_length, List.getElem?_eq_none (Nat.le_refl _)]
    constructor
    · rintro ⟨heq, -, hjob⟩
      obtain rfl := Option.some.inj heq
      exact .inr ⟨rfl, rfl, hjob⟩
    · rintro (⟨hnone, -⟩ | ⟨-, rfl, hjob⟩)
      · cases hnone
      · exact ⟨rfl, hnew, hjob⟩
  · have hlen : (s.runs ++ [new]).length ≤ i := by
      rw [List.length_append, List.length_singleton]
      exact hgt
    rw [List.getElem?_eq_none hlen, List.getElem?_eq_none (Nat.le_of_lt hgt)]
    constructor
    · rintro ⟨hnone, -⟩
      cases hnone
    · rintro (⟨hnone, -⟩ | ⟨heq, -⟩)
      · cases hnone
      · exact absurd heq (Nat.ne_of_gt hgt)

theorem runs_stop {old run : JobRun} :
    (s.stop i old).Runs job j run ↔ s.Runs job j run ∧ j ≠ i := by
  unfold Runs stop
  dsimp only
  by_cases hij : i = j
  · subst hij
    rw [List.getElem?_set_self']
    refine iff_of_false ?_ fun h => h.2 rfl
    rintro ⟨heq, hrunning, -⟩
    obtain ⟨_, -, rfl⟩ := Option.map_eq_some_iff.mp heq
    cases hrunning
  · rw [List.getElem?_set_ne hij]
    exact ⟨fun h => ⟨h, fun heq => hij heq.symm⟩, And.left⟩

/-- The lock refuses the name. -/
def Held (s : Cluster) (job : ScheduledJob) : Prop := ∃ e, s.leases job.lockName = some e ∧ s.now < e

theorem any_lease_iff : ((s.leases job.lockName).any fun held => decide (held > s.now)) = true ↔ s.Held job := by
  unfold Held
  cases s.leases job.lockName <;> simp

/-- A tick of a job whose name is held does nothing, otherwise it takes the lease and starts the job. -/
theorem tick_of_held (h : s.Held job) : s.tick job false = s := by
  unfold tick tryAcquire
  simp only [any_lease_iff.mpr h, Bool.false_eq_true, if_true, if_false]

theorem tick_of_free (h : ¬ s.Held job) : s.tick job false =
    { s with leases := Function.update s.leases job.lockName (some (s.now + job.lockTtlMs)) }.start
      { job, lease := some (s.now + job.lockTtlMs) } := by
  unfold tick tryAcquire
  simp only [mt any_lease_iff.mp h, Bool.false_eq_true, if_true, if_false]

/-! ## One job at a time -/

/-- At most one run of the job is not over. -/
def Exclusive (s : Cluster) (job : ScheduledJob) : Prop :=
  ∀ i j run run', s.Runs job i run → s.Runs job j run' → i = j

/-- What holds while nothing goes wrong: one run at most, and it has the lease. -/
structure Leased (s : Cluster) (job : ScheduledJob) : Prop where
  exclusive : s.Exclusive job
  lease : ∀ i run, s.Runs job i run → ∃ e, run.lease = some e ∧ s.leases job.lockName = some e

/-- No run of the job is past the end of its lease. -/
def InTime (s : Cluster) (job : ScheduledJob) : Prop :=
  ∀ run ∈ s.runs, run.running = true → run.job = job → run.lease.all fun e => decide (s.now < e)

instance : Decidable (s.InTime job) := by unfold InTime; infer_instance

/-- The lock answers the job. -/
def Answered (job : ScheduledJob) (event : Event) : Prop := event ≠ .tick job true

instance {event : Event} : Decidable (Answered job event) := by unfold Answered; infer_instance

/-- Another name's lease is taken or dropped. -/
theorem Leased.of_same (h : Leased s job) {s' : Cluster}
    (hruns : ∀ i run, s'.Runs job i run → s.Runs job i run)
    (hleases : ∀ i run, s'.Runs job i run → s'.leases job.lockName = s.leases job.lockName) :
    Leased s' job where
  exclusive i j run run' hi hj := h.exclusive i j run run' (hruns i run hi) (hruns j run' hj)
  lease i run hi := by
    obtain ⟨e, hlease, heq⟩ := h.lease i run (hruns i run hi)
    exact ⟨e, hlease, (hleases i run hi).trans heq⟩

theorem Leased.tick (h : Leased s job) (hintime : s.InTime job) {job' : ScheduledJob} {errors : Bool}
    (hanswered : Answered job (.tick job' errors)) : Leased (s.tick job' errors) job := by
  by_cases hjob : job' = job
  · subst hjob
    cases errors with
    | true => exact absurd rfl hanswered
    | false =>
        by_cases hheld : s.Held job'
        · rw [tick_of_held hheld]
          exact h
        · -- A run that is not over would hold the name: it has the lease, and the lease has not ended.
          have hnone : ∀ i run, ¬ s.Runs job' i run := by
            intro i run hrun
            obtain ⟨e, hlease, heq⟩ := h.lease i run hrun
            have htime := hintime run (List.mem_of_getElem? hrun.1) hrun.2.1 hrun.2.2
            rw [hlease] at htime
            exact hheld ⟨e, heq, of_decide_eq_true htime⟩
          have honly : ∀ i run, (s.tick job' false).Runs job' i run →
              i = s.runs.length ∧ run.lease = some (s.now + job'.lockTtlMs) := by
            rw [tick_of_free hheld]
            intro i run hrun
            rcases (runs_start rfl).mp hrun with hold | ⟨hi, rfl, -⟩
            · exact absurd hold (hnone i run)
            · exact ⟨hi, rfl⟩
          refine ⟨fun i j run run' hi hj => (honly i run hi).1.trans (honly j run' hj).1.symm, ?_⟩
          intro i run hrun
          refine ⟨_, (honly i run hrun).2, ?_⟩
          rw [tick_of_free hheld]
          exact Function.update_self _ _ _
  · have hold : ∀ (s' : Cluster) (lease : Option Int), s'.runs = s.runs → ∀ i run,
        (s'.start { job := job', lease }).Runs job i run → s.Runs job i run := by
      intro s' lease hruns i run hrun
      rcases (runs_start rfl).mp hrun with h | ⟨-, -, heq⟩
      · unfold Runs at h ⊢
        rwa [hruns] at h
      · exact absurd heq hjob
    cases errors with
    | true => exact h.of_same (hold s none rfl) fun _ _ _ => rfl
    | false =>
        by_cases hheld : s.Held job'
        · rw [tick_of_held hheld]
          exact h
        · rw [tick_of_free hheld]
          refine h.of_same (hold _ _ rfl) fun _ _ _ => ?_
          exact Function.update_of_ne (fun heq => hjob (lockName_inj.mp heq).symm) _ _

theorem Leased.finish (h : Leased s job) (i : Nat) (errors : Bool) : Leased (s.finish i errors) job := by
  unfold Cluster.finish
  split
  next => exact h
  next run hrun =>
      split
      next hrunning =>
          refine h.of_same (fun j run' hj => (runs_stop.mp hj).1) fun j run' hj => ?_
          obtain ⟨hj, hne⟩ := runs_stop.mp hj
          cases errors with
          | true => rfl
          | false =>
              refine Function.update_of_ne (fun heq => hne ?_) _ _
              -- The run that ends has the same job, so it is the one that runs.
              exact h.exclusive j i run' run hj ⟨hrun, hrunning, (lockName_inj.mp heq).symm⟩
      next => exact h

theorem Leased.step (h : Leased s job) (event : Event) (hok : s.InTime job ∧ Answered job event) :
    Leased (s.step event) job := by
  cases event with
  | pass ms => exact h.of_same (fun _ _ h => h) fun _ _ _ => rfl
  | tick job' errors => exact h.tick hok.1 hok.2
  | finish i errors => exact h.finish i errors
  | crash i =>
      show Leased (s.crash i) job
      unfold crash
      split
      · exact h
      · exact h.of_same (fun j run hj => (runs_stop.mp hj).1) fun _ _ _ => rfl

theorem leased_empty : Leased {} job where
  exclusive _ _ _ _ h := by cases h.1
  lease _ _ h := by cases h.1

/-- A tick that finds a run past its lease starts a second one. -/
theorem Leased.exclusive_tick_iff (h : Leased s job) :
    (s.tick job false).Exclusive job ↔ s.InTime job := by
  constructor
  · intro hexclusive run hmem hrunning hjob
    obtain ⟨i, hi⟩ := List.mem_iff_getElem?.mp hmem
    obtain ⟨e, hlease, heq⟩ := h.lease i run ⟨hi, hrunning, hjob⟩
    rw [hlease]
    refine decide_eq_true ?_
    by_contra hpast
    have hfree : ¬ s.Held job := by
      rintro ⟨e', heq', hlt⟩
      exact hpast (Option.some.inj (heq'.symm.trans heq) ▸ hlt)
    rw [tick_of_free hfree] at hexclusive
    have hboth := hexclusive i s.runs.length run _ ((runs_start rfl).mpr (.inl ⟨hi, hrunning, hjob⟩))
      ((runs_start rfl).mpr (.inr ⟨rfl, rfl, rfl⟩))
    exact absurd hboth (Nat.ne_of_lt (List.getElem?_eq_some_iff.mp hi).1)
  · intro hintime
    have hanswered : Answered job (.tick job false) := fun heq => by cases heq
    exact (h.tick hintime hanswered).exclusive

/-- **One job at a time.**  Whatever the timers, the instances and their crashes: while every lock call of
the job is answered and none of its runs outlives its lease, at most one instance is running it.  From then
on the next tick starts a second one exactly when a run has outlived its lease. -/
theorem exclusive_of_inTime {events : List Event}
    (h : Along step (fun s event => s.InTime job ∧ Answered job event) {} events) :
    (∀ s, Reaches step {} events s → s.Exclusive job) ∧
      ((run step {} (events ++ [.tick job false])).Exclusive job ↔ (run step {} events).InTime job) := by
  have hleased : ∀ s, Reaches step {} events s → Leased s job := fun s hs =>
    h.invariant (fun (s : Cluster) event (hinv : Leased s job) hok => hinv.step event hok) leased_empty hs
  refine ⟨fun s hs => (hleased s hs).exclusive, ?_⟩
  rw [run_append]
  exact (hleased _ (reaches_run _ _ _)).exclusive_tick_iff

theorem exclusive_of_inTime_twoInstances :
    let events : List Event := [.tick .rollup false, .tick .rollup false, .pass 60000, .tick .retention false,
      .finish 0 false, .tick .rollup false, .crash 1]
    (∀ s, Reaches step {} events s → s.Exclusive .rollup) ∧
      ((run step {} (events ++ [.tick .rollup false])).Exclusive .rollup ↔
        (run step {} events).InTime .rollup) :=
  exclusive_of_inTime (by decide +kernel)

/-! ## Skipped ticks -/

/-- The event takes the lease of the name, or drops it. -/
def Rewrites (job : ScheduledJob) (s : Cluster) : Event → Prop
  | .tick job' errors => job' = job ∧ errors = false ∧ ¬ s.Held job
  | .finish i errors => errors = false ∧ ∃ run, s.Runs job i run
  | _ => False

/-- The end of the lease of a name, behind an event. -/
theorem leases_step (s : Cluster) (job : ScheduledJob) (event : Event) :
    (s.step event).leases job.lockName = s.leases job.lockName ∧ ¬ Rewrites job s event ∨
      Rewrites job s event ∧
        ((s.step event).leases job.lockName = none ∨
          event = .tick job false ∧ ¬ s.Held job ∧
            (s.step event).leases job.lockName = some (s.now + job.lockTtlMs)) := by
  cases event with
  | pass ms => exact .inl ⟨rfl, id⟩
  | tick job' errors =>
      cases errors with
      | true => exact .inl ⟨rfl, fun h => Bool.noConfusion h.2.1⟩
      | false =>
          show (s.tick job' false).leases _ = _ ∧ _ ∨ _
          by_cases hheld : s.Held job'
          · rw [tick_of_held hheld]
            exact .inl ⟨rfl, fun h => h.2.2 (h.1 ▸ hheld)⟩
          · by_cases hjob : job' = job
            · subst hjob
              refine .inr ⟨⟨rfl, rfl, hheld⟩, .inr ⟨rfl, hheld, ?_⟩⟩
              show (s.tick job' false).leases _ = _
              rw [tick_of_free hheld]
              exact Function.update_self _ _ _
            · rw [tick_of_free hheld]
              refine .inl ⟨?_, fun h => hjob h.1⟩
              exact Function.update_of_ne (fun heq => hjob (lockName_inj.mp heq).symm) _ _
  | crash i =>
      refine .inl ⟨?_, id⟩
      show (s.crash i).leases _ = _
      unfold crash
      split <;> rfl
  | finish i errors =>
      show (s.finish i errors).leases _ = _ ∧ _ ∨ _ ∧ ((s.finish i errors).leases _ = _ ∨ _)
      unfold Cluster.finish
      split
      next hnone =>
          refine .inl ⟨rfl, ?_⟩
          rintro ⟨-, run, hrun, -⟩
          cases hnone.symm.trans hrun
      next run hrun =>
          cases hrunning : run.running with
          | false =>
              refine .inl ⟨rfl, ?_⟩
              rintro ⟨-, run', hrun', hrunning', -⟩
              obtain rfl := Option.some.inj (hrun.symm.trans hrun')
              cases hrunning.symm.trans hrunning'
          | true =>
              cases errors with
              | true => exact .inl ⟨rfl, fun h => Bool.noConfusion h.1⟩
              | false =>
                  by_cases hjob : run.job = job
                  · refine .inr ⟨⟨rfl, run, hrun, hrunning, hjob⟩, .inl ?_⟩
                    rw [← hjob]
                    exact Function.update_self _ _ _
                  · refine .inl ⟨?_, ?_⟩
                    · exact Function.update_of_ne (fun heq => hjob (lockName_inj.mp heq).symm) _ _
                    · rintro ⟨-, run', hrun', -, hjob'⟩
                      obtain rfl := Option.some.inj (hrun.symm.trans hrun')
                      exact hjob hjob'

/-- A tick took the lease that ends then, and nothing has taken or dropped the name's lease since. -/
def TakenSince (job : ScheduledJob) (events : List Event) (e : Int) : Prop :=
  ∃ before after, events = before ++ .tick job false :: after ∧ ¬ (run step {} before).Held job ∧
    e = (run step {} before).now + job.lockTtlMs ∧
    Along step (fun s event => ¬ Rewrites job s event) (run step {} (before ++ [.tick job false])) after

theorem takenSince_concat {events : List Event} {event : Event} {e : Int} :
    TakenSince job (events ++ [event]) e ↔
      (event = .tick job false ∧ ¬ (run step {} events).Held job ∧
        e = (run step {} events).now + job.lockTtlMs) ∨
      (TakenSince job events e ∧ ¬ Rewrites job (run step {} events) event) := by
  constructor
  · rintro ⟨before, after, heq, hfree, rfl, hquiet⟩
    rcases List.eq_nil_or_concat after with rfl | ⟨init, last, rfl⟩
    · obtain ⟨rfl, hlast⟩ := List.append_inj' heq rfl
      exact .inl ⟨List.singleton_inj.mp hlast, hfree, rfl⟩
    · rw [List.concat_eq_append] at heq hquiet
      rw [← List.cons_append, ← List.append_assoc] at heq
      obtain ⟨rfl, hlast⟩ := List.append_inj' heq rfl
      obtain rfl := List.singleton_inj.mp hlast
      obtain ⟨hinit, hend⟩ := (along_append _ _ _ _ _).mp hquiet
      refine .inr ⟨⟨before, init, rfl, hfree, rfl, hinit⟩, ?_⟩
      rw [← List.singleton_append, ← List.append_assoc, run_append]
      exact hend.1
  · rintro (⟨rfl, hfree, rfl⟩ | ⟨⟨before, after, rfl, hfree, rfl, hquiet⟩, hkept⟩)
    · exact ⟨events, [], rfl, hfree, rfl, trivial⟩
    · refine ⟨before, after ++ [event], by simp, hfree, rfl, (along_append _ _ _ _ _).mpr ⟨hquiet, ?_⟩⟩
      rw [← run_append, List.append_assoc, List.singleton_append]
      exact ⟨hkept, trivial⟩

theorem leases_run (events : List Event) (e : Int) :
    (run step {} events).leases job.lockName = some e ↔ TakenSince job events e := by
  induction events using List.reverseRecOn with
  | nil =>
      refine iff_of_false (fun h => nomatch h) ?_
      rintro ⟨before, after, heq, -⟩
      simp at heq
  | append_singleton events event ih =>
      rw [run_append]
      show ((run step {} events).step event).leases _ = _ ↔ _
      rw [takenSince_concat, ← ih]
      rcases leases_step (run step {} events) job event with ⟨hsame, hkept⟩ | ⟨hrewrites, hgone | ⟨rfl, hfree, htaken⟩⟩
      · rw [hsame, and_iff_left hkept, or_iff_right]
        rintro ⟨rfl, hfree, -⟩
        exact hkept ⟨rfl, rfl, hfree⟩
      · rw [hgone]
        refine iff_of_false (fun h => nomatch h) ?_
        rintro (⟨rfl, hfree, rfl⟩ | ⟨-, hkept⟩)
        · have htaken : (Cluster.tick (run step {} events) job false).leases job.lockName = none := hgone
          rw [tick_of_free hfree] at htaken
          cases (Function.update_self _ _ _).symm.trans htaken
        · exact hkept hrewrites
      · rw [htaken, Option.some_inj, or_iff_left fun h => h.2 hrewrites, eq_comm]
        exact (and_iff_right rfl).symm.trans (and_congr_right fun _ => (and_iff_right hfree).symm)

/-- **Which ticks are skipped.**  In every run of the cluster, also with errors, crashes and jobs that
outlive their leases: a tick of a job starts nothing exactly when an earlier tick of the job took a lease
that has not ended, and no release and no later tick has touched the name since. -/
theorem skipped_iff (events : List Event) :
    (run step {} (events ++ [.tick job false])).runs = (run step {} events).runs ↔
      ∃ e, (run step {} events).now < e ∧ TakenSince job events e := by
  have hheld : (run step {} events).Held job ↔ ∃ e, (run step {} events).now < e ∧ TakenSince job events e :=
    exists_congr fun e => and_comm.trans (and_congr_right fun _ => leases_run events e)
  rw [← hheld, run_append]
  show (Cluster.tick (run step {} events) job false).runs = _ ↔ _
  constructor
  · intro hsame
    by_contra hfree
    rw [tick_of_free hfree] at hsame
    have hlength := congrArg List.length hsame
    simp [start] at hlength
  · intro h
    rw [tick_of_held h]

end Cluster

end NestAmqp.Gateway.SchedulerLock
