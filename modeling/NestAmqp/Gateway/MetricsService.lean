/-
# NestAmqp.Gateway.MetricsService — calls tracked, and series that are capped.

`track` writes the point of a call and then counts it; each write may fail, and many calls are under way at
once.  `series` reads no more points than the cap, the newest, and makes its buckets of these.
-/
import NestAmqp.Gateway.MetricViews
import NestAmqp.Lib.Tasks
import NestAmqp.Store.HttpMetricRepository

namespace NestAmqp.Gateway.MetricsService

open NestAmqp.Lib NestAmqp.Lib.Machine NestAmqp.Store NestAmqp.Store.InMemoryHttpMetricRepository

/-! ## Capped series -/

/-- `pointsCapped(query, label)`. -/
def pointsCapped (repo : InMemoryHttpMetricRepository) (queryMaxPoints : Int) (query : MetricQuery) :
    List HttpMetricPoint :=
  repo.points (if queryMaxPoints > 0 then { query with limit := some queryMaxPoints } else query)

/-- `Number(bucketMs) || 60_000`. -/
def bucketWidth (bucketMs : Option ℚ) : ℚ := if bucketMs.getD 0 = 0 then 60000 else bucketMs.getD 0

/-- The query of `series`: it has no limit of its own. -/
def seriesQuery (query : MetricQuery) : MetricQuery := { query with limit := none }

/-- `series(bucketMs, from, to, method, route, name)`. -/
def series (repo : InMemoryHttpMetricRepository) (queryMaxPoints : Int) (query : MetricQuery)
    (bucketMs : Option ℚ) : List MetricSeriesBucket :=
  buildSeries (pointsCapped repo queryMaxPoints (seriesQuery query)) ⟨bucketWidth bucketMs⟩

/-- The series of all the points. -/
def fullSeries (repo : InMemoryHttpMetricRepository) (query : MetricQuery) (bucketMs : Option ℚ) :
    List MetricSeriesBucket :=
  buildSeries (repo.points (seriesQuery query)) ⟨bucketWidth bucketMs⟩

section Series

variable {points : List HttpMetricPoint} {w : ℚ} {b : MetricSeriesBucket}

/-- The buckets are those of the points, each made of the points at its start. -/
theorem mem_buildSeries_iff (hw : 0 < w) : b ∈ buildSeries points ⟨w⟩ ↔
    pointsAt w b.bucketStart points ≠ [] ∧
      b = ((pointsAt w b.bucketStart points).foldl OpenBucket.add {}).close b.bucketStart := by
  refine ⟨bucket_of_mem hw, ?_⟩
  rintro ⟨hne, heq⟩
  obtain ⟨p, hp⟩ := List.exists_mem_of_ne_nil _ hne
  obtain ⟨hmem, hstart⟩ := List.mem_filter.mp hp
  obtain ⟨b', hb'⟩ := exists_bucket hw hmem
  have hin : b' ∈ (buildSeries points ⟨w⟩).filter fun b => b.bucketStart = p.start w := hb' ▸ .head _
  obtain ⟨hin, hstart'⟩ := List.mem_filter.mp hin
  have hsame : b'.bucketStart = b.bucketStart := (of_decide_eq_true hstart').trans (of_decide_eq_true hstart)
  rw [heq, ← hsame, ← (bucket_of_mem hw hin).2]
  exact hin

/-- Points with other starts do not matter to a bucket. -/
theorem mem_buildSeries_append (hw : 0 < w) {left : List HttpMetricPoint}
    (hleft : ∀ p ∈ left, p.start w ≠ b.bucketStart) :
    b ∈ buildSeries points ⟨w⟩ ↔ b ∈ buildSeries (points ++ left) ⟨w⟩ := by
  have hsame : pointsAt w b.bucketStart (points ++ left) = pointsAt w b.bucketStart points := by
    unfold pointsAt
    have hnone : left.filter (fun p => p.start w = b.bucketStart) = [] :=
      List.filter_eq_nil_iff.mpr fun p hp => by simpa using hleft p hp
    rw [List.filter_append, hnone, List.append_nil]
  rw [mem_buildSeries_iff hw, mem_buildSeries_iff hw, hsame]

theorem start_mono (hw : 0 < w) {p q : HttpMetricPoint} (h : p.ts ≤ q.ts) : p.start w ≤ q.start w := by
  unfold HttpMetricPoint.start
  have hfloor : ⌊p.ts / w⌋ ≤ ⌊q.ts / w⌋ := Int.floor_le_floor (div_le_div_of_nonneg_right h hw.le)
  exact mul_le_mul_of_nonneg_right (by exact_mod_cast hfloor) hw.le

end Series

/-- The width of the buckets. -/
def widthOf (bucketMs : Option ℚ) : ℚ := if bucketWidth bucketMs > 0 then bucketWidth bucketMs else 60000

theorem widthOf_pos (bucketMs : Option ℚ) : 0 < widthOf bucketMs := by
  unfold widthOf
  split
  next h => exact h
  next => norm_num

theorem buildSeries_width (points : List HttpMetricPoint) (bucketMs : Option ℚ) :
    buildSeries points ⟨bucketWidth bucketMs⟩ = buildSeries points ⟨widthOf bucketMs⟩ := by
  unfold buildSeries
  simp only [if_pos (widthOf_pos bucketMs)]
  rfl

/-- The points that are read are the newest, and the cap counts them when others are left out. -/
theorem pointsCapped_newest (repo : InMemoryHttpMetricRepository) (queryMaxPoints : Int) (query : MetricQuery) :
    ∃ left, repo.points (seriesQuery query) = pointsCapped repo queryMaxPoints (seriesQuery query) ++ left ∧
      (∀ p ∈ pointsCapped repo queryMaxPoints (seriesQuery query), ∀ q ∈ left, q.ts ≤ p.ts) ∧
      (left ≠ [] → ((pointsCapped repo queryMaxPoints (seriesQuery query)).length : Int) = queryMaxPoints) := by
  unfold pointsCapped
  split
  next hcap =>
    have hpoints : repo.points { seriesQuery query with limit := some queryMaxPoints } =
        (repo.points (seriesQuery query)).take queryMaxPoints.toNat := by
      show (if queryMaxPoints = 0 then _ else sliceTo queryMaxPoints _) = _
      rw [if_neg (ne_of_gt hcap)]
      unfold sliceTo
      rw [if_neg (not_lt.mpr hcap.le)]
      rfl
    have hsorted : (repo.points (seriesQuery query)).Pairwise fun p q => q.ts ≤ p.ts :=
      List.pairwise_insertionSort _ _
    rw [hpoints]
    refine ⟨(repo.points (seriesQuery query)).drop queryMaxPoints.toNat, (List.take_append_drop _ _).symm, ?_, ?_⟩
    · rw [← List.take_append_drop queryMaxPoints.toNat (repo.points (seriesQuery query))] at hsorted
      exact (List.pairwise_append.mp hsorted).2.2
    · intro hleft
      have hlong := List.length_lt_of_drop_ne_nil hleft
      rw [List.length_take, Nat.min_eq_left hlong.le]
      exact Int.toNat_of_nonneg hcap.le
  next => exact ⟨[], (List.append_nil _).symm, fun _ _ q hq => absurd hq List.not_mem_nil, fun h => absurd rfl h⟩

/-- **A capped series.**  Whatever is stored and asked for: the cap keeps the newest points.  A bucket of the
capped series is a bucket of the full series, or it is the oldest one shown and some of its points were left
out; and every bucket of the full series that starts later than all points left out is shown. -/
theorem series_capped (repo : InMemoryHttpMetricRepository) (queryMaxPoints : Int) (query : MetricQuery)
    (bucketMs : Option ℚ) :
    ∃ left, repo.points (seriesQuery query) = pointsCapped repo queryMaxPoints (seriesQuery query) ++ left ∧
      (∀ p ∈ pointsCapped repo queryMaxPoints (seriesQuery query), ∀ q ∈ left, q.ts ≤ p.ts) ∧
      (left ≠ [] → ((pointsCapped repo queryMaxPoints (seriesQuery query)).length : Int) = queryMaxPoints) ∧
      (∀ b ∈ series repo queryMaxPoints query bucketMs, b ∈ fullSeries repo query bucketMs ∨
        (∃ q ∈ left, q.start (widthOf bucketMs) = b.bucketStart) ∧
          ∀ b' ∈ series repo queryMaxPoints query bucketMs, b.bucketStart ≤ b'.bucketStart) ∧
      ∀ b ∈ fullSeries repo query bucketMs, (∀ q ∈ left, q.start (widthOf bucketMs) < b.bucketStart) →
        b ∈ series repo queryMaxPoints query bucketMs := by
  obtain ⟨left, hall, hnewest, hcap⟩ := pointsCapped_newest repo queryMaxPoints query
  have hw := widthOf_pos bucketMs
  unfold series fullSeries
  rw [buildSeries_width, buildSeries_width, hall]
  refine ⟨left, rfl, hnewest, hcap, ?_, ?_⟩
  · intro b hb
    by_cases hleft : ∃ q ∈ left, q.start (widthOf bucketMs) = b.bucketStart
    · refine .inr ⟨hleft, fun b' hb' => ?_⟩
      obtain ⟨q, hq, hstart⟩ := hleft
      obtain ⟨p, hp⟩ := List.exists_mem_of_ne_nil _ ((mem_buildSeries_iff hw).mp hb').1
      obtain ⟨hmem, hstart'⟩ := List.mem_filter.mp hp
      rw [← hstart, ← of_decide_eq_true hstart']
      exact start_mono hw (hnewest p hmem q hq)
    · refine .inl ((mem_buildSeries_append hw fun q hq heq => hleft ⟨q, hq, heq⟩).mp hb)
  · intro b hb hlater
    exact (mem_buildSeries_append hw fun q hq => ne_of_lt (hlater q hq)).mpr hb

/-! ## Tracked calls -/

/-- Where a call of `track` stands: before its point is written, before it is counted, or over; the outcome
says whether it was counted. -/
inductive TrackPhase
  | recording
  | counting
  | counted
  | uncounted
  | dropped
  deriving DecidableEq, Repr

/-- A call of `track`. -/
structure TrackTask where
  input : TrackCallInput
  phase : TrackPhase := .recording
  deriving DecidableEq, Repr

/-- The requests the repository has had, and the calls of `track`. -/
structure Tracking where
  ops : List MetricOp := []
  tasks : List TrackTask := []

/-- A call comes in; a write of a call is done, at a time, or it fails; a job of the gateway asks for
something else. -/
inductive TrackEvent
  | track (input : TrackCallInput)
  | record (i : Nat) (now : ℚ) (fails : Bool)
  | increment (i : Nat) (now : ℚ) (fails : Bool)
  | request (op : MetricOp)

/-- The point of a call. -/
def pointOf (input : TrackCallInput) (now : ℚ) : HttpMetricPoint where
  ts := input.ts.getD now
  method := input.method
  route := input.route
  name := input.name
  status := input.status
  durationMs := input.durationMs

namespace Tracking

/-- The repository. -/
def repo (s : Tracking) : InMemoryHttpMetricRepository := run InMemoryHttpMetricRepository.step {} s.ops

/-- A request is answered, and the call goes on. -/
def answer (s : Tracking) (i : Nat) (task : TrackTask) (phase : TrackPhase) (ops : List MetricOp) : Tracking :=
  { ops := s.ops ++ ops, tasks := s.tasks.set i { task with phase } }

/-- The state behind an event. -/
def step (s : Tracking) : TrackEvent → Tracking
  | .track input =>
      { s with tasks := s.tasks ++ [{ input, phase := if input.unnamed then .dropped else .recording }] }
  | .record i now fails =>
      match s.tasks[i]? with
      | some ⟨input, .recording⟩ =>
          if fails then s.answer i ⟨input, .recording⟩ .dropped []
          else s.answer i ⟨input, .recording⟩ .counting [.record (pointOf input now)]
      | _ => s
  -- a point that was not recorded is not counted either
  | .increment i now fails =>
      match s.tasks[i]? with
      | some ⟨input, .counting⟩ =>
          if fails then s.answer i ⟨input, .counting⟩ .uncounted []
          else s.answer i ⟨input, .counting⟩ .counted [.increment input now]
      | _ => s
  | .request op => { s with ops := s.ops ++ [op] }

/-- The calls of a route that stand at one of these places. -/
def calls (s : Tracking) (key : String × String) (phases : List TrackPhase) : Nat :=
  s.tasks.countP fun task => decide ((task.input.method, task.input.route) = key ∧ task.phase ∈ phases)

end Tracking

/-- The count of a route. -/
def countOf (repo : InMemoryHttpMetricRepository) (key : String × String) : Nat :=
  ((repo.counters.lookup key).map HttpMetric.count).getD 0

/-- The points of a route that are stored. -/
def pointsOfRoute (repo : InMemoryHttpMetricRepository) (key : String × String) : Nat :=
  (repo.pointsCol.values.filter fun p => (p.method, p.route) = key).length

/-- A request that neither writes nor prunes points or counters. -/
def OnRollups : MetricOp → Prop
  | .recordRollup _ => True
  | .pruneRollups _ => True
  | _ => False

/-- The gateway's other jobs leave points and counters alone. -/
def NoPrune : TrackEvent → Prop
  | .request op => OnRollups op
  | _ => True

/-! ### Counts -/

/-- A counted call is one more call of its route, and of no other. -/
theorem countOf_step {repo : InMemoryHttpMetricRepository} (hnew : repo.NextIsNew) (op : MetricOp)
    (key : String × String) : countOf (repo.step op) key =
      countOf repo key + if (countedCall op).map callKey = some key then 1 else 0 := by
  unfold countOf
  rw [counters_step hnew]
  cases countedCall op with
  | none => rfl
  | some call =>
      show ((upsert (callKey call) (freshCounter call) (·.add call) repo.counters).lookup key |>.map _).getD 0 = _
      rw [lookup_upsert]
      by_cases hkey : key = callKey call
      · subst hkey
        rw [if_pos rfl, if_pos (show (some call).map callKey = some (callKey call) from rfl)]
        cases repo.counters.lookup (callKey call) <;> rfl
      · have hne : ¬ (some call).map callKey = some key := fun h => hkey (Option.some.inj h).symm
        rw [if_neg hkey, if_neg hne, Nat.add_zero]

section Balance

variable {s : Tracking} {key : String × String} {i : Nat} {task : TrackTask}

/-- The state whose requests end with this one. -/
theorem repo_concat (ops : List MetricOp) (op : MetricOp) :
    run InMemoryHttpMetricRepository.step {} (ops ++ [op]) =
      (run InMemoryHttpMetricRepository.step {} ops).step op := run_append _ _ _ _

theorem countOf_concat (ops : List MetricOp) (op : MetricOp) :
    countOf (run InMemoryHttpMetricRepository.step {} (ops ++ [op])) key =
      countOf (run InMemoryHttpMetricRepository.step {} ops) key +
        if (countedCall op).map callKey = some key then 1 else 0 := by
  rw [repo_concat]
  exact countOf_step (nextIsNew_run ops) op key

theorem pointsOfRoute_record (ops : List MetricOp) {input : TrackCallInput} (hnamed : input.unnamed = false)
    (now : ℚ) :
    pointsOfRoute (run InMemoryHttpMetricRepository.step {} (ops ++ [.record (pointOf input now)])) key =
      pointsOfRoute (run InMemoryHttpMetricRepository.step {} ops) key +
        if (input.method, input.route) = key then 1 else 0 := by
  have hstored : ¬ ((pointOf input now).method = "" ∨ (pointOf input now).route = "") := by
    intro h
    unfold TrackCallInput.unnamed at hnamed
    rcases h with h | h
    · have : input.method = "" := h
      simp [this] at hnamed
    · have : input.route = "" := h
      simp [this] at hnamed
  have hvalues := values_record (nextIsNew_run ops) (pointOf input now)
  rw [if_neg hstored] at hvalues
  rw [repo_concat]
  unfold pointsOfRoute
  show (List.filter _ (record _ (pointOf input now)).pointsCol.values).length = _
  rw [hvalues, List.filter_append, List.length_append]
  refine congrArg (_ + ·) ?_
  have hkeyOf : ((pointOf input now).method, (pointOf input now).route) = (input.method, input.route) := rfl
  by_cases hkey : (input.method, input.route) = key
  · simp only [List.filter_cons, hkeyOf, hkey, decide_true, if_true]
    rfl
  · simp only [List.filter_cons, hkeyOf, hkey, decide_false, Bool.false_eq_true, if_false]
    rfl

/-- The other requests leave the points alone. -/
theorem pointsOfRoute_concat (ops : List MetricOp) {op : MetricOp}
    (hop : OnRollups op ∨ ∃ input now, op = .increment input now) :
    pointsOfRoute (run InMemoryHttpMetricRepository.step {} (ops ++ [op])) key =
      pointsOfRoute (run InMemoryHttpMetricRepository.step {} ops) key := by
  rw [repo_concat]
  have hsame : ((run InMemoryHttpMetricRepository.step {} ops).step op).pointsCol =
      (run InMemoryHttpMetricRepository.step {} ops).pointsCol := by
    rcases hop with hop | ⟨input, now, rfl⟩
    · cases op with
      | recordRollup r => rfl
      | pruneRollups olderThanTs => rfl
      | _ => exact hop.elim
    · show (increment _ input now).pointsCol = _
      unfold increment
      split <;> rfl
  unfold pointsOfRoute
  rw [hsame]

/-- What an answer does to the calls of a route. -/
theorem calls_answer (h : s.tasks[i]? = some task) (phase : TrackPhase) (ops : List MetricOp)
    (phases : List TrackPhase) :
    (s.answer i task phase ops).calls key phases +
        (if (task.input.method, task.input.route) = key ∧ task.phase ∈ phases then 1 else 0) =
      s.calls key phases +
        (if (task.input.method, task.input.route) = key ∧ phase ∈ phases then 1 else 0) := by
  have hstep := @Tasks.countP_step _ _ _ _ { task with phase } h fun task =>
    decide ((task.input.method, task.input.route) = key ∧ task.phase ∈ phases)
  simp only [decide_eq_true_eq] at hstep
  exact hstep

/-- A new call is at neither of these places. -/
theorem calls_concat (s : Tracking) {phases : List TrackPhase} (hphase : task.phase ∉ phases) :
    ({ s with tasks := s.tasks ++ [task] } : Tracking).calls key phases = s.calls key phases := by
  unfold Tracking.calls
  rw [List.countP_append, List.countP_singleton, if_neg, Nat.add_zero]
  simpa using fun _ => hphase

end Balance

/-! ### What is counted, and what is not -/

/-- The places behind the first write. -/
def recorded : List TrackPhase := [.counting, .counted, .uncounted]

/-- What a run keeps: the calls whose writes are under way are named, a route's count is the calls that were
counted, and its points are the calls whose point was written. -/
structure Balanced (s : Tracking) : Prop where
  named : ∀ task ∈ s.tasks, task.phase ≠ .dropped → task.input.unnamed = false
  counts : ∀ key, countOf s.repo key = s.calls key [.counted]
  points : ∀ key, pointsOfRoute s.repo key = s.calls key recorded

namespace Balanced

variable {s : Tracking}

theorem track (hinv : Balanced s) (input : TrackCallInput) : Balanced (s.step (.track input)) := by
  have hnew (phases : List TrackPhase) (hphases : .dropped ∉ phases ∧ .recording ∉ phases)
      (key : String × String) : (s.step (.track input)).calls key phases = s.calls key phases := by
    refine calls_concat s ?_
    dsimp only
    split
    · exact hphases.1
    · exact hphases.2
  refine ⟨Tasks.forall_concat hinv.named fun hkept => ?_, fun key => ?_, fun key => ?_⟩
  · dsimp only at hkept ⊢
    cases hnamed : input.unnamed with
    | false => rfl
    | true => exact absurd (if_pos hnamed) hkept
  · rw [hnew _ (by decide) key]
    exact hinv.counts key
  · rw [hnew _ (by decide) key]
    exact hinv.points key

/-- A write that is done, or that failed: the counts and the points move with the call. -/
theorem answer (hinv : Balanced s) {i : Nat} {task : TrackTask} (htask : s.tasks[i]? = some task)
    (hlive : task.phase ≠ .dropped) (huncounted : task.phase ≠ .counted) {phase : TrackPhase} {ops : List MetricOp}
    (hcount : ∀ key, countOf (run InMemoryHttpMetricRepository.step {} (s.ops ++ ops)) key = countOf s.repo key +
      if (task.input.method, task.input.route) = key ∧ phase = .counted then 1 else 0)
    (hpoint : ∀ key, pointsOfRoute (run InMemoryHttpMetricRepository.step {} (s.ops ++ ops)) key +
        (if (task.input.method, task.input.route) = key ∧ task.phase ∈ recorded then 1 else 0) =
      pointsOfRoute s.repo key +
        if (task.input.method, task.input.route) = key ∧ phase ∈ recorded then 1 else 0) :
    Balanced (s.answer i task phase ops) := by
  refine ⟨Tasks.forall_set hinv.named fun _ => hinv.named task (List.mem_of_getElem? htask) hlive,
    fun key => ?_, fun key => ?_⟩
  · have hcalls : (s.answer i task phase ops).calls key [.counted] + _ = _ := calls_answer htask phase ops _
    simp only [List.mem_singleton, huncounted, and_false, if_false, Nat.add_zero] at hcalls
    rw [hcalls, ← hinv.counts key]
    exact hcount key
  · have hcalls : (s.answer i task phase ops).calls key recorded + _ = _ := calls_answer htask phase ops _
    have hpoint := hpoint key
    rw [hinv.points key, ← hcalls] at hpoint
    exact Nat.add_right_cancel hpoint

theorem record (hinv : Balanced s) (i : Nat) (now : ℚ) (fails : Bool) :
    Balanced (s.step (.record i now fails)) := by
  show Balanced (match s.tasks[i]? with | some ⟨input, .recording⟩ => _ | _ => s)
  split
  next input htask =>
    have hnamed := hinv.named _ (List.mem_of_getElem? htask) (by simp)
    split
    · refine hinv.answer htask (by simp) (by simp) (fun key => ?_) (fun key => ?_)
      · rw [List.append_nil, if_neg (by simp)]
        rfl
      · rw [List.append_nil, if_neg (by simp [recorded]), if_neg (by simp [recorded])]
        rfl
    · refine hinv.answer htask (by simp) (by simp) (fun key => ?_) (fun key => ?_)
      · rw [countOf_concat, if_neg (by simp [countedCall]), if_neg (by simp)]
        rfl
      · rw [pointsOfRoute_record _ hnamed]
        simp [recorded]
        rfl
  next => exact hinv

theorem increment (hinv : Balanced s) (i : Nat) (now : ℚ) (fails : Bool) :
    Balanced (s.step (.increment i now fails)) := by
  show Balanced (match s.tasks[i]? with | some ⟨input, .counting⟩ => _ | _ => s)
  split
  next input htask =>
    have hnamed := hinv.named _ (List.mem_of_getElem? htask) (by simp)
    split
    · refine hinv.answer htask (by simp) (by simp) (fun key => ?_) (fun key => ?_)
      · rw [List.append_nil, if_neg (by simp)]
        rfl
      · rw [List.append_nil]
        simp [recorded]
        rfl
    · refine hinv.answer htask (by simp) (by simp) (fun key => ?_) (fun key => ?_)
      · rw [countOf_concat]
        simp [countedCall, hnamed, callKey]
        rfl
      · rw [pointsOfRoute_concat _ (.inr ⟨_, _, rfl⟩)]
        simp [recorded]
        rfl
  next => exact hinv

/-- A step of the calls, or of a job that leaves points and counters alone. -/
theorem step (hinv : Balanced s) (event : TrackEvent) (hok : NoPrune event) : Balanced (s.step event) := by
  cases event with
  | track input => exact hinv.track input
  | record i now fails => exact hinv.record i now fails
  | increment i now fails => exact hinv.increment i now fails
  | request op =>
      have hop : OnRollups op := hok
      refine ⟨hinv.named, fun key => (countOf_concat s.ops op).trans ?_,
        fun key => (pointsOfRoute_concat s.ops (.inl hop)).trans (hinv.points key)⟩
      have hcall : countedCall op = none := by
        cases op with
        | recordRollup r => rfl
        | pruneRollups olderThanTs => rfl
        | _ => exact hop.elim
      rw [hcall]
      exact hinv.counts key

end Balanced

/-- The calls behind the first write are those between the two, those counted and those that failed. -/
theorem calls_recorded (s : Tracking) (key : String × String) :
    s.calls key recorded = s.calls key [.counted] + s.calls key [.counting] + s.calls key [.uncounted] := by
  unfold Tracking.calls
  induction s.tasks with
  | nil => rfl
  | cons task tasks ih =>
      simp only [List.countP_cons, ih, decide_eq_true_eq]
      rcases hphase : task.phase <;> by_cases hkey : (task.input.method, task.input.route) = key <;>
        simp [hkey, recorded] <;> omega

/-- **A call is never counted without its point.**  Whatever calls are under way and whichever writes fail, as
long as no point is pruned: a route's count is the number of its calls whose two writes were done, and beside
these it has a point for each call between the two and for each call whose second write failed. -/
theorem track_balance (events : List TrackEvent) (h : ∀ event ∈ events, NoPrune event)
    (key : String × String) :
    countOf (run Tracking.step {} events).repo key = (run Tracking.step {} events).calls key [.counted] ∧
      pointsOfRoute (run Tracking.step {} events).repo key =
        countOf (run Tracking.step {} events).repo key + (run Tracking.step {} events).calls key [.counting] +
          (run Tracking.step {} events).calls key [.uncounted] := by
  have hinit : Balanced {} := ⟨fun _ hmem => absurd hmem List.not_mem_nil, fun _ => rfl, fun _ => rfl⟩
  have hinv : Balanced (run Tracking.step {} events) :=
    (along_of_forall h).invariant (fun (s : Tracking) event (hs : Balanced s) hok => hs.step event hok) hinit
      (reaches_run _ _ _)
  refine ⟨hinv.counts key, ?_⟩
  rw [hinv.counts key, hinv.points key]
  exact calls_recorded _ key

/-- Two calls of a route come in together; the second one's counter write fails. -/
theorem track_balance_twoCalls :
    countOf (run Tracking.step {} [.track { method := "GET", route := "/a" }, .track { method := "GET", route := "/a" },
        .record 1 5 false, .record 0 6 false, .increment 1 7 true, .increment 0 8 false]).repo ("GET", "/a") = 1 := by
  refine (track_balance [.track { method := "GET", route := "/a" }, .track { method := "GET", route := "/a" },
    .record 1 5 false, .record 0 6 false, .increment 1 7 true, .increment 0 8 false] ?_ ("GET", "/a")).1.trans ?_
  · simp [NoPrune]
  · decide

end NestAmqp.Gateway.MetricsService
