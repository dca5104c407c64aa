/-
# NestAmqp.Gateway.RollupPeers — the same hour rolled up by several instances.

Without a scheduler lock, or after one of its errors, every instance rolls the hour up for itself: each
reads the points of the hour and then upserts the rollups it made of them, between the writes of the
others.  A store may take the rollups one at a time, so a run here writes them one at a time.
-/
import NestAmqp.Gateway.MetricViews
import NestAmqp.Gateway.MetricsRollup
import NestAmqp.Lib.Tasks
import NestAmqp.Store.HttpMetricRepository

namespace NestAmqp.Gateway.RollupPeers

open NestAmqp.Lib NestAmqp.Lib.Machine NestAmqp.Gateway.MetricsRollup NestAmqp.Store
open NestAmqp.Store.InMemoryHttpMetricRepository

/-! ## The instances -/

/-- A run of `rollupHour` that has read its points, with the rollups it has still to record. -/
structure RollupRun where
  hour : Int
  pending : List HttpMetricRollup
  failed : Bool := false

/-- The repository and the runs of all instances. -/
structure Peers where
  repo : InMemoryHttpMetricRepository := {}
  runs : List RollupRun := []

/-- Someone else's request; a run reads its points; a run records its next rollup; a call of a run fails, or
its instance dies. -/
inductive PeerEvent
  | request (op : MetricOp)
  | read (hour : Int)
  | write (i : Nat)
  | fail (i : Nat)

/-- The query of `rollupHour(hourStart)`. -/
def hourQuery (hour : Int) : MetricQuery :=
  { fromTs := some (hour * hourMs : Int), toTs := some (hour * hourMs + hourMs - 1 : Int) }

namespace Peers

/-- What `rollupHour` makes of the points as they are. -/
def rollupsOf (s : Peers) (hour : Int) : List HttpMetricRollup :=
  aggregateRollups (s.repo.points (hourQuery hour)) hourMs

/-- The instances behind an event. -/
def step (s : Peers) : PeerEvent → Peers
  | .request op => { s with repo := s.repo.step op }
  | .read hour => { s with runs := s.runs ++ [{ hour, pending := s.rollupsOf hour }] }
  -- one upsert at a time: those of other instances come between
  | .write i =>
      match s.runs[i]? with
      | some ⟨hour, r :: pending, false⟩ =>
          { repo := s.repo.recordRollup r, runs := s.runs.set i { hour, pending } }
      | _ => s
  | .fail i =>
      match s.runs[i]? with
      | some run => { s with runs := s.runs.set i { run with failed := true } }
      | none => s

/-- The run has recorded all it had to. -/
def Completed (s : Peers) (hour : Int) (i : Nat) : Prop := s.runs[i]? = some ⟨hour, [], false⟩

end Peers

/-! ## What a step does to the points of an hour -/

/-- The hour's points are left alone: none comes in, and none is pruned. -/
def LeavesPoints (hour : Int) : PeerEvent → Prop
  | .request (.record p) => ¬ matchPoint p (hourQuery hour)
  | .request (.prunePoints olderThanTs) => olderThanTs ≤ (hour * hourMs : Int)
  | _ => True

/-- No point of the hour is pruned, and rollups come from the runs only. -/
def KeepsPoints (hour : Int) : PeerEvent → Prop
  | .request (.prunePoints olderThanTs) => olderThanTs ≤ (hour * hourMs : Int)
  | .request (.recordRollup _) => False
  | _ => True

/-- No rollup of the hour is pruned. -/
def KeepsRollups (hour : Int) : PeerEvent → Prop
  | .request (.pruneRollups olderThanTs) => olderThanTs ≤ (hour * hourMs : Int)
  | _ => True

section Points

variable {s : Peers} {hour : Int} {p : HttpMetricPoint}

theorem matchPoint_hourQuery :
    matchPoint p (hourQuery hour) = true ↔ ((hour * hourMs : Int) : ℚ) ≤ p.ts ∧
      p.ts ≤ ((hour * hourMs + hourMs - 1 : Int) : ℚ) := by
  unfold matchPoint hourQuery wants Js.truthyText
  simp

/-- The points of the hour start there. -/
theorem start_of_match (h : matchPoint p (hourQuery hour) = true) : p.start hourMs = (hour * hourMs : Int) := by
  obtain ⟨hfrom, hto⟩ := matchPoint_hourQuery.mp h
  have hw : (0 : ℚ) < hourMs := by norm_num [hourMs]
  have hfloor : ⌊p.ts / hourMs⌋ = hour := by
    rw [Int.floor_eq_iff, le_div_iff₀ hw, div_lt_iff₀ hw]
    push_cast at hfrom hto
    constructor
    · exact hfrom
    · rw [add_mul, one_mul]
      linarith
  unfold HttpMetricPoint.start
  rw [hfloor]
  push_cast
  rfl

theorem points_hourQuery (repo : InMemoryHttpMetricRepository) : repo.points (hourQuery hour) =
    (repo.pointsCol.values.filter (matchPoint · (hourQuery hour))).insertionSort fun a b => b.ts ≤ a.ts := rfl

theorem mem_points (repo : InMemoryHttpMetricRepository) : p ∈ repo.points (hourQuery hour) ↔
    p ∈ repo.pointsCol.values ∧ matchPoint p (hourQuery hour) = true := by
  rw [points_hourQuery, List.mem_insertionSort, List.mem_filter]

/-- A prune that stops before the hour takes none of its points. -/
theorem not_stale_of_match {olderThanTs : ℚ} (hle : olderThanTs ≤ (hour * hourMs : Int))
    (hp : matchPoint p (hourQuery hour) = true) : (!decide (p.ts < olderThanTs)) = true := by
  rw [Bool.not_eq_true', decide_eq_false_iff_not, not_lt]
  exact hle.trans (matchPoint_hourQuery.mp hp).1

/-- The points behind a request. -/
def pointsBehind (points : List HttpMetricPoint) : MetricOp → List HttpMetricPoint
  | .record p => if p.method = "" ∨ p.route = "" then points else points ++ [p]
  | .prunePoints olderThanTs => points.filter fun p => !decide (p.ts < olderThanTs)
  | _ => points

theorem pointsCol_step {repo : InMemoryHttpMetricRepository} (hnew : repo.NextIsNew) (op : MetricOp) :
    (repo.step op).pointsCol.values = pointsBehind repo.pointsCol.values op := by
  cases op with
  | record p => exact values_record hnew p
  | prunePoints olderThanTs => exact values_removeStale repo.pointsCol fun p => decide (p.ts < olderThanTs)
  | increment input now =>
      show (repo.increment input now).pointsCol.values = _
      unfold increment
      split <;> rfl
  | _ => rfl

/-- The hour keeps its points. -/
theorem points_of_leaves {repo : InMemoryHttpMetricRepository} (hnew : repo.NextIsNew) {op : MetricOp}
    (h : LeavesPoints hour (.request op)) :
    (repo.step op).points (hourQuery hour) = repo.points (hourQuery hour) := by
  rw [points_hourQuery, points_hourQuery, pointsCol_step hnew]
  cases op with
  | record p =>
      have hnot : matchPoint p (hourQuery hour) = false := Bool.eq_false_iff.mpr h
      simp only [pointsBehind]
      split
      · rfl
      · rw [List.filter_append, List.filter_cons_of_neg (by simp [hnot]), List.filter_nil, List.append_nil]
  | prunePoints olderThanTs =>
      simp only [pointsBehind]
      rw [List.filter_filter]
      refine congrArg (List.insertionSort _) (List.filter_congr fun p _ => ?_)
      rw [Bool.eq_iff_iff, Bool.and_eq_true]
      exact and_iff_left_of_imp (not_stale_of_match h)
  | _ => rfl

/-- The hour loses no point. -/
theorem mem_points_of_keeps {repo : InMemoryHttpMetricRepository} (hnew : repo.NextIsNew) {op : MetricOp}
    (h : KeepsPoints hour (.request op)) (hp : p ∈ repo.points (hourQuery hour)) :
    p ∈ (repo.step op).points (hourQuery hour) := by
  obtain ⟨hmem, hmatch⟩ := (mem_points repo).mp hp
  refine (mem_points _).mpr ⟨?_, hmatch⟩
  rw [pointsCol_step hnew]
  cases op with
  | record p' =>
      simp only [pointsBehind]
      split
      · exact hmem
      · exact List.mem_append_left _ hmem
  | prunePoints olderThanTs => exact List.mem_filter.mpr ⟨hmem, not_stale_of_match h hmatch⟩
  | _ => exact hmem

end Points

/-! ## What is made of the points of an hour -/

section Rollups

variable {points : List HttpMetricPoint} {hour : Int} {r r' : HttpMetricRollup}

theorem hourMs_pos : (0 : ℚ) < hourMs := by norm_num [hourMs]

/-- A rollup is one of some point. -/
theorem exists_point (hr : r ∈ aggregateRollups points hourMs) :
    ∃ p ∈ points, rollupId r = (p.start hourMs, (hourMs : ℚ), p.method, p.route) := by
  obtain ⟨key, hentry⟩ := exists_entry hourMs_pos hr
  obtain ⟨first, rest, hfilter, hvalue⟩ := groupBy_value hentry
  obtain ⟨t, -, hfold⟩ := rollup_of (r := freshRollup hourMs first) rfl (first :: rest)
  have hfirst : first ∈ points.filter fun p => rollupKey hourMs p = key := hfilter ▸ .head _
  refine ⟨first, (List.mem_filter.mp hfirst).1, ?_⟩
  rw [show r = _ from hvalue.trans hfold]
  rfl

/-- Every point has its rollup. -/
theorem exists_rollup_of_point (hbars : ∀ p ∈ points, '|' ∉ p.method.toList) {p : HttpMetricPoint}
    (hp : p ∈ points) : ∃ r ∈ aggregateRollups points hourMs,
      rollupId r = (p.start hourMs, (hourMs : ℚ), p.method, p.route) ∧
      ∀ r' ∈ aggregateRollups points hourMs, rollupId r' = rollupId r → r' = r := by
  obtain ⟨r, hr⟩ := exists_rollup hourMs_pos hbars hp
  have hmem : r ∈ (aggregateRollups points hourMs).filter
      fun r => r.bucketStart = p.start hourMs ∧ r.method = p.method ∧ r.route = p.route := hr ▸ .head _
  obtain ⟨hmem, hsame⟩ := List.mem_filter.mp hmem
  obtain ⟨hstart, hmethod, hroute⟩ := of_decide_eq_true hsame
  obtain ⟨p', -, hid⟩ := exists_point hmem
  have hid' : rollupId r = (p.start hourMs, (hourMs : ℚ), p.method, p.route) := by
    have hwidth : r.granularityMs = hourMs := (Prod.mk.inj (Prod.mk.inj hid).2).1
    unfold rollupId
    rw [hstart, hwidth, hmethod, hroute]
  refine ⟨r, hmem, hid', fun r' hr' heq => ?_⟩
  have hin : r' ∈ (aggregateRollups points hourMs).filter
      fun r => r.bucketStart = p.start hourMs ∧ r.method = p.method ∧ r.route = p.route := by
    obtain ⟨hstart', hrest⟩ := Prod.mk.inj (heq.trans hid')
    obtain ⟨hmethod', hroute'⟩ := Prod.mk.inj (Prod.mk.inj hrest).2
    exact List.mem_filter.mpr ⟨hr', decide_eq_true ⟨hstart', hmethod', hroute'⟩⟩
  rw [hr] at hin
  exact List.mem_singleton.mp hin

/-- Two rollups of the hour with one id are one. -/
theorem eq_of_rollupId (hbars : ∀ p ∈ points, '|' ∉ p.method.toList) (hr : r ∈ aggregateRollups points hourMs)
    (hr' : r' ∈ aggregateRollups points hourMs) (h : rollupId r = rollupId r') : r = r' := by
  obtain ⟨p, hp, hid⟩ := exists_point hr
  obtain ⟨only, -, honly, hunique⟩ := exists_rollup_of_point hbars hp
  rw [hunique r hr (hid.trans honly.symm), hunique r' hr' ((h.symm.trans hid).trans honly.symm)]

/-- The rollups of an hour start there. -/
theorem bucketStart_of_mem {s : Peers} (hr : r ∈ s.rollupsOf hour) : r.bucketStart = (hour * hourMs : Int) := by
  obtain ⟨p, hp, hid⟩ := exists_point hr
  exact (Prod.mk.inj hid).1.trans (start_of_match ((mem_points s.repo).mp hp).2)

end Rollups

/-! ## Runs -/

/-- The rollup belongs to one of the points of the hour. -/
def Backed (s : Peers) (hour : Int) (r : HttpMetricRollup) : Prop :=
  ∃ p ∈ s.repo.points (hourQuery hour), rollupId r = (p.start hourMs, (hourMs : ℚ), p.method, p.route)

/-- What holds of the hour while none of its points is pruned. -/
structure Sound (s : Peers) (hour : Int) : Prop where
  reached : ∃ ops, s.repo = run InMemoryHttpMetricRepository.step {} ops
  stored : ∀ r ∈ s.repo.rollupCol.values, r.bucketStart = (hour * hourMs : Int) → Backed s hour r
  starts : ∀ run ∈ s.runs, ∀ r ∈ run.pending, r.bucketStart = (run.hour * hourMs : Int)
  pending : ∀ run ∈ s.runs, run.hour = hour → ∀ r ∈ run.pending, Backed s hour r

namespace Sound

variable {s : Peers} {hour : Int}

theorem nextIsNew (h : Sound s hour) : s.repo.NextIsNew := by
  obtain ⟨ops, hops⟩ := h.reached
  exact hops ▸ nextIsNew_run ops

/-- The store has one rollup for an id. -/
theorem eq_of_stored (h : Sound s hour) {r r' : HttpMetricRollup} (hr : r ∈ s.repo.rollupCol.values)
    (hr' : r' ∈ s.repo.rollupCol.values) (hid : rollupId r = rollupId r') : r = r' := by
  obtain ⟨ops, hops⟩ := h.reached
  rw [hops] at hr hr'
  exact List.inj_on_of_nodup_map (holdsRollups_run ops).nodup hr hr' hid

end Sound

section Step

variable {s : Peers} {hour : Int} {event : PeerEvent}

/-- Points that stay keep a rollup backed. -/
theorem Backed.mono {s' : Peers} {r : HttpMetricRollup} (h : Backed s hour r)
    (hpoints : ∀ p ∈ s.repo.points (hourQuery hour), p ∈ s'.repo.points (hourQuery hour)) : Backed s' hour r := by
  obtain ⟨p, hp, hid⟩ := h
  exact ⟨p, hpoints p hp, hid⟩

/-- The rollups behind a request that records none. -/
theorem rollups_request (repo : InMemoryHttpMetricRepository) {op : MetricOp}
    (hop : KeepsPoints hour (.request op)) :
    (repo.step op).rollupCol.values = repo.rollupCol.values ∨
      ∃ olderThanTs, op = .pruneRollups olderThanTs ∧ (repo.step op).rollupCol.values =
        repo.rollupCol.values.filter fun r => !decide (r.bucketStart < olderThanTs) := by
  cases op with
  | recordRollup r => exact hop.elim
  | pruneRollups olderThanTs =>
      exact .inr ⟨olderThanTs, rfl,
        values_removeStale repo.rollupCol fun r => decide (r.bucketStart < olderThanTs)⟩
  | increment input now =>
      refine .inl ?_
      show (repo.increment input now).rollupCol.values = _
      unfold increment
      split <;> rfl
  | record p =>
      refine .inl ?_
      show (repo.record p).rollupCol.values = _
      unfold record
      split <;> rfl
  | prunePoints olderThanTs => exact .inl rfl

theorem mem_rollups_of_request {repo : InMemoryHttpMetricRepository} {op : MetricOp}
    (hop : KeepsPoints hour (.request op)) {r : HttpMetricRollup} (hr : r ∈ (repo.step op).rollupCol.values) :
    r ∈ repo.rollupCol.values := by
  rcases rollups_request repo hop with hsame | ⟨olderThanTs, -, hkept⟩
  · exact hsame ▸ hr
  · exact List.mem_of_mem_filter (hkept ▸ hr : r ∈ repo.rollupCol.values.filter _)

/-- A rollup of the hour stays behind a request that prunes none of the hour. -/
theorem mem_rollups_request {repo : InMemoryHttpMetricRepository} {op : MetricOp}
    (hop : KeepsPoints hour (.request op)) (hrollups : KeepsRollups hour (.request op)) {r : HttpMetricRollup}
    (hstart : r.bucketStart = (hour * hourMs : Int)) (hr : r ∈ repo.rollupCol.values) :
    r ∈ (repo.step op).rollupCol.values := by
  rcases rollups_request repo hop with hsame | ⟨olderThanTs, rfl, hkept⟩
  · exact hsame ▸ hr
  · rw [hkept]
    refine List.mem_filter.mpr ⟨hr, ?_⟩
    rw [Bool.not_eq_true', decide_eq_false_iff_not, not_lt, hstart]
    exact hrollups

/-- What a write does: the run goes on, and the rollup takes the place of what has its id. -/
theorem step_write (s : Peers) (i : Nat) :
    s.step (.write i) = s ∨ ∃ hour r pending, s.runs[i]? = some ⟨hour, r :: pending, false⟩ ∧
      s.step (.write i) =
        { repo := s.repo.step (.recordRollup r), runs := s.runs.set i { hour, pending } } := by
  show (match s.runs[i]? with | some ⟨hour, r :: pending, false⟩ => _ | _ => s : Peers) = s ∨ _
  split
  next hour r pending hrun => exact .inr ⟨hour, r, pending, hrun, by rw [Peers.step, hrun]; rfl⟩
  next => exact .inl rfl

theorem step_fail (s : Peers) (i : Nat) :
    s.step (.fail i) = s ∨ ∃ run, s.runs[i]? = some run ∧
      s.step (.fail i) = { s with runs := s.runs.set i { run with failed := true } } := by
  show (match s.runs[i]? with | some run => _ | none => s : Peers) = s ∨ _
  split
  next run hrun => exact .inr ⟨run, hrun, by rw [Peers.step, hrun]⟩
  next => exact .inl rfl

theorem hour_of_start {hour hour' : Int} (h : ((hour * hourMs : Int) : ℚ) = (hour' * hourMs : Int)) :
    hour = hour' :=
  Int.eq_of_mul_eq_mul_right (by decide) (Int.cast_injective h)

/-- The next rollup of a run. -/
theorem Sound.of_next (h : Sound s hour) {i : Nat} {hour' : Int} {r : HttpMetricRollup}
    {pending : List HttpMetricRollup} {failed : Bool} (hrun : s.runs[i]? = some ⟨hour', r :: pending, failed⟩) :
    r.bucketStart = (hour' * hourMs : Int) ∧ (hour' = hour → Backed s hour r) := by
  have hmem : ⟨hour', r :: pending, failed⟩ ∈ s.runs := List.mem_of_getElem? hrun
  exact ⟨h.starts _ hmem r List.mem_cons_self, fun heq => h.pending _ hmem heq r List.mem_cons_self⟩

theorem Sound.step (h : Sound s hour) (hkeeps : KeepsPoints hour event) : Sound (s.step event) hour := by
  obtain ⟨ops, hops⟩ := h.reached
  cases event with
  | request op =>
      have hpoints : ∀ p ∈ s.repo.points (hourQuery hour), p ∈ (s.repo.step op).points (hourQuery hour) :=
        fun p hp => mem_points_of_keeps h.nextIsNew hkeeps hp
      refine ⟨⟨ops ++ [op], ?_⟩, ?_, h.starts, ?_⟩
      · rw [run_append, ← hops]
        rfl
      · intro r hr hstart
        exact (h.stored r (mem_rollups_of_request hkeeps hr) hstart).mono hpoints
      · intro run hrun heq r hr
        exact (h.pending run hrun heq r hr).mono hpoints
  | read hour' =>
      refine ⟨⟨ops, hops⟩, h.stored, ?_, ?_⟩
      · refine Tasks.forall_concat h.starts fun r hr => ?_
        exact bucketStart_of_mem hr
      · refine Tasks.forall_concat h.pending ?_
        rintro rfl r hr
        exact exists_point hr
  | write i =>
      rcases step_write s i with hsame | ⟨hour', r, pending, hrun, hstep⟩
      · rw [hsame]
        exact h
      · rw [hstep]
        obtain ⟨hstart, hbacked⟩ := h.of_next hrun
        have hmem : ⟨hour', r :: pending, false⟩ ∈ s.runs := List.mem_of_getElem? hrun
        have hpoints : ∀ p ∈ s.repo.points (hourQuery hour),
            p ∈ (s.repo.step (.recordRollup r)).points (hourQuery hour) := fun p hp => hp
        refine ⟨⟨ops ++ [.recordRollup r], ?_⟩, ?_, ?_, ?_⟩
        · rw [run_append, ← hops]
          rfl
        · intro r' hr' hstart'
          rw [show ((s.repo.step (.recordRollup r)).rollupCol.values) = _ from
            values_recordRollup h.nextIsNew r] at hr'
          rcases List.mem_append.mp hr' with hold | hnew
          · exact (h.stored r' (List.mem_of_mem_filter hold) hstart').mono hpoints
          · obtain rfl := List.mem_singleton.mp hnew
            exact (hbacked (hour_of_start (hstart.symm.trans hstart'))).mono hpoints
        · refine Tasks.forall_set h.starts fun r' hr' => ?_
          exact h.starts _ hmem r' (List.mem_cons_of_mem _ hr')
        · refine Tasks.forall_set (fun run hrun heq r' hr' => ?_) fun heq r' hr' => ?_
          · exact (h.pending run hrun heq r' hr').mono hpoints
          · exact (h.pending _ hmem heq r' (List.mem_cons_of_mem _ hr')).mono hpoints
  | fail i =>
      show Sound (match s.runs[i]? with | some run => _ | none => s) hour
      split
      next run hrun =>
          have hmem := List.mem_of_getElem? hrun
          exact ⟨⟨ops, hops⟩, h.stored, Tasks.forall_set h.starts (h.starts run hmem),
            Tasks.forall_set h.pending (h.pending run hmem)⟩
      next => exact h

end Step

/-! ## The hour converges -/

/-- No event touches the points or the rollups of the hour, but for the runs. -/
def Quiet (hour : Int) (event : PeerEvent) : Prop :=
  LeavesPoints hour event ∧ KeepsPoints hour event ∧ KeepsRollups hour event

/-- No run is still to record a rollup of points that the hour had before. -/
def Fresh (s : Peers) (hour : Int) : Prop :=
  ∀ run ∈ s.runs, run.hour = hour → run.failed = false → ∀ r ∈ run.pending, r ∈ s.rollupsOf hour

/-- The runs from `first` on have yet to record a rollup of the hour, or the store has it. -/
structure Recording (rollups : List HttpMetricRollup) (first : Nat) (hour : Int) (s : Peers) : Prop where
  sound : Sound s hour
  same : s.rollupsOf hour = rollups
  fresh : Fresh s hour
  covered : ∀ i run, first ≤ i → s.runs[i]? = some run → run.hour = hour → run.failed = false →
    ∀ r ∈ rollups, r ∈ run.pending ∨ r ∈ s.repo.rollupCol.values

section Converge

variable {s : Peers} {hour : Int} {event : PeerEvent} {rollups : List HttpMetricRollup} {first : Nat}

theorem Recording.request (h : Recording rollups first hour s) {op : MetricOp}
    (hquiet : Quiet hour (.request op)) : Recording rollups first hour (s.step (.request op)) := by
  obtain ⟨hleaves, hkeeps, hrollups⟩ := hquiet
  have hsame : (s.step (.request op)).rollupsOf hour = s.rollupsOf hour :=
    congrArg (aggregateRollups · hourMs) (points_of_leaves h.sound.nextIsNew hleaves)
  refine ⟨h.sound.step hkeeps, hsame.trans h.same, ?_, ?_⟩
  · intro run hrun heq hok r hr
    rw [hsame]
    exact h.fresh run hrun heq hok r hr
  · intro i run hi hrun heq hok r hr
    have hstart : r.bucketStart = (hour * hourMs : Int) := bucketStart_of_mem (h.same ▸ hr)
    exact (h.covered i run hi hrun heq hok r hr).imp_right (mem_rollups_request hkeeps hrollups hstart)

theorem Recording.read (h : Recording rollups first hour s) (hour' : Int) :
    Recording rollups first hour (s.step (.read hour')) := by
  refine ⟨h.sound.step trivial, h.same, ?_, ?_⟩
  · refine Tasks.forall_concat h.fresh ?_
    rintro rfl - r hr
    exact hr
  · intro i run hi hrun heq hok r hr
    rcases Nat.lt_or_ge i s.runs.length with hlt | hge
    · have hrun' : s.runs[i]? = some run := by
        rw [← hrun]
        exact (List.getElem?_append_left hlt).symm
      exact h.covered i run hi hrun' heq hok r hr
    · have hrun' : [({ hour := hour', pending := s.rollupsOf hour' } : RollupRun)][i - s.runs.length]? =
          some run := by
        rw [← hrun]
        exact (List.getElem?_append_right hge).symm
      obtain rfl := List.mem_singleton.mp (List.mem_of_getElem? hrun')
      obtain rfl := heq
      exact .inl (h.same ▸ hr)

theorem Recording.write (h : Recording rollups first hour s)
    (hbars : ∀ p ∈ s.repo.points (hourQuery hour), '|' ∉ p.method.toList) (i : Nat) :
    Recording rollups first hour (s.step (.write i)) := by
  have hsound : Sound (s.step (.write i)) hour := h.sound.step trivial
  rcases step_write s i with hsame | ⟨hour', r, pending, hrun, hstep⟩
  · rw [hsame]
    exact h
  · rw [hstep] at hsound ⊢
    have hmem : ⟨hour', r :: pending, false⟩ ∈ s.runs := List.mem_of_getElem? hrun
    obtain ⟨hstart, -⟩ := h.sound.of_next hrun
    have hvalues : (s.repo.step (.recordRollup r)).rollupCol.values =
        (s.repo.rollupCol.values.filter fun r' => !sameBucket r r') ++ [r] :=
      values_recordRollup h.sound.nextIsNew r
    -- what the store had of the hour stays, or is what the run records
    have hkept : ∀ r' ∈ rollups, r' ∈ s.repo.rollupCol.values →
        r' ∈ (s.repo.step (.recordRollup r)).rollupCol.values := by
      intro r' hr' hstored
      rw [hvalues, List.mem_append, List.mem_singleton, List.mem_filter]
      cases hbucket : sameBucket r r' with
      | false => exact .inl ⟨hstored, rfl⟩
      | true =>
          have hid : rollupId r' = rollupId r := sameBucket_iff.mp hbucket
          have hr'' : r' ∈ s.rollupsOf hour := h.same ▸ hr'
          have hhour : hour' = hour :=
            hour_of_start (hstart.symm.trans ((Prod.mk.inj hid).1.symm.trans (bucketStart_of_mem hr'')))
          have hr : r ∈ s.rollupsOf hour := h.fresh _ hmem hhour rfl r List.mem_cons_self
          exact .inr (eq_of_rollupId hbars hr'' hr hid)
    refine ⟨hsound, h.same, ?_, ?_⟩
    · refine Tasks.forall_set h.fresh fun heq hok r' hr' => ?_
      exact h.fresh _ hmem heq hok r' (List.mem_cons_of_mem _ hr')
    · intro j run hj hrun' heq hok r' hr'
      by_cases hij : i = j
      · subst hij
        rw [List.getElem?_set_self (List.getElem?_eq_some_iff.mp hrun).1] at hrun'
        obtain rfl := Option.some.inj hrun'
        rcases h.covered i _ hj hrun heq hok r' hr' with hpending | hstored
        · rcases List.mem_cons.mp hpending with rfl | hrest
          · right
            rw [hvalues]
            exact List.mem_append_right _ List.mem_cons_self
          · exact .inl hrest
        · exact .inr (hkept r' hr' hstored)
      · rw [List.getElem?_set_ne hij] at hrun'
        exact (h.covered j run hj hrun' heq hok r' hr').imp_right (hkept r' hr')

theorem Recording.fail (h : Recording rollups first hour s) (i : Nat) :
    Recording rollups first hour (s.step (.fail i)) := by
  have hsound : Sound (s.step (.fail i)) hour := h.sound.step trivial
  rcases step_fail s i with hsame | ⟨run, hrun, hstep⟩
  · rw [hsame]
    exact h
  · rw [hstep] at hsound ⊢
    refine ⟨hsound, h.same, Tasks.forall_set h.fresh fun _ hok => Bool.noConfusion hok, ?_⟩
    intro j run' hj hrun' heq hok r hr
    by_cases hij : i = j
    · subst hij
      rw [List.getElem?_set_self (List.getElem?_eq_some_iff.mp hrun).1] at hrun'
      obtain rfl := Option.some.inj hrun'
      cases hok
    · rw [List.getElem?_set_ne hij] at hrun'
      exact h.covered j run' hj hrun' heq hok r hr

theorem Recording.step (h : Recording rollups first hour s)
    (hbars : ∀ p ∈ s.repo.points (hourQuery hour), '|' ∉ p.method.toList) (hquiet : Quiet hour event) :
    Recording rollups first hour (s.step event) := by
  cases event with
  | request op => exact h.request hquiet
  | read hour' => exact h.read hour'
  | write i => exact h.write hbars i
  | fail i => exact h.fail i

theorem points_step (h : Sound s hour) (hquiet : Quiet hour event) :
    (s.step event).repo.points (hourQuery hour) = s.repo.points (hourQuery hour) := by
  cases event with
  | request op => exact points_of_leaves h.nextIsNew hquiet.1
  | read hour' => rfl
  | write i =>
      rcases step_write s i with hsame | ⟨hour', r, pending, -, hstep⟩
      · rw [hsame]
      · rw [hstep]
        rfl
  | fail i =>
      rcases step_fail s i with hsame | ⟨run, -, hstep⟩
      · rw [hsame]
      · rw [hstep]

theorem sound_run {events : List PeerEvent} (h : ∀ event ∈ events, KeepsPoints hour event) :
    Sound (run Peers.step {} events) hour := by
  have halong : Along Peers.step (fun _ event => KeepsPoints hour event) {} events := along_of_forall h
  refine halong.invariant_run (fun s event (hs : Sound s hour) hok => hs.step hok) ?_
  refine ⟨⟨[], rfl⟩, ?_, ?_, ?_⟩
  · intro r hr
    cases hr
  · exact List.forall_mem_nil _
  · exact List.forall_mem_nil _

/-- What the store has of the hour is what the runs made of its points, once one of them is through. -/
theorem Recording.mem_iff (h : Recording rollups first hour s)
    (hbars : ∀ p ∈ s.repo.points (hourQuery hour), '|' ∉ p.method.toList) {i : Nat} (hi : first ≤ i)
    (hdone : s.Completed hour i) {r : HttpMetricRollup} (hstart : r.bucketStart = (hour * hourMs : Int)) :
    r ∈ s.repo.rollupCol.values ↔ r ∈ rollups := by
  have hall : ∀ r ∈ rollups, r ∈ s.repo.rollupCol.values := fun r hr =>
    (h.covered i _ hi hdone rfl rfl r hr).resolve_left List.not_mem_nil
  refine ⟨fun hr => ?_, hall r⟩
  obtain ⟨p, hp, hid⟩ := h.sound.stored r hr hstart
  obtain ⟨r', hr', hid', -⟩ := exists_rollup_of_point hbars hp
  have hr'' : r' ∈ rollups := h.same ▸ hr'
  rwa [h.sound.eq_of_stored hr (hall r' hr'') (hid.trans hid'.symm)]

end Converge

/-- The query for the rollups of the hour. -/
def seriesQuery (hour : Int) : MetricQuery :=
  { fromTs := some (hour * hourMs : Int), toTs := some (hour * hourMs : Int) }

/-- **Rolling an hour up again and again is safe.**  Any number of instances roll hours up, in any
interleaving of their reads and writes with each other, with new calls, prunes, failures and deaths.  Once
the hour has its points, and no run is left that read others, a single run of the hour that comes through
leaves the store with exactly the rollups of these points: no other of the hour, none twice. -/
theorem rollups_converge {before after : List PeerEvent} {hour : Int} {i : Nat}
    (hbefore : ∀ event ∈ before, KeepsPoints hour event) (hafter : ∀ event ∈ after, Quiet hour event)
    (hfresh : Fresh (run Peers.step {} before) hour)
    (hbars : ∀ p ∈ (run Peers.step {} before).repo.points (hourQuery hour), '|' ∉ p.method.toList)
    (hi : (run Peers.step {} before).runs.length ≤ i)
    (hdone : (run Peers.step {} (before ++ after)).Completed hour i) :
    (((run Peers.step {} (before ++ after)).repo.rollupSeries (seriesQuery hour)).map rollupId).Nodup ∧
      ∀ r, r ∈ (run Peers.step {} (before ++ after)).repo.rollupSeries (seriesQuery hour) ↔
        r ∈ (run Peers.step {} before).rollupsOf hour := by
  have hsound := sound_run hbefore
  have hinv : Recording ((run Peers.step {} before).rollupsOf hour) (run Peers.step {} before).runs.length hour
      (run Peers.step {} (before ++ after)) ∧ ∀ p ∈ (run Peers.step {} (before ++ after)).repo.points
        (hourQuery hour), '|' ∉ p.method.toList := by
    rw [run_append]
    have halong : Along Peers.step (fun _ event => Quiet hour event) (run Peers.step {} before) after :=
      along_of_forall hafter
    refine halong.invariant_run (fun s event (hs : Recording ((run Peers.step {} before).rollupsOf hour)
      (run Peers.step {} before).runs.length hour s ∧ ∀ p ∈ s.repo.points (hourQuery hour),
        '|' ∉ p.method.toList) hok => ⟨hs.1.step hs.2 hok, ?_⟩) ⟨⟨hsound, rfl, hfresh, ?_⟩, hbars⟩
    · rw [points_step hs.1.sound hok]
      exact hs.2
    · intro j run hj hrun
      rw [List.getElem?_eq_none hj] at hrun
      cases hrun
  obtain ⟨ops, hops⟩ := hinv.1.sound.reached
  rw [hops]
  refine ⟨nodup_rollupSeries ops (seriesQuery hour), fun r => ?_⟩
  rw [mem_rollupSeries, ← (holdsRollups_run ops).standing r, ← hops]
  have hadmits : MetricQuery.AdmitsRollup (seriesQuery hour) r ↔ r.bucketStart = (hour * hourMs : Int) := by
    constructor
    · rintro ⟨hfrom, hto, -⟩
      exact le_antisymm (hto _ rfl) (hfrom _ rfl)
    · intro hstart
      refine ⟨fun t ht => ?_, fun t ht => ?_, rfl, rfl, rfl⟩
      · obtain rfl := Option.some.inj ht
        exact hstart.ge
      · obtain rfl := Option.some.inj ht
        exact hstart.le
  rw [hadmits]
  constructor
  · rintro ⟨hstart, hr⟩
    exact (hinv.1.mem_iff hinv.2 hi hdone hstart).mp hr
  · intro hr
    have hstart : r.bucketStart = (hour * hourMs : Int) := bucketStart_of_mem hr
    exact ⟨hstart, (hinv.1.mem_iff hinv.2 hi hdone hstart).mpr hr⟩

theorem rollups_converge_twoInstances :
    let before : List PeerEvent := [.request (.record { method := "GET", route := "/", ts := 5 })]
    let after : List PeerEvent := [.read 0, .read 0, .write 0, .request (.pruneRollups 0), .write 1]
    (((run Peers.step {} (before ++ after)).repo.rollupSeries (seriesQuery 0)).map rollupId).Nodup ∧
      ∀ r, r ∈ (run Peers.step {} (before ++ after)).repo.rollupSeries (seriesQuery 0) ↔
        r ∈ (run Peers.step {} before).rollupsOf 0 := by
  intro before after
  have hpoints : (run Peers.step {} before).repo.points (hourQuery 0) =
      [{ method := "GET", route := "/", ts := 5 }] := by rfl
  have hdone : (run Peers.step {} (before ++ after)).Completed 0 0 := by rfl
  refine rollups_converge ?_ ?_ (List.forall_mem_nil _) ?_ (Nat.le_refl 0) hdone
  · simp [before, KeepsPoints]
  · simp [after, Quiet, LeavesPoints, KeepsPoints, KeepsRollups]
  · rw [hpoints]
    decide +kernel

end NestAmqp.Gateway.RollupPeers
