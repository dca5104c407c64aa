/-
# NestAmqp.Gateway.MetricsRollup — which hours get their rollup.

`GatewayMetricsRollupService`, enabled: at boot it rolls up the last three completed hours, and then, on
every tick of an hourly timer, the hour before the clock.  The timer is never early and may be late, and a
repository call may fail, which is logged.  Nothing records which hours were done, so an hour is rolled up
by a tick in the hour after it, or never.
-/
import NestAmqp.Gateway.Metrics
import NestAmqp.Lib.Machine

namespace NestAmqp.Gateway.MetricsRollup

open NestAmqp.Lib.Machine

/-! ## The service -/

/-- `HOUR_MS`. -/
def hourMs : Int := 3600000

/-- `BOOT_CATCHUP_HOURS`. -/
def bootCatchupHours : Nat := 3

/-- `points({ from, to })`. -/
def pointsIn (raw : List HttpMetricPoint) (start stop : Int) : List HttpMetricPoint :=
  raw.filter fun p => decide ((start : ℚ) ≤ p.ts ∧ p.ts ≤ stop)

/-- The raw points of the hour that starts there. -/
def hourPoints (raw : List HttpMetricPoint) (hourStart : Int) : List HttpMetricPoint :=
  pointsIn raw hourStart (hourStart + hourMs - 1)

/-- How the repository calls for one hour end: whether each of them succeeds. -/
structure RepositoryCalls where
  points : Bool := true
  recordRollups : Bool := true
  deriving DecidableEq, Repr

/-- What `tryAcquire` comes to: there may be no lock, and it may throw. -/
inductive LockAnswer
  | noLock
  | answered (acquired : Bool)
  | errored
  deriving DecidableEq, Repr

/-- `acquire`: an error of the lock is taken as leave to go on. -/
def LockAnswer.acquire : LockAnswer → Bool
  | noLock => true
  | answered acquired => acquired
  | errored => true

/-- The service: the rollups it has recorded, by the start of their hour.  The other fields remember the
timer: when it last fired, whether the calls of that tick succeeded, and when the last tick was (or else
the boot) whose calls did. -/
structure RollupService where
  recorded : List (Int × List HttpMetricRollup) := []
  lastTick : Int
  succeeded : Bool := false
  since : Int

/-- `previousHourStart()`. -/
def previousHourStart (now : Int) : Int := now / hourMs * hourMs - hourMs

/-- `rollupHour(hourStart)`. -/
def rollupHour (raw : List HttpMetricPoint) (recorded : List (Int × List HttpMetricRollup))
    (hourStart : Int) (calls : RepositoryCalls) : List (Int × List HttpMetricRollup) :=
  if calls.points then
    let points := hourPoints raw hourStart
    if points.isEmpty then recorded
    else if calls.recordRollups then recorded ++ [(hourStart, aggregateRollups points hourMs)]
    else recorded
  else recorded

/-- The repository calls that are made for the hour succeed. -/
def callsSucceed (raw : List HttpMetricPoint) (hourStart : Int) (calls : RepositoryCalls) : Bool :=
  calls.points && ((hourPoints raw hourStart).isEmpty || calls.recordRollups)

/-- `runCatchup(BOOT_CATCHUP_HOURS)`. -/
def runCatchup (raw : List HttpMetricPoint) (now : Int) (lock : LockAnswer) (calls : Nat → RepositoryCalls) :
    List (Int × List HttpMetricRollup) :=
  if lock.acquire then
    (List.range bootCatchupHours).foldl
      (fun recorded (i : Nat) =>
        rollupHour raw recorded (previousHourStart now - (i : Int) * hourMs) (calls i)) []
  else []

/-- `onApplicationBootstrap`. -/
def boot (raw : List HttpMetricPoint) (now : Int) (lock : LockAnswer) (calls : Nat → RepositoryCalls) :
    RollupService :=
  { recorded := runCatchup raw now lock calls, lastTick := now, since := now }

/-- A tick of the timer. -/
structure Tick where
  now : Int
  lock : LockAnswer := .noLock
  calls : RepositoryCalls := {}
  deriving DecidableEq, Repr

/-- The tick runs, and its repository calls succeed. -/
def Tick.succeeds (raw : List HttpMetricPoint) (tick : Tick) : Bool :=
  tick.lock.acquire && callsSucceed raw (previousHourStart tick.now) tick.calls

/-- `rollup()`. -/
def rollup (raw : List HttpMetricPoint) (service : RollupService) (tick : Tick) : RollupService :=
  { recorded :=
      if tick.lock.acquire then
        rollupHour raw service.recorded (previousHourStart tick.now) tick.calls
      else service.recorded
    lastTick := tick.now
    succeeded := tick.succeeds raw
    since := if tick.succeeds raw then tick.now else service.since }

/-! ## Missed hours -/

variable {raw : List HttpMetricPoint} {bootTime : Int} {service : RollupService}

/-- The rollups of the hour were recorded. -/
def RollupService.RolledUp (raw : List HttpMetricPoint) (service : RollupService) (hour : Int) : Prop :=
  (hour * hourMs, aggregateRollups (hourPoints raw (hour * hourMs)) hourMs) ∈ service.recorded

/-- Every hour that completed since the boot and has raw points is rolled up. -/
def RollupService.Complete (raw : List HttpMetricPoint) (bootTime now : Int) (service : RollupService) :
    Prop :=
  ∀ hour, bootTime < (hour + 1) * hourMs → (hour + 1) * hourMs ≤ now →
    hourPoints raw (hour * hourMs) ≠ [] → service.RolledUp raw hour

/-- After a tick whose calls succeeded no hour is missing. -/
def NoneMissing (raw : List HttpMetricPoint) (bootTime : Int) (service : RollupService) : Prop :=
  service.succeeded = true → service.Complete raw bootTime service.lastTick

/-- The timer is never early. -/
def OnTimer (service : RollupService) (tick : Tick) : Prop := service.lastTick + hourMs ≤ tick.now

/-- A tick whose calls succeed passes over no hour with raw points: those that completed since the last
such tick, or the boot, before the hour it rolls up itself. -/
def PassesOver (raw : List HttpMetricPoint) (service : RollupService) (tick : Tick) : Prop :=
  ∃ hour, service.since < (hour + 1) * hourMs ∧ (hour + 1) * hourMs ≤ previousHourStart tick.now ∧
    hourPoints raw (hour * hourMs) ≠ []

/-- The hour before the clock. -/
theorem previousHourStart_eq (now : Int) : previousHourStart now = (now / hourMs - 1) * hourMs := by
  unfold previousHourStart
  rw [Int.sub_mul, Int.one_mul]

/-- An hour is completed when the clock is in a later one. -/
theorem completed_iff (hour now : Int) : (hour + 1) * hourMs ≤ now ↔ hour < now / hourMs := by
  unfold hourMs
  omega

/-! ## One tick -/

theorem mem_rollupHour {recorded : List (Int × List HttpMetricRollup)} {hourStart : Int}
    {calls : RepositoryCalls} {e : Int × List HttpMetricRollup}
    (h : e ∈ rollupHour raw recorded hourStart calls) : e ∈ recorded ∨ e.1 = hourStart := by
  unfold rollupHour at h
  split at h
  · dsimp only at h
    split at h
    · exact .inl h
    · split at h
      · rcases List.mem_append.mp h with hold | hnew
        · exact .inl hold
        · exact .inr (congrArg Prod.fst (List.mem_singleton.mp hnew))
      · exact .inl h
  · exact .inl h

theorem mem_rollupHour_of_mem {recorded : List (Int × List HttpMetricRollup)} {hourStart : Int}
    {calls : RepositoryCalls} {e : Int × List HttpMetricRollup} (h : e ∈ recorded) :
    e ∈ rollupHour raw recorded hourStart calls := by
  unfold rollupHour
  dsimp only
  split
  · split
    · exact h
    · split
      · exact List.mem_append_left _ h
      · exact h
  · exact h

/-- An hour with points is recorded when its calls succeed. -/
theorem mem_rollupHour_self {recorded : List (Int × List HttpMetricRollup)} {hourStart : Int}
    {calls : RepositoryCalls} (hcalls : callsSucceed raw hourStart calls = true)
    (hpoints : hourPoints raw hourStart ≠ []) :
    (hourStart, aggregateRollups (hourPoints raw hourStart) hourMs) ∈
      rollupHour raw recorded hourStart calls := by
  have hsome : (hourPoints raw hourStart).isEmpty = false := List.isEmpty_eq_false_iff.mpr hpoints
  unfold callsSucceed at hcalls
  rw [hsome, Bool.false_or, Bool.and_eq_true] at hcalls
  unfold rollupHour
  dsimp only
  rw [if_pos hcalls.1, if_neg (by simp [hsome]), if_pos hcalls.2]
  exact List.mem_append_right _ List.mem_cons_self

/-- Nothing is recorded when they do not. -/
theorem rollupHour_of_failed {recorded : List (Int × List HttpMetricRollup)} {hourStart : Int}
    {calls : RepositoryCalls} (hcalls : callsSucceed raw hourStart calls = false) :
    rollupHour raw recorded hourStart calls = recorded := by
  unfold callsSucceed at hcalls
  unfold rollupHour
  dsimp only
  split
  next hpoints =>
    rw [hpoints, Bool.true_and, Bool.or_eq_false_iff] at hcalls
    rw [if_neg (by simp [hcalls.1]), if_neg (by simp [hcalls.2])]
  next => rfl

/-- What the ticks keep: all hours up to the last successful tick are done, and none later. -/
structure Kept (raw : List HttpMetricPoint) (bootTime : Int) (service : RollupService) : Prop where
  complete : service.Complete raw bootTime service.since
  past : ∀ e ∈ service.recorded, e.1 < service.since / hourMs * hourMs
  booted : bootTime ≤ service.since
  order : service.since ≤ service.lastTick
  fresh : service.succeeded = true → service.lastTick = service.since

theorem Kept.noneMissing (h : Kept raw bootTime service) : NoneMissing raw bootTime service := by
  intro hsucceeded
  rw [h.fresh hsucceeded]
  exact h.complete

/-- The hours of the boot catch-up were over before the boot. -/
theorem Kept.boot (raw : List HttpMetricPoint) (now : Int) (lock : LockAnswer)
    (calls : Nat → RepositoryCalls) : Kept raw now (boot raw now lock calls) where
  complete hour hafter hbefore := absurd hbefore (not_le.mpr hafter)
  past := by
    have hfold : ∀ (is : List Nat) (recorded : List (Int × List HttpMetricRollup)),
        (∀ e ∈ recorded, e.1 < now / hourMs * hourMs) → ∀ e ∈ is.foldl
          (fun recorded (i : Nat) =>
            rollupHour raw recorded (previousHourStart now - (i : Int) * hourMs) (calls i)) recorded,
          e.1 < now / hourMs * hourMs := by
      intro is
      induction is with
      | nil => exact fun _ hrecorded => hrecorded
      | cons i is ih =>
          intro recorded hrecorded
          refine ih _ fun e he => ?_
          rcases mem_rollupHour he with hold | hnew
          · exact hrecorded e hold
          · rw [hnew]
            unfold previousHourStart hourMs
            omega
    intro e he
    change e ∈ runCatchup raw now lock calls at he
    unfold runCatchup at he
    split at he
    · exact hfold _ [] nofun e he
    · cases he
  booted := le_refl _
  order := le_refl _
  fresh := nofun

/-- A tick whose calls fail, or that finds the lock taken, records nothing. -/
theorem Kept.of_failed (h : Kept raw bootTime service) {tick : Tick} (htimer : OnTimer service tick)
    (hfailed : tick.succeeds raw = false) : Kept raw bootTime (rollup raw service tick) := by
  have hsame : rollup raw service tick =
      { service with lastTick := tick.now, succeeded := false } := by
    unfold rollup
    rw [hfailed]
    unfold Tick.succeeds at hfailed
    split
    next hlock =>
      rw [hlock, Bool.true_and] at hfailed
      rw [rollupHour_of_failed hfailed]
      rfl
    next => rfl
  rw [hsame]
  refine ⟨h.complete, h.past, h.booted, ?_, nofun⟩
  have horder := h.order
  unfold OnTimer hourMs at htimer
  change service.since ≤ tick.now
  omega

/-- A successful tick that passes over no hour leaves none missing. -/
theorem Kept.of_succeeded (h : Kept raw bootTime service) {tick : Tick} (htimer : OnTimer service tick)
    (hsucceeds : tick.succeeds raw = true) (hnone : ¬ PassesOver raw service tick) :
    Kept raw bootTime (rollup raw service tick) := by
  obtain ⟨hlock, hcalls⟩ := (Bool.and_eq_true _ _).mp hsucceeds
  have horder := h.order
  have hbooted := h.booted
  have hlater : service.since ≤ tick.now := by
    unfold OnTimer hourMs at htimer
    omega
  have hdone : rollup raw service tick =
      { recorded := rollupHour raw service.recorded (previousHourStart tick.now) tick.calls
        lastTick := tick.now, succeeded := true, since := tick.now } := by
    unfold rollup
    rw [if_pos hlock, hsucceeds]
    rfl
  rw [hdone]
  refine ⟨fun hour hafter (hbefore : (hour + 1) * hourMs ≤ tick.now) hpoints => ?_, fun e he => ?_,
    hbooted.trans hlater, le_refl _, fun _ => rfl⟩
  · change _ ∈ rollupHour raw service.recorded (previousHourStart tick.now) tick.calls
    by_cases hold : (hour + 1) * hourMs ≤ service.since
    · exact mem_rollupHour_of_mem (h.complete hour hafter hold hpoints)
    · -- it completed since the last successful tick, so it is the hour before the clock
      have hhour : hour = tick.now / hourMs - 1 := by
        by_contra hne
        refine hnone ⟨hour, not_le.mp hold, ?_, hpoints⟩
        rw [completed_iff] at hbefore
        rw [previousHourStart_eq]
        unfold hourMs at hbefore hne ⊢
        omega
      have hstart : hour * hourMs = previousHourStart tick.now := by rw [previousHourStart_eq, hhour]
      rw [hstart] at hpoints ⊢
      exact mem_rollupHour_self hcalls hpoints
  · change e.1 < tick.now / hourMs * hourMs
    rcases mem_rollupHour he with hold | hnew
    · have hpast := h.past e hold
      unfold hourMs at hpast ⊢
      omega
    · rw [hnew, previousHourStart]
      unfold hourMs
      omega

/-- A successful tick that passes over an hour with points leaves it missing. -/
theorem Kept.missing (h : Kept raw bootTime service) {tick : Tick} (hsucceeds : tick.succeeds raw = true)
    (hover : PassesOver raw service tick) : ¬ NoneMissing raw bootTime (rollup raw service tick) := by
  intro hnone
  obtain ⟨hour, hsince, hend, hpoints⟩ := hover
  obtain ⟨hlock, -⟩ := (Bool.and_eq_true _ _).mp hsucceeds
  have hbooted := h.booted
  have hrolled : (rollup raw service tick).RolledUp raw hour := by
    refine hnone hsucceeds hour (by omega) ?_ hpoints
    change (hour + 1) * hourMs ≤ tick.now
    rw [previousHourStart_eq] at hend
    unfold hourMs at hend ⊢
    omega
  unfold RollupService.RolledUp rollup at hrolled
  rw [if_pos hlock] at hrolled
  rcases mem_rollupHour hrolled with hold | hnew
  · have hpast := h.past _ hold
    unfold hourMs at hpast hsince
    omega
  · unfold hourMs at hnew hend
    omega

/-! ## Every run -/

/-- **No completed hour is missed exactly when** every tick whose repository calls succeed passes over no
hour with raw points.  For every boot, and every run of a timer that is never early. -/
theorem noneMissing_iff {raw : List HttpMetricPoint} {bootTime : Int} {lock : LockAnswer}
    {calls : Nat → RepositoryCalls} {ticks : List Tick}
    (htimer : Along (rollup raw) OnTimer (boot raw bootTime lock calls) ticks) :
    (∀ service, Reaches (rollup raw) (boot raw bootTime lock calls) ticks service →
      NoneMissing raw bootTime service) ↔
    Along (rollup raw) (fun service tick => tick.succeeds raw = true → ¬ PassesOver raw service tick)
      (boot raw bootTime lock calls) ticks := by
  have hinit : Kept raw bootTime (boot raw bootTime lock calls) := Kept.boot raw bootTime lock calls
  refine @Along.iff_forall_reaches_of _ _ (rollup raw) OnTimer _ (Kept raw bootTime)
    (NoneMissing raw bootTime) (fun _ h => h.noneMissing) ?_ ?_ _ hinit _ htimer
  · intro service tick h hon hok
    cases hsucceeds : tick.succeeds raw with
    | true => exact h.of_succeeded hon hsucceeds (hok hsucceeds)
    | false => exact h.of_failed hon hsucceeds
  · intro service tick h _ hno
    obtain ⟨hsucceeds, hover⟩ := Classical.not_imp.mp hno
    exact h.missing hsucceeds (not_not.mp hover)

/-- A request in the second hour. -/
def oneRequest : List HttpMetricPoint := [{ ts := 3600001, method := "GET", route := "/docs" }]

/-- Two ticks, the second of them one millisecond late: it finds the clock in the next hour. -/
def driftingTicks : List Tick := [{ now := 7199999 }, { now := 10800000 }]

theorem onTimer_driftingTicks :
    Along (rollup oneRequest) OnTimer (boot oneRequest 3599999 .noLock fun _ => {}) driftingTicks := by
  unfold driftingTicks Along Along Along OnTimer
  decide

/-- The second hour completed between the boot and the last tick, whose calls succeed, and has no rollup. -/
theorem not_noneMissing_drifting : ¬ ∀ (raw : List HttpMetricPoint) (bootTime : Int) (lock : LockAnswer)
    (calls : Nat → RepositoryCalls) (ticks : List Tick),
    Along (rollup raw) OnTimer (boot raw bootTime lock calls) ticks →
    ∀ service, Reaches (rollup raw) (boot raw bootTime lock calls) ticks service →
      NoneMissing raw bootTime service := by
  intro hall
  have hnone := hall oneRequest 3599999 .noLock (fun _ => {}) driftingTicks onTimer_driftingTicks _
    (reaches_run _ _ _)
  have hrecorded : (run (rollup oneRequest) (boot oneRequest 3599999 .noLock fun _ => {})
      driftingTicks).recorded.map Prod.fst = [] := by decide +kernel
  have hrolled := hnone (by decide +kernel) 1 (by decide) (by decide +kernel) (by decide +kernel)
  unfold RollupService.RolledUp at hrolled
  rw [List.map_eq_nil_iff.mp hrecorded] at hrolled
  cases hrolled

/-- Ticks on time, and a call that fails in an hour without requests. -/
def steadyTicks : List Tick :=
  [{ now := 4000000, calls := { points := false } }, { now := 7600000 }]

theorem noneMissing_iff_steady :
    Along (rollup oneRequest) OnTimer (boot oneRequest 400000 .noLock fun _ => {}) steadyTicks ∧
      ∀ service, Reaches (rollup oneRequest) (boot oneRequest 400000 .noLock fun _ => {}) steadyTicks
        service → NoneMissing oneRequest 400000 service := by
  have htimer : Along (rollup oneRequest) OnTimer (boot oneRequest 400000 .noLock fun _ => {})
      steadyTicks := by
    unfold steadyTicks Along Along Along OnTimer
    decide
  refine ⟨htimer, (noneMissing_iff htimer).mpr ⟨fun hsucceeds => ?_, fun _ hover => ?_, trivial⟩⟩
  · exact absurd hsucceeds (by decide)
  · -- only the first hour could have been passed over
    obtain ⟨hour, hsince, hend, hpoints⟩ := hover
    have hhour : hour = 0 := by
      have hstart : previousHourStart 7600000 = 3600000 := by decide
      change (400000 : Int) < (hour + 1) * hourMs at hsince
      rw [hstart] at hend
      unfold hourMs at hsince hend
      omega
    subst hhour
    exact hpoints (by decide +kernel)

end NestAmqp.Gateway.MetricsRollup
