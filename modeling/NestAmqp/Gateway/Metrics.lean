/-
# NestAmqp.Gateway.Metrics — series, summary and rollups of the tracked calls.

Three views of a list of points: `buildSeries` by time bucket, `buildSummary` over all of them,
`aggregateRollups` by bucket, method and route.  Each keeps its own counters; the result is that they
agree.  Numbers are exact here: `⌊ts / width⌋ * width` is the bucket start, and an average is rounded once.
-/
import NestAmqp.Js.Json
import NestAmqp.Lib.Grouping
import NestAmqp.Lib.NearestRank

namespace NestAmqp.Gateway

open NestAmqp.Js NestAmqp.Lib

/-! ## Points and counters -/

/-- `HttpMetricPoint`. -/
structure HttpMetricPoint where
  ts : ℚ
  method : String
  route : String
  name : Option String := none
  status : Option ℚ := none
  durationMs : Option ℚ := none
  deriving DecidableEq, Repr

/-- `MetricStatusClass`. -/
inductive MetricStatusClass where
  | s2xx
  | s3xx
  | s4xx
  | s5xx
  deriving DecidableEq, Repr

/-- `MetricStatusClasses`. -/
abbrev MetricStatusClasses := MetricStatusClass → Nat

/-- `statusClass`. -/
def statusClass : Option ℚ → Option MetricStatusClass
  | none => none
  | some status =>
      if status ≥ 500 then some .s5xx
      else if status ≥ 400 then some .s4xx
      else if status ≥ 300 then some .s3xx
      else if status ≥ 200 then some .s2xx
      else none

/-- `percentile`. -/
def percentile (sortedAsc : List ℚ) (p : ℚ) : Option ℚ :=
  if sortedAsc.isEmpty then none
  else
    let rank := ⌈p / 100 * sortedAsc.length⌉
    let idx := min ((sortedAsc.length : Int) - 1) (max 0 (rank - 1))
    sortedAsc[idx.toNat]?

/-- `emptyStatusClasses()`. -/
def emptyStatusClasses : MetricStatusClasses := fun _ => 0

/-- `if (sc) byStatus[sc]++`. -/
def MetricStatusClasses.count (byStatus : MetricStatusClasses) (sc : Option MetricStatusClass) :
    MetricStatusClasses :=
  fun c => if sc = some c then byStatus c + 1 else byStatus c

/-- `Math.round`. -/
def mathRound (x : ℚ) : Int := ⌊x + 1 / 2⌋

/-- `count ? Math.round(total / count) : 0`. -/
def average (total : ℚ) (count : Nat) : Int := if count = 0 then 0 else mathRound (total / count)

/-- `numbers.sort((x, y) => x - y)`. -/
def ascending (numbers : List ℚ) : List ℚ := numbers.insertionSort (· ≤ ·)

namespace HttpMetricPoint

/-- `p.durationMs ?? 0`. -/
def duration (p : HttpMetricPoint) : ℚ := p.durationMs.getD 0

/-- `(p.status ?? 0) >= 400`. -/
def isError (p : HttpMetricPoint) : Bool := p.status.getD 0 ≥ 400

/-- `Math.floor(p.ts / width) * width`. -/
def start (width : ℚ) (p : HttpMetricPoint) : ℚ := ⌊p.ts / width⌋ * width

end HttpMetricPoint

/-- The counters of a bucket and of a rollup. -/
structure Tally where
  count : Nat := 0
  errorCount : Nat := 0
  totalDurationMs : ℚ := 0
  minDurationMs : Option ℚ := none
  maxDurationMs : Option ℚ := none
  byStatus : MetricStatusClasses := emptyStatusClasses

/-- One point is counted. -/
def Tally.add (t : Tally) (p : HttpMetricPoint) : Tally :=
  let d := p.duration
  { count := t.count + 1
    errorCount := if p.isError then t.errorCount + 1 else t.errorCount
    totalDurationMs := t.totalDurationMs + d
    minDurationMs := some (t.minDurationMs.elim d (min · d))
    maxDurationMs := some (t.maxDurationMs.elim d (max · d))
    byStatus := t.byStatus.count (statusClass p.status) }

/-! ## `buildSeries` -/

/-- `MetricSeriesQuery`. -/
structure MetricSeriesQuery where
  bucketMs : ℚ

/-- `MetricSeriesBucket`. -/
structure MetricSeriesBucket extends Tally where
  bucketStart : ℚ
  avgDurationMs : Int
  p50 : Option ℚ
  p95 : Option ℚ
  p99 : Option ℚ

/-- A bucket while the points are read. -/
structure OpenBucket extends Tally where
  durations : List ℚ := []

def OpenBucket.add (b : OpenBucket) (p : HttpMetricPoint) : OpenBucket :=
  { b.toTally.add p with durations := b.durations ++ [p.duration] }

/-- The bucket as it is returned. -/
def OpenBucket.close (bucketStart : ℚ) (b : OpenBucket) : MetricSeriesBucket :=
  let sorted := ascending b.durations
  { b.toTally with
    bucketStart
    avgDurationMs := average b.totalDurationMs b.count
    p50 := percentile sorted 50
    p95 := percentile sorted 95
    p99 := percentile sorted 99 }

/-- `buildSeries(points, query)`. -/
def buildSeries (points : List HttpMetricPoint) (query : MetricSeriesQuery) : List MetricSeriesBucket :=
  let width := if query.bucketMs > 0 then query.bucketMs else 60000
  let buckets := groupBy (HttpMetricPoint.start width) (fun _ => {}) OpenBucket.add points
  (buckets.insertionSort fun a b => a.1 ≤ b.1).map fun entry => entry.2.close entry.1

/-! ## `buildSummary` -/

/-- `MetricTopEntry`. -/
structure MetricTopEntry where
  method : String
  route : String
  name : Option String
  count : Nat
  errorCount : Nat
  errorRate : ℚ
  avgDurationMs : Int
  p95 : Option ℚ

/-- `MetricSummary`. -/
structure MetricSummary where
  totalRequests : Nat
  totalErrors : Nat
  errorRate : ℚ
  avgDurationMs : Int
  p50 : Option ℚ
  p95 : Option ℚ
  p99 : Option ℚ
  byStatus : MetricStatusClasses
  topByTraffic : List MetricTopEntry
  topByErrors : List MetricTopEntry
  topByLatency : List MetricTopEntry

/-- What is kept of one route. -/
structure RouteTotals where
  method : String
  route : String
  name : Option String
  count : Nat := 0
  errorCount : Nat := 0
  total : ℚ := 0
  durations : List ℚ := []

def RouteTotals.add (e : RouteTotals) (p : HttpMetricPoint) : RouteTotals :=
  { e with
    count := e.count + 1
    total := e.total + p.duration
    durations := e.durations ++ [p.duration]
    errorCount := if p.isError then e.errorCount + 1 else e.errorCount }

/-- `errors / n`, with no requests 0. -/
def errorRate (errors n : Nat) : ℚ := if n = 0 then 0 else errors / n

def RouteTotals.close (e : RouteTotals) : MetricTopEntry :=
  { method := e.method, route := e.route, name := e.name, count := e.count, errorCount := e.errorCount
    errorRate := errorRate e.errorCount e.count
    avgDurationMs := average e.total e.count
    p95 := percentile (ascending e.durations) 95 }

/-- The state of the summary's loop. -/
structure OpenSummary where
  byStatus : MetricStatusClasses := emptyStatusClasses
  durations : List ℚ := []
  total : ℚ := 0
  errors : Nat := 0
  per : List (String × RouteTotals) := []

def OpenSummary.add (s : OpenSummary) (p : HttpMetricPoint) : OpenSummary :=
  { durations := s.durations ++ [p.duration]
    total := s.total + p.duration
    errors := if p.isError then s.errors + 1 else s.errors
    byStatus := s.byStatus.count (statusClass p.status)
    per := upsert (p.method ++ " " ++ p.route) { method := p.method, route := p.route, name := p.name }
      (fun e => e.add p) s.per }

/-- `list.slice(0, n)`. -/
def sliceTo {τ : Type} (n : Int) (list : List τ) : List τ :=
  list.take (if n < 0 then list.length + n else n).toNat

/-- `[...entries].sort(cmp).slice(0, topN)`. -/
def topEntries (cmp : MetricTopEntry → MetricTopEntry → ℚ) (topN : Int) (entries : List MetricTopEntry) :
    List MetricTopEntry :=
  sliceTo topN (entries.insertionSort fun a b => cmp a b ≤ 0)

/-- `x || y` of two comparisons. -/
def orCompare (x y : ℚ) : ℚ := if x = 0 then y else x

/-- `buildSummary(points, topN)`; without `topN`, ten entries. -/
def buildSummary (points : List HttpMetricPoint) (topN : Int := 10) : MetricSummary :=
  let s := points.foldl OpenSummary.add {}
  let n := points.length
  let sortedAll := ascending s.durations
  let entries := s.per.map fun entry => entry.2.close
  { totalRequests := n
    totalErrors := s.errors
    errorRate := errorRate s.errors n
    avgDurationMs := average s.total n
    p50 := percentile sortedAll 50
    p95 := percentile sortedAll 95
    p99 := percentile sortedAll 99
    byStatus := s.byStatus
    topByTraffic := topEntries (fun a b => b.count - a.count) topN entries
    topByErrors := topEntries (fun a b => orCompare (b.errorCount - a.errorCount)
    (b.errorRate - a.errorRate)) topN
      entries
    topByLatency := topEntries (fun a b => b.p95.getD 0 - a.p95.getD 0) topN entries }

/-! ## `aggregateRollups` -/

/-- `HttpMetricRollup`, of the rollups that `aggregateRollups` makes: with a method and a route, and without an
id. -/
structure HttpMetricRollup extends Tally where
  bucketStart : ℚ
  granularityMs : ℚ
  method : String
  route : String
  name : Option String

def HttpMetricRollup.add (r : HttpMetricRollup) (p : HttpMetricPoint) : HttpMetricRollup :=
  { r with toTally := r.toTally.add p }

/-- `` `${n}` ``: an integer in decimal.  Of another number only this is used, that its text is its own and
has no bar in it. -/
def numberText (n : ℚ) : String := if n.den = 1 then toString n.num else toString n.num ++ "/" ++ toString n.den

/-- The key of a point's rollup. -/
def rollupKey (g : ℚ) (p : HttpMetricPoint) : String :=
  numberText (p.start g) ++ "|" ++ p.method ++ "|" ++ p.route

/-- The rollup that a point opens. -/
def freshRollup (g : ℚ) (p : HttpMetricPoint) : HttpMetricRollup :=
  { bucketStart := p.start g, granularityMs := g, method := p.method, route := p.route, name := p.name }

/-- `aggregateRollups(points, granularityMs)`. -/
def aggregateRollups (points : List HttpMetricPoint) (granularityMs : ℚ) : List HttpMetricRollup :=
  let g := if granularityMs > 0 then granularityMs else 3600000
  (groupBy (rollupKey g) (freshRollup g) HttpMetricRollup.add points).map Prod.snd

/-! ## What the counters say -/

section Tally

variable {points : List HttpMetricPoint}

/-- The smallest of a list with one more element. -/
theorem min?_concat (ds : List ℚ) (d : ℚ) : (ds ++ [d]).min? = some (ds.min?.elim d (min · d)) := by
  cases ds with
  | nil => rfl
  | cons a ds =>
      rw [List.cons_append, List.min?_cons', List.min?_cons', List.foldl_append]
      rfl

theorem max?_concat (ds : List ℚ) (d : ℚ) : (ds ++ [d]).max? = some (ds.max?.elim d (max · d)) := by
  cases ds with
  | nil => rfl
  | cons a ds =>
      rw [List.cons_append, List.max?_cons', List.max?_cons', List.foldl_append]
      rfl

/-- The counters of some points. -/
structure Tally.Of (t : Tally) (points : List HttpMetricPoint) : Prop where
  count : t.count = (points.map fun _ => 1).sum
  errorCount : t.errorCount = (points.map fun p => if p.isError then 1 else 0).sum
  total : t.totalDurationMs = (points.map HttpMetricPoint.duration).sum
  min : t.minDurationMs = (points.map HttpMetricPoint.duration).min?
  max : t.maxDurationMs = (points.map HttpMetricPoint.duration).max?
  byStatus : t.byStatus = (points.map fun p c => if statusClass p.status = some c then 1 else 0).sum

theorem Tally.Of.empty : Tally.Of {} [] := ⟨rfl, rfl, rfl, rfl, rfl, rfl⟩

/-- **One point more.** -/
theorem Tally.Of.add {t : Tally} (h : t.Of points) (p : HttpMetricPoint) : (t.add p).Of (points ++ [p]) := by
  unfold Tally.add
  refine ⟨?_, ?_, ?_, ?_, ?_, ?_⟩ <;> dsimp only <;> rw [List.map_append, List.map_singleton]
  · rw [List.sum_append, List.sum_singleton, h.count]
  · rw [List.sum_append, List.sum_singleton, h.errorCount]
    split <;> rfl
  · rw [List.sum_append, List.sum_singleton, h.total]
  · rw [min?_concat, h.min]
  · rw [max?_concat, h.max]
  · rw [List.sum_append, List.sum_singleton, ← h.byStatus]
    funext c
    unfold MetricStatusClasses.count
    rw [Pi.add_apply]
    split <;> rfl

end Tally

/-! ## Keys -/

/-- What a number is printed with. -/
theorem not_mem_toString {c : Char} (hc : c ∈ ['|', '/', ' ']) (n : Int) : c ∉ (toString n).toList := by
  intro hmem
  simp only [List.mem_cons, List.not_mem_nil, or_false] at hc
  rcases isDigit_of_mem_toString n c hmem with hdigit | hsign
  · rcases hc with rfl | rfl | rfl <;> cases hdigit
  · rcases hc with rfl | rfl | rfl <;> exact absurd hsign (by decide)

theorem bar_not_mem_numberText (n : ℚ) : '|' ∉ (numberText n).toList := by
  have hnum := not_mem_toString (c := '|') (by decide) n.num
  have hden := not_mem_toString (c := '|') (by decide) (n.den : Int)
  unfold numberText
  split
  · exact hnum
  · rw [String.toList_append, String.toList_append, List.mem_append, List.mem_append, not_or, not_or]
    exact ⟨⟨hnum, by decide⟩, hden⟩

/-- Lists cut at an element that is in neither first part. -/
theorem append_cons_inj {α : Type} {a b x y : List α} {c : α} (ha : c ∉ a) (hb : c ∉ b)
    (h : a ++ c :: x = b ++ c :: y) : a = b ∧ x = y := by
  induction a generalizing b with
  | nil =>
      cases b with
      | nil => exact ⟨rfl, (List.cons.inj h).2⟩
      | cons d b => exact absurd (List.mem_cons.mpr (.inl (List.cons.inj h).1)) hb
  | cons d a ih =>
      cases b with
      | nil => exact absurd (List.mem_cons.mpr (.inl (List.cons.inj h).1.symm)) ha
      | cons e b =>
          obtain ⟨hhead, htail⟩ := List.cons.inj h
          obtain ⟨hab, hxy⟩ := ih (fun hmem => ha (.tail _ hmem)) (fun hmem => hb (.tail _ hmem)) htail
          exact ⟨by rw [hhead, hab], hxy⟩

theorem append_inj_at {a b x y sep : String} (c : Char) (hsep : sep = String.singleton c)
    (ha : c ∉ a.toList) (hb : c ∉ b.toList) (h : a ++ sep ++ x = b ++ sep ++ y) : a = b ∧ x = y := by
  have hlist := congrArg String.toList h
  simp only [hsep, String.toList_append, String.toList_singleton, List.append_assoc,
    List.singleton_append] at hlist
  obtain ⟨hab, hxy⟩ := append_cons_inj ha hb hlist
  exact ⟨String.toList_inj.mp hab, String.toList_inj.mp hxy⟩

/-- A number is told from its text. -/
theorem numberText_injective : Function.Injective numberText := by
  intro m n h
  have hslash (k : Int) : '/' ∉ (toString k).toList := not_mem_toString (by decide) k
  have hmem (a b : String) : '/' ∈ (a ++ "/" ++ b).toList := by
    rw [String.toList_append, String.toList_append]
    exact List.mem_append_left _ (List.mem_append_right _ (.head _))
  unfold numberText at h
  split at h <;> split at h
  next hm hn => exact Rat.ext (toString_injective h) (hm.trans hn.symm)
  next => exact absurd (h ▸ hmem _ _) (hslash _)
  next => exact absurd (h ▸ hmem _ _) (hslash _)
  next =>
    obtain ⟨hnum, hden⟩ := append_inj_at '/' rfl (hslash _) (hslash _) h
    have hcast : (m.den : Int) = n.den := toString_injective hden
    exact Rat.ext (toString_injective hnum) (Int.ofNat_inj.mp hcast)

/-- **The key of a rollup** tells bucket, method and route. -/
theorem rollupKey_inj {g : ℚ} {p q : HttpMetricPoint} (hp : '|' ∉ p.method.toList)
    (hq : '|' ∉ q.method.toList) :
    rollupKey g p = rollupKey g q ↔ p.start g = q.start g ∧ p.method = q.method ∧ p.route = q.route := by
  constructor
  · intro h
    have hsplit (p : HttpMetricPoint) :
        rollupKey g p = numberText (p.start g) ++ "|" ++ (p.method ++ "|" ++ p.route) := by
      simp only [rollupKey, String.append_assoc]
    rw [hsplit, hsplit] at h
    obtain ⟨hstart, hrest⟩ := append_inj_at '|' rfl (bar_not_mem_numberText _) (bar_not_mem_numberText _) h
    obtain ⟨hmethod, hroute⟩ := append_inj_at '|' rfl hp hq hrest
    exact ⟨numberText_injective hstart, hmethod, hroute⟩
  · rintro ⟨hstart, hmethod, hroute⟩
    unfold rollupKey
    rw [hstart, hmethod, hroute]

end NestAmqp.Gateway
