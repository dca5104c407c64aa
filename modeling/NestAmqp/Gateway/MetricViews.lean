/-
# NestAmqp.Gateway.MetricViews — the three views of the metrics agree.

A bucket is the tally of the points at its start, a rollup that of the points at its start with its method
and route. So every point is in one of each, and what is summed over the rollups of a start is in its
bucket, what is summed over the buckets in the summary.
-/
import NestAmqp.Gateway.Metrics

namespace NestAmqp.Gateway

open NestAmqp.Js NestAmqp.Lib

/-! ## Bucket starts -/

/-- The start is the greatest multiple of the width that is not above the timestamp. -/
theorem start_isGreatest {w : ℚ} (hw : 0 < w) (p : HttpMetricPoint) :
    IsGreatest {x | (∃ k : Int, x = k * w) ∧ x ≤ p.ts} (p.start w) := by
  unfold HttpMetricPoint.start
  refine ⟨⟨⟨_, rfl⟩, (le_div_iff₀ hw).mp (Int.floor_le _)⟩, ?_⟩
  rintro x ⟨⟨k, rfl⟩, hk⟩
  have hfloor : k ≤ ⌊p.ts / w⌋ := Int.le_floor.mpr ((le_div_iff₀ hw).mpr hk)
  have hcast : (k : ℚ) ≤ ⌊p.ts / w⌋ := by exact_mod_cast hfloor
  gcongr

/-! ## What is counted where -/

/-- The points of a bucket. -/
def pointsAt (w s : ℚ) (points : List HttpMetricPoint) : List HttpMetricPoint :=
  points.filter fun p => p.start w = s

/-- The points of a rollup. -/
def pointsOf (w : ℚ) (r : HttpMetricRollup) (points : List HttpMetricPoint) : List HttpMetricPoint :=
  points.filter fun p => p.start w = r.bucketStart ∧ p.method = r.method ∧ p.route = r.route

/-- The rollups of a start. -/
def rollupsAt (w s : ℚ) (points : List HttpMetricPoint) : List HttpMetricRollup :=
  (aggregateRollups points w).filter fun r => r.bucketStart = s

/-- The durations behind a rollup. -/
def durationsOf (w : ℚ) (points : List HttpMetricPoint) (r : HttpMetricRollup) : Set ℚ :=
  {d | d ∈ (pointsOf w r points).map HttpMetricPoint.duration}

section Views

variable {w : ℚ} {points : List HttpMetricPoint}

/-- A bucket has counted its points and kept their durations. -/
theorem openBucket_of (points : List HttpMetricPoint) :
    (points.foldl OpenBucket.add {}).toTally.Of points ∧
      (points.foldl OpenBucket.add {}).durations = points.map HttpMetricPoint.duration := by
  induction points using List.reverseRecOn with
  | nil => exact ⟨.empty, rfl⟩
  | append_singleton points p ih =>
      rw [List.foldl_append, List.map_append]
      exact ⟨ih.1.add p, congrArg (· ++ [p.duration]) ih.2⟩

/-- A rollup has counted its points and is still of its bucket, method and route. -/
theorem rollup_of {r : HttpMetricRollup} (hr : r.toTally = {}) (points : List HttpMetricPoint) :
    ∃ t : Tally, t.Of points ∧ points.foldl HttpMetricRollup.add r = { r with toTally := t } := by
  induction points using List.reverseRecOn with
  | nil => exact ⟨{}, .empty, by rw [← hr]; rfl⟩
  | append_singleton points p ih =>
      obtain ⟨t, ht, hfold⟩ := ih
      refine ⟨t.add p, ht.add p, ?_⟩
      rw [List.foldl_append, hfold]
      rfl

variable (points) in
/-- The open buckets of the series. -/
theorem buildSeries_eq (hw : 0 < w) : buildSeries points ⟨w⟩ =
    ((groupBy (HttpMetricPoint.start w) (fun _ => {}) OpenBucket.add points).insertionSort
      fun a b => a.1 ≤ b.1).map fun entry => entry.2.close entry.1 := by
  unfold buildSeries
  dsimp only
  rw [if_pos hw]

variable (points) in
theorem aggregateRollups_eq (hw : 0 < w) : aggregateRollups points w =
    (groupBy (rollupKey w) (freshRollup w) HttpMetricRollup.add points).map Prod.snd := by
  unfold aggregateRollups
  dsimp only
  rw [if_pos hw]

/-- **A bucket** is made of the points at its start, and there are some. -/
theorem bucket_of_mem (hw : 0 < w) {b : MetricSeriesBucket} (hb : b ∈ buildSeries points ⟨w⟩) :
    pointsAt w b.bucketStart points ≠ [] ∧
      b = ((pointsAt w b.bucketStart points).foldl OpenBucket.add {}).close b.bucketStart := by
  rw [buildSeries_eq points hw] at hb
  obtain ⟨entry, hentry, rfl⟩ := List.mem_map.mp hb
  obtain ⟨first, rest, hfilter, hvalue⟩ := groupBy_value ((List.mem_insertionSort _).mp hentry)
  have hpoints : pointsAt w (entry.2.close entry.1).bucketStart points = first :: rest := hfilter
  rw [hpoints, ← hvalue]
  exact ⟨List.cons_ne_nil _ _, rfl⟩

theorem bucket_tally (hw : 0 < w) {b : MetricSeriesBucket} (hb : b ∈ buildSeries points ⟨w⟩) :
    b.toTally.Of (pointsAt w b.bucketStart points) := by
  have htally := (openBucket_of (pointsAt w b.bucketStart points)).1
  have heq := congrArg MetricSeriesBucket.toTally (bucket_of_mem hw hb).2
  rw [heq]
  exact htally

/-- **A rollup** is made of the points at its start with its method and route, and there are some. -/
theorem rollup_of_entry (hbars : ∀ p ∈ points, '|' ∉ p.method.toList) {entry : String × HttpMetricRollup}
    (h : entry ∈ groupBy (rollupKey w) (freshRollup w) HttpMetricRollup.add points) :
    pointsOf w entry.2 points ≠ [] ∧ entry.2.toTally.Of (pointsOf w entry.2 points) ∧
      (points.filter fun p => rollupKey w p = entry.1) = pointsOf w entry.2 points ∧
      entry.1 = numberText entry.2.bucketStart ++ "|" ++ entry.2.method ++ "|" ++ entry.2.route := by
  obtain ⟨first, rest, hfilter, hvalue⟩ := groupBy_value h
  obtain ⟨t, ht, hfold⟩ := rollup_of (r := freshRollup w first) rfl (first :: rest)
  rw [hfold] at hvalue
  have hfirst : first ∈ points.filter fun p => rollupKey w p = entry.1 := hfilter ▸ .head _
  obtain ⟨hmem, hkey⟩ := List.mem_filter.mp hfirst
  have hkey : rollupKey w first = entry.1 := of_decide_eq_true hkey
  have hsame : (points.filter fun p => rollupKey w p = entry.1) = pointsOf w entry.2 points := by
    refine List.filter_congr fun p hp => ?_
    rw [← hkey, hvalue]
    exact decide_eq_decide.mpr (rollupKey_inj (hbars p hp) (hbars first hmem))
  rw [hfilter] at hsame
  refine ⟨?_, ?_, ?_, ?_⟩
  · rw [← hsame]
    exact List.cons_ne_nil _ _
  · rw [← hsame, hvalue]
    exact ht
  · rw [hfilter, hsame]
  · rw [← hkey, hvalue]
    rfl

/-- **Sums over the buckets** are sums over the points. -/
theorem sum_buildSeries {M : Type} [AddCommMonoid M] (hw : 0 < w) {total : Tally → M}
    {weight : HttpMetricPoint → M}
    (htotal : ∀ t points, Tally.Of t points → total t = (points.map weight).sum) :
    ((buildSeries points ⟨w⟩).map fun b => total b.toTally).sum = (points.map weight).sum := by
  rw [buildSeries_eq points hw, List.map_map,
    ((List.perm_insertionSort _ _).map _).sum_eq]
  refine sum_groupBy fun entry hentry => ?_
  obtain ⟨first, rest, hfilter, hvalue⟩ := groupBy_value hentry
  rw [hfilter]
  refine htotal _ _ ?_
  show entry.2.toTally.Of _
  rw [hvalue]
  exact (openBucket_of _).1

theorem sum_map_filter {α M : Type} [AddCommMonoid M] (q : α → Bool) (f : α → M) (xs : List α) :
    ((xs.filter q).map f).sum = (xs.map fun x => if q x then f x else 0).sum := by
  induction xs with
  | nil => rfl
  | cons x xs ih => cases hq : q x <;> simp [hq, ih]

/-- **Sums over the rollups of a start** are sums over the points there. -/
theorem sum_aggregateRollups {M : Type} [AddCommMonoid M] (hw : 0 < w)
    (hbars : ∀ p ∈ points, '|' ∉ p.method.toList) {total : Tally → M} {weight : HttpMetricPoint → M}
    (htotal : ∀ t points, Tally.Of t points → total t = (points.map weight).sum) (s : ℚ) :
    ((rollupsAt w s points).map fun r => total r.toTally).sum = ((pointsAt w s points).map weight).sum := by
  unfold rollupsAt pointsAt
  rw [sum_map_filter, sum_map_filter, aggregateRollups_eq points hw, List.map_map]
  refine sum_groupBy fun entry hentry => ?_
  obtain ⟨-, htally, hfilter, -⟩ := rollup_of_entry hbars hentry
  rw [hfilter]
  show (if decide (entry.2.bucketStart = s) = true then total entry.2.toTally else 0) = _
  -- the points of one rollup have one start
  have hstart : ∀ p ∈ pointsOf w entry.2 points, p.start w = entry.2.bucketStart := fun p hp =>
    (of_decide_eq_true (List.mem_filter.mp hp).2).1
  by_cases hs : entry.2.bucketStart = s
  · rw [if_pos (decide_eq_true hs), htotal _ _ htally]
    refine congrArg List.sum (List.map_congr_left fun p hp => ?_)
    rw [if_pos (decide_eq_true ((hstart p hp).trans hs))]
  · rw [if_neg (by simpa using hs), List.map_congr_left (g := fun _ => (0 : M)), List.sum_map_zero]
    intro p hp
    rw [if_neg]
    rw [decide_eq_true_iff, hstart p hp]
    exact hs

/-- The starts of the buckets are those of the points. -/
theorem mem_starts (hw : 0 < w) {s : ℚ} :
    s ∈ (buildSeries points ⟨w⟩).map (·.bucketStart) ↔ ∃ p ∈ points, p.start w = s := by
  have hkeys : (buildSeries points ⟨w⟩).map (·.bucketStart) =
      ((groupBy (HttpMetricPoint.start w) (fun _ => {}) OpenBucket.add points).insertionSort
        fun a b => a.1 ≤ b.1).map Prod.fst := by
    rw [buildSeries_eq points hw, List.map_map]
    rfl
  rw [hkeys, ((List.perm_insertionSort _ _).map _).mem_iff, mem_keys_groupBy]

/-- **The starts increase.** -/
theorem starts_increase (hw : 0 < w) : ((buildSeries points ⟨w⟩).map (·.bucketStart)).Pairwise (· < ·) := by
  rw [buildSeries_eq points hw, List.map_map]
  have hsorted : (((groupBy (HttpMetricPoint.start w) (fun _ => {}) OpenBucket.add points).insertionSort
      fun a b => a.1 ≤ b.1).map Prod.fst).Pairwise (· ≤ ·) :=
    List.pairwise_map.mpr (List.pairwise_insertionSort _ _)
  have hnodup : (((groupBy (HttpMetricPoint.start w) (fun _ => {}) OpenBucket.add points).insertionSort
      fun a b => a.1 ≤ b.1).map Prod.fst).Nodup :=
    ((List.perm_insertionSort _ _).map _).nodup_iff.mpr nodup_keys_groupBy
  exact (List.pairwise_and_iff.mpr ⟨hsorted, hnodup⟩).imp fun h => lt_of_le_of_ne h.1 h.2

/-- One member of a list whose keys differ has its key. -/
theorem filter_eq_singleton {α κ : Type} [DecidableEq κ] {f : α → κ} {xs : List α}
    (h : (xs.map f).Nodup) {x : α}
    (hx : x ∈ xs) : (xs.filter fun y => f y = f x) = [x] := by
  induction xs with
  | nil => cases hx
  | cons y xs ih =>
      obtain ⟨hy, hxs⟩ := List.nodup_cons.mp h
      rcases List.mem_cons.mp hx with rfl | hx
      · rw [List.filter_cons_of_pos (by simp), List.filter_eq_nil_iff.mpr]
        intro z hz hkey
        exact hy (List.mem_map.mpr ⟨z, hz, of_decide_eq_true hkey⟩)
      · rw [List.filter_cons_of_neg, ih hxs hx]
        intro hkey
        exact hy (List.mem_map.mpr ⟨x, hx, (of_decide_eq_true hkey).symm⟩)

/-- **Every point has one bucket.** -/
theorem exists_bucket (hw : 0 < w) {p : HttpMetricPoint} (hp : p ∈ points) :
    ∃ b, (buildSeries points ⟨w⟩).filter (fun b => b.bucketStart = p.start w) = [b] := by
  obtain ⟨b, hb, hstart⟩ := List.mem_map.mp ((mem_starts hw).mpr ⟨p, hp, rfl⟩)
  refine ⟨b, ?_⟩
  rw [← hstart]
  exact filter_eq_singleton ((starts_increase hw).imp fun h => ne_of_lt h) hb

/-- **Every point has one rollup.** -/
theorem exists_rollup (hw : 0 < w) (hbars : ∀ p ∈ points, '|' ∉ p.method.toList) {p : HttpMetricPoint}
    (hp : p ∈ points) :
    ∃ r, (aggregateRollups points w).filter
      (fun r => r.bucketStart = p.start w ∧ r.method = p.method ∧ r.route = p.route) = [r] := by
  obtain ⟨entry, hentry, hkey⟩ := List.mem_map.mp
    (mem_keys_groupBy.mpr ⟨p, hp, rfl⟩ : rollupKey w p ∈
      (groupBy (rollupKey w) (freshRollup w) HttpMetricRollup.add points).map Prod.fst)
  -- the point is one of those of the entry
  have hmem : p ∈ pointsOf w entry.2 points := by
    rw [← (rollup_of_entry hbars hentry).2.2.1]
    exact List.mem_filter.mpr ⟨hp, decide_eq_true hkey.symm⟩
  obtain ⟨hstart, hmethod, hroute⟩ := of_decide_eq_true (List.mem_filter.mp hmem).2
  have hnodup : ((aggregateRollups points w).map fun r => (r.bucketStart, r.method, r.route)).Nodup := by
    refine List.Nodup.of_map (fun k : ℚ × String × String => numberText k.1 ++ "|" ++ k.2.1 ++ "|" ++ k.2.2) ?_
    rw [aggregateRollups_eq points hw, List.map_map, List.map_map]
    have hkeys := List.map_congr_left fun e : String × HttpMetricRollup =>
      fun he => (rollup_of_entry (w := w) hbars he).2.2.2
    exact hkeys ▸ nodup_keys_groupBy
  have hin : entry.2 ∈ aggregateRollups points w := by
    rw [aggregateRollups_eq points hw]
    exact List.mem_map_of_mem hentry
  refine ⟨entry.2, ?_⟩
  rw [← filter_eq_singleton hnodup hin, hstart, hmethod, hroute]
  simp only [Prod.mk.injEq]

/-- A rollup, with the entry it comes from. -/
theorem exists_entry (hw : 0 < w) {r : HttpMetricRollup} (hr : r ∈ aggregateRollups points w) :
    ∃ key, (key, r) ∈ groupBy (rollupKey w) (freshRollup w) HttpMetricRollup.add points := by
  rw [aggregateRollups_eq points hw] at hr
  obtain ⟨entry, hentry, rfl⟩ := List.mem_map.mp hr
  exact ⟨entry.1, hentry⟩

theorem mem_rollupsAt {r : HttpMetricRollup} {s : ℚ} :
    r ∈ rollupsAt w s points ↔ r ∈ aggregateRollups points w ∧ r.bucketStart = s := by
  unfold rollupsAt
  rw [List.mem_filter, decide_eq_true_iff]

/-- The points at a start are those of the rollups there. -/
theorem mem_pointsAt_iff (hw : 0 < w) (hbars : ∀ p ∈ points, '|' ∉ p.method.toList)
    {p : HttpMetricPoint} {s : ℚ} :
    p ∈ pointsAt w s points ↔ ∃ r ∈ rollupsAt w s points, p ∈ pointsOf w r points := by
  constructor
  · intro h
    obtain ⟨hp, hs⟩ := List.mem_filter.mp h
    obtain ⟨r, hr⟩ := exists_rollup hw hbars hp
    have hfilter : r ∈ (aggregateRollups points w).filter
        (fun r => r.bucketStart = p.start w ∧ r.method = p.method ∧ r.route = p.route) := by
      rw [hr]
      exact .head _
    obtain ⟨hmem, hsame⟩ := List.mem_filter.mp hfilter
    obtain ⟨hstart, hmethod, hroute⟩ := of_decide_eq_true hsame
    exact ⟨r, mem_rollupsAt.mpr ⟨hmem, hstart.trans (of_decide_eq_true hs)⟩,
      List.mem_filter.mpr ⟨hp, decide_eq_true ⟨hstart.symm, hmethod.symm, hroute.symm⟩⟩⟩
  · rintro ⟨r, hr, h⟩
    obtain ⟨-, rfl⟩ := mem_rollupsAt.mp hr
    obtain ⟨hp, hsame⟩ := List.mem_filter.mp h
    exact List.mem_filter.mpr ⟨hp, decide_eq_true (of_decide_eq_true hsame).1⟩

theorem mem_durations_iff (hw : 0 < w) (hbars : ∀ p ∈ points, '|' ∉ p.method.toList) {d s : ℚ} :
    d ∈ (pointsAt w s points).map HttpMetricPoint.duration ↔
      ∃ r ∈ rollupsAt w s points, d ∈ durationsOf w points r := by
  constructor
  · intro hd
    obtain ⟨p, hp, rfl⟩ := List.mem_map.mp hd
    obtain ⟨r, hr, hmem⟩ := (mem_pointsAt_iff hw hbars).mp hp
    exact ⟨r, hr, List.mem_map_of_mem hmem⟩
  · rintro ⟨r, hr, hd⟩
    obtain ⟨p, hp, rfl⟩ := List.mem_map.mp hd
    exact List.mem_map_of_mem ((mem_pointsAt_iff hw hbars).mpr ⟨r, hr, hp⟩)

/-- The least of the least elements of some sets is the least of all their elements. -/
theorem isLeast_leasts {ι α : Type} [Preorder α] {G : Set ι} {S : ι → Set α} {m : α}
    (hleast : ∀ g ∈ G, ∀ x ∈ S g, ∃ l, IsLeast (S g) l) :
    IsLeast {x | ∃ g ∈ G, IsLeast (S g) x} m ↔ IsLeast {x | ∃ g ∈ G, x ∈ S g} m := by
  constructor
  · rintro ⟨⟨g, hg, hm⟩, hlow⟩
    refine ⟨⟨g, hg, hm.1⟩, ?_⟩
    rintro x ⟨g', hg', hx⟩
    obtain ⟨l, hl⟩ := hleast g' hg' x hx
    exact le_trans (hlow ⟨g', hg', hl⟩) (hl.2 hx)
  · rintro ⟨⟨g, hg, hm⟩, hlow⟩
    refine ⟨⟨g, hg, hm, fun x hx => hlow ⟨g, hg, hx⟩⟩, ?_⟩
    rintro x ⟨g', hg', hx⟩
    exact hlow ⟨g', hg', hx.1⟩

theorem min?_eq_some {ds : List ℚ} {m : ℚ} : ds.min? = some m ↔ IsLeast {x | x ∈ ds} m := by
  rw [List.min?_eq_some_iff]
  rfl

theorem max?_eq_some {ds : List ℚ} {m : ℚ} : ds.max? = some m ↔ IsGreatest {x | x ∈ ds} m := by
  rw [List.max?_eq_some_iff]
  rfl

theorem exists_min {ds : List ℚ} {d : ℚ} (hd : d ∈ ds) : ∃ m, ds.min? = some m := by
  rw [← Option.isSome_iff_exists, List.isSome_min?_iff]
  exact List.ne_nil_of_mem hd

theorem exists_max {ds : List ℚ} {d : ℚ} (hd : d ∈ ds) : ∃ m, ds.max? = some m := by
  rw [← Option.isSome_iff_exists, List.isSome_max?_iff]
  exact List.ne_nil_of_mem hd

/-- A rollup is the tally of its points. -/
theorem rollup_tally (hw : 0 < w) (hbars : ∀ p ∈ points, '|' ∉ p.method.toList) {r : HttpMetricRollup}
    (hr : r ∈ aggregateRollups points w) :
    pointsOf w r points ≠ [] ∧ r.toTally.Of (pointsOf w r points) := by
  obtain ⟨key, hentry⟩ := exists_entry hw hr
  obtain ⟨hne, htally, -⟩ := rollup_of_entry hbars hentry
  exact ⟨hne, htally⟩

/-- **The smallest duration** of the rollups of a start is that of the points there. -/
theorem min_rollupsAt (hw : 0 < w) (hbars : ∀ p ∈ points, '|' ∉ p.method.toList) (s : ℚ) :
    ((rollupsAt w s points).filterMap (·.minDurationMs)).min? =
      ((pointsAt w s points).map HttpMetricPoint.duration).min? := by
  have hlows : {x | x ∈ (rollupsAt w s points).filterMap (·.minDurationMs)} =
      {x | ∃ r ∈ {r | r ∈ rollupsAt w s points}, IsLeast (durationsOf w points r) x} := by
    ext x
    simp only [Set.mem_ofPred_eq, List.mem_filterMap]
    refine exists_congr fun r => and_congr_right fun hr => ?_
    rw [(rollup_tally hw hbars (mem_rollupsAt.mp hr).1).2.min, min?_eq_some]
    rfl
  have hall : {d | d ∈ (pointsAt w s points).map HttpMetricPoint.duration} =
      {d | ∃ r ∈ {r | r ∈ rollupsAt w s points}, d ∈ durationsOf w points r} :=
    Set.ext fun d => mem_durations_iff hw hbars
  refine Option.ext fun m => ?_
  rw [min?_eq_some, min?_eq_some, hall, hlows]
  exact isLeast_leasts fun r _ x hx => (exists_min hx).imp fun m => min?_eq_some.mp

/-- **The largest duration**, likewise. -/
theorem max_rollupsAt (hw : 0 < w) (hbars : ∀ p ∈ points, '|' ∉ p.method.toList) (s : ℚ) :
    ((rollupsAt w s points).filterMap (·.maxDurationMs)).max? =
      ((pointsAt w s points).map HttpMetricPoint.duration).max? := by
  have hhighs : {x | x ∈ (rollupsAt w s points).filterMap (·.maxDurationMs)} =
      {x | ∃ r ∈ {r | r ∈ rollupsAt w s points}, IsGreatest (durationsOf w points r) x} := by
    ext x
    simp only [Set.mem_ofPred_eq, List.mem_filterMap]
    refine exists_congr fun r => and_congr_right fun hr => ?_
    rw [(rollup_tally hw hbars (mem_rollupsAt.mp hr).1).2.max, max?_eq_some]
    rfl
  have hall : {d | d ∈ (pointsAt w s points).map HttpMetricPoint.duration} =
      {d | ∃ r ∈ {r | r ∈ rollupsAt w s points}, d ∈ durationsOf w points r} :=
    Set.ext fun d => mem_durations_iff hw hbars
  refine Option.ext fun m => ?_
  rw [max?_eq_some, max?_eq_some, hall, hhighs]
  -- the order turned around
  exact isLeast_leasts (α := ℚᵒᵈ) fun r _ x hx => (exists_max hx).imp fun m => max?_eq_some.mp

end Views

/-! ## Percentiles -/

/-- The percentile of some numbers stands in their order. -/
theorem percentile_ascending {ds : List ℚ} (hds : ds ≠ []) {p : ℚ} (hp : 0 < p) (hp100 : p ≤ 100) :
    ∃ v, percentile (ascending ds) p = some v ∧ NearestRank p ds v := by
  have hperm : (ascending ds).Perm ds := List.perm_insertionSort _ _
  have hlength : 0 < (ascending ds).length := by
    rw [hperm.length_eq]
    exact List.length_pos_iff.mpr hds
  have hcast : (0 : ℚ) < (ascending ds).length := by exact_mod_cast hlength
  have hlow : 1 ≤ ⌈p / 100 * (ascending ds).length⌉ := Int.one_le_ceil_iff.mpr (by positivity)
  have hhigh : ⌈p / 100 * (ascending ds).length⌉ ≤ ((ascending ds).length : Int) := by
    refine Int.ceil_le.mpr ?_
    have hle : p / 100 ≤ 1 := by linarith
    calc p / 100 * (ascending ds).length ≤ 1 * (ascending ds).length := by gcongr
      _ = ((ascending ds).length : Int) := by rw [one_mul, Int.cast_natCast]
  obtain ⟨i, hi⟩ : ∃ i : Nat, ⌈p / 100 * (ascending ds).length⌉ = (i : Int) + 1 :=
    ⟨(⌈p / 100 * (ascending ds).length⌉ - 1).toNat, by omega⟩
  have hbound : i < (ascending ds).length := by omega
  refine ⟨(ascending ds)[i], ?_,
    (nearestRank_of_sorted (List.pairwise_insertionSort _ _) hbound hi).of_perm hperm⟩
  have hidx : (min (((ascending ds).length : Int) - 1) (max 0 ((i : Int) + 1 - 1))).toNat = i := by omega
  unfold percentile
  rw [if_neg (by simpa using List.length_pos_iff.mp hlength)]
  dsimp only
  rw [hi, hidx, List.getElem?_eq_getElem hbound]

/-- The percentiles are those of the durations, and in order between the smallest and the largest. -/
def Ranked (ds : List ℚ) (low p50 p95 p99 high : Option ℚ) : Prop :=
  ∃ l v50 v95 v99 h, low = some l ∧ p50 = some v50 ∧ p95 = some v95 ∧ p99 = some v99 ∧ high = some h ∧
    IsLeast {d | d ∈ ds} l ∧ NearestRank 50 ds v50 ∧ NearestRank 95 ds v95 ∧ NearestRank 99 ds v99 ∧
    IsGreatest {d | d ∈ ds} h ∧ l ≤ v50 ∧ v50 ≤ v95 ∧ v95 ≤ v99 ∧ v99 ≤ h

theorem ranked_of_ascending {ds : List ℚ} (hds : ds ≠ []) :
    Ranked ds ds.min? (percentile (ascending ds) 50) (percentile (ascending ds) 95)
    (percentile (ascending ds) 99)
      ds.max? := by
  obtain ⟨d, hd⟩ := List.exists_mem_of_ne_nil ds hds
  obtain ⟨l, hl⟩ := exists_min hd
  obtain ⟨h, hh⟩ := exists_max hd
  obtain ⟨v50, h50, hr50⟩ := percentile_ascending hds (p := 50) (by norm_num) (by norm_num)
  obtain ⟨v95, h95, hr95⟩ := percentile_ascending hds (p := 95) (by norm_num) (by norm_num)
  obtain ⟨v99, h99, hr99⟩ := percentile_ascending hds (p := 99) (by norm_num) (by norm_num)
  have hleast := min?_eq_some.mp hl
  have hgreatest := max?_eq_some.mp hh
  exact ⟨l, v50, v95, v99, h, hl, h50, h95, h99, hh, hleast, hr50, hr95, hr99, hgreatest,
    hleast.2 hr50.1.1, hr50.mono (by norm_num) hr95, hr95.mono (by norm_num) hr99, hgreatest.2 hr99.1.1⟩

/-! ## The summary -/

/-- What the summary's loop has read. -/
theorem openSummary_of (points : List HttpMetricPoint) :
    (points.foldl OpenSummary.add {}).durations = points.map HttpMetricPoint.duration ∧
      (points.foldl OpenSummary.add {}).total = (points.map HttpMetricPoint.duration).sum ∧
      (points.foldl OpenSummary.add {}).errors = (points.map fun p => if p.isError then 1 else 0).sum ∧
      (points.foldl OpenSummary.add {}).byStatus =
        (points.map fun p c => if statusClass p.status = some c then 1 else 0).sum := by
  induction points using List.reverseRecOn with
  | nil => exact ⟨rfl, rfl, rfl, rfl⟩
  | append_singleton points p ih =>
      obtain ⟨hdurations, htotal, herrors, hstatus⟩ := ih
      rw [List.foldl_append, List.map_append, List.map_append, List.map_append, List.sum_append,
        List.sum_append,
        List.sum_append, ← htotal, ← hdurations, ← herrors, ← hstatus]
      refine ⟨rfl, ?_, ?_, ?_⟩
      · rw [List.map_singleton, List.sum_singleton]
        rfl
      · show (if p.isError then _ + 1 else _) = _
        rw [List.map_singleton, List.sum_singleton]
        split <;> rfl
      · rw [List.map_singleton, List.sum_singleton]
        funext c
        show MetricStatusClasses.count _ _ c = _
        unfold MetricStatusClasses.count
        rw [Pi.add_apply]
        split <;> rfl

/-! ## Agreement -/

/-- The three views of the points, at one width, agree. -/
structure ViewsAgree (points : List HttpMetricPoint) (w : ℚ) (topN : Int) : Prop where
  /-- The start of a point is the greatest multiple of the width that is not above its timestamp. -/
  aligned : ∀ p ∈ points, IsGreatest {x | (∃ k : Int, x = k * w) ∧ x ≤ p.ts} (p.start w)
  /-- Every point has one bucket and one rollup, at its start. -/
  oneBucket : ∀ p ∈ points, ∃ b, (buildSeries points ⟨w⟩).filter (fun b => b.bucketStart = p.start w) = [b]
  oneRollup : ∀ p ∈ points, ∃ r, (aggregateRollups points w).filter
    (fun r => r.bucketStart = p.start w ∧ r.method = p.method ∧ r.route = p.route) = [r]
  /-- A bucket and a rollup count the points that have it. -/
  bucketCount : ∀ b ∈ buildSeries points ⟨w⟩, 0 < b.count ∧ b.count = (pointsAt w b.bucketStart points).length
  rollupCount : ∀ r ∈ aggregateRollups points w, 0 < r.count ∧ r.count = (pointsOf w r points).length
  /-- The rollups of a start are its bucket. -/
  sameStarts : ∀ s, (∃ b ∈ buildSeries points ⟨w⟩, b.bucketStart = s) ↔
    ∃ r ∈ aggregateRollups points w, r.bucketStart = s
  sums : ∀ b ∈ buildSeries points ⟨w⟩,
    ((rollupsAt w b.bucketStart points).map (·.count)).sum = b.count ∧
    ((rollupsAt w b.bucketStart points).map (·.errorCount)).sum = b.errorCount ∧
    ((rollupsAt w b.bucketStart points).map (·.totalDurationMs)).sum = b.totalDurationMs ∧
    ((rollupsAt w b.bucketStart points).map (·.byStatus)).sum = b.byStatus
  extremes : ∀ b ∈ buildSeries points ⟨w⟩,
    ((rollupsAt w b.bucketStart points).filterMap (·.minDurationMs)).min? = b.minDurationMs ∧
    ((rollupsAt w b.bucketStart points).filterMap (·.maxDurationMs)).max? = b.maxDurationMs
  /-- The summary sums the buckets up. -/
  totals : (buildSummary points topN).totalRequests = ((buildSeries points ⟨w⟩).map (·.count)).sum ∧
    (buildSummary points topN).totalErrors = ((buildSeries points ⟨w⟩).map (·.errorCount)).sum ∧
    (buildSummary points topN).avgDurationMs = average ((buildSeries points ⟨w⟩).map (·.totalDurationMs)).sum
      ((buildSeries points ⟨w⟩).map (·.count)).sum ∧
    (buildSummary points topN).byStatus = ((buildSeries points ⟨w⟩).map (·.byStatus)).sum
  increasing : ((buildSeries points ⟨w⟩).map (·.bucketStart)).Pairwise (· < ·)
  /-- Percentiles are of nearest rank and in order; without durations there are none. -/
  bucketRanks : ∀ b ∈ buildSeries points ⟨w⟩,
    Ranked ((pointsAt w b.bucketStart points).map HttpMetricPoint.duration) b.minDurationMs b.p50 b.p95 b.p99
      b.maxDurationMs
  summaryRanks : points ≠ [] → Ranked (points.map HttpMetricPoint.duration)
    (points.map HttpMetricPoint.duration).min? (buildSummary points topN).p50 (buildSummary points topN).p95
    (buildSummary points topN).p99 (points.map HttpMetricPoint.duration).max?
  summaryEmpty : points = [] →
    (buildSummary points topN).p50 = none ∧ (buildSummary points topN).p95 = none ∧
    (buildSummary points topN).p99 = none

section Agreement

variable {w : ℚ} {points : List HttpMetricPoint}

theorem sum_ones (points : List HttpMetricPoint) : (points.map fun _ => 1).sum = points.length := by simp

theorem Tally.Of.length {t : Tally} (h : t.Of points) : t.count = points.length :=
  h.count.trans (sum_ones points)

theorem sameStarts_views (hw : 0 < w) (hbars : ∀ p ∈ points, '|' ∉ p.method.toList) (s : ℚ) :
    (∃ b ∈ buildSeries points ⟨w⟩, b.bucketStart = s) ↔ ∃ r ∈ aggregateRollups points w, r.bucketStart = s := by
  have hbuckets : (∃ b ∈ buildSeries points ⟨w⟩, b.bucketStart = s) ↔ ∃ p ∈ points, p.start w = s :=
    List.mem_map.symm.trans (mem_starts hw)
  rw [hbuckets]
  constructor
  · rintro ⟨p, hp, hs⟩
    obtain ⟨r, hr, -⟩ := (mem_pointsAt_iff hw hbars).mp (List.mem_filter.mpr ⟨hp, decide_eq_true hs⟩)
    exact ⟨r, mem_rollupsAt.mp hr⟩
  · rintro ⟨r, hr, rfl⟩
    obtain ⟨p, hp⟩ := List.exists_mem_of_ne_nil _ (rollup_tally hw hbars hr).1
    obtain ⟨hmem, hsame⟩ := List.mem_filter.mp hp
    exact ⟨p, hmem, (of_decide_eq_true hsame).1⟩

theorem bucketRanks_views (hw : 0 < w) {b : MetricSeriesBucket} (hb : b ∈ buildSeries points ⟨w⟩) :
    Ranked ((pointsAt w b.bucketStart points).map HttpMetricPoint.duration) b.minDurationMs b.p50 b.p95 b.p99
      b.maxDurationMs := by
  obtain ⟨hne, heq⟩ := bucket_of_mem hw hb
  have htally := bucket_tally hw hb
  have hpercentile (p : ℚ) : percentile
    (ascending ((pointsAt w b.bucketStart points).map HttpMetricPoint.duration)) p =
      percentile (ascending ((pointsAt w b.bucketStart points).foldl OpenBucket.add {}).durations) p := by
    rw [(openBucket_of _).2]
  have hranked := ranked_of_ascending (mt List.map_eq_nil_iff.mp hne :
    (pointsAt w b.bucketStart points).map HttpMetricPoint.duration ≠ [])
  have h50 := congrArg MetricSeriesBucket.p50 heq
  have h95 := congrArg MetricSeriesBucket.p95 heq
  have h99 := congrArg MetricSeriesBucket.p99 heq
  rw [htally.min, htally.max, h50, h95, h99]
  rw [hpercentile, hpercentile, hpercentile] at hranked
  exact hranked

/-- **The three metrics views agree**, for every list of points whose methods have no bar and every width. -/
theorem metrics_views_agree (topN : Int) (hw : 0 < w) (hbars : ∀ p ∈ points, '|' ∉ p.method.toList) :
    ViewsAgree points w topN where
  aligned p _ := start_isGreatest hw p
  oneBucket p hp := exists_bucket hw hp
  oneRollup p hp := exists_rollup hw hbars hp
  bucketCount b hb := by
    rw [(bucket_tally hw hb).length]
    exact ⟨List.length_pos_iff.mpr (bucket_of_mem hw hb).1, rfl⟩
  rollupCount r hr := by
    obtain ⟨hne, htally⟩ := rollup_tally hw hbars hr
    rw [htally.length]
    exact ⟨List.length_pos_iff.mpr hne, rfl⟩
  sameStarts := sameStarts_views hw hbars
  sums b hb := by
    have htally := bucket_tally hw hb
    refine ⟨?_, ?_, ?_, ?_⟩
    · rw [htally.count]
      exact sum_aggregateRollups hw hbars (fun t points h => h.count) _
    · rw [htally.errorCount]
      exact sum_aggregateRollups hw hbars (fun t points h => h.errorCount) _
    · rw [htally.total]
      exact sum_aggregateRollups hw hbars (fun t points h => h.total) _
    · rw [htally.byStatus]
      exact sum_aggregateRollups hw hbars (fun t points h => h.byStatus) _
  extremes b hb := by
    have htally := bucket_tally hw hb
    rw [htally.min, htally.max]
    exact ⟨min_rollupsAt hw hbars _, max_rollupsAt hw hbars _⟩
  totals := by
    obtain ⟨-, htotal, herrors, hstatus⟩ := openSummary_of points
    -- the counts of the buckets sum up to the number of points
    have hcount : ((buildSeries points ⟨w⟩).map (·.count)).sum = points.length :=
      (sum_buildSeries hw fun t points h => h.count).trans (sum_ones points)
    have hduration : ((buildSeries points ⟨w⟩).map (·.totalDurationMs)).sum = _ :=
      sum_buildSeries hw fun t points h => h.total
    refine ⟨hcount.symm, ?_, ?_, ?_⟩
    · exact herrors.trans (sum_buildSeries hw fun t points h => h.errorCount).symm
    · rw [hcount, hduration, ← htotal]
      rfl
    · exact hstatus.trans (sum_buildSeries hw fun t points h => h.byStatus).symm
  increasing := starts_increase hw
  bucketRanks b hb := bucketRanks_views hw hb
  summaryRanks hne := by
    have hranked := ranked_of_ascending
      (mt List.map_eq_nil_iff.mp hne : points.map HttpMetricPoint.duration ≠ [])
    rw [← (openSummary_of points).1] at hranked ⊢
    exact hranked
  summaryEmpty hnil := by
    rw [hnil]
    exact ⟨rfl, rfl, rfl⟩

theorem metrics_views_agree_minutes : ViewsAgree
    [{ ts := 0, method := "GET", route := "/x", status := some 200, durationMs := some 10 },
      { ts := 100, method := "GET", route := "/x", status := some 500, durationMs := some 30 },
      { ts := 70000, method := "GET", route := "/x", status := some 200, durationMs := some 20 }] 60000 10 :=
  metrics_views_agree 10 (by norm_num) (by decide)

end Agreement

end NestAmqp.Gateway
