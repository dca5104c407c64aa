/-
# NestAmqp.Store.HttpMetricRepository — counters, raw points and rollups in memory.

Three collections under one counter of ids.  `increment` keeps one document for each method and route,
`record` appends, `recordRollups` replaces what has the same bucket, width, method and route, and the two
prunes remove what is older than a time.  Above them stand the map of the counters and the map of the
rollups that the collections keep.
-/
import NestAmqp.Gateway.Metrics
import NestAmqp.Lib.Recency
import NestAmqp.Store.InMemoryCollection

namespace NestAmqp.Store

open NestAmqp.Js NestAmqp.Lib NestAmqp.Lib.Machine NestAmqp.Gateway

/-! ## Documents and queries -/

/-- `TrackCallInput`. -/
structure TrackCallInput where
  method : String
  route : String
  name : Option String := none
  topic : Option String := none
  action : Option String := none
  status : Option ℚ := none
  durationMs : Option ℚ := none
  code : Option String := none
  ts : Option ℚ := none
  deriving DecidableEq, Repr

/-- `HttpMetric`. -/
structure HttpMetric where
  method : String
  route : String
  name : Option String := none
  topic : Option String := none
  action : Option String := none
  count : Nat := 0
  errorCount : Nat := 0
  lastStatus : Option ℚ := none
  lastCalledAt : Option ℚ := none
  totalDurationMs : ℚ := 0
  lastErrorCode : Option String := none
  deriving DecidableEq, Repr

/-- The fields that `increment` writes over a counter. -/
structure HttpMetricPatch where
  name : Option String
  topic : Option String
  action : Option String
  count : Nat
  errorCount : Nat
  lastStatus : Option ℚ
  lastCalledAt : Option ℚ
  totalDurationMs : ℚ
  lastErrorCode : Option String

instance : Patches HttpMetric HttpMetricPatch where
  spread m p :=
    { m with
      name := p.name, topic := p.topic, action := p.action, count := p.count, errorCount := p.errorCount
      lastStatus := p.lastStatus, lastCalledAt := p.lastCalledAt, totalDurationMs := p.totalDurationMs
      lastErrorCode := p.lastErrorCode }

/-- `MetricQuery`. -/
structure MetricQuery where
  method : Option String := none
  route : Option String := none
  name : Option String := none
  fromTs : Option ℚ := none
  toTs : Option ℚ := none
  limit : Option Int := none

/-- `!wanted || value === wanted`, with a text wanted. -/
def wants (wanted value : Option String) : Bool := !truthyText wanted || value == wanted

/-- `matchPoint(p, q)`. -/
def matchPoint (p : HttpMetricPoint) (q : MetricQuery) : Bool :=
  wants q.method (some p.method) && wants q.route (some p.route) && wants q.name p.name &&
    q.fromTs.all (fun t => decide (t ≤ p.ts)) && q.toTs.all (fun t => decide (p.ts ≤ t))

/-! ## The repository -/

/-- `InMemoryHttpMetricRepository`: its three collections, and the counter they take ids from. -/
structure InMemoryHttpMetricRepository where
  seq : Nat := 0
  col : OrderedMap String HttpMetric := .empty
  pointsCol : OrderedMap String HttpMetricPoint := .empty
  rollupCol : OrderedMap String HttpMetricRollup := .empty

/-- `(input.status ?? 0) >= 400`. -/
def TrackCallInput.isError (input : TrackCallInput) : Bool := input.status.getD 0 ≥ 400

/-- `!input?.method || !input?.route`. -/
def TrackCallInput.unnamed (input : TrackCallInput) : Bool := input.method == "" || input.route == ""

namespace InMemoryHttpMetricRepository

variable (repo : InMemoryHttpMetricRepository)

/-- `this.col`. -/
def metrics : InMemoryCollection HttpMetric := { seq := repo.seq, items := repo.col }

/-- `this.pointsCol`. -/
def stored : InMemoryCollection HttpMetricPoint := { seq := repo.seq, items := repo.pointsCol }

/-- `this.rollupCol`. -/
def rollups : InMemoryCollection HttpMetricRollup := { seq := repo.seq, items := repo.rollupCol }

/-- `increment(input)`. -/
def increment (input : TrackCallInput) (now : ℚ) : InMemoryHttpMetricRepository :=
  if input.unnamed then repo
  else
    let existing := repo.metrics.findOne fun doc =>
      doc.fields.method == input.method && doc.fields.route == input.route
    let isError := input.isError
    let col :=
      match existing with
      | none => (repo.metrics.insert none
          { method := input.method, route := input.route, name := input.name, topic := input.topic
            action := input.action, count := 1, errorCount := if isError then 1 else 0
            lastStatus := input.status, lastCalledAt := some now
            totalDurationMs := input.durationMs.getD 0
            lastErrorCode := if isError then input.code else none }).2
      | some ⟨_id, existing⟩ => (repo.metrics.updateById _id
          ({ name := input.name <|> existing.name, topic := input.topic <|> existing.topic
             action := input.action <|> existing.action, count := existing.count + 1
             errorCount := existing.errorCount + if isError then 1 else 0
             lastStatus := input.status, lastCalledAt := some now
             totalDurationMs := existing.totalDurationMs + input.durationMs.getD 0
             -- a success keeps the code of the last error
             lastErrorCode := if isError then input.code else existing.lastErrorCode } : HttpMetricPatch)).2
    { repo with seq := col.seq, col := col.items }

/-- A counter as `list` answers it. -/
structure ListedMetric where
  metric : HttpMetric
  avgDurationMs : Int
  errorRate : ℚ

/-- `list(route)`. -/
def list (route : Option String) : List ListedMetric :=
  (repo.col.values.filter fun m => wants route (some m.route)).map fun m =>
    { metric := m, avgDurationMs := average m.totalDurationMs m.count
      errorRate := errorRate m.errorCount m.count }

/-- `record(point)`. -/
def record (point : HttpMetricPoint) : InMemoryHttpMetricRepository :=
  if point.method = "" ∨ point.route = "" then repo
  else
    let col := (repo.stored.insert none point).2
    { repo with seq := col.seq, pointsCol := col.items }

/-- `points(query)`. -/
def points (query : MetricQuery) : List HttpMetricPoint :=
  let rows := ((repo.pointsCol.values.filter (matchPoint · query)).insertionSort fun a b => b.ts ≤ a.ts)
  match query.limit with
  | none => rows
  | some limit => if limit = 0 then rows else sliceTo limit rows

/-- The two have the same bucket start, width, method and route. -/
def sameBucket (r s : HttpMetricRollup) : Bool :=
  s.bucketStart == r.bucketStart && s.granularityMs == r.granularityMs && s.method == r.method &&
    s.route == r.route

/-- One turn of the loop in `recordRollups`. -/
def recordRollup (r : HttpMetricRollup) : InMemoryHttpMetricRepository :=
  let kept := (repo.rollups.removeMany fun doc => sameBucket r doc.fields).2
  let col := (kept.insert none r).2
  { repo with seq := col.seq, rollupCol := col.items }

/-- `recordRollups(rollups)`. -/
def recordRollups (rollups : List HttpMetricRollup) : InMemoryHttpMetricRepository :=
  rollups.foldl recordRollup repo

/-- `rollupSeries(query)`. -/
def rollupSeries (query : MetricQuery) : List HttpMetricRollup :=
  (repo.rollupCol.values.filter fun r =>
    query.fromTs.all (fun t => decide (t ≤ r.bucketStart)) &&
      query.toTs.all (fun t => decide (r.bucketStart ≤ t)) &&
      wants query.method (some r.method) && wants query.route (some r.route) &&
      wants query.name r.name).insertionSort fun a b => a.bucketStart ≤ b.bucketStart

/-- `for (const s of stale) collection.removeById(s._id)`. -/
def removeStale {α : Type} (items : OrderedMap String α) (stale : α → Bool) : Nat × OrderedMap String α :=
  let ids := (items.entries.filter fun e => stale e.2).map Prod.fst
  (ids.length, ids.foldl OrderedMap.delete items)

/-- `pruneRollups(olderThanTs)`. -/
def pruneRollups (olderThanTs : ℚ) : Nat × InMemoryHttpMetricRepository :=
  let (pruned, items) := removeStale repo.rollupCol fun r => decide (r.bucketStart < olderThanTs)
  (pruned, { repo with rollupCol := items })

/-- `prunePoints(olderThanTs)`. -/
def prunePoints (olderThanTs : ℚ) : Nat × InMemoryHttpMetricRepository :=
  let (pruned, items) := removeStale repo.pointsCol fun p => decide (p.ts < olderThanTs)
  (pruned, { repo with pointsCol := items })

end InMemoryHttpMetricRepository

/-! ## The map of the counters -/

/-- A call that is counted, at this time. -/
abbrev CountedCall := TrackCallInput × ℚ

/-- The method and the route of a call. -/
def callKey (call : CountedCall) : String × String := (call.1.method, call.1.route)

/-- The counter that the first call of a route opens, before it is counted. -/
def freshCounter (call : CountedCall) : HttpMetric := { method := call.1.method, route := call.1.route }

/-- A call is counted. -/
def HttpMetric.add (m : HttpMetric) (call : CountedCall) : HttpMetric :=
  { m with
    name := call.1.name <|> m.name
    topic := call.1.topic <|> m.topic
    action := call.1.action <|> m.action
    count := m.count + 1
    errorCount := m.errorCount + if call.1.isError then 1 else 0
    lastStatus := call.1.status
    lastCalledAt := some call.2
    totalDurationMs := m.totalDurationMs + call.1.durationMs.getD 0
    lastErrorCode := if call.1.isError then call.1.code else m.lastErrorCode }

/-- Setting the first entry that has a key, or appending one, is an update at the key. -/
theorem upsert_entries {α κ : Type} [DecidableEq κ] (key : α → κ) {entries : List (String × α)}
    (hnodup : (entries.map Prod.fst).Nodup) (k : κ) (fresh : α) {update : α → α}
    (hkey : ∀ v, key (update v) = key v) :
    upsert k fresh update (entries.map fun e => (key e.2, e.2)) =
      match entries.find? fun e => decide (key e.2 = k) with
      | none => (entries.map fun e => (key e.2, e.2)) ++ [(k, update fresh)]
      | some found => (entries.map fun e => (e.1, if e.1 = found.1 then update found.2 else e.2)).map
          fun e => (key e.2, e.2) := by
  induction entries with
  | nil => rfl
  | cons e entries ih =>
      obtain ⟨hhead, htail⟩ := List.nodup_cons.mp hnodup
      rw [List.map_cons, List.find?_cons]
      unfold upsert
      by_cases hk : key e.2 = k
      · have hrest : ∀ x ∈ entries, (x.1, if x.1 = e.1 then update e.2 else x.2) = x := by
          intro x hx
          have hne : x.1 ≠ e.1 := fun heq => hhead (heq ▸ List.mem_map_of_mem hx)
          rw [if_neg hne]
        rw [if_pos hk, decide_eq_true hk]
        show _ = ((e :: entries).map fun x => (x.1, if x.1 = e.1 then update e.2 else x.2)).map _
        rw [List.map_cons, List.map_cons, List.map_congr_left hrest, List.map_id', if_pos rfl, hkey]
      · rw [if_neg hk, decide_eq_false hk, ih htail]
        cases hfind : entries.find? fun e => decide (key e.2 = k) with
        | none => rfl
        | some found =>
            have hne : e.1 ≠ found.1 := fun heq =>
              hhead (heq ▸ List.mem_map_of_mem (List.mem_of_find?_eq_some hfind))
            simp only [List.map_cons, if_neg hne]

namespace InMemoryHttpMetricRepository

variable {repo : InMemoryHttpMetricRepository}

/-- The counters, each under its method and route. -/
def counters (repo : InMemoryHttpMetricRepository) : List ((String × String) × HttpMetric) :=
  repo.col.values.map fun m => ((m.method, m.route), m)

/-- No document has the next id. -/
structure NextIsNew (repo : InMemoryHttpMetricRepository) : Prop where
  col : ∀ id ∈ repo.col.keys, ∃ n ≤ repo.seq, id = idText n
  pointsCol : ∀ id ∈ repo.pointsCol.keys, ∃ n ≤ repo.seq, id = idText n
  rollupCol : ∀ id ∈ repo.rollupCol.keys, ∃ n ≤ repo.seq, id = idText n

/-- **What `increment` does to the counters.** -/
theorem counters_increment (hnew : repo.NextIsNew) {input : TrackCallInput} (hnamed : input.unnamed = false)
    (now : ℚ) : (repo.increment input now).counters =
      upsert (callKey (input, now)) (freshCounter (input, now)) (·.add (input, now)) repo.counters := by
  have hentries : repo.counters = repo.col.entries.map fun e => ((e.2.method, e.2.route), e.2) := by
    unfold counters OrderedMap.values
    rw [List.map_map]
    rfl
  have hfind : (repo.metrics.findOne fun doc => doc.fields.method == input.method &&
      doc.fields.route == input.route) =
      (repo.col.entries.find? fun e => decide ((e.2.method, e.2.route) = callKey (input, now))).map
        fun e => ⟨e.1, e.2⟩ := by
    unfold InMemoryCollection.findOne InMemoryCollection.docs metrics
    rw [List.find?_map]
    refine congrArg _ (congrArg (List.find? · _) (funext fun e => ?_))
    rw [Bool.eq_iff_iff]
    simp [callKey]
  have hupsert := upsert_entries (fun m : HttpMetric => (m.method, m.route)) repo.col.nodup
    (callKey (input, now)) (freshCounter (input, now))
    (fun m => rfl : ∀ m : HttpMetric, ((m.add (input, now)).method, (m.add (input, now)).route) = _)
  rw [hentries, hupsert]
  unfold increment
  rw [hnamed, hfind]
  cases hfound : repo.col.entries.find? fun e => decide ((e.2.method, e.2.route) = callKey (input, now)) with
  | none =>
      have hset := OrderedMap.entries_set_of_not_mem (InMemoryCollection.not_mem_of_issued hnew.col)
      simp only [Bool.false_eq_true, if_false, Option.map_none]
      unfold counters OrderedMap.values
      rw [InMemoryCollection.insert_items]
      show List.map _ (List.map Prod.snd (repo.col.set (idText (repo.seq + 1)) _).entries) = _
      rw [hset, List.map_map, List.map_append]
      refine congrArg (_ ++ [·]) ?_
      show ((input.method, input.route), _) = (callKey (input, now), _)
      unfold freshCounter HttpMetric.add callKey
      simp
  | some found =>
      have hmem := List.mem_of_find?_eq_some hfound
      have hget : repo.metrics.items.get? found.1 = some found.2 := OrderedMap.mem_iff_get?.mp hmem
      simp only [Bool.false_eq_true, if_false, Option.map_some]
      unfold counters OrderedMap.values InMemoryCollection.updateById
      rw [hget]
      show List.map _ (List.map Prod.snd (repo.col.set found.1 _).entries) = _
      rw [OrderedMap.entries_set_of_mem (OrderedMap.mem_keys.mpr ⟨_, hmem⟩), List.map_map]
      rfl

/-! ### What is removed -/

/-- The stale entries go, by their ids, and the others stay where they are. -/
theorem entries_removeStale {α : Type} (items : OrderedMap String α) (stale : α → Bool) :
    (removeStale items stale).2.entries = items.entries.filter fun e => !stale e.2 := by
  unfold removeStale
  dsimp only
  rw [OrderedMap.entries_foldl_delete]
  refine List.filter_congr fun e he => ?_
  have hids : e.1 ∈ (items.entries.filter fun e => stale e.2).map Prod.fst ↔ stale e.2 = true := by
    rw [List.mem_map]
    constructor
    · rintro ⟨e', he', heq⟩
      obtain ⟨hmem, hstale⟩ := List.mem_filter.mp he'
      rw [← List.inj_on_of_nodup_map items.nodup hmem he heq]
      exact hstale
    · exact fun hstale => ⟨e, List.mem_filter.mpr ⟨he, hstale⟩, rfl⟩
  rw [Bool.eq_iff_iff]
  simp only [decide_eq_true_eq, hids, Bool.not_eq_true', Bool.not_eq_true]

theorem values_removeStale {α : Type} (items : OrderedMap String α) (stale : α → Bool) :
    (removeStale items stale).2.values = items.values.filter fun v => !stale v := by
  unfold OrderedMap.values
  rw [entries_removeStale, List.filter_map]
  rfl

theorem keys_removeStale {α : Type} {items : OrderedMap String α} {stale : α → Bool} {id : String}
    (h : id ∈ (removeStale items stale).2.keys) : id ∈ items.keys := by
  obtain ⟨v, hv⟩ := OrderedMap.mem_keys.mp h
  rw [entries_removeStale] at hv
  exact OrderedMap.mem_keys.mpr ⟨v, List.mem_of_mem_filter hv⟩

/-! ### What each request does to the three collections -/

/-- A document behind the others, under the next id. -/
theorem values_insert {α : Type} (col : InMemoryCollection α) (hnew : idText (col.seq + 1) ∉ col.items.keys)
    (model : α) : (col.insert none model).2.items.values = col.items.values ++ [model] := by
  unfold OrderedMap.values
  rw [InMemoryCollection.insert_items]
  show List.map Prod.snd (col.items.set (idText (col.seq + 1)) model).entries = _
  rw [OrderedMap.entries_set_of_not_mem hnew, List.map_append]
  rfl

theorem issued_later {keys : List String} {seq seq' : Nat} (hle : seq ≤ seq')
    (h : ∀ id ∈ keys, ∃ n ≤ seq, id = idText n) : ∀ id ∈ keys, ∃ n ≤ seq', id = idText n := by
  intro id hid
  obtain ⟨n, hn, heq⟩ := h id hid
  exact ⟨n, hn.trans hle, heq⟩

/-- `record` appends the point. -/
theorem values_record (hnew : repo.NextIsNew) (point : HttpMetricPoint) :
    (repo.record point).pointsCol.values =
      if point.method = "" ∨ point.route = "" then repo.pointsCol.values
      else repo.pointsCol.values ++ [point] := by
  unfold record
  split
  · rfl
  · exact values_insert repo.stored (InMemoryCollection.not_mem_of_issued hnew.pointsCol) point

/-- `recordRollup` takes out what has its bucket and appends it. -/
theorem values_recordRollup (hnew : repo.NextIsNew) (r : HttpMetricRollup) :
    (repo.recordRollup r).rollupCol.values =
      (repo.rollupCol.values.filter fun s => !sameBucket r s) ++ [r] := by
  have hkept : ((repo.rollups.removeMany fun doc => sameBucket r doc.fields).2).items.values =
      repo.rollupCol.values.filter fun s => !sameBucket r s := by
    unfold OrderedMap.values
    rw [List.filter_map]
    rfl
  rw [← hkept]
  refine values_insert ((repo.rollups.removeMany fun doc => sameBucket r doc.fields).2) ?_ r
  intro hmem
  obtain ⟨v, hv⟩ := OrderedMap.mem_keys.mp hmem
  exact InMemoryCollection.not_mem_of_issued hnew.rollupCol (OrderedMap.mem_keys.mpr ⟨v, List.mem_of_mem_filter hv⟩)

/-- A request to the repository. -/
inductive MetricOp where
  | increment (input : TrackCallInput) (now : ℚ)
  | record (point : HttpMetricPoint)
  | recordRollup (r : HttpMetricRollup)
  | prunePoints (olderThanTs : ℚ)
  | pruneRollups (olderThanTs : ℚ)

/-- The repository behind the request. -/
def step (repo : InMemoryHttpMetricRepository) : MetricOp → InMemoryHttpMetricRepository
  | .increment input now => repo.increment input now
  | .record point => repo.record point
  | .recordRollup r => repo.recordRollup r
  | .prunePoints olderThanTs => (repo.prunePoints olderThanTs).2
  | .pruneRollups olderThanTs => (repo.pruneRollups olderThanTs).2

theorem recordRollups_eq_run (rollups : List HttpMetricRollup) :
    repo.recordRollups rollups = run step repo (rollups.map .recordRollup) := by
  unfold recordRollups run
  rw [List.foldl_map]
  rfl

theorem nextIsNew_increment (h : repo.NextIsNew) (input : TrackCallInput) (now : ℚ) :
    (repo.increment input now).NextIsNew := by
  unfold increment
  split
  · exact h
  · dsimp only
    split
    next =>
      exact ⟨InMemoryCollection.issued_insert repo.metrics h.col _, issued_later (Nat.le_succ _) h.pointsCol,
        issued_later (Nat.le_succ _) h.rollupCol⟩
    next _id existing _ =>
      obtain ⟨hkeys, hseq⟩ := @InMemoryCollection.keys_updateById _ _ repo.metrics _ _id
        ({ name := input.name <|> existing.name, topic := input.topic <|> existing.topic
           action := input.action <|> existing.action, count := existing.count + 1
           errorCount := existing.errorCount + if input.isError then 1 else 0
           lastStatus := input.status, lastCalledAt := some now
           totalDurationMs := existing.totalDurationMs + input.durationMs.getD 0
           lastErrorCode := if input.isError then input.code else existing.lastErrorCode } : HttpMetricPatch)
      refine ⟨?_, ?_, ?_⟩
      · show ∀ id ∈ OrderedMap.keys _, _
        rw [hkeys, hseq]
        exact h.col
      · show ∀ id ∈ repo.pointsCol.keys, _
        rw [hseq]
        exact h.pointsCol
      · show ∀ id ∈ repo.rollupCol.keys, _
        rw [hseq]
        exact h.rollupCol

theorem nextIsNew_step (h : repo.NextIsNew) (op : MetricOp) : (repo.step op).NextIsNew := by
  cases op with
  | increment input now => exact nextIsNew_increment h input now
  | record point =>
      show (repo.record point).NextIsNew
      unfold record
      split
      · exact h
      · exact ⟨issued_later (Nat.le_succ _) h.col, InMemoryCollection.issued_insert repo.stored h.pointsCol _,
          issued_later (Nat.le_succ _) h.rollupCol⟩
  | recordRollup r =>
      refine ⟨issued_later (Nat.le_succ _) h.col, issued_later (Nat.le_succ _) h.pointsCol, ?_⟩
      refine InMemoryCollection.issued_insert ((repo.rollups.removeMany fun doc => sameBucket r doc.fields).2) ?_ r
      intro id hid
      obtain ⟨v, hv⟩ := OrderedMap.mem_keys.mp hid
      exact h.rollupCol id (OrderedMap.mem_keys.mpr ⟨v, List.mem_of_mem_filter hv⟩)
  | prunePoints olderThanTs =>
      refine ⟨h.col, fun id hid => h.pointsCol id ?_, h.rollupCol⟩
      have hid' : id ∈ (removeStale repo.pointsCol fun p => decide (p.ts < olderThanTs)).2.keys := hid
      exact keys_removeStale hid'
  | pruneRollups olderThanTs =>
      refine ⟨h.col, h.pointsCol, fun id hid => h.rollupCol id ?_⟩
      have hid' : id ∈ (removeStale repo.rollupCol fun r => decide (r.bucketStart < olderThanTs)).2.keys :=
        hid
      exact keys_removeStale hid'

theorem nextIsNew_empty : NextIsNew {} := ⟨by nofun, by nofun, by nofun⟩

theorem nextIsNew_run (ops : List MetricOp) : NextIsNew (run step {} ops) :=
  run_invariant (I := NextIsNew) (fun _ op h => nextIsNew_step h op) nextIsNew_empty ops

/-! ### Runs -/

/-- The call that a request counts. -/
def countedCall : MetricOp → Option CountedCall
  | .increment input now => if input.unnamed then none else some (input, now)
  | _ => none

/-- The counters after a call is counted, or without one. -/
def countOne (counters : List ((String × String) × HttpMetric)) :
    Option CountedCall → List ((String × String) × HttpMetric)
  | none => counters
  | some call => upsert (callKey call) (freshCounter call) (·.add call) counters

theorem counters_step (hnew : repo.NextIsNew) (op : MetricOp) :
    (repo.step op).counters = countOne repo.counters (countedCall op) := by
  cases op with
  | increment input now =>
      show (repo.increment input now).counters =
        countOne repo.counters (if input.unnamed then none else some (input, now))
      cases hnamed : input.unnamed with
      | true =>
          unfold increment
          rw [if_pos hnamed]
          rfl
      | false => exact counters_increment hnew hnamed now
  | record point =>
      show (repo.record point).counters = _
      unfold record
      split <;> rfl
  | _ => rfl

/-- **The counters are the calls, grouped.**  Whatever else the run does. -/
theorem counters_run (ops : List MetricOp) :
    (run step {} ops).counters =
      groupBy callKey freshCounter HttpMetric.add (ops.filterMap countedCall) := by
  induction ops using List.reverseRecOn with
  | nil => rfl
  | append_singleton ops op ih =>
      rw [run_append, List.filterMap_append]
      refine (counters_step (nextIsNew_run ops) op).trans ?_
      rw [ih]
      cases hcall : countedCall op with
      | none =>
          rw [List.filterMap_cons_none hcall, List.filterMap_nil, List.append_nil]
          rfl
      | some call =>
          rw [List.filterMap_cons_some hcall, List.filterMap_nil, groupBy_concat]
          rfl

/-! ### Rollups -/

/-- What `recordRollups` keeps one rollup for. -/
def rollupId (r : HttpMetricRollup) : ℚ × ℚ × String × String :=
  (r.bucketStart, r.granularityMs, r.method, r.route)

theorem sameBucket_iff {r s : HttpMetricRollup} : sameBucket r s = true ↔ rollupId s = rollupId r := by
  unfold sameBucket rollupId
  simp [and_assoc]

/-- The request takes a rollup out: another is recorded in its place, or it is older than the limit. -/
def Supersedes (r : HttpMetricRollup) : MetricOp → Prop
  | .recordRollup s => rollupId s = rollupId r
  | .pruneRollups olderThanTs => r.bucketStart < olderThanTs
  | _ => False

/-- The rollup was recorded, and nothing has taken it out since. -/
def Standing (ops : List MetricOp) (r : HttpMetricRollup) : Prop :=
  Recency.Since (· = .recordRollup r) (Supersedes r) ops

/-- The rollups in the store are those that stand, each for itself. -/
structure HoldsRollups (repo : InMemoryHttpMetricRepository) (ops : List MetricOp) : Prop where
  standing : ∀ r, r ∈ repo.rollupCol.values ↔ Standing ops r
  nodup : (repo.rollupCol.values.map rollupId).Nodup

/-- A request that leaves the rollups alone. -/
theorem HoldsRollups.of_same {ops : List MetricOp} (h : HoldsRollups repo ops) {op : MetricOp}
    (hstep : (repo.step op).rollupCol.values = repo.rollupCol.values)
    (hop : ∀ r, op ≠ .recordRollup r ∧ ¬ Supersedes r op) : HoldsRollups (repo.step op) (ops ++ [op]) where
  standing r := by
    unfold Standing
    rw [hstep, Recency.since_concat, or_iff_right (hop r).1, and_iff_left (hop r).2]
    exact h.standing r
  nodup := hstep ▸ h.nodup

/-- **What a request does to the rollups.** -/
theorem HoldsRollups.step {ops : List MetricOp} (h : HoldsRollups repo ops) (hnew : repo.NextIsNew)
    (op : MetricOp) : HoldsRollups (repo.step op) (ops ++ [op]) := by
  cases op with
  | increment input now =>
      refine h.of_same ?_ fun r => ⟨nofun, id⟩
      show (repo.increment input now).rollupCol.values = _
      unfold increment
      split <;> rfl
  | record point =>
      refine h.of_same ?_ fun r => ⟨nofun, id⟩
      show (repo.record point).rollupCol.values = _
      unfold record
      split <;> rfl
  | prunePoints olderThanTs => exact h.of_same rfl fun r => ⟨nofun, id⟩
  | pruneRollups olderThanTs =>
      have hvalues : (repo.step (.pruneRollups olderThanTs)).rollupCol.values =
          repo.rollupCol.values.filter fun r => !decide (r.bucketStart < olderThanTs) :=
        values_removeStale repo.rollupCol fun r => decide (r.bucketStart < olderThanTs)
      constructor
      · intro r
        unfold Standing
        rw [hvalues, Recency.since_concat, List.mem_filter, h.standing r, or_iff_right (by nofun)]
        refine and_congr_right fun _ => ?_
        rw [Bool.not_eq_true', decide_eq_false_iff_not]
        rfl
      · rw [hvalues]
        exact h.nodup.sublist (List.filter_sublist.map _)
  | recordRollup s =>
      have hvalues : (repo.step (.recordRollup s)).rollupCol.values =
          (repo.rollupCol.values.filter fun r => !sameBucket s r) ++ [s] := values_recordRollup hnew s
      have hkept : ∀ r, (!sameBucket s r) = true ↔ ¬ Supersedes r (.recordRollup s) := by
        intro r
        rw [Bool.not_eq_true', Bool.eq_false_iff, ne_eq, sameBucket_iff, eq_comm]
        rfl
      constructor
      · intro r
        unfold Standing
        rw [hvalues, Recency.since_concat, List.mem_append, List.mem_filter, h.standing r, hkept,
          List.mem_singleton, or_comm, MetricOp.recordRollup.injEq, eq_comm]
        rfl
      · rw [hvalues, List.map_append, List.nodup_append]
        refine ⟨h.nodup.sublist (List.filter_sublist.map _), List.nodup_singleton _, ?_⟩
        rintro k hk k' hk' rfl
        obtain ⟨r, hr, rfl⟩ := List.mem_map.mp hk
        refine (hkept r).mp (List.mem_filter.mp hr).2 ?_
        exact (List.mem_singleton.mp hk').symm

theorem holdsRollups_run (ops : List MetricOp) : HoldsRollups (run step {} ops) ops := by
  induction ops using List.reverseRecOn with
  | nil => exact ⟨fun r => iff_of_false List.not_mem_nil Recency.not_since_nil, List.nodup_nil⟩
  | append_singleton ops op ih =>
      rw [run_append]
      exact ih.step (nextIsNew_run ops) op

/-- The query admits the rollup. -/
def MetricQuery.AdmitsRollup (query : MetricQuery) (r : HttpMetricRollup) : Prop :=
  (∀ t, query.fromTs = some t → t ≤ r.bucketStart) ∧ (∀ t, query.toTs = some t → r.bucketStart ≤ t) ∧
    wants query.method (some r.method) ∧ wants query.route (some r.route) ∧ wants query.name r.name

/-- The series has one rollup of a kind. -/
theorem nodup_rollupSeries (ops : List MetricOp) (query : MetricQuery) :
    (((run step {} ops).rollupSeries query).map rollupId).Nodup := by
  unfold rollupSeries
  rw [((List.perm_insertionSort _ _).map _).nodup_iff]
  exact (holdsRollups_run ops).nodup.sublist (List.filter_sublist.map _)

/-- What the series has: what the query asks for of what stands. -/
theorem mem_rollupSeries (ops : List MetricOp) (query : MetricQuery) (r : HttpMetricRollup) :
    r ∈ (run step {} ops).rollupSeries query ↔ MetricQuery.AdmitsRollup query r ∧ Standing ops r := by
  unfold rollupSeries
  rw [List.mem_insertionSort, List.mem_filter, (holdsRollups_run ops).standing, and_comm]
  refine and_congr_left fun _ => ?_
  unfold MetricQuery.AdmitsRollup
  cases query.fromTs <;> cases query.toTs <;> simp [and_assoc]

/-- **The rollup series.**  Whatever was recorded, recomputed and pruned, in whatever order: the series is
sorted, holds one rollup for a bucket, width, method and route, and that is the last one recorded, unless
a prune came after it.  A batch counts as its rollups, one after the other. -/
theorem rollupSeries_run (ops : List MetricOp) (query : MetricQuery) :
    ((run step {} ops).rollupSeries query).Pairwise (fun a b => a.bucketStart ≤ b.bucketStart) ∧
      (((run step {} ops).rollupSeries query).map rollupId).Nodup ∧
      (∀ r, r ∈ (run step {} ops).rollupSeries query ↔ MetricQuery.AdmitsRollup query r ∧ Standing ops r) ∧
      ∀ rollups, (run step {} ops).recordRollups rollups = run step {} (ops ++ rollups.map .recordRollup) := by
  refine ⟨List.pairwise_insertionSort _ _, nodup_rollupSeries ops query, mem_rollupSeries ops query, ?_⟩
  intro rollups
  rw [run_append]
  exact recordRollups_eq_run rollups

end InMemoryHttpMetricRepository

end NestAmqp.Store
