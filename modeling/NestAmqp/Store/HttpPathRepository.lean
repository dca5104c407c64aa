/-
# NestAmqp.Store.HttpPathRepository — the paths in memory, against the contract of their repository.

`InMemoryHttpPathRepository` is a collection of rows.  The contract asks for a unique index on `routeKey`
and a `ConflictError` from a write that violates it; the collection has no index.  What it answers is what
the contract allows up to the first write that the index would have refused, and not beyond.
-/
import NestAmqp.Gateway.PathService
import NestAmqp.Store.InMemoryCollection

namespace NestAmqp.Store

open NestAmqp.Js NestAmqp.Lib NestAmqp.Lib.Machine NestAmqp.Gateway

/-! ## The repository -/

/-- A document as a row of the table. -/
def rowOf (doc : Doc Obj) : StoredHttpPath := ⟨doc._id, doc.fields⟩

/-- `matches(item, filter)`. -/
def «matches» (item : StoredHttpPath) (filter : Obj) : Bool :=
  filter.all fun (key, cond) =>
    match cond with
    -- a condition that is undefined asks for nothing
    | .undefined => true
    | .obj o =>
        match Obj.get o "$in" with
        | .arr candidates => candidates.any (GatewayPathService.sameValueZero (item.get key))
        | _ => strictEq (item.get key) cond
    | _ => strictEq (item.get key) cond

/-- `model._id`, a text or missing. -/
def ownId (model : Obj) : Option String :=
  match Obj.get model "_id" with
  | .str id => some id
  | _ => none

/-- `InMemoryHttpPathRepository`. -/
structure InMemoryHttpPathRepository where
  col : InMemoryCollection Obj := {}

namespace InMemoryHttpPathRepository

variable (repo : InMemoryHttpPathRepository)

/-- The rows, oldest first. -/
def rows : List StoredHttpPath := repo.col.docs.map rowOf

/-- `filter(filter)`. -/
def filter (filter : Obj) : List StoredHttpPath :=
  (repo.col.filter fun doc => «matches» (rowOf doc) filter).map rowOf

/-- `findById(id)`. -/
def findById : Value → Option StoredHttpPath
  | .str id => (repo.col.findById id).map rowOf
  | _ => none

/-- `insert(model)`. -/
def insert (model : Obj) : StoredHttpPath × InMemoryHttpPathRepository :=
  let (doc, col) := repo.col.insert (ownId model) (Obj.assign [] model)
  (rowOf doc, { col })

/-- `updateById(id, model)`. -/
def updateById (id : Value) (model : Obj) : Option StoredHttpPath × InMemoryHttpPathRepository :=
  match id with
  | .str id =>
      let (doc, col) := repo.col.updateById id model
      (doc.map rowOf, { col })
  | _ => (none, repo)

/-- `removeById(id)`. -/
def removeById (id : Value) : Option StoredHttpPath × InMemoryHttpPathRepository :=
  match id with
  | .str id =>
      let (doc, col) := repo.col.removeById id
      (doc.map rowOf, { col })
  | _ => (none, repo)

/-- The operations the gateway administration asks for; none of them throws. -/
def perform : (op : PathOp) → Except Thrown (PathAns op) × InMemoryHttpPathRepository
  | .findByOwner owner => (.ok (repo.filter [("owner", .str owner)]), repo)
  | .findByRouteKey routeKey => (.ok (repo.filter [("routeKey", .str routeKey)]), repo)
  | .findById id => (.ok (repo.findById id), repo)
  | .insert model => (.ok (repo.insert model).1, (repo.insert model).2)
  | .updateById id model => (.ok (repo.updateById id model).1, (repo.updateById id model).2)
  | .removeById id => (.ok (repo.removeById id).1, (repo.removeById id).2)
  | .journal _ | .publishReload _ => (.ok (), repo)

/-- The repository behind an operation. -/
def step (repo : InMemoryHttpPathRepository) (op : PathOp) : InMemoryHttpPathRepository := (repo.perform op).2

/-- A write that a unique index on `routeKey` refuses. -/
def Clashes : PathOp → Prop
  | .insert model => ∃ row ∈ repo.rows, ∃ key, keyText (Obj.assign [] model) = some key ∧ row.key = some key
  | .updateById id model => ∃ row ∈ repo.rows, id = .str row._id ∧
      ∃ other ∈ repo.rows, other._id ≠ row._id ∧
        ∃ key, (row.patched model).key = some key ∧ other.key = some key
  | _ => False

/-! ### What the operations do to the rows -/

variable {repo}

theorem mem_rows {row : StoredHttpPath} :
    row ∈ repo.rows ↔ repo.col.items.get? row._id = some row.columns := by
  unfold rows
  rw [List.mem_map]
  constructor
  · rintro ⟨doc, hdoc, rfl⟩
    exact InMemoryCollection.mem_docs.mp hdoc
  · intro h
    exact ⟨⟨row._id, row.columns⟩, InMemoryCollection.mem_docs.mpr h, rfl⟩

theorem ids_rows : repo.rows.map StoredHttpPath._id = repo.col.items.keys := by
  unfold rows InMemoryCollection.docs
  rw [List.map_map, List.map_map]
  rfl

theorem findById_eq_some {id : Value} {row : StoredHttpPath} :
    repo.findById id = some row ↔ id = .str row._id ∧ row ∈ repo.rows := by
  unfold findById
  cases id with
  | str id =>
      simp only [Option.map_eq_some_iff, InMemoryCollection.findById_eq_some, mem_rows, Value.str.injEq]
      constructor
      · rintro ⟨doc, ⟨rfl, hfields⟩, rfl⟩
        exact ⟨rfl, hfields⟩
      · rintro ⟨rfl, hcolumns⟩
        exact ⟨⟨row._id, row.columns⟩, ⟨rfl, hcolumns⟩, rfl⟩
  | _ => simp

theorem filter_eq {filter : Obj} {p : StoredHttpPath → Bool} (h : ∀ row, «matches» row filter = p row) :
    repo.filter filter = repo.rows.filter p := by
  unfold InMemoryHttpPathRepository.filter InMemoryCollection.filter rows
  rw [List.filter_map]
  refine congrArg _ (List.filter_congr fun doc _ => ?_)
  exact h (rowOf doc)

theorem filter_owner (owner : String) :
    repo.filter [("owner", .str owner)] = repo.rows.filter fun row => (row.get "owner").isText owner := by
  refine filter_eq fun row => ?_
  unfold «matches»
  simp only [List.all_cons, List.all_nil, Bool.and_true]
  cases row.get "owner" <;> rfl

theorem filter_routeKey (routeKey : String) :
    repo.filter [("routeKey", .str routeKey)] = repo.rows.filter fun row => row.key == some routeKey := by
  refine filter_eq fun row => ?_
  unfold «matches» StoredHttpPath.key keyText
  simp only [List.all_cons, List.all_nil, Bool.and_true]
  rw [StoredHttpPath.get_of_ne row (by decide)]
  cases Obj.get row.columns "routeKey" <;> rfl

/-- The rows behind an insert whose id is new. -/
theorem rows_insert {model : Obj} (hid : ownId model = none)
    (hfresh : idText (repo.col.seq + 1) ∉ repo.col.items.keys) :
    (repo.insert model).2.rows = repo.rows ++ [(repo.insert model).1] := by
  unfold insert rows InMemoryCollection.docs
  rw [hid]
  show (List.map _ (repo.col.items.set _ _).entries).map rowOf = _
  rw [OrderedMap.entries_set_of_not_mem hfresh, List.map_append, List.map_append]
  rfl

/-- The rows behind an update. -/
theorem rows_updateById {row : StoredHttpPath} (hrow : row ∈ repo.rows) (model : Obj) :
    (repo.updateById (.str row._id) model).1 = some (row.patched model) ∧
      (repo.updateById (.str row._id) model).2.rows =
        repo.rows.map fun r => if r._id = row._id then row.patched model else r := by
  have hget := mem_rows.mp hrow
  have hupdate : repo.col.updateById row._id model =
      (some ⟨row._id, Obj.assign row.columns model⟩,
        { repo.col with items := repo.col.items.set row._id (Obj.assign row.columns model) }) := by
    unfold InMemoryCollection.updateById
    rw [hget]
    rfl
  unfold updateById
  dsimp only
  rw [hupdate]
  refine ⟨rfl, ?_⟩
  unfold rows InMemoryCollection.docs
  dsimp only
  rw [OrderedMap.entries_set_of_mem (InMemoryCollection.mem_keys_of_get? hget)]
  simp only [List.map_map]
  refine List.map_congr_left fun e _ => ?_
  by_cases h : e.1 = row._id <;> simp [rowOf, StoredHttpPath.patched, h]

theorem updateById_of_missing {id : Value} (h : repo.findById id = none) (model : Obj) :
    repo.updateById id model = (none, repo) := by
  unfold updateById
  cases id with
  | str id =>
      have hget : repo.col.items.get? id = none := by
        unfold findById InMemoryCollection.findById at h
        simpa using h
      unfold InMemoryCollection.updateById
      dsimp only
      rw [hget]
      rfl
  | _ => rfl

/-- The rows behind a removal. -/
theorem removeById_eq (id : Value) :
    (repo.removeById id).1 = repo.findById id ∧
      (repo.removeById id).2.rows = repo.rows.filter fun row => !row.hasId id := by
  cases id with
  | str id =>
      unfold removeById InMemoryCollection.removeById findById InMemoryCollection.findById
      dsimp only
      cases hget : repo.col.items.get? id with
      | none =>
          refine ⟨rfl, (List.filter_eq_self.mpr fun row hrow => ?_).symm⟩
          refine Bool.not_eq_true' _ ▸ Bool.eq_false_iff.mpr fun hid => ?_
          have hthere := mem_rows.mp hrow
          rw [← Value.str.inj ((row.hasId_iff _).mp hid), hget] at hthere
          cases hthere
      | some v =>
          refine ⟨rfl, ?_⟩
          show List.map rowOf (List.map _ (repo.col.items.delete id).entries) = _
          unfold OrderedMap.delete rows InMemoryCollection.docs
          rw [List.filter_map, List.filter_map, OrderedMap.entries_filter]
          refine congrArg _ (congrArg _ (List.filter_congr fun e _ => ?_))
          show decide (e.1 ≠ id) = !(id == e.1)
          rw [Bool.eq_iff_iff]
          simp [ne_comm]
  | _ =>
      refine ⟨rfl, (List.filter_eq_self.mpr fun row _ => ?_).symm⟩
      simp [StoredHttpPath.hasId, Value.isText]

end InMemoryHttpPathRepository

/-! ## The contract -/

/-- What the contract allows an operation to answer, and the table behind it.  It leaves the choice of new
ids to the implementation. -/
def Contract (store : PathStore) :
    (op : PathOp) → Except Thrown (PathAns op) → PathStore → Prop
  | .insert model, answer, store' => PathStore.Inserted store model (answer, store')
  | .updateById id model, answer, store' => PathStore.Updated store id model (answer, store')
  | op, answer, store' => store.perform op = (answer, store')

/-- The table that the contract speaks of holds the rows of the collection. -/
def Represents (repo : InMemoryHttpPathRepository) (store : PathStore) : Prop := store.rows = repo.rows

/-- The run is one of the contract: every answer is allowed, from table to table. -/
def Accords (repo : InMemoryHttpPathRepository) (store : PathStore) : List PathOp → Prop
  | [] => True
  | op :: ops => ∃ store', Contract store op (repo.perform op).1 store' ∧
      Represents (repo.step op) store' ∧ Accords (repo.step op) store' ops

/-- The operation brings no id of its own. -/
def BringsNoId : PathOp → Prop
  | .insert model => ownId model = none
  | _ => True

/-! ## One operation -/

section Step

variable {repo : InMemoryHttpPathRepository} {store : PathStore} {op : PathOp}

/-- The table with one row more. -/
def extended (store : PathStore) (row : StoredHttpPath) (hnew : ∀ r ∈ store.rows, r._id ≠ row._id)
    (hfree : ∀ r ∈ store.rows, ∀ key, row.key = some key → r.key ≠ some key) : PathStore where
  rows := store.rows ++ [row]
  ids := by
    rw [List.map_append, List.nodup_append]
    refine ⟨store.ids, List.nodup_singleton _, ?_⟩
    intro id hid id' hid' heq
    obtain ⟨r, hr, rfl⟩ := List.mem_map.mp hid
    exact hnew r hr (heq.trans (List.mem_singleton.mp hid'))
  keys := by
    have hapart : ∀ r ∈ store.rows, r.key = row.key → row.key = none := by
      intro r hr hkey
      cases hrow : row.key with
      | none => rfl
      | some key => exact absurd (hkey.trans hrow) (hfree r hr key hrow)
    intro a ha b hb hkey hsome
    rcases List.mem_append.mp ha with ha | ha <;> rcases List.mem_append.mp hb with hb | hb
    · exact store.keys a ha b hb hkey hsome
    · rw [List.mem_singleton.mp hb] at hkey
      exact absurd (hkey.trans (hapart a ha hkey)) hsome
    · rw [List.mem_singleton.mp ha] at hkey hsome
      exact absurd (hapart b hb hkey.symm) hsome
    · rw [List.mem_singleton.mp ha, List.mem_singleton.mp hb]

theorem contract_insert_iff (hrep : Represents repo store) {model : Obj} (hid : ownId model = none)
    (hfresh : idText (repo.col.seq + 1) ∉ repo.col.items.keys) :
    (∃ store', Contract store (.insert model) (repo.perform (.insert model)).1 store' ∧
      Represents (repo.step (.insert model)) store') ↔ ¬ repo.Clashes (.insert model) := by
  have hcolumns : (repo.insert model).1.columns = Obj.assign [] model := by
    unfold InMemoryHttpPathRepository.insert
    rw [hid]
    rfl
  have hnew : ∀ r ∈ store.rows, r._id ≠ (repo.insert model).1._id := by
    intro r hr heq
    have hrowId : (repo.insert model).1._id = idText (repo.col.seq + 1) := by
      unfold InMemoryHttpPathRepository.insert
      rw [hid]
      rfl
    rw [hrep] at hr
    refine hfresh ?_
    rw [← hrowId, ← heq, ← InMemoryHttpPathRepository.ids_rows]
    exact List.mem_map_of_mem hr
  constructor
  · rintro ⟨store', hcontract, -⟩ ⟨r, hr, key, hkey, htaken⟩
    cases hcontract with
    | stored _ _ _ _ hfree _ =>
        refine hfree r (hrep ▸ hr) key ?_ htaken
        unfold StoredHttpPath.key
        rw [hcolumns]
        exact hkey
  · intro hclear
    have hfree : ∀ r ∈ store.rows, ∀ key, (repo.insert model).1.key = some key → r.key ≠ some key := by
      intro r hr key hkey htaken
      unfold StoredHttpPath.key at hkey
      rw [hcolumns] at hkey
      exact hclear ⟨r, hrep ▸ hr, key, hkey, htaken⟩
    refine ⟨extended store (repo.insert model).1 hnew hfree, ?_, ?_⟩
    · refine .stored _ _ hcolumns hnew hfree fun r => ?_
      show r ∈ store.rows ++ [_] ↔ _
      rw [List.mem_append, List.mem_singleton]
    · show store.rows ++ [_] = _
      rw [hrep]
      exact (InMemoryHttpPathRepository.rows_insert hid hfresh).symm

theorem findById_eq_of_represents (hrep : Represents repo store) (id : Value) :
    store.findById id = repo.findById id := by
  refine Option.ext fun row => ?_
  rw [InMemoryHttpPathRepository.findById_eq_some, ← hrep]
  constructor
  · intro h
    exact (PathStore.mem_of_findById h).symm
  · rintro ⟨rfl, hrow⟩
    exact PathStore.findById_of_mem hrow

theorem contract_updateById_iff (hrep : Represents repo store) (id : Value) (model : Obj) :
    (∃ store', Contract store (.updateById id model) (repo.perform (.updateById id model)).1 store' ∧
      Represents (repo.step (.updateById id model)) store') ↔ ¬ repo.Clashes (.updateById id model) := by
  cases hfind : repo.findById id with
  | none =>
      have hmissing := InMemoryHttpPathRepository.updateById_of_missing hfind model
      constructor
      · rintro - ⟨row, hrow, hid, -⟩
        have hthere := InMemoryHttpPathRepository.findById_eq_some.mpr ⟨hid, hrow⟩
        rw [hfind] at hthere
        cases hthere
      · intro _
        refine ⟨store, ?_, ?_⟩
        · show PathStore.Updated store id model (.ok (repo.updateById id model).1, store)
          rw [hmissing]
          exact .missing ((findById_eq_of_represents hrep id).trans hfind)
        · show store.rows = (repo.updateById id model).2.rows
          rw [hmissing]
          exact hrep
  | some row =>
      obtain ⟨rfl, hrow⟩ := InMemoryHttpPathRepository.findById_eq_some.mp hfind
      obtain ⟨hanswer, hrows⟩ := InMemoryHttpPathRepository.rows_updateById hrow model
      have hrowStore : row ∈ store.rows := hrep ▸ hrow
      constructor
      · rintro ⟨store', hcontract, hrep'⟩ ⟨row', hrow', hid', other, hother, hne, key, hkey, htaken⟩
        have hsame : row' = row :=
          PathStore.eq_of_id (hrep ▸ hrow' : row' ∈ store.rows) hrowStore (Value.str.inj hid').symm
        subst hsame
        have hbehind : ∀ r, r ∈ store'.rows ↔ r ∈ (repo.updateById (.str row'._id) model).2.rows :=
          fun r => by rw [show store'.rows = _ from hrep']; rfl
        have hpatched : row'.patched model ∈ store'.rows := by
          rw [hbehind, hrows]
          exact List.mem_map.mpr ⟨row', hrow', if_pos rfl⟩
        have hotherThere : other ∈ store'.rows := by
          rw [hbehind, hrows]
          exact List.mem_map.mpr ⟨other, hother, if_neg hne⟩
        refine hne (store'.keys other hotherThere (row'.patched model) hpatched (htaken.trans hkey.symm) ?_)
        rw [htaken]
        exact Option.some_ne_none key
      · intro hclear
        have hfree : clashes store.rows row._id (row.patched model).key = false := by
          refine clashes_eq_false_iff.mpr fun other hother hne hkey => ?_
          cases hpatched : (row.patched model).key with
          | none => rfl
          | some key =>
              exact absurd ⟨row, hrow, rfl, other, hrep ▸ hother, hne, key, hpatched, hkey.trans hpatched⟩
                hclear
        refine ⟨store.patchRow row model hfree, ?_, ?_⟩
        · show PathStore.Updated store _ model (.ok (repo.updateById (.str row._id) model).1, _)
          rw [hanswer]
          exact .stored row _ hrowStore rfl fun r => PathStore.mem_patchRow hrowStore hfree r
        · show store.rows.map _ = (repo.updateById (.str row._id) model).2.rows
          rw [hrows, hrep]

/-- One operation is as the contract allows exactly when the unique index has nothing against it. -/
theorem contract_step_iff (hrep : Represents repo store) (hid : BringsNoId op)
    (hfresh : idText (repo.col.seq + 1) ∉ repo.col.items.keys) :
    (∃ store', Contract store op (repo.perform op).1 store' ∧ Represents (repo.step op) store') ↔
      ¬ repo.Clashes op := by
  cases op with
  | insert model => exact contract_insert_iff hrep hid hfresh
  | updateById id model => exact contract_updateById_iff hrep id model
  | findByOwner owner =>
      refine iff_of_true ⟨store, ?_, hrep⟩ id
      show (Except.ok (store.findByOwner owner), store) = (.ok (repo.filter _), store)
      rw [InMemoryHttpPathRepository.filter_owner, ← hrep]
      rfl
  | findByRouteKey routeKey =>
      refine iff_of_true ⟨store, ?_, hrep⟩ id
      show (Except.ok (store.findByRouteKey routeKey), store) = (.ok (repo.filter _), store)
      rw [InMemoryHttpPathRepository.filter_routeKey, ← hrep]
      rfl
  | findById id' =>
      refine iff_of_true ⟨store, ?_, hrep⟩ id
      show (Except.ok (store.findById id'), store) = (.ok (repo.findById id'), store)
      rw [findById_eq_of_represents hrep]
  | removeById id' =>
      obtain ⟨hanswer, hrows⟩ := @InMemoryHttpPathRepository.removeById_eq repo id'
      refine iff_of_true ⟨(store.removeById id').2, ?_, ?_⟩ id
      · show (Except.ok (store.removeById id').1, _) = (.ok (repo.removeById id').1, _)
        rw [hanswer, ← findById_eq_of_represents hrep]
        rfl
      · show store.rows.filter _ = (repo.removeById id').2.rows
        rw [hrows, hrep]
  | journal entry => exact iff_of_true ⟨store, rfl, hrep⟩ id
  | publishReload topic => exact iff_of_true ⟨store, rfl, hrep⟩ id

end Step

/-! ## Runs -/

/-- The request to the collection that an operation comes to. -/
def collectionOp : PathOp → Option (CollectionOp Obj Obj)
  | .insert model => some (.insert (ownId model) (Obj.assign [] model))
  | .updateById (.str id) model => some (.updateById id model)
  | .removeById (.str id) => some (.removeById id)
  | _ => none

theorem col_step (repo : InMemoryHttpPathRepository) (op : PathOp) :
    (repo.step op).col = ((collectionOp op).map fun request => request.step repo.col).getD repo.col := by
  cases op with
  | updateById id model => cases id <;> rfl
  | removeById id => cases id <;> rfl
  | _ => rfl

/-- No id was brought to the collection. -/
def Unbrought (repo : InMemoryHttpPathRepository) : Prop := CollectionOp.Issued (fun _ => False) repo.col

theorem Unbrought.step {repo : InMemoryHttpPathRepository} {op : PathOp} (h : Unbrought repo)
    (hop : BringsNoId op) : Unbrought (repo.step op) := by
  have hsame (request : CollectionOp Obj Obj) (hbrings : request.brings = none) :
      CollectionOp.Issued (fun _ => False) (request.step repo.col) := by
    refine CollectionOp.Issued.step h fun id hid => ?_
    rw [hbrings] at hid
    cases hid
  unfold Unbrought
  rw [col_step]
  cases op with
  | insert model => exact hsame (.insert (ownId model) (Obj.assign [] model)) hop
  | updateById id model =>
      cases id with
      | str id => exact hsame (.updateById id model) rfl
      | _ => exact h
  | removeById id =>
      cases id with
      | str id => exact hsame (.removeById id) rfl
      | _ => exact h
  | _ => exact h

/-- **The repository in memory refines the contract until the index would have spoken.**  For every run of
operations that bring no ids, from the empty table: every answer is one that the contract allows, from table
to table, exactly when no write of the run is one that the unique index on `routeKey` refuses. -/
theorem accords_iff {ops : List PathOp} (hids : ∀ op ∈ ops, BringsNoId op) :
    Accords {} PathStore.empty ops ↔
      Along InMemoryHttpPathRepository.step (fun repo op => ¬ repo.Clashes op) {} ops := by
  have hempty : Unbrought {} := by
    intro id hid
    cases hid
  suffices h : ∀ repo store, Represents repo store → Unbrought repo →
      (Accords repo store ops ↔
        Along InMemoryHttpPathRepository.step (fun repo op => ¬ repo.Clashes op) repo ops) from
    h {} PathStore.empty rfl hempty
  induction ops with
  | nil => exact fun _ _ _ _ => Iff.rfl
  | cons op ops ih =>
      intro repo store hrep hissued
      obtain ⟨hop, hids⟩ := List.forall_mem_cons.mp hids
      have hnext := contract_step_iff hrep hop (hissued.fresh id)
      have hlater := fun store' hrep' => ih hids (repo.step op) store' hrep' (hissued.step hop)
      constructor
      · rintro ⟨store', hcontract, hrep', hrest⟩
        exact ⟨hnext.mp ⟨store', hcontract, hrep'⟩, (hlater store' hrep').mp hrest⟩
      · rintro ⟨hclear, hrest⟩
        obtain ⟨store', hcontract, hrep'⟩ := hnext.mpr hclear
        exact ⟨store', hcontract, hrep', (hlater store' hrep').mpr hrest⟩

theorem accords_iff_twoInserts :
    let get : Obj := [("routeKey", .str "GET /a")]
    Accords {} PathStore.empty [.insert get, .findByRouteKey "GET /a", .insert get] ↔
      Along InMemoryHttpPathRepository.step (fun repo op => ¬ repo.Clashes op) {}
        [.insert get, .findByRouteKey "GET /a", .insert get] :=
  accords_iff fun op hop => by
    simp only [List.mem_cons, List.not_mem_nil, or_false] at hop
    rcases hop with rfl | rfl | rfl
    · rfl
    · trivial
    · rfl

end NestAmqp.Store
