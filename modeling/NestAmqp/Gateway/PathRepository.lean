/-
# NestAmqp.Gateway.PathRepository — the stored HTTP paths of a gateway.

`HttpPathRepository` is a contract: rows with an id, patched field by field on `updateById`, under a
unique index on `routeKey` whose violation is a `ConflictError`.  `PathStore` keeps it, with the two
uniqueness conditions as fields.  A service of the gateway administration asks for one operation at a
time, and any operation may fail; the log remembers what was asked.
-/
import NestAmqp.Js.Thrown
import NestAmqp.Lib.Script

namespace NestAmqp.Gateway

open NestAmqp.Js NestAmqp.Lib

/-! ## Rows -/

/-- A row: its id, and the columns it has. -/
structure StoredHttpPath where
  _id : String
  columns : Obj

/-- The text in the `routeKey` column. -/
def keyText (columns : Obj) : Option String :=
  match Obj.get columns "routeKey" with
  | .str key => some key
  | _ => none

theorem keyText_eq_some {columns : Obj} {key : String} :
    keyText columns = some key ↔ Obj.get columns "routeKey" = .str key := by
  unfold keyText
  cases Obj.get columns "routeKey" <;> simp

namespace StoredHttpPath

variable (row : StoredHttpPath)

/-- `row[k]`. -/
def get (k : String) : Value := if k = "_id" then .str row._id else Obj.get row.columns k

/-- The key the unique index sees. -/
def key : Option String := keyText row.columns

/-- `row._id === id`. -/
def hasId (id : Value) : Bool := id.isText row._id

/-- `row.owner ?? 'manual'`. -/
def ownerName : Value := (row.get "owner").coalesce (.str "manual")

/-- `row.enabled !== false`. -/
def isEnabled : Bool :=
  match row.get "enabled" with
  | .bool b => b
  | _ => true

/-- `{ ...row, ...patch, _id: row._id }`. -/
def patched (patch : Obj) : StoredHttpPath := { row with columns := Obj.assign row.columns patch }

@[simp] theorem hasId_iff (id : Value) : row.hasId id = true ↔ id = .str row._id := by
  simp [hasId]

@[simp] theorem patched_id (patch : Obj) : (row.patched patch)._id = row._id := rfl

theorem get_of_ne {k : String} (h : k ≠ "_id") : row.get k = Obj.get row.columns k := if_neg h

theorem get_patched (patch : Obj) {k : String} (h : k ≠ "_id") :
    (row.patched patch).get k = (Obj.own patch k).getD (row.get k) := by
  rw [get_of_ne _ h, get_of_ne _ h]
  exact Obj.get_assign row.columns patch k

end StoredHttpPath

theorem ownerName_of_owner {row : StoredHttpPath} {service : String}
    (h : row.get "owner" = .str service) : row.ownerName = .str service := by
  unfold StoredHttpPath.ownerName
  rw [h]
  rfl

/-! ## The table -/

/-- Another row than `id` has this key. -/
def clashes (rows : List StoredHttpPath) (id : String) (key : Option String) : Bool :=
  key.isSome && rows.any fun row => row._id != id && row.key == key

theorem clashes_eq_false_iff {rows : List StoredHttpPath} {id : String} {key : Option String} :
    clashes rows id key = false ↔
      ∀ row ∈ rows, row._id ≠ id → row.key = key → key = none := by
  unfold clashes
  cases key with
  | none => simp
  | some k => simp

theorem clashes_iff {rows : List StoredHttpPath} {id : String} {key : Option String} :
    clashes rows id key = true ↔ ∃ k, key = some k ∧ ∃ row ∈ rows, row._id ≠ id ∧ row.key = some k := by
  unfold clashes
  cases key with
  | none => simp
  | some k => simp

/-- The rows in insertion order.  Ids and keys identify rows. -/
structure PathStore where
  rows : List StoredHttpPath
  ids : (rows.map StoredHttpPath._id).Nodup
  keys : ∀ a ∈ rows, ∀ b ∈ rows, a.key = b.key → a.key ≠ none → a._id = b._id

/-- An id that no row has. -/
def newId (rows : List StoredHttpPath) : String :=
  String.ofList (List.replicate ((rows.map fun row => row._id.length).foldr max 0 + 1) '0')

theorem length_lt_newId {rows : List StoredHttpPath} {row : StoredHttpPath} (h : row ∈ rows) :
    row._id.length < (newId rows).length := by
  have hlength : (newId rows).length = (rows.map fun row => row._id.length).foldr max 0 + 1 := by
    simp [newId]
  rw [hlength]
  apply Nat.lt_succ_of_le
  induction rows with
  | nil => cases h
  | cons r rows ih =>
      rw [List.map_cons, List.foldr_cons]
      rcases List.mem_cons.mp h with rfl | h
      · exact Nat.le_max_left _ _
      · refine (ih h ?_).trans (Nat.le_max_right _ _)
        simp [newId]

theorem newId_ne {rows : List StoredHttpPath} {row : StoredHttpPath} (h : row ∈ rows) :
    row._id ≠ newId rows := by
  intro heq
  have hlt := length_lt_newId h
  rw [← heq] at hlt
  exact Nat.lt_irrefl _ hlt

/-- `new ConflictError(message)`, as the unique index raises it. -/
def conflictError : Thrown := .error
  { name := "ConflictError", message := "A route with this identity already exists" }

/-- `e instanceof ConflictError`. -/
def isConflict : Thrown → Bool
  | .error e => e.name == "ConflictError"
  | _ => false

namespace PathStore

variable (store : PathStore)

/-- No rows. -/
def empty : PathStore := ⟨[], List.nodup_nil, nofun⟩

theorem eq_of_id {store : PathStore} {a b : StoredHttpPath} (ha : a ∈ store.rows) (hb : b ∈ store.rows)
    (h : a._id = b._id) : a = b := List.inj_on_of_nodup_map store.ids ha hb h

theorem eq_of_key {store : PathStore} {a b : StoredHttpPath} {k : String} (ha : a ∈ store.rows)
    (hb : b ∈ store.rows) (hak : a.key = some k) (hbk : b.key = some k) : a = b := by
  apply eq_of_id ha hb
  refine store.keys a ha b hb (hak.trans hbk.symm) ?_
  rw [hak]
  exact Option.some_ne_none k

/-- `findByOwner(owner)`: `filter({ owner })`. -/
def findByOwner (owner : String) : List StoredHttpPath :=
  store.rows.filter fun row => (row.get "owner").isText owner

/-- `findByRouteKey(routeKey)`: `filter({ routeKey })`. -/
def findByRouteKey (routeKey : String) : List StoredHttpPath :=
  store.rows.filter fun row => row.key == some routeKey

/-- `findById(id)`. -/
def findById (id : Value) : Option StoredHttpPath := store.rows.find? fun row => row.hasId id

/-- `insert(model)`, as the contract and the Mongo repository have it: `{ ...model, _id: newId }`, when the unique
index takes it.  (The repository in memory has no such index, and keeps an `_id` that the model brings.) -/
def insert (model : Obj) : Except Thrown StoredHttpPath × PathStore :=
  let row : StoredHttpPath := { _id := newId store.rows, columns := Obj.assign [] model }
  if h : clashes store.rows row._id row.key = false then
    (.ok row, {
      rows := store.rows ++ [row]
      ids := by
        rw [List.map_append, List.nodup_append]
        refine ⟨store.ids, List.nodup_singleton _, ?_⟩
        intro id hid id' hid' heq
        obtain ⟨r, hr, rfl⟩ := List.mem_map.mp hid
        rw [List.mem_singleton.mp hid'] at heq
        exact newId_ne hr heq
      keys := by
        have hfree := clashes_eq_false_iff.mp h
        intro a ha b hb hkey hsome
        rcases List.mem_append.mp ha with ha | ha <;> rcases List.mem_append.mp hb with hb | hb
        · exact store.keys a ha b hb hkey hsome
        · rw [List.mem_singleton.mp hb] at hkey
          exact absurd (hkey.trans (hfree a ha (newId_ne ha) hkey)) hsome
        · rw [List.mem_singleton.mp ha] at hkey hsome
          exact absurd (hfree b hb (newId_ne hb) hkey.symm) hsome
        · rw [List.mem_singleton.mp ha, List.mem_singleton.mp hb] })
  else (.error conflictError, store)

/-- The rows with one row replaced by its patch. -/
def patchRow (row : StoredHttpPath) (patch : Obj)
    (hfree : clashes store.rows row._id (row.patched patch).key = false) : PathStore where
  rows := store.rows.map fun r => if r._id = row._id then row.patched patch else r
  ids := by
    have hsame : StoredHttpPath._id ∘ (fun r => if r._id = row._id then row.patched patch else r) =
        StoredHttpPath._id := by
      funext r
      show (if r._id = row._id then row.patched patch else r)._id = r._id
      split
      next h => exact h.symm
      next => rfl
    rw [List.map_map, hsame]
    exact store.ids
  keys := by
    have hfree := clashes_eq_false_iff.mp hfree
    intro a' ha' b' hb' hkey hsome
    obtain ⟨a, ha, rfl⟩ := List.mem_map.mp ha'
    obtain ⟨b, hb, rfl⟩ := List.mem_map.mp hb'
    by_cases hai : a._id = row._id <;> by_cases hbi : b._id = row._id <;>
      simp only [hai, hbi, if_true, if_false] at hkey hsome ⊢
    · exact absurd (hfree b hb hbi hkey.symm) hsome
    · exact absurd (hkey.trans (hfree a ha hai hkey)) hsome
    · exact store.keys a ha b hb hkey hsome

/-- `updateById(id, model)`: a patch of the row, when the index takes it. -/
def updateById (id : Value) (model : Obj) : Except Thrown (Option StoredHttpPath) × PathStore :=
  match store.findById id with
  | none => (.ok none, store)
  | some row =>
      if h : clashes store.rows row._id (row.patched model).key = false then
        (.ok (some (row.patched model)), store.patchRow row model h)
      else (.error conflictError, store)

/-- `removeById(id)`. -/
def removeById (id : Value) : Option StoredHttpPath × PathStore :=
  (store.findById id, {
    rows := store.rows.filter fun row => !row.hasId id
    ids := store.ids.sublist (List.filter_sublist.map _)
    keys := fun a ha b hb => store.keys a (List.mem_filter.mp ha).1 b (List.mem_filter.mp hb).1 })

/-! ## What the operations do -/

variable {store}

@[simp] theorem mem_findByOwner {owner : String} {row : StoredHttpPath} :
    row ∈ store.findByOwner owner ↔ row ∈ store.rows ∧ row.get "owner" = .str owner := by
  simp [findByOwner]

@[simp] theorem mem_findByRouteKey {routeKey : String} {row : StoredHttpPath} :
    row ∈ store.findByRouteKey routeKey ↔ row ∈ store.rows ∧ row.key = some routeKey := by
  simp [findByRouteKey]

theorem mem_of_findById {id : Value} {row : StoredHttpPath} (h : store.findById id = some row) :
    row ∈ store.rows ∧ id = .str row._id := by
  refine ⟨List.mem_of_find?_eq_some h, ?_⟩
  have hid := List.find?_some h
  exact (row.hasId_iff id).mp hid

theorem findById_of_mem {row : StoredHttpPath} (h : row ∈ store.rows) :
    store.findById (.str row._id) = some row := by
  cases hfind : store.findById (.str row._id) with
  | none =>
      have hnone := List.find?_eq_none.mp hfind row h
      simp at hnone
  | some found =>
      obtain ⟨hmem, hid⟩ := mem_of_findById hfind
      rw [eq_of_id hmem h (Value.str.inj hid).symm]

/-- What an `insert` can end in. -/
inductive Inserted (store : PathStore) (model : Obj) : Except Thrown StoredHttpPath × PathStore → Prop
  | conflict (row : StoredHttpPath) (hrow : row ∈ store.rows) (key : String)
      (hkey : keyText (Obj.assign [] model) = some key) (htaken : row.key = some key) :
      Inserted store model (.error conflictError, store)
  | stored (row : StoredHttpPath) (store' : PathStore) (hcolumns : row.columns = Obj.assign [] model)
      (hnew : ∀ r ∈ store.rows, r._id ≠ row._id)
      (hfree : ∀ r ∈ store.rows, ∀ key, row.key = some key → r.key ≠ some key)
      (hmem : ∀ r, r ∈ store'.rows ↔ r ∈ store.rows ∨ r = row) :
      Inserted store model (.ok row, store')

theorem insert_spec (store : PathStore) (model : Obj) : Inserted store model (store.insert model) := by
  unfold insert
  dsimp only
  split
  next h =>
    have hfree := clashes_eq_false_iff.mp h
    refine .stored _ _ rfl (fun r hr => newId_ne hr) ?_ ?_
    · intro r hr key hkey htaken
      have hnone := hfree r hr (newId_ne hr) (htaken.trans hkey.symm)
      exact Option.some_ne_none key (hkey.symm.trans hnone)
    · intro r
      rw [List.mem_append, List.mem_singleton]
  next h =>
    obtain ⟨key, hkey, row, hrow, -, htaken⟩ := clashes_iff.mp (Bool.eq_true_of_not_eq_false h)
    exact .conflict row hrow key hkey htaken

/-- What an `updateById` can end in. -/
inductive Updated (store : PathStore) (id : Value) (model : Obj) :
    Except Thrown (Option StoredHttpPath) × PathStore → Prop
  | missing (hnone : store.findById id = none) : Updated store id model (.ok none, store)
  | conflict (row other : StoredHttpPath) (hrow : row ∈ store.rows) (hid : id = .str row._id)
      (hother : other ∈ store.rows) (hne : other._id ≠ row._id) (key : String)
      (hkey : (row.patched model).key = some key) (htaken : other.key = some key) :
      Updated store id model (.error conflictError, store)
  | stored (row : StoredHttpPath) (store' : PathStore) (hrow : row ∈ store.rows) (hid : id = .str row._id)
      (hmem : ∀ r, r ∈ store'.rows ↔ (r ∈ store.rows ∧ r._id ≠ row._id) ∨ r = row.patched model) :
      Updated store id model (.ok (some (row.patched model)), store')

theorem mem_patchRow {row : StoredHttpPath} {patch : Obj} (hrow : row ∈ store.rows)
    (hfree : clashes store.rows row._id (row.patched patch).key = false) (r : StoredHttpPath) :
    r ∈ (store.patchRow row patch hfree).rows ↔
      (r ∈ store.rows ∧ r._id ≠ row._id) ∨ r = row.patched patch := by
  show r ∈ store.rows.map _ ↔ _
  rw [List.mem_map]
  constructor
  · rintro ⟨a, ha, rfl⟩
    split
    next => exact .inr rfl
    next h => exact .inl ⟨ha, h⟩
  · rintro (⟨hr, hne⟩ | rfl)
    · exact ⟨r, hr, if_neg hne⟩
    · exact ⟨row, hrow, if_pos rfl⟩

theorem updateById_spec (store : PathStore) (id : Value) (model : Obj) :
    Updated store id model (store.updateById id model) := by
  unfold updateById
  cases hfind : store.findById id with
  | none => exact .missing hfind
  | some row =>
      obtain ⟨hrow, hid⟩ := mem_of_findById hfind
      dsimp only
      split
      next h => exact .stored row _ hrow hid fun r => mem_patchRow hrow h r
      next h =>
        obtain ⟨key, hkey, other, hother, hne, htaken⟩ :=
          clashes_iff.mp (Bool.eq_true_of_not_eq_false h)
        exact .conflict row other hrow hid hother hne key hkey htaken

theorem mem_removeById {id : Value} {row : StoredHttpPath} :
    row ∈ (store.removeById id).2.rows ↔ row ∈ store.rows ∧ id ≠ .str row._id := by
  show row ∈ store.rows.filter _ ↔ _
  simp only [List.mem_filter, Bool.not_eq_true', ← Bool.not_eq_true, StoredHttpPath.hasId_iff]

end PathStore

/-! ## Operations, the journal and the broadcast -/

/-- One property that changed between two versions of a route. -/
structure RouteFieldChange where
  field : String
  added : List Value
  removed : List Value

/-- The severity of a journal entry. -/
inductive JournalLevel where
  | info
  | warn
  | error

/-- What a journal entry reports. -/
inductive RouteEvent where
  | added
  | updated
  | removed
  | skipped
  | collision
  | invalid
  | reload
  | created
  | deleted
  deriving DecidableEq

/-- A journal entry of a route change, without its time and its message. -/
structure RouteSyncLogEntry where
  service : Value
  actor : Value := .str "system"
  level : JournalLevel
  event : RouteEvent
  routeKey : Value := .undefined
  method : Value := .undefined
  path : Value := .undefined
  topic : Value := .undefined
  action : Value := .undefined
  conflictWith : Value := .undefined
  changes : Option (List RouteFieldChange) := none

/-- The operations the gateway administration asks for. -/
inductive PathOp where
  | findByOwner (owner : String)
  | findByRouteKey (routeKey : String)
  | findById (id : Value)
  | insert (model : Obj)
  | updateById (id : Value) (model : Obj)
  | removeById (id : Value)
  | journal (entry : RouteSyncLogEntry)
  | publishReload (topic : String)

/-- The operation writes nothing. -/
def PathOp.isRead : PathOp → Bool
  | .findByOwner _ | .findByRouteKey _ | .findById _ => true
  | _ => false

/-- The operation is one on the paths. -/
def PathOp.isOnPaths : PathOp → Bool
  | .journal _ | .publishReload _ => false
  | _ => true

/-- What each of them answers. -/
def PathAns : PathOp → Type
  | .findByOwner _ | .findByRouteKey _ => List StoredHttpPath
  | .findById _ | .updateById _ _ | .removeById _ => Option StoredHttpPath
  | .insert _ => StoredHttpPath
  | .journal _ | .publishReload _ => Unit

/-- The operations on a table; the journal and the broker keep nothing the code reads. -/
def PathStore.perform (store : PathStore) : (op : PathOp) → Except Thrown (PathAns op) × PathStore
  | .findByOwner owner => (.ok (store.findByOwner owner), store)
  | .findByRouteKey routeKey => (.ok (store.findByRouteKey routeKey), store)
  | .findById id => (.ok (store.findById id), store)
  | .insert model => store.insert model
  | .updateById id model => store.updateById id model
  | .removeById id => (.ok (store.removeById id).1, (store.removeById id).2)
  | .journal _ | .publishReload _ => (.ok (), store)

/-- The table, and everything asked so far. -/
structure PathWorld where
  store : PathStore
  asked : List PathOp := []

/-- When an operation fails on its own account, by what was asked before. -/
structure PathEnv where
  failure : List PathOp → PathOp → Option Thrown

/-- One more question, and the table behind it. -/
def PathWorld.after (w : PathWorld) (op : PathOp) (store : PathStore) : PathWorld :=
  { store, asked := w.asked ++ [op] }

/-- An operation that fails leaves the table as it was. -/
def PathEnv.service (env : PathEnv) : Service PathOp PathAns Thrown PathWorld := fun w op =>
  match env.failure w.asked op with
  | some e => (.error e, w.after op w.store)
  | none => ((w.store.perform op).1, w.after op (w.store.perform op).2)

/-- An environment in which nothing fails. -/
def PathEnv.calm : PathEnv := ⟨fun _ _ => none⟩

/-- The repository of the paths never fails on its own account. -/
def PathEnv.Answers (env : PathEnv) : Prop := ∀ asked op, op.isOnPaths = true → env.failure asked op = none

/-- What fails, fails with a message that prints, as errors do. -/
def PathEnv.Reads (env : PathEnv) : Prop := ∀ asked op e, env.failure asked op = some e → e.reads = true

theorem PathEnv.Answers.service {env : PathEnv} (h : env.Answers) (w : PathWorld) {op : PathOp}
    (hop : op.isOnPaths = true) :
    env.service w op = ((w.store.perform op).1, w.after op (w.store.perform op).2) := by
  unfold PathEnv.service
  rw [h w.asked op hop]

/-- Programs of the gateway administration. -/
abbrev PathScript := Script PathOp PathAns Thrown

namespace HttpPathRepository

open Script

abbrev findByOwner (owner : String) : PathScript (List StoredHttpPath) := perform (PathOp.findByOwner owner)

abbrev findByRouteKey (routeKey : String) : PathScript (List StoredHttpPath) :=
  perform (PathOp.findByRouteKey routeKey)

abbrev findById (id : Value) : PathScript (Option StoredHttpPath) := perform (PathOp.findById id)

abbrev insert (model : Obj) : PathScript StoredHttpPath := perform (PathOp.insert model)

abbrev updateById (id : Value) (model : Obj) : PathScript (Option StoredHttpPath) :=
  perform (PathOp.updateById id model)

abbrev removeById (id : Value) : PathScript (Option StoredHttpPath) := perform (PathOp.removeById id)

end HttpPathRepository

/-- An entry in the journal.  The line that is logged when the journal fails prints the error's message, outside
of every `try` of its own. -/
def journal (entry : RouteSyncLogEntry) : PathScript Unit :=
  (Script.perform (PathOp.journal entry) : PathScript Unit).tryCatch fun e => Script.ofExcept e.messageLine

section Service

variable {env : PathEnv} {P : PathWorld → Prop} {E : Thrown → PathWorld → Prop}

/-- An operation ends as the table has it, or fails and leaves the table. -/
theorem ends_service {op : PathOp} {Q : PathAns op → PathWorld → Prop} {w : PathWorld}
    (hfails : ∀ e, env.failure w.asked op = some e → E e (w.after op w.store))
    (hanswers : env.failure w.asked op = none →
      Script.Ends Q E ((w.store.perform op).1, w.after op (w.store.perform op).2)) :
    Script.Ends Q E (env.service w op) := by
  unfold PathEnv.service
  split
  next e h => exact hfails e h
  next h => exact hanswers h

@[simp] theorem asked_service (w : PathWorld) (op : PathOp) :
    (env.service w op).2.asked = w.asked ++ [op] := by
  unfold PathEnv.service
  split <;> rfl

/-- What a read answers. -/
theorem triple_findByOwner {owner : String} {Q : List StoredHttpPath → PathWorld → Prop}
    (h : ∀ w, P w → Q (w.store.findByOwner owner) (w.after (.findByOwner owner) w.store))
    (hfails : ∀ e w, P w → env.failure w.asked (.findByOwner owner) = some e →
      E e (w.after (.findByOwner owner) w.store)) :
    Script.Triple env.service P (HttpPathRepository.findByOwner owner) Q E :=
  Script.triple_perform fun w hw => ends_service (fun e => hfails e w hw) fun _ => h w hw

theorem triple_findByRouteKey {routeKey : String} {Q : List StoredHttpPath → PathWorld → Prop}
    (h : ∀ w, P w → Q (w.store.findByRouteKey routeKey) (w.after (.findByRouteKey routeKey) w.store))
    (hfails : ∀ e w, P w → env.failure w.asked (.findByRouteKey routeKey) = some e →
      E e (w.after (.findByRouteKey routeKey) w.store)) :
    Script.Triple env.service P (HttpPathRepository.findByRouteKey routeKey) Q E :=
  Script.triple_perform fun w hw => ends_service (fun e => hfails e w hw) fun _ => h w hw

theorem triple_findById {id : Value} {Q : Option StoredHttpPath → PathWorld → Prop}
    (h : ∀ w, P w → Q (w.store.findById id) (w.after (.findById id) w.store))
    (hfails : ∀ e w, P w → env.failure w.asked (.findById id) = some e →
      E e (w.after (.findById id) w.store)) :
    Script.Triple env.service P (HttpPathRepository.findById id) Q E :=
  Script.triple_perform fun w hw => ends_service (fun e => hfails e w hw) fun _ => h w hw

/-- The log line about a failure: it prints, or throws. -/
theorem triple_messageLine {e : Thrown} {Q : PathWorld → Prop} (h : ∀ w, P w → Q w)
    (hthrows : ∀ e', e.reads = false → ∀ w, P w → E e' w) :
    Script.Triple env.service P (Script.ofExcept e.messageLine) (fun _ => Q) E := by
  cases hreads : e.reads with
  | true =>
      rw [Thrown.messageLine_of_reads hreads]
      exact Script.triple_pure h
  | false =>
      rw [Thrown.messageLine_of_not_reads hreads]
      exact Script.triple_threw fun w hw => hthrows _ hreads w hw

/-- An entry in the journal does no more than ask for it, unless the journal fails with what does not print. -/
theorem triple_journal {entry : RouteSyncLogEntry} {Q : PathWorld → Prop}
    (h : ∀ w, P w → Q (w.after (.journal entry) w.store))
    (hthrows : ∀ e e' w, P w → env.failure w.asked (.journal entry) = some e → e.reads = false →
      E e' (w.after (.journal entry) w.store)) :
    Script.Triple env.service P (journal entry) (fun _ => Q) E := by
  refine Script.triple_tryCatch (E := fun e w' => ∃ w, P w ∧ env.failure w.asked (.journal entry) = some e ∧
    w' = w.after (.journal entry) w.store) ?_ fun e => ?_
  · exact Script.triple_perform fun w hw => ends_service (fun e he => ⟨w, hw, he, rfl⟩) fun _ => h w hw
  · refine triple_messageLine ?_ ?_
    · rintro _ ⟨w, hw, -, rfl⟩
      exact h w hw
    · rintro e' hreads _ ⟨w, hw, he, rfl⟩
      exact hthrows e e' w hw he hreads

end Service

end NestAmqp.Gateway
