/-
# NestAmqp.Gateway.PathService — what users do to the stored paths.

`GatewayPathService`: creating, updating and removing a route.  An update of a field that auto-discovery
may keep managing around is remembered in `userOverrides`; any other change locks the row.  The results
say what each of the three leaves in the table: nothing new when it throws, and one row otherwise.
-/
import NestAmqp.Gateway.RouteSync

namespace NestAmqp.Gateway

open NestAmqp.Js NestAmqp.Lib NestAmqp.Lib.Script HttpPathRepository

/-! ## Requests -/

/-- `new BadRequestError(message)`. -/
def badRequestError (message : String) : Thrown := .error { name := "BadRequestError", message }

/-- `if (!model?.[field]) throw new BadRequestError(…)`. -/
def requireField (model : Obj) (field : String) : Except Thrown Unit :=
  if (Obj.get model field).truthy then .ok () else .error (badRequestError s!"{field} is required")

/-- `row?.[k]`. -/
def columnOf (row : Option StoredHttpPath) (k : String) : Value := (row.map (·.get k)).getD .undefined

namespace GatewayPathService

/-- The error of a request for a route that another row has; its text names the owner. -/
def routeConflict (routeKey : String) (conflict : StoredHttpPath) : Thrown :=
  match printed conflict.ownerName with
  | .ok owner => .error
      { name := "ConflictError"
        message := s!"A route '{routeKey}' already exists (owner '{owner}', id {conflict._id})." }
  | .error e => e

/-- `assertNoRouteConflict(routeKey, excludeId)`. -/
def assertNoRouteConflict (routeKey : String) (excludeId : Value) : PathScript Unit := do
  let clashes ← findByRouteKey routeKey
  match clashes.find? fun p => p.isEnabled && !p.hasId excludeId with
  | some conflict => threw (routeConflict routeKey conflict)
  | none => pure ()

/-- The row that `create` inserts. -/
def createdModel (model : Obj) (routeKey : String) : Obj :=
  Obj.spread model [("routeKey", .str routeKey), ("source", .str "user"), ("modified", .bool false)]

/-- A log line with these values. -/
def logLine (values : List Value) : PathScript Unit := forEach (fun v => ofExcept ((printed v).map fun _ => ())) values

/-- `create(model, currentUser)`, as far as the insert: the key of the route, and its row. -/
def insertRoute (body : Value) : PathScript (String × StoredHttpPath) := do
  let model := fieldsOf body
  ofExcept (requireField model "name")
  ofExcept (requireField model "method")
  ofExcept (requireField model "path")
  ofExcept (requireField model "topic")
  let routeKey ← ofExcept (routeKeyOf (.obj model))
  -- a new row has no id to leave out of the look-up
  assertNoRouteConflict routeKey .undefined
  let created ← insert (createdModel model routeKey)
  pure (routeKey, created)

/-- `create(model, currentUser)`. -/
def create (body currentUser : Value) : PathScript StoredHttpPath := do
  let (routeKey, created) ← insertRoute body
  let actor := currentUser.coalesce (.str "unknown")
  journal
    { service := created.ownerName, actor, level := .info, event := .created, routeKey := .str routeKey
      method := created.get "method", path := created.get "path", topic := created.get "topic"
      action := created.get "action" }
  logLine [actor]
  pure created

/-! ## Updates -/

/-- The body without what is no column. -/
def persisted (fields : Obj) : Obj := ((fields.delete "id").delete "_id").delete "releaseOverrides"

/-- The fields that differ between the stored row and the row as the body has it. -/
def contentChanges (existing : Option StoredHttpPath) (model : Obj) : List RouteFieldChange :=
  match existing with
  | some row => diffRouteFields row.columns (Obj.spread row.columns model)
  | none => []

/-- `v !== false`. -/
def isNotFalse : Value → Bool
  | .bool b => b
  | _ => true

/-- The change of `enabled`, which is no content field. -/
def enabledChange (existing : Option StoredHttpPath) (model : Obj) : List RouteFieldChange :=
  match existing, Obj.get model "enabled" with
  | none, _ | _, .undefined => []
  | some row, enabled =>
      if isNotFalse enabled != row.isEnabled then
        [{ field := "enabled", added := [.bool (isNotFalse enabled)], removed := [.bool row.isEnabled] }]
      else []

/-- Everything the update changes. -/
def changesOf (existing : Option StoredHttpPath) (model : Obj) : List RouteFieldChange :=
  contentChanges existing model ++ enabledChange existing model

/-- A value that `...` spreads: a list, or a text by its characters. -/
def spreadItems (v : Value) : Except Thrown (List Value) :=
  match v with
  | .arr items => .ok items
  | .str s => .ok (s.toList.map fun c => .str (String.singleton c))
  | _ => .error (.typeError "Spread syntax requires ...iterable[Symbol.iterator] to be a function")

/-- Whether a set holds the two as one: texts, numbers, booleans and missing values by value, and never two
lists or objects. -/
def sameValueZero : Value → Value → Bool
  | .undefined, .undefined | .null, .null => true
  | .bool a, .bool b => a == b
  | .num a, .num b => a == b
  | .real a, .real b => a == b
  | .str a, .str b => a == b
  | _, _ => false

/-- `set.add(v)`. -/
def setAdd (set : List Value) (v : Value) : List Value := if set.any (sameValueZero v) then set else set ++ [v]

/-- `set.delete(v)`. -/
def setDelete (set : List Value) (v : Value) : List Value := set.filter fun x => !sameValueZero v x

/-- `Array.isArray(releaseOverrides) ? releaseOverrides : releaseOverrides ? [releaseOverrides] : []`. -/
def releasedOf (releaseOverrides : Value) : List Value :=
  match releaseOverrides with
  | .arr items => items
  | v => if v.truthy then [v] else []

/-- The overrides behind an update: the stored ones and the soft fields it changes, without the released
ones. -/
def overridesAfter (existing : Option StoredHttpPath) (changes : List RouteFieldChange)
    (releaseOverrides : Value) : Except Thrown (List Value) := do
  let stored ← spreadItems ((columnOf existing "userOverrides").orElse (.arr []))
  let changedSoft := (changes.map (·.field)).filter fun f => userOverridableFields.contains f
  let overrides := (stored ++ changedSoft.map Value.str).foldl setAdd []
  return (releasedOf releaseOverrides).foldl setDelete overrides

/-- `changedHard.length > 0 ? true : !!existing?.modified`. -/
def modifiedAfter (existing : Option StoredHttpPath) (changes : List RouteFieldChange) : Bool :=
  if (changes.map (·.field)).any fun f => !userOverridableFields.contains f then true
  else (columnOf existing "modified").truthy

/-- The patch of an update. -/
def updatedModel (existing : Option StoredHttpPath) (model : Obj) (releaseOverrides : Value) :
    Except Thrown Obj := do
  let changes := changesOf existing model
  let userOverrides ← overridesAfter existing changes releaseOverrides
  return Obj.spread model
    [("modified", .bool (modifiedAfter existing changes)), ("userOverrides", .arr userOverrides)]

/-- The body's columns, with the key of the identity it names. -/
def keyedModel (rest : Obj) (id : Value) : PathScript Obj :=
  if (Obj.get rest "method").truthy && (Obj.get rest "path").truthy then do
    let routeKey ← ofExcept (routeKeyOf (.obj rest))
    assertNoRouteConflict routeKey id
    pure (Obj.spread rest [("routeKey", .str routeKey)])
  else pure rest

/-- What an update comes to: the row before it, the columns of the body, the patch, and the row behind it. -/
structure RouteUpdate where
  existing : Option StoredHttpPath
  model : Obj
  patch : Obj
  updated : Option StoredHttpPath

/-- `update(body, currentUser)`, as far as the write. -/
def patchRoute (body : Value) : PathScript RouteUpdate := do
  let fields := fieldsOf body
  let id := Obj.get fields "id"
  ofExcept (requireField fields "id")
  let existing ← findById id
  let model ← keyedModel (persisted fields) id
  let patch ← ofExcept (updatedModel existing model (Obj.get fields "releaseOverrides"))
  let updated ← updateById id patch
  pure { existing, model, patch, updated }

/-- The column of the row behind an update, or of the row before it. -/
def RouteUpdate.read (u : RouteUpdate) (k : String) : Value :=
  (columnOf u.updated k).coalesce (columnOf u.existing k)

/-- `update(body, currentUser)`.  The overrides are logged for a row that is not locked. -/
def update (body currentUser : Value) : PathScript (Option StoredHttpPath) := do
  let u ← patchRoute body
  let actor := currentUser.coalesce (.str "unknown")
  journal
    { service := (u.read "owner").coalesce (.str "manual"), actor, level := .info, event := .updated
      routeKey := u.read "routeKey", method := u.read "method", path := u.read "path"
      changes := some (changesOf u.existing u.model) }
  logLine [actor, u.read "routeKey"]
  if (Obj.get u.patch "modified").truthy then pure () else logLine [Obj.get u.patch "userOverrides"]
  pure u.updated

/-- `remove(id, currentUser)`. -/
def remove (id currentUser : Value) : PathScript (Option StoredHttpPath) := do
  let removed ← removeById id
  let actor := currentUser.coalesce (.str "unknown")
  journal
    { service := (columnOf removed "owner").coalesce (.str "manual"), actor, level := .info, event := .deleted
      routeKey := columnOf removed "routeKey", method := columnOf removed "method"
      path := columnOf removed "path" }
  logLine [actor, (columnOf removed "routeKey").coalesce id]
  pure removed

/-! ## What the requests leave in the table -/

/-- The body names a method and a path. -/
def namesIdentity (rest : Obj) : Bool := (Obj.get rest "method").truthy && (Obj.get rest "path").truthy

/-- The columns of a body, with its key when it names an identity. -/
inductive Keyed (rest : Obj) : Obj → Prop
  | plain (hnames : namesIdentity rest = false) : Keyed rest rest
  | keyed (hnames : namesIdentity rest = true) (routeKey : String)
        (hkey : routeKeyOf (.obj rest) = .ok routeKey) :
      Keyed rest (Obj.spread rest [("routeKey", .str routeKey)])

/-- What an update leaves in the table, by what it returns. -/
inductive Edited (fields : Obj) (store store' : PathStore) : Option StoredHttpPath → Prop
  | missing (hstore : store' = store) : Edited fields store store' none
  | edited (row : StoredHttpPath) (hrow : row ∈ store.rows) (hid : Obj.get fields "id" = .str row._id)
      (model patch : Obj) (hmodel : Keyed (persisted fields) model)
      (hpatch : updatedModel (some row) model (Obj.get fields "releaseOverrides") = .ok patch)
      (hmem : ∀ r, r ∈ store'.rows ↔ (r ∈ store.rows ∧ r._id ≠ row._id) ∨ r = row.patched patch) :
      Edited fields store store' (some (row.patched patch))

/-- What a creation leaves in the table. -/
structure Created (fields : Obj) (store store' : PathStore) (row : StoredHttpPath) : Prop where
  columns : ∃ routeKey, routeKeyOf (.obj fields) = .ok routeKey ∧
    row.columns = Obj.assign [] (createdModel fields routeKey)
  new : ∀ r ∈ store.rows, r._id ≠ row._id
  mem : ∀ r, r ∈ store'.rows ↔ r ∈ store.rows ∨ r = row

section Specs

variable {env : PathEnv} {w₀ : PathWorld} {store : PathStore} {rest fields model patch : Obj} {k : String}

/-- A condition on the table that a failing check leaves. -/
theorem triple_assertNoRouteConflict (routeKey : String) (excludeId : Value) :
    Triple env.service (fun w => w.store = store) (assertNoRouteConflict routeKey excludeId)
      (fun _ w => w.store = store) fun _ w => w.store = store := by
  unfold assertNoRouteConflict
  refine triple_bind (Q := fun _ w => w.store = store)
    (triple_findByRouteKey (fun w hw => hw) fun _ w hw _ => hw) fun clashes => ?_
  split
  · exact triple_threw fun _ hw => hw
  · exact triple_pure fun _ hw => hw

theorem triple_keyedModel (id : Value) :
    Triple env.service (fun w => w.store = store) (keyedModel rest id)
      (fun model w => Keyed rest model ∧ w.store = store) fun _ w => w.store = store := by
  unfold keyedModel
  split
  next hnames =>
    refine triple_bind (Q := fun routeKey w => routeKeyOf (.obj rest) = .ok routeKey ∧ w.store = store)
      (triple_ofExcept (fun _ hkey _ hw => ⟨hkey, hw⟩) fun _ _ _ hw => hw) fun routeKey => ?_
    rintro w ⟨hkey, hw⟩
    exact triple_bind (triple_assertNoRouteConflict routeKey id)
      (fun _ => triple_pure fun _ hw => ⟨.keyed hnames routeKey hkey, hw⟩) w hw
  next hnames => exact triple_pure fun _ hw => ⟨.plain (Bool.eq_false_iff.mpr hnames), hw⟩

/-- **Creating a route** adds one row, or throws and leaves the table. -/
theorem triple_insertRoute (body : Value) :
    Triple env.service (fun w => w.store = store) (insertRoute body)
      (fun created w => Created (fieldsOf body) store w.store created.2) fun _ w => w.store = store := by
  unfold insertRoute
  have hcheck (field : String) : Triple env.service (fun w => w.store = store)
      (ofExcept (requireField (fieldsOf body) field)) (fun _ w => w.store = store)
      fun _ w => w.store = store :=
    triple_ofExcept (fun _ _ _ hw => hw) fun _ _ _ hw => hw
  refine triple_bind (hcheck "name") fun _ => triple_bind (hcheck "method") fun _ =>
    triple_bind (hcheck "path") fun _ => triple_bind (hcheck "topic") fun _ => ?_
  refine triple_bind (Q := fun routeKey w => routeKeyOf (.obj (fieldsOf body)) = .ok routeKey ∧ w.store = store)
    (triple_ofExcept (fun _ hkey _ hw => ⟨hkey, hw⟩) fun _ _ _ hw => hw) fun routeKey => ?_
  rintro w ⟨hkey, hw⟩
  refine triple_bind (triple_assertNoRouteConflict routeKey .undefined) (fun _ => ?_) w hw
  refine triple_bind (Q := fun row w => Created (fieldsOf body) store w.store row) ?_ fun row =>
    triple_pure fun _ hw => hw
  refine triple_perform fun w hw => ends_service (fun _ _ => hw) fun _ => ?_
  show Ends _ _ ((w.store.insert _).1, w.after _ (w.store.insert _).2)
  have hinserted := w.store.insert_spec (createdModel (fieldsOf body) routeKey)
  generalize w.store.insert _ = result at hinserted ⊢
  cases hinserted with
  | conflict => exact hw
  | stored row store' hcolumns hnew hfree hmem => exact hw ▸ ⟨⟨routeKey, hkey, hcolumns⟩, hnew, hmem⟩

/-- **Updating a route** patches the row with the body's id, or leaves the table. -/
theorem triple_patchRoute (body : Value) :
    Triple env.service (fun w => w.store = store) (patchRoute body)
      (fun u w => Edited (fieldsOf body) store w.store u.updated) fun _ w => w.store = store := by
  unfold patchRoute
  refine triple_bind (Q := fun _ w => w.store = store)
    (triple_ofExcept (fun _ _ _ hw => hw) fun _ _ _ hw => hw) fun _ => ?_
  refine triple_bind (Q := fun existing w =>
    existing = store.findById (Obj.get (fieldsOf body) "id") ∧ w.store = store)
    (triple_findById (fun w hw => ⟨by rw [hw], hw⟩) fun _ w hw _ => hw) fun existing => ?_
  refine triple_bind (Q := fun model w => existing = store.findById (Obj.get (fieldsOf body) "id") ∧
    Keyed (persisted (fieldsOf body)) model ∧ w.store = store) ?_ fun model => ?_
  · rintro w ⟨hexisting, hw⟩
    exact (triple_keyedModel _ w hw).mono (fun _ _ h => ⟨hexisting, h⟩) fun _ _ h => h
  refine triple_bind (Q := fun patch w => existing = store.findById (Obj.get (fieldsOf body) "id") ∧
    Keyed (persisted (fieldsOf body)) model ∧
    updatedModel existing model (Obj.get (fieldsOf body) "releaseOverrides") = .ok patch ∧ w.store = store)
    (triple_ofExcept (fun patch hpatch w hw => ⟨hw.1, hw.2.1, hpatch, hw.2.2⟩) fun _ _ _ hw => hw.2.2)
    fun patch => ?_
  refine triple_bind (Q := fun updated w => Edited (fieldsOf body) store w.store updated) ?_ fun updated =>
    triple_pure fun _ hw => hw
  refine triple_perform fun w hw => ends_service (fun _ _ => hw.2.2.2) fun _ => ?_
  obtain ⟨rfl, hmodel, hpatch, rfl⟩ := hw
  show Ends _ _ ((w.store.updateById _ patch).1, w.after _ (w.store.updateById _ patch).2)
  have hupdated := w.store.updateById_spec (Obj.get (fieldsOf body) "id") patch
  generalize w.store.updateById _ patch = result at hupdated ⊢
  cases hupdated with
  | missing => exact .missing rfl
  | conflict => exact rfl
  | stored row store' hrow hid hmem =>
      rw [hid, PathStore.findById_of_mem hrow] at hpatch
      exact .edited row hrow hid model patch hmodel hpatch hmem

/-- **Removing a route** leaves the rows with other ids. -/
theorem triple_removeById (id : Value) :
    Triple env.service (fun w => w.store = store) (removeById id)
      (fun _ w => ∀ r, r ∈ w.store.rows ↔ r ∈ store.rows ∧ id ≠ .str r._id) fun _ w => w.store = store := by
  refine triple_perform fun w hw => ends_service (fun _ _ => hw) fun _ r => ?_
  rw [← hw]
  exact PathStore.mem_removeById

/-! ### What reporting them leaves -/

theorem keeps_store_journal (entry : RouteSyncLogEntry) :
    Keeps env.service (fun w => w.store = store) (journal entry) :=
  triple_journal (fun _ hw => hw) fun _ _ _ hw _ _ => hw

theorem keeps_logLine {I : PathWorld → Prop} (values : List Value) : Keeps env.service I (logLine values) :=
  keeps_forEach fun _ _ => keeps_ofExcept _

/-- The table behind a request is the table behind its write, whatever becomes of the journal and the log. -/
theorem store_bind {α β : Type} {p : PathScript α} {f : α → PathScript β}
    (h : ∀ a store, Keeps env.service (fun w => w.store = store) (f a)) (w : PathWorld) :
    ((p >>= f).run env.service w).2.store = (p.run env.service w).2.store := by
  rw [run_bind]
  rcases p.run env.service w with ⟨e | a, w'⟩
  · rfl
  · exact (h a w'.store).state rfl

theorem store_create (body currentUser : Value) (w : PathWorld) :
    ((create body currentUser).run env.service w).2.store = ((insertRoute body).run env.service w).2.store := by
  refine store_bind (fun created store => ?_) w
  obtain ⟨routeKey, created⟩ := created
  exact Keeps.bind (keeps_store_journal _) fun _ => Keeps.bind (keeps_logLine _) fun _ => keeps_pure _

theorem store_update (body currentUser : Value) (w : PathWorld) :
    ((update body currentUser).run env.service w).2.store = ((patchRoute body).run env.service w).2.store := by
  refine store_bind (fun u store => ?_) w
  refine Keeps.bind (keeps_store_journal _) fun _ => Keeps.bind (keeps_logLine _) fun _ => ?_
  split
  · exact keeps_pure _
  · exact Keeps.bind (keeps_logLine _) fun _ => keeps_pure _

theorem store_remove (id currentUser : Value) (w : PathWorld) :
    ((remove id currentUser).run env.service w).2.store =
      ((removeById id).run env.service w).2.store :=
  store_bind (fun _ _ => Keeps.bind (keeps_store_journal _) fun _ => Keeps.bind (keeps_logLine _) fun _ =>
    keeps_pure _) w

/-! ## The patch of an update -/

theorem own_persisted (h : k ∉ ["id", "_id", "releaseOverrides"]) :
    Obj.own (persisted fields) k = Obj.own fields k := by
  simp only [List.mem_cons, List.not_mem_nil, or_false, not_or] at h
  unfold persisted
  rw [Obj.own_delete, if_neg h.2.2, Obj.own_delete, if_neg h.2.1, Obj.own_delete, if_neg h.1]

theorem Keyed.own (h : Keyed rest model) (hk : k ≠ "routeKey") : Obj.own model k = Obj.own rest k := by
  cases h with
  | plain => rfl
  | keyed _ routeKey =>
      rw [Obj.own_spread, Obj.own_cons, if_neg hk]
      rfl

/-- The columns that an update sets besides those of its body. -/
theorem own_updatedModel {row : StoredHttpPath} {released : Value}
    (h : updatedModel (some row) model released = .ok patch) (hk : k ∉ ["modified", "userOverrides"]) :
    Obj.own patch k = Obj.own model k := by
  obtain ⟨userOverrides, -, hpatch⟩ := bind_eq_ok.mp h
  obtain rfl := Except.ok.inj hpatch
  simp only [List.mem_cons, List.not_mem_nil, or_false, not_or] at hk
  rw [Obj.own_spread, Obj.own_cons, Obj.own_cons, if_neg hk.1, if_neg hk.2]
  rfl

end Specs

end GatewayPathService

/-! ## Requests and manifests -/

/-- What happens to the table. -/
inductive PathInput where
  | create (body currentUser : Value)
  | update (body currentUser : Value)
  | remove (id currentUser : Value)
  | manifest (manifest : RouteManifest)

/-- The table behind an input. -/
def PathInput.play (env : PathEnv) (config : GatewayConfig) (w : PathWorld) : PathInput → PathWorld
  | .create body currentUser => ((GatewayPathService.create body currentUser).run env.service w).2
  | .update body currentUser => ((GatewayPathService.update body currentUser).run env.service w).2
  | .remove id currentUser => ((GatewayPathService.remove id currentUser).run env.service w).2
  | .manifest m => ((handle config m).run env.service w).2

end NestAmqp.Gateway
