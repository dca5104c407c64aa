/-
# NestAmqp.Gateway.RouteDiff — a manifest against the rows of its service.

`diffRoutes` sorts the routes of a manifest into collisions, skipped ones, unchanged ones and upserts,
and finds the rows to disable.  The first valid route of a key decides for that key; `announced` is that
route, and `diffRoutes_spec` says what the diff holds in terms of it.
-/
import NestAmqp.Gateway.RouteManifest

namespace NestAmqp.Gateway

open NestAmqp.Js NestAmqp.Lib

/-! ## The diff -/

/-- A route to insert or to update. -/
structure RouteUpsert where
  routeKey : String
  existingId : Option String
  added : Bool
  model : Obj
  changes : Option (List RouteFieldChange)

/-- A row to disable. -/
structure RouteDisable where
  id : String
  routeKey : String
  method : Value
  path : Value

/-- A route that is not applied: its key is another owner's, or a user locked its row. -/
structure RouteRefusal where
  routeKey : String
  method : Value
  path : Value
  conflictWith : Value := .undefined

/-- What a manifest changes, and what it does not. -/
structure RouteDiff where
  upserts : List RouteUpsert := []
  disables : List RouteDisable := []
  collisions : List RouteRefusal := []
  skipped : List RouteRefusal := []
  invalid : List Value := []

/-- `diff.changed`. -/
def RouteDiff.changed (diff : RouteDiff) : Bool := !diff.upserts.isEmpty || !diff.disables.isEmpty

/-- What becomes of one valid route. -/
inductive RouteOutcome where
  | collision (owner : Value)
  | skipped
  | unchanged
  | upsert (u : RouteUpsert)

/-- `row.modified === true`. -/
def StoredHttpPath.isModified (row : StoredHttpPath) : Bool :=
  match row.get "modified" with
  | .bool b => b
  | _ => false

/-- The row as the manifest wants it, `{ ...merged, owner, routeKey, … }`. -/
def upsertModel (service key : String) (merged : Obj) (enabled : Bool) (overrides : Overrides) : Obj :=
  Obj.spread merged
    [("owner", .str service), ("routeKey", .str key), ("enabled", .bool enabled),
      ("source", .str "microservice"), ("modified", .bool false), ("userOverrides", overrides.stored)]

/-- `ex ? ex.enabled !== false : true`. -/
def exEnabled (ex : Option StoredHttpPath) : Bool := (ex.map (·.isEnabled)).getD true

/-- The stored state where the user overrode it, and on otherwise. -/
def newEnabled (ex : Option StoredHttpPath) (overrides : Overrides) : Bool :=
  if overrides.includesEnabled then exEnabled ex else true

/-- The upsert of a route with this key over this row. -/
def upsertOf (service : String) (r : Obj) (key : String) (ex : Option StoredHttpPath) (overrides : Overrides) :
    RouteUpsert :=
  let merged := applyUserOverrides r ex overrides
  { routeKey := key
    existingId := ex.map (·._id)
    added := ex.isNone
    model := upsertModel service key merged (newEnabled ex overrides) overrides
    changes := ex.map fun row => diffRouteFields row.columns merged }

@[simp] theorem routeKey_upsertOf (service : String) (r : Obj) (key : String) (ex : Option StoredHttpPath)
    (overrides : Overrides) : (upsertOf service r key ex overrides).routeKey = key := rfl

theorem model_upsertOf (service : String) (r : Obj) (key : String) (ex : Option StoredHttpPath)
    (overrides : Overrides) : (upsertOf service r key ex overrides).model =
      upsertModel service key (applyUserOverrides r ex overrides) (newEnabled ex overrides) overrides := rfl

/-- The row already is what the manifest wants. -/
def isUnchanged (r : Obj) (row : StoredHttpPath) (overrides : Overrides) : Bool :=
  newEnabled (some row) overrides == row.isEnabled &&
    routeContent (applyUserOverrides r (some row) overrides) == routeContent row.columns

section Diff

variable (service : String) (existingByKey : List (String × StoredHttpPath)) (reserved : Obj)

/-- The part of the loop behind `seen.add(key)`, for a route with its key. -/
def classify (r : Obj) (key : String) : Except Thrown RouteOutcome :=
  let owner := Obj.get reserved key
  if owner.truthy && !owner.isText service then .ok (.collision owner)
  else
    let ex := existingByKey.lookup key
    if ex.any StoredHttpPath.isModified then .ok .skipped
    else do
      let overrides ← readOverrides ((ex.map (·.get "userOverrides")).getD .undefined)
      if ex.any fun row => isUnchanged r row overrides then return .unchanged
      else return .upsert (upsertOf service r key ex overrides)

/-- The diff so far, and the keys already decided. -/
structure DiffState where
  seen : List String := []
  diff : RouteDiff := {}

/-- An outcome entered in the diff. -/
def RouteDiff.record (diff : RouteDiff) (r : Obj) (key : String) : RouteOutcome → RouteDiff
  | .collision owner => { diff with
      collisions := diff.collisions ++ [⟨key, Obj.get r "method", Obj.get r "path", owner⟩] }
  | .skipped => { diff with
      skipped := diff.skipped ++ [{ routeKey := key, method := Obj.get r "method", path := Obj.get r "path" }] }
  | .unchanged => diff
  | .upsert u => { diff with upserts := diff.upserts ++ [u] }

/-- The properties of a route that is an object. -/
def fieldsOf : Value → Obj
  | .obj fields => fields
  | _ => []

/-- A valid route is an object. -/
theorem eq_obj_of_valid {v : Value} (h : isValidRoute v = true) : v = .obj (fieldsOf v) := by
  cases v <;> first | rfl | cases h

/-- A valid route names its method and its path. -/
theorem truthy_identity {v : Value} (h : isValidRoute v = true) {field : String}
    (hfield : field = "method" ∨ field = "path") : (Obj.get (fieldsOf v) field).truthy = true := by
  rw [eq_obj_of_valid h] at h
  unfold isValidRoute at h
  simp only [Bool.and_eq_true] at h
  rcases hfield with rfl | rfl
  · exact h.1.1.1.1
  · exact h.1.1.1.2

theorem own_of_truthy {o : Obj} {k : String} (h : (Obj.get o k).truthy = true) :
    Obj.own o k = some (Obj.get o k) := by
  unfold Obj.get at h ⊢
  cases hown : Obj.own o k with
  | none =>
      rw [hown] at h
      cases h
  | some v => rfl

/-- One route of the manifest. -/
def diffRoute (state : DiffState) (r : Value) : Except Thrown DiffState :=
  if !isValidRoute r then
    .ok { state with diff := { state.diff with invalid := state.diff.invalid ++ [r] } }
  else do
    let key ← routeKeyOf r
    if state.seen.contains key then .ok state
    else do
      let outcome ← classify service existingByKey reserved (fieldsOf r) key
      .ok { seen := state.seen ++ [key], diff := state.diff.record (fieldsOf r) key outcome }

/-- The rows that no route of the manifest names any more. -/
def disablesOf (seen : List String) : List RouteDisable :=
  existingByKey.filterMap fun (key, row) =>
    if !seen.contains key && row.isEnabled then
      some { id := row._id, routeKey := key, method := row.get "method", path := row.get "path" }
    else none

end Diff

/-- `map.set(key, row)`. -/
def mapSet (map : List (String × StoredHttpPath)) (key : String) (row : StoredHttpPath) :
    List (String × StoredHttpPath) :=
  if map.any (·.1 == key) then map.map fun entry => if entry.1 == key then (key, row) else entry
  else map ++ [(key, row)]

/-- The rows that have a key, by it. -/
def byRouteKey (existing : List StoredHttpPath) : List (String × StoredHttpPath) :=
  existing.foldl (fun map row =>
    match row.key with
    | some key => if key = "" then map else mapSet map key row
    | none => map) []

/-- `diffRoutes(service, incoming, existing, reserved)`. -/
def diffRoutes (service : String) (incoming : List Value) (existing : List StoredHttpPath) (reserved : Obj) :
    Except Thrown RouteDiff := do
  let state ← incoming.foldlM (diffRoute service (byRouteKey existing) reserved) {}
  return { state.diff with disables := disablesOf (byRouteKey existing) state.seen }

/-! ## The columns of an upsert -/

section Model

variable {service key : String} {r : Obj} {enabled : Bool} {overrides : Overrides}

theorem canonical_not_persistent : ∀ field ∈ canonicalDefaults.map Prod.fst,
    field ∉ ["owner", "routeKey", "enabled", "source", "modified", "userOverrides"] := by decide

/-- The columns beside the content do not hide a content field. -/
theorem own_upsertModel_of_canonical {field : String × Option Value} (h : field ∈ canonicalDefaults) :
    Obj.own (upsertModel service key r enabled overrides) field.1 = Obj.own r field.1 := by
  have hfield := canonical_not_persistent field.1 (List.mem_map_of_mem h)
  simp only [List.mem_cons, List.not_mem_nil, or_false, not_or] at hfield
  unfold upsertModel
  rw [Obj.own_spread, (Obj.own_eq_none_iff _ _).mpr]
  · rfl
  · intro kv hkv heq
    simp only [List.mem_cons, List.not_mem_nil, or_false] at hkv
    rcases hkv with rfl | rfl | rfl | rfl | rfl | rfl <;> simp_all

theorem own_upsertModel_owner :
    Obj.own (upsertModel service key r enabled overrides) "owner" = some (.str service) := by
  simp [upsertModel, Obj.own_cons]

theorem own_upsertModel_routeKey :
    Obj.own (upsertModel service key r enabled overrides) "routeKey" = some (.str key) := by
  simp [upsertModel, Obj.own_cons]

theorem own_upsertModel_enabled :
    Obj.own (upsertModel service key r enabled overrides) "enabled" = some (.bool enabled) := by
  simp [upsertModel, Obj.own_cons]

theorem own_upsertModel_modified :
    Obj.own (upsertModel service key r enabled overrides) "modified" = some (.bool false) := by
  simp [upsertModel, Obj.own_cons]

theorem own_upsertModel_userOverrides :
    Obj.own (upsertModel service key r enabled overrides) "userOverrides" = some overrides.stored := by
  simp [upsertModel, Obj.own_cons]

end Model

/-! ## The rows by key -/

/-- The map is made of the rows, each under its key. -/
structure Indexes (existing : List StoredHttpPath) (map : List (String × StoredHttpPath)) : Prop where
  keys : (map.map Prod.fst).Nodup
  sound : ∀ entry ∈ map, entry.2 ∈ existing ∧ entry.2.key = some entry.1
  complete : ∀ row ∈ existing, ∀ key, row.key = some key → key ≠ "" → ∃ row', (key, row') ∈ map
  named : ∀ entry ∈ map, entry.1 ≠ ""

theorem keys_mapSet {map : List (String × StoredHttpPath)} {key : String} {row : StoredHttpPath}
    (h : (map.map Prod.fst).Nodup) : ((mapSet map key row).map Prod.fst).Nodup := by
  unfold mapSet
  split
  next =>
    have hsame : Prod.fst ∘ (fun entry : String × StoredHttpPath =>
        if entry.1 == key then (key, row) else entry) = Prod.fst := by
      funext entry
      show (if entry.1 == key then (key, row) else entry).1 = entry.1
      split
      next heq => exact (beq_iff_eq.mp heq).symm
      next => rfl
    rw [List.map_map, hsame]
    exact h
  next hnone =>
    rw [List.map_append, List.nodup_append]
    refine ⟨h, List.nodup_singleton _, ?_⟩
    intro k hk k' hk' heq
    obtain ⟨entry, hentry, rfl⟩ := List.mem_map.mp hk
    rw [List.map_singleton, List.mem_singleton] at hk'
    exact hnone (List.any_eq_true.mpr ⟨entry, hentry, beq_iff_eq.mpr (heq.trans hk')⟩)

theorem mem_mapSet {map : List (String × StoredHttpPath)} {key : String} {row : StoredHttpPath}
    (entry : String × StoredHttpPath) :
    entry ∈ mapSet map key row ↔ entry = (key, row) ∨ (entry ∈ map ∧ entry.1 ≠ key) := by
  unfold mapSet
  split
  next hany =>
    rw [List.mem_map]
    constructor
    · rintro ⟨e, he, rfl⟩
      split
      next => exact .inl rfl
      next hne => exact .inr ⟨he, by simpa using hne⟩
    · rintro (rfl | ⟨hentry, hne⟩)
      · obtain ⟨e, he, hkey⟩ := List.any_eq_true.mp hany
        exact ⟨e, he, if_pos hkey⟩
      · exact ⟨entry, hentry, if_neg (by simpa using hne)⟩
  next hnone =>
    rw [List.mem_append, List.mem_singleton]
    constructor
    · rintro (hentry | rfl)
      · refine .inr ⟨hentry, fun heq => hnone ?_⟩
        exact List.any_eq_true.mpr ⟨entry, hentry, beq_iff_eq.mpr heq⟩
      · exact .inl rfl
    · rintro (rfl | ⟨hentry, -⟩)
      · exact .inr rfl
      · exact .inl hentry

theorem indexes_byRouteKey (existing : List StoredHttpPath) : Indexes existing (byRouteKey existing) := by
  induction existing using List.reverseRecOn with
  | nil => exact ⟨List.nodup_nil, nofun, nofun, nofun⟩
  | append_singleton existing row ih =>
      unfold byRouteKey at ih ⊢
      rw [List.foldl_append, List.foldl_cons, List.foldl_nil]
      generalize existing.foldl _ [] = map at ih ⊢
      cases hkey : row.key with
      | none =>
          refine ⟨ih.keys, ?_, ?_, ih.named⟩
          · intro entry hentry
            exact ⟨List.mem_append_left _ (ih.sound entry hentry).1, (ih.sound entry hentry).2⟩
          · intro r hr key hrkey hne
            rcases List.mem_append.mp hr with hr | hr
            · exact ih.complete r hr key hrkey hne
            · rw [List.mem_singleton.mp hr, hkey] at hrkey
              cases hrkey
      | some key =>
          dsimp only
          split
          next hempty =>
            refine ⟨ih.keys, ?_, ?_, ih.named⟩
            · intro entry hentry
              exact ⟨List.mem_append_left _ (ih.sound entry hentry).1, (ih.sound entry hentry).2⟩
            · intro r hr key' hrkey hne
              rcases List.mem_append.mp hr with hr | hr
              · exact ih.complete r hr key' hrkey hne
              · rw [List.mem_singleton.mp hr, hkey] at hrkey
                exact absurd ((Option.some.inj hrkey).symm.trans hempty) hne
          next hnonempty =>
            refine ⟨keys_mapSet ih.keys, ?_, ?_, ?_⟩
            · intro entry hentry
              rcases (mem_mapSet entry).mp hentry with rfl | ⟨hentry, -⟩
              · exact ⟨List.mem_append_right _ (.head _), hkey⟩
              · exact ⟨List.mem_append_left _ (ih.sound entry hentry).1, (ih.sound entry hentry).2⟩
            · -- the row comes under its key, instead of one that was there
              intro r hr key' hrkey hne
              by_cases heq : key' = key
              · exact ⟨row, (mem_mapSet _).mpr (.inl (by rw [heq]))⟩
              · rcases List.mem_append.mp hr with hr | hr
                · obtain ⟨row', hrow'⟩ := ih.complete r hr key' hrkey hne
                  exact ⟨row', (mem_mapSet _).mpr (.inr ⟨hrow', heq⟩)⟩
                · rw [List.mem_singleton.mp hr, hkey] at hrkey
                  exact absurd (Option.some.inj hrkey).symm heq
            · intro entry hentry
              rcases (mem_mapSet entry).mp hentry with rfl | ⟨hentry, -⟩
              · exact hnonempty
              · exact ih.named entry hentry

section Lookup

variable {existing : List StoredHttpPath} {map : List (String × StoredHttpPath)} {key : String}
  {row : StoredHttpPath}

/-- Among rows with distinct keys, the row under a key is the one that has it. -/
theorem Indexes.lookup_iff (h : Indexes existing map)
    (hdistinct : ∀ a ∈ existing, ∀ b ∈ existing, ∀ k, a.key = some k → b.key = some k → a = b) :
    map.lookup key = some row ↔ row ∈ existing ∧ row.key = some key ∧ key ≠ "" := by
  constructor
  · intro hlookup
    have hmem := AssocList.mem_of_lookup hlookup
    exact ⟨(h.sound _ hmem).1, (h.sound _ hmem).2, h.named _ hmem⟩
  · rintro ⟨hrow, hkey, hne⟩
    obtain ⟨row', hmem⟩ := h.complete row hrow key hkey hne
    obtain rfl := hdistinct row hrow row' (h.sound _ hmem).1 key hkey (h.sound _ hmem).2
    exact AssocList.lookup_of_mem h.keys hmem

/-- The rows of a service, by key. -/
theorem lookup_findByOwner {store : PathStore} {service : String} :
    (byRouteKey (store.findByOwner service)).lookup key = some row ↔
      row ∈ store.rows ∧ row.get "owner" = .str service ∧ row.key = some key ∧ key ≠ "" := by
  rw [(indexes_byRouteKey _).lookup_iff, PathStore.mem_findByOwner, and_assoc]
  intro a ha b hb k hak hbk
  exact PathStore.eq_of_key (PathStore.mem_findByOwner.mp ha).1 (PathStore.mem_findByOwner.mp hb).1 hak hbk

end Lookup

/-! ## What becomes of a route -/

/-- The overrides of the row under a key, none when there is no row. -/
def overridesAt (ex : Option StoredHttpPath) : Except Thrown Overrides :=
  readOverrides ((ex.map (·.get "userOverrides")).getD .undefined)

/-- The outcomes of a route, each with what led to it. -/
inductive Classified (service : String) (ex : Option StoredHttpPath) (owner : Value) (r : Obj) (key : String) :
    RouteOutcome → Prop
  | collision (htruthy : owner.truthy = true) (hother : owner ≠ .str service) :
      Classified service ex owner r key (.collision owner)
  | skipped (row : StoredHttpPath) (hrow : ex = some row) (hmodified : row.isModified = true) :
      Classified service ex owner r key .skipped
  | unchanged (howner : owner.truthy = true → owner = .str service) (row : StoredHttpPath)
      (hrow : ex = some row) (hmodified : row.isModified = false) (overrides : Overrides)
      (hoverrides : overridesAt ex = .ok overrides) (hsame : isUnchanged r row overrides = true) :
      Classified service ex owner r key .unchanged
  | upsert (howner : owner.truthy = true → owner = .str service)
      (hmodified : ∀ row, ex = some row → row.isModified = false) (overrides : Overrides)
      (hoverrides : overridesAt ex = .ok overrides)
      (hdiffers : ∀ row, ex = some row → isUnchanged r row overrides = false) :
      Classified service ex owner r key (.upsert (upsertOf service r key ex overrides))

section Loop

variable {service : String} {map : List (String × StoredHttpPath)} {reserved : Obj} {r : Obj} {key : String}

theorem classified_of_ok {outcome : RouteOutcome} (h : classify service map reserved r key = .ok outcome) :
    Classified service (map.lookup key) (Obj.get reserved key) r key outcome := by
  unfold classify at h
  dsimp only at h
  generalize map.lookup key = ex at h ⊢
  generalize Obj.get reserved key = owner at h ⊢
  split at h
  next hcollides =>
    obtain rfl := Except.ok.inj h
    rw [Bool.and_eq_true, Bool.not_eq_true', ← Bool.not_eq_true, Value.isText_iff] at hcollides
    exact .collision hcollides.1 hcollides.2
  next hfree =>
    have howner : owner.truthy = true → owner = .str service := by
      intro htruthy
      by_contra hother
      apply hfree
      rw [Bool.and_eq_true, Bool.not_eq_true', ← Bool.not_eq_true, Value.isText_iff]
      exact ⟨htruthy, hother⟩
    split at h
    next hmodified =>
      obtain rfl := Except.ok.inj h
      obtain ⟨row, hrow, hmod⟩ := (Option.any_eq_true _ _).mp hmodified
      exact .skipped row hrow hmod
    next hunmodified =>
      have hmodified : ∀ row, ex = some row → row.isModified = false := by
        rintro row rfl
        simpa using hunmodified
      cases hoverrides : readOverrides ((ex.map (·.get "userOverrides")).getD .undefined) with
      | error e =>
          rw [hoverrides] at h
          cases h
      | ok overrides =>
          rw [hoverrides] at h
          change (if _ then _ else _) = _ at h
          split at h
          next hsame =>
            obtain rfl := Except.ok.inj h
            obtain ⟨row, hrow, hunchanged⟩ := (Option.any_eq_true _ _).mp hsame
            exact .unchanged howner row hrow (hmodified row hrow) overrides hoverrides hunchanged
          next hdiffers =>
            obtain rfl := Except.ok.inj h
            refine .upsert howner hmodified overrides hoverrides ?_
            rintro row rfl
            simpa using hdiffers

/-! ## What the diff holds -/

/-- The route's key is this one. -/
def hasKey (key : String) (r : Value) : Bool :=
  match routeKeyOf r with
  | .ok k => k == key
  | .error _ => false

/-- The route that decides for a key: the first valid one that has it. -/
def announced (routes : List Value) (key : String) : Option Value :=
  routes.find? fun r => isValidRoute r && hasKey key r

theorem hasKey_iff {v : Value} : hasKey key v = true ↔ routeKeyOf v = .ok key := by
  unfold hasKey
  cases routeKeyOf v with
  | error e => simp
  | ok k => simp

theorem announced_concat (routes : List Value) (v : Value) (key : String) :
    announced (routes ++ [v]) key =
      (announced routes key).or (if isValidRoute v && hasKey key v then some v else none) := by
  unfold announced
  rw [List.find?_append, List.find?_cons, List.find?_nil]
  cases isValidRoute v && hasKey key v <;> rfl

theorem mem_of_announced {routes : List Value} {v : Value} (h : announced routes key = some v) :
    v ∈ routes ∧ isValidRoute v = true ∧ routeKeyOf v = .ok key := by
  have hprops := List.find?_some h
  rw [Bool.and_eq_true, hasKey_iff] at hprops
  exact ⟨List.mem_of_find?_eq_some h, hprops.1, hprops.2⟩

/-- The state of the loop behind these routes. -/
structure Diffed (service : String) (map : List (String × StoredHttpPath)) (reserved : Obj)
    (routes : List Value) (state : DiffState) : Prop where
  seen : ∀ key, key ∈ state.seen ↔ ∃ v, announced routes key = some v
  decided : ∀ key v, announced routes key = some v →
    ∃ outcome, classify service map reserved (fieldsOf v) key = .ok outcome
  upserts : ∀ u, u ∈ state.diff.upserts ↔ ∃ v, announced routes u.routeKey = some v ∧
    classify service map reserved (fieldsOf v) u.routeKey = .ok (.upsert u)
  distinct : (state.diff.upserts.map RouteUpsert.routeKey).Nodup
  collisions : ∀ c, c ∈ state.diff.collisions ↔ ∃ v, announced routes c.routeKey = some v ∧
    classify service map reserved (fieldsOf v) c.routeKey = .ok (.collision c.conflictWith) ∧
      c = ⟨c.routeKey, Obj.get (fieldsOf v) "method", Obj.get (fieldsOf v) "path", c.conflictWith⟩

/-- A key that is reserved for another owner collides, whatever row is under it. -/
theorem classify_collision (htruthy : (Obj.get reserved key).truthy = true)
    (hother : Obj.get reserved key ≠ .str service) :
    classify service map reserved r key = .ok (.collision (Obj.get reserved key)) := by
  unfold classify
  refine if_pos ?_
  rw [Bool.and_eq_true, Bool.not_eq_true', ← Bool.not_eq_true, Value.isText_iff]
  exact ⟨htruthy, hother⟩

theorem routeKey_of_upsert {u : RouteUpsert}
    (h : classify service map reserved r key = .ok (.upsert u)) : u.routeKey = key := by
  have hclassified := classified_of_ok h
  cases hclassified
  rfl

/-- What led to an upsert. -/
theorem Diffed.upsert {routes : List Value} {state : DiffState}
    (h : Diffed service map reserved routes state) {u : RouteUpsert} (hu : u ∈ state.diff.upserts) :
    ∃ v overrides, announced routes u.routeKey = some v ∧
      ((Obj.get reserved u.routeKey).truthy = true → Obj.get reserved u.routeKey = .str service) ∧
      (∀ row, map.lookup u.routeKey = some row → row.isModified = false) ∧
      overridesAt (map.lookup u.routeKey) = .ok overrides ∧
      u = upsertOf service (fieldsOf v) u.routeKey (map.lookup u.routeKey) overrides := by
  obtain ⟨v, hannounced, hupsert⟩ := (h.upserts u).mp hu
  have hclassified := classified_of_ok hupsert
  generalize houtcome : RouteOutcome.upsert u = outcome at hclassified
  cases hclassified with
  | upsert howner hmodified overrides hoverrides hdiffers =>
      exact ⟨v, overrides, hannounced, howner, hmodified, hoverrides, RouteOutcome.upsert.inj houtcome⟩
  | collision => cases houtcome
  | skipped => cases houtcome
  | unchanged => cases houtcome

/-- What led to a collision. -/
theorem Diffed.collision {routes : List Value} {state : DiffState}
    (h : Diffed service map reserved routes state) {c : RouteRefusal} (hc : c ∈ state.diff.collisions) :
    c.conflictWith = Obj.get reserved c.routeKey ∧ c.conflictWith.truthy = true ∧
      c.conflictWith ≠ .str service ∧ ∃ v, announced routes c.routeKey = some v := by
  obtain ⟨v, hannounced, hcollides, -⟩ := (h.collisions c).mp hc
  have hclassified := classified_of_ok hcollides
  generalize houtcome : RouteOutcome.collision c.conflictWith = outcome at hclassified
  cases hclassified with
  | collision htruthy hother =>
      obtain howner := RouteOutcome.collision.inj houtcome
      exact ⟨howner, howner ▸ htruthy, howner ▸ hother, v, hannounced⟩
  | skipped => cases houtcome
  | unchanged => cases houtcome
  | upsert => cases houtcome

theorem upserts_record {diff : RouteDiff} {outcome : RouteOutcome} {u : RouteUpsert} :
    u ∈ (diff.record r key outcome).upserts ↔ u ∈ diff.upserts ∨ outcome = .upsert u := by
  cases outcome with
  | upsert u' =>
      show u ∈ diff.upserts ++ [u'] ↔ _
      rw [List.mem_append, List.mem_singleton, RouteOutcome.upsert.injEq, eq_comm (a := u)]
  | collision owner => exact (or_iff_left nofun).symm
  | skipped => exact (or_iff_left nofun).symm
  | unchanged => exact (or_iff_left nofun).symm

theorem collisions_record {diff : RouteDiff} {outcome : RouteOutcome} {c : RouteRefusal} :
    c ∈ (diff.record r key outcome).collisions ↔ c ∈ diff.collisions ∨
      outcome = .collision c.conflictWith ∧
        c = ⟨key, Obj.get r "method", Obj.get r "path", c.conflictWith⟩ := by
  cases outcome with
  | collision owner =>
      show c ∈ diff.collisions ++ [⟨key, _, _, owner⟩] ↔ _
      rw [List.mem_append, List.mem_singleton]
      refine or_congr_right ⟨?_, ?_⟩
      · rintro rfl
        exact ⟨rfl, rfl⟩
      · rintro ⟨howner, hc⟩
        rw [hc, RouteOutcome.collision.inj howner]
  | skipped => exact (or_iff_left fun h => by cases h.1).symm
  | unchanged => exact (or_iff_left fun h => by cases h.1).symm
  | upsert u => exact (or_iff_left fun h => by cases h.1).symm

theorem Diffed.pass {routes : List Value} {state : DiffState} {v : Value}
    (h : Diffed service map reserved routes state)
    (hsame : ∀ key, announced (routes ++ [v]) key = announced routes key) {invalid : List Value} :
    Diffed service map reserved (routes ++ [v])
      { state with diff := { state.diff with invalid := invalid } } where
  seen key := by
    rw [hsame]
    exact h.seen key
  decided key v' := by
    rw [hsame]
    exact h.decided key v'
  upserts u := by
    rw [hsame]
    exact h.upserts u
  distinct := h.distinct
  collisions c := by
    rw [hsame]
    exact h.collisions c

/-- A key that is decided for the first time. -/
theorem Diffed.decide {routes : List Value} {state : DiffState} {v : Value} {outcome : RouteOutcome}
    (h : Diffed service map reserved routes state) (hvalid : isValidRoute v = true)
    (hkey : routeKeyOf v = .ok key) (hnew : key ∉ state.seen)
    (houtcome : classify service map reserved (fieldsOf v) key = .ok outcome) :
    Diffed service map reserved (routes ++ [v])
      { seen := state.seen ++ [key], diff := state.diff.record (fieldsOf v) key outcome } := by
  -- the key is announced for the first time, by this route
  have hnone : announced routes key = none := by
    cases hfound : announced routes key with
    | none => rfl
    | some v' => exact absurd ((h.seen key).mpr ⟨v', hfound⟩) hnew
  have hself : announced (routes ++ [v]) key = some v := by
    rw [announced_concat, hnone, if_pos (by rw [Bool.and_eq_true, hasKey_iff]; exact ⟨hvalid, hkey⟩)]
    rfl
  have hother : ∀ k, k ≠ key → announced (routes ++ [v]) k = announced routes k := by
    intro k hk
    rw [announced_concat, if_neg ?_, Option.or_none]
    rw [Bool.and_eq_true, hasKey_iff, hkey]
    exact fun hboth => hk (Except.ok.inj hboth.2).symm
  refine ⟨?_, ?_, ?_, ?_, ?_⟩
  · intro k
    rw [List.mem_append, List.mem_singleton]
    by_cases hk : k = key
    · subst hk
      exact ⟨fun _ => ⟨v, hself⟩, fun _ => .inr rfl⟩
    · rw [hother k hk, ← h.seen k]
      exact ⟨fun hseen => hseen.resolve_right hk, .inl⟩
  · intro k v' hv'
    by_cases hk : k = key
    · subst hk
      rw [hself] at hv'
      obtain rfl := Option.some.inj hv'
      exact ⟨outcome, houtcome⟩
    · rw [hother k hk] at hv'
      exact h.decided k v' hv'
  · -- an upsert of this key is the outcome, and one of another key was there before
    intro u
    rw [upserts_record, h.upserts u]
    by_cases hk : u.routeKey = key
    · rw [hk, hself, hnone]
      constructor
      · rintro (⟨v', hv', -⟩ | rfl)
        · cases hv'
        · exact ⟨v, rfl, houtcome⟩
      · rintro ⟨v', hv', hclassify⟩
        obtain rfl := Option.some.inj hv'
        rw [houtcome] at hclassify
        exact .inr (Except.ok.inj hclassify)
    · rw [hother _ hk]
      constructor
      · rintro (hold | rfl)
        · exact hold
        · exact absurd (routeKey_of_upsert houtcome) hk
      · exact .inl
  · -- a key that is upserted twice would have been announced twice
    cases outcome with
    | upsert u =>
        show ((state.diff.upserts ++ [u]).map RouteUpsert.routeKey).Nodup
        rw [List.map_append, List.nodup_append]
        refine ⟨h.distinct, List.nodup_singleton _, ?_⟩
        intro k hk k' hk' heq
        obtain ⟨u', hu', rfl⟩ := List.mem_map.mp hk
        rw [List.map_singleton, List.mem_singleton, routeKey_of_upsert houtcome] at hk'
        obtain ⟨v', hv', -⟩ := (h.upserts u').mp hu'
        rw [heq.trans hk', hnone] at hv'
        cases hv'
    | collision owner => exact h.distinct
    | skipped => exact h.distinct
    | unchanged => exact h.distinct
  · -- and so for the collisions
    intro c
    rw [collisions_record, h.collisions c]
    by_cases hk : c.routeKey = key
    · rw [hk, hself, hnone]
      constructor
      · rintro (⟨v', hv', -⟩ | ⟨rfl, hc⟩)
        · cases hv'
        · exact ⟨v, rfl, houtcome, hc⟩
      · rintro ⟨v', hv', hclassify, hc⟩
        obtain rfl := Option.some.inj hv'
        exact .inr ⟨Except.ok.inj (houtcome.symm.trans hclassify), hc⟩
    · rw [hother _ hk]
      constructor
      · rintro (hold | ⟨-, hc⟩)
        · exact hold
        · exact absurd (congrArg RouteRefusal.routeKey hc) hk
      · exact .inl

/-- **One route.**  It is invalid, or its key is decided, or it decides for its key. -/
theorem diffRoute_cases {state state' : DiffState} {v : Value}
    (h : diffRoute service map reserved state v = .ok state') :
    ((isValidRoute v = false ∨ ∃ key ∈ state.seen, routeKeyOf v = .ok key) ∧
        ∃ invalid, state' = { state with diff := { state.diff with invalid := invalid } }) ∨
      ∃ key outcome, isValidRoute v = true ∧ routeKeyOf v = .ok key ∧ key ∉ state.seen ∧
        classify service map reserved (fieldsOf v) key = .ok outcome ∧
        state' = { seen := state.seen ++ [key], diff := state.diff.record (fieldsOf v) key outcome } := by
  unfold diffRoute at h
  split at h
  next hinvalid =>
    rw [Bool.not_eq_true'] at hinvalid
    exact .inl ⟨.inl hinvalid, _, (Except.ok.inj h).symm⟩
  next hvalid =>
    rw [Bool.not_eq_true', Bool.not_eq_false] at hvalid
    obtain ⟨key, hkey, h⟩ := bind_eq_ok.mp h
    split at h
    next hseen =>
      rw [List.contains_iff_mem] at hseen
      exact .inl ⟨.inr ⟨key, hseen, hkey⟩, state.diff.invalid, (Except.ok.inj h).symm⟩
    next hnew =>
      rw [List.contains_iff_mem] at hnew
      obtain ⟨outcome, houtcome, h⟩ := bind_eq_ok.mp h
      exact .inr ⟨key, outcome, hvalid, hkey, hnew, houtcome, (Except.ok.inj h).symm⟩

/-- A route that does not decide for its key leaves every key with the route it had. -/
theorem announced_concat_passed {routes : List Value} {v : Value} {seen : List String}
    (hseen : ∀ key, key ∈ seen ↔ ∃ v, announced routes key = some v)
    (h : isValidRoute v = false ∨ ∃ key ∈ seen, routeKeyOf v = .ok key) (key : String) :
    announced (routes ++ [v]) key = announced routes key := by
  rw [announced_concat]
  rcases h with hinvalid | ⟨k, hk, hkey⟩
  · rw [hinvalid]
    exact Option.or_none
  · obtain ⟨v', hv'⟩ := (hseen k).mp hk
    by_cases hsame : key = k
    · rw [hsame, hv']
      rfl
    · rw [if_neg, Option.or_none]
      rw [Bool.and_eq_true, hasKey_iff, hkey]
      exact fun hboth => hsame (Except.ok.inj hboth.2).symm

/-- One more route keeps what is known of the loop. -/
theorem Diffed.step {routes : List Value} {state state' : DiffState} {v : Value}
    (h : Diffed service map reserved routes state)
    (hstep : diffRoute service map reserved state v = .ok state') :
    Diffed service map reserved (routes ++ [v]) state' := by
  rcases diffRoute_cases hstep with ⟨hpassed, invalid, rfl⟩ | ⟨key, outcome, hvalid, hkey, hnew, houtcome, rfl⟩
  · exact h.pass (announced_concat_passed h.seen hpassed)
  · exact h.decide hvalid hkey hnew houtcome

theorem diffed_foldlM {routes : List Value} {state : DiffState}
    (h : routes.foldlM (diffRoute service map reserved) {} = .ok state) :
    Diffed service map reserved routes state := by
  induction routes using List.reverseRecOn generalizing state with
  | nil =>
      obtain rfl := Except.ok.inj h
      refine ⟨fun key => ?_, nofun, fun u => ?_, List.nodup_nil, fun c => ?_⟩
      · exact ⟨nofun, nofun⟩
      · exact ⟨nofun, nofun⟩
      · exact ⟨nofun, nofun⟩
  | append_singleton routes v ih =>
      rw [List.foldlM_append] at h
      cases hbefore : routes.foldlM (diffRoute service map reserved) {} with
      | error e =>
          rw [hbefore] at h
          cases h
      | ok before =>
          rw [hbefore] at h
          change [v].foldlM (diffRoute service map reserved) before = _ at h
          rw [List.foldlM_cons] at h
          cases hstep : diffRoute service map reserved before v with
          | error e =>
              rw [hstep] at h
              cases h
          | ok after =>
              rw [hstep] at h
              obtain rfl := Except.ok.inj h
              exact (ih hbefore).step hstep

end Loop

/-- **What a diff holds.**  A key is decided when a valid route of the manifest has it; its upsert is
what `classify` makes of the first such route, and the rows that are disabled are the enabled ones whose
key is not decided. -/
theorem diffRoutes_spec {service : String} {routes : List Value} {existing : List StoredHttpPath}
    {reserved : Obj} {diff : RouteDiff} (h : diffRoutes service routes existing reserved = .ok diff) :
    ∃ state, Diffed service (byRouteKey existing) reserved routes state ∧
      diff.upserts = state.diff.upserts ∧ diff.disables = disablesOf (byRouteKey existing) state.seen ∧
      diff.collisions = state.diff.collisions := by
  unfold diffRoutes at h
  cases hloop : routes.foldlM (diffRoute service (byRouteKey existing) reserved) {} with
  | error e =>
      rw [hloop] at h
      cases h
  | ok state =>
      rw [hloop] at h
      obtain rfl := Except.ok.inj h
      exact ⟨state, diffed_foldlM hloop, rfl, rfl, rfl⟩

/-- A diff returns when the keys of the valid routes are readable and every announced route can be
classified. -/
theorem diffRoutes_returns {service : String} {routes : List Value} {existing : List StoredHttpPath}
    {reserved : Obj} (hkeys : ∀ r ∈ routes, isValidRoute r = true → ∃ key, routeKeyOf r = .ok key)
    (hdecided : ∀ key v, announced routes key = some v →
      ∃ outcome, classify service (byRouteKey existing) reserved (fieldsOf v) key = .ok outcome) :
    ∃ diff, diffRoutes service routes existing reserved = .ok diff := by
  have hloop : ∃ state, routes.foldlM (diffRoute service (byRouteKey existing) reserved) {} = .ok state := by
    induction routes using List.reverseRecOn with
    | nil => exact ⟨{}, rfl⟩
    | append_singleton routes v ih =>
        obtain ⟨state, hstate⟩ := ih (fun r hr => hkeys r (List.mem_append_left _ hr)) fun key v' hv' =>
          hdecided key v' (by rw [announced_concat, hv']; rfl)
        have hstep : ∃ state', diffRoute service (byRouteKey existing) reserved state v = .ok state' := by
          unfold diffRoute
          split
          next => exact ⟨_, rfl⟩
          next hvalid =>
            obtain ⟨key, hkey⟩ := hkeys v (List.mem_append_right _ (.head _)) (by simpa using hvalid)
            rw [hkey]
            show ∃ state', (if state.seen.contains key then _ else _) = _
            split
            next => exact ⟨_, rfl⟩
            next hnew =>
              -- the first valid route with this key
              have hnone : announced routes key = none := by
                cases hfound : announced routes key with
                | none => rfl
                | some v' =>
                    refine absurd (((diffed_foldlM hstate).seen key).mpr ⟨v', hfound⟩) ?_
                    rwa [List.contains_iff_mem] at hnew
              obtain ⟨outcome, houtcome⟩ := hdecided key v (by
                rw [announced_concat, hnone, if_pos]
                · rfl
                · rw [Bool.and_eq_true, hasKey_iff]
                  exact ⟨by simpa using hvalid, hkey⟩)
              rw [houtcome]
              exact ⟨_, rfl⟩
        obtain ⟨state', hstate'⟩ := hstep
        refine ⟨state', ?_⟩
        rw [List.foldlM_append, hstate]
        show [v].foldlM (diffRoute service (byRouteKey existing) reserved) state = _
        rw [List.foldlM_cons, hstate']
        rfl
  obtain ⟨state, hstate⟩ := hloop
  unfold diffRoutes
  rw [hstate]
  exact ⟨_, rfl⟩

/-- A route is classified, unless its row is looked at and has overrides that cannot be read. -/
theorem classify_returns_iff {service key : String} {map : List (String × StoredHttpPath)} {reserved : Obj}
    (r : Obj) : (∃ outcome, classify service map reserved r key = .ok outcome) ↔
      ((Obj.get reserved key).truthy = true ∧ Obj.get reserved key ≠ .str service) ∨
        (map.lookup key).any StoredHttpPath.isModified = true ∨
        ∃ overrides, overridesAt (map.lookup key) = .ok overrides := by
  constructor
  · rintro ⟨outcome, h⟩
    cases classified_of_ok h with
    | collision htruthy hother => exact .inl ⟨htruthy, hother⟩
    | skipped row hrow hmodified =>
        rw [hrow]
        exact .inr (.inl hmodified)
    | unchanged _ row _ _ overrides hoverrides _ => exact .inr (.inr ⟨overrides, hoverrides⟩)
    | upsert _ _ overrides hoverrides _ => exact .inr (.inr ⟨overrides, hoverrides⟩)
  · intro h
    unfold classify
    dsimp only
    split
    next => exact ⟨_, rfl⟩
    next hfree =>
      split
      next => exact ⟨_, rfl⟩
      next hunmodified =>
        rcases h with ⟨htruthy, hother⟩ | hmodified | ⟨overrides, hread⟩
        · refine absurd ?_ hfree
          rw [Bool.and_eq_true, Bool.not_eq_true', ← Bool.not_eq_true, Value.isText_iff]
          exact ⟨htruthy, hother⟩
        · exact absurd hmodified hunmodified
        · unfold overridesAt at hread
          rw [hread]
          exact ⟨_, (apply_ite Except.ok _ _ _).symm⟩

/-- A route is classified when the overrides of its row are readable. -/
theorem exists_classify {service key : String} {map : List (String × StoredHttpPath)} {reserved : Obj}
    (r : Obj) (hread : ∃ overrides, overridesAt (map.lookup key) = .ok overrides) :
    ∃ outcome, classify service map reserved r key = .ok outcome :=
  (classify_returns_iff r).mpr (.inr (.inr hread))

/-- A diff throws only over a key or over overrides that cannot be read. -/
theorem exists_diffRoutes (service : String) {routes : List Value} {existing : List StoredHttpPath}
    (reserved : Obj) (hkeys : ∀ r ∈ routes, ∃ key, routeKeyOf r = .ok key)
    (hoverrides : ∀ row ∈ existing, ∃ overrides, readOverrides (row.get "userOverrides") = .ok overrides) :
    ∃ diff, diffRoutes service routes existing reserved = .ok diff := by
  refine diffRoutes_returns (fun r hr _ => hkeys r hr) fun key v _ => exists_classify (fieldsOf v) ?_
  cases hlookup : (byRouteKey existing).lookup key with
  | none => exact ⟨_, rfl⟩
  | some row => exact hoverrides row ((indexes_byRouteKey existing).sound _ (AssocList.mem_of_lookup hlookup)).1

/-- The rows that are disabled. -/
theorem mem_disablesOf {map : List (String × StoredHttpPath)} {seen : List String} {d : RouteDisable} :
    d ∈ disablesOf map seen ↔ ∃ row, (d.routeKey, row) ∈ map ∧ d.routeKey ∉ seen ∧ row.isEnabled = true ∧
      d = { id := row._id, routeKey := d.routeKey, method := row.get "method", path := row.get "path" } := by
  unfold disablesOf
  rw [List.mem_filterMap]
  constructor
  · rintro ⟨⟨key, row⟩, hmem, hd⟩
    dsimp only at hd
    split at hd
    next hcond =>
      rw [Bool.and_eq_true, Bool.not_eq_true', ← Bool.not_eq_true, List.contains_iff_mem] at hcond
      obtain rfl := Option.some.inj hd
      exact ⟨row, hmem, hcond.1, hcond.2, rfl⟩
    next => cases hd
  · rintro ⟨row, hmem, hseen, henabled, hd⟩
    refine ⟨(d.routeKey, row), hmem, ?_⟩
    dsimp only
    rw [if_pos, ← hd]
    rw [Bool.and_eq_true, Bool.not_eq_true', ← Bool.not_eq_true, List.contains_iff_mem]
    exact ⟨hseen, henabled⟩

/-- Each row is disabled under its own key. -/
theorem keys_disablesOf (map : List (String × StoredHttpPath)) (seen : List String) :
    ((disablesOf map seen).map RouteDisable.routeKey).Sublist (map.map Prod.fst) := by
  unfold disablesOf
  induction map with
  | nil => exact .slnil
  | cons entry map ih =>
      obtain ⟨key, row⟩ := entry
      rw [List.filterMap_cons]
      split
      next => exact ih.cons _
      next d hd =>
        dsimp only at hd
        split at hd
        next =>
          obtain rfl := Option.some.inj hd
          exact ih.cons_cons _
        next => cases hd

end NestAmqp.Gateway
