/-
# NestAmqp.Gateway.Convergence — does a manifest, handled twice, change anything the second time?

A route that is announced again is written as a patch of its row.  A field the manifest leaves out is
not in the patch, so it stays in the row: the row then has the manifest's content only when what the
row holds in such a field is the field's default.  `sync_converges_iff` makes that the exact condition
under which handling a manifest converges: the rows have the manifest's content and are enabled, the
other rows of the service are disabled, and handling the manifest again changes nothing and reloads
nothing.
-/
import NestAmqp.Gateway.AppliedDiff

namespace NestAmqp.Gateway

open NestAmqp.Js NestAmqp.Lib NestAmqp.Lib.Script

/-! ## Written rows -/

/-- What the row holds in the fields the route leaves out is their default. -/
def LeftOutAtDefault (r row : Obj) : Prop :=
  ∀ field ∈ canonicalDefaults, Obj.own r field.1 = none → fieldText field row = fieldText field []

/-- No overrides: the column is falsy or an empty list. -/
def NoOverrides (userOverrides : Value) : Prop := userOverrides.truthy = false ∨ userOverrides = .arr []

theorem NoOverrides.read {v : Value} (h : NoOverrides v) : readOverrides v = .ok .none := by
  unfold readOverrides
  rcases h with h | rfl
  · rw [h]
    rfl
  · rfl

section Written

variable {service key : String} {r row : Obj} {enabled : Bool} {overrides : Overrides}

/-- Without overrides, an upsert writes the incoming route, switched on. -/
theorem write_upsertOf (ex : Option StoredHttpPath) : (upsertOf service r key ex .none).write =
    (key, upsertModel service key r true .none) := by
  unfold RouteUpsert.write
  rw [model_upsertOf, applyUserOverrides_none]
  rfl

/-- **A patched row has the manifest's content when the fields the manifest leaves out are at their
default in it.** -/
theorem routeContent_patched_iff :
    routeContent (Obj.assign row (upsertModel service key r enabled overrides)) = routeContent r ↔
      LeftOutAtDefault r row := by
  rw [routeContent_eq_iff]
  refine forall₂_congr fun field hfield => ?_
  have hread := Obj.get_assign row (upsertModel service key r enabled overrides) field.1
  rw [own_upsertModel_of_canonical hfield] at hread
  cases hown : Obj.own r field.1 with
  | none =>
      rw [hown] at hread
      have hempty : fieldText field r = fieldText field [] := fieldText_congr (by
        unfold Obj.get
        rw [hown, Obj.own_nil])
      rw [hempty, fieldText_congr (b := row) hread]
      exact ⟨fun h _ => h, fun h => h rfl⟩
  | some v =>
      rw [hown] at hread
      have hget : Obj.get r field.1 = v := by
        unfold Obj.get
        rw [hown]
        rfl
      exact iff_of_true (fieldText_congr (hread.trans hget.symm)) nofun

/-- A row that already has the manifest's content has its defaults where the manifest says nothing. -/
theorem leftOutAtDefault_of_content (h : routeContent r = routeContent row) : LeftOutAtDefault r row := by
  intro field hfield hown
  rw [← (routeContent_eq_iff r row).mp h field hfield]
  apply fieldText_congr
  unfold Obj.get
  rw [hown, Obj.own_nil]

end Written

/-! ## Stored paths that a manifest may claim -/

/-- The stored paths before the manifest: the rows of the service have their keys, no user has edited a
row that counts as the service's, and no key of the manifest is reserved by another owner. -/
structure SyncReady (config : GatewayConfig) (service : String) (routes : List Value) (store : PathStore) :
    Prop where
  keyed : ∀ row ∈ store.rows, row.get "owner" = .str service →
    ∃ key, routeKeyOf (.obj row.columns) = .ok key ∧ row.key = some key
  unedited : ∀ row ∈ store.rows, row.ownerName = .str service →
    row.isModified = false ∧ NoOverrides (row.get "userOverrides")
  undeclared : ∀ key v, announced routes key = some v → config.Declares key → service = "yaml"
  unrivalled : ∀ key v, announced routes key = some v →
    ∀ row ∈ store.rows, row.key = some key → row.ownerName = .str service

/-- The service has a row with this content under the key, and it is on. -/
def StoredAs (store : PathStore) (service key : String) (r : Obj) : Prop :=
  ∃ row ∈ store.rows, row.key = some key ∧ row.get "owner" = .str service ∧
    routeContent row.columns = routeContent r ∧ row.isEnabled = true

/-- Every row of the service whose key no valid route has is off. -/
def OthersDisabled (store : PathStore) (service : String) (routes : List Value) : Prop :=
  ∀ row ∈ store.rows, row.get "owner" = .str service →
    (∀ key, row.key = some key → announced routes key = none) → row.isEnabled = false

section Analysis

variable {config : GatewayConfig} {service key : String} {routes : List Value} {store : PathStore}
  {reserved : Obj} {row : StoredHttpPath} {diff : RouteDiff} {state : DiffState}

theorem overridesAt_none (hready : SyncReady config service routes store) {ex : Option StoredHttpPath}
    (hex : (byRouteKey (store.findByOwner service)).lookup key = ex) : overridesAt ex = .ok .none := by
  cases ex with
  | none => rfl
  | some row =>
      obtain ⟨hrow, howner, -⟩ := lookup_findByOwner.mp hex
      exact (hready.unedited row hrow (ownerName_of_owner howner)).2.read

/-- No announced key is another owner's. -/
theorem not_reserved (hready : SyncReady config service routes store)
    (hreserves : Reserves config store service routes reserved) {v : Value}
    (hannounced : announced routes key = some v) :
    (Obj.get reserved key).truthy = true → Obj.get reserved key = .str service := by
  unfold Obj.get
  by_cases hdeclared : config.Declares key
  · rw [hreserves.declared key hdeclared, hready.undeclared key v hannounced hdeclared]
    exact fun _ => rfl
  · obtain ⟨hmem, -, hkey⟩ := mem_of_announced hannounced
    rw [hreserves.looked key hdeclared ⟨v, hmem, hkey⟩, rivalOwner, List.find?_eq_none.mpr]
    · intro htruthy
      cases htruthy
    · intro row hrow
      obtain ⟨hrow, hrowKey⟩ := PathStore.mem_findByRouteKey.mp hrow
      rw [hready.unrivalled key v hannounced row hrow hrowKey]
      simp [Value.isText]

/-- The row of the service under an announced key is as the manifest wants it, or the key is written. -/
theorem announced_cases (hready : SyncReady config service routes store)
    (hreserves : Reserves config store service routes reserved)
    (hdiffed : Diffed service (byRouteKey (store.findByOwner service)) reserved routes state)
    {r : Obj} (hannounced : announced routes key = some (.obj r)) :
    (∃ row ∈ store.rows, row.get "owner" = .str service ∧ row.key = some key ∧
        routeContent r = routeContent row.columns ∧ row.isEnabled = true ∧
        key ∉ state.diff.upserts.map RouteUpsert.routeKey) ∨
      upsertOf service r key ((byRouteKey (store.findByOwner service)).lookup key) .none ∈
        state.diff.upserts := by
  obtain ⟨outcome, houtcome⟩ := hdiffed.decided key _ hannounced
  have hclassified := classified_of_ok houtcome
  generalize hex : (byRouteKey (store.findByOwner service)).lookup key = ex at hclassified ⊢
  have hnone := overridesAt_none hready hex
  cases hclassified with
  | collision htruthy hother => exact absurd (not_reserved hready hreserves hannounced htruthy) hother
  | skipped row hrow hmodified =>
      obtain ⟨hmem, howner, -⟩ := lookup_findByOwner.mp (hex.trans hrow)
      rw [(hready.unedited row hmem (ownerName_of_owner howner)).1] at hmodified
      cases hmodified
  | unchanged howner row hrow hmodified overrides hoverrides hsame =>
      obtain rfl := Except.ok.inj (hoverrides.symm.trans hnone)
      obtain ⟨hmem, howner, hkey, -⟩ := lookup_findByOwner.mp (hex.trans hrow)
      unfold isUnchanged at hsame
      rw [applyUserOverrides_none, Bool.and_eq_true, beq_iff_eq, beq_iff_eq] at hsame
      refine .inl ⟨row, hmem, howner, hkey, hsame.2, hsame.1.symm, fun hwritten => ?_⟩
      obtain ⟨u, hu, rfl⟩ := List.mem_map.mp hwritten
      obtain ⟨v, hv, hupsert⟩ := (hdiffed.upserts u).mp hu
      obtain rfl := Option.some.inj (hannounced.symm.trans hv)
      rw [houtcome] at hupsert
      cases hupsert
  | upsert howner hmodified overrides hoverrides hdiffers =>
      obtain rfl := Except.ok.inj (hoverrides.symm.trans hnone)
      refine .inr ((hdiffed.upserts _).mpr ?_)
      rw [routeKey_upsertOf]
      exact ⟨.obj r, hannounced, houtcome⟩

/-- Every upsert is one of an announced route. -/
theorem upsert_cases (hready : SyncReady config service routes store)
    (hdiffed : Diffed service (byRouteKey (store.findByOwner service)) reserved routes state)
    {u : RouteUpsert} (hu : u ∈ state.diff.upserts) :
    ∃ r, announced routes u.routeKey = some (.obj r) ∧
      u = upsertOf service r u.routeKey ((byRouteKey (store.findByOwner service)).lookup u.routeKey) .none := by
  obtain ⟨v, overrides, hv, -, -, hoverrides, hupsert⟩ := hdiffed.upsert hu
  obtain rfl := Except.ok.inj (hoverrides.symm.trans (overridesAt_none hready rfl))
  exact ⟨fieldsOf v, eq_obj_of_valid (mem_of_announced hv).2.1 ▸ hv, hupsert⟩

/-- The written keys are those of the upserts and of the disables. -/
theorem keys_writes (diff : RouteDiff) : diff.writes.map Prod.fst =
    diff.upserts.map RouteUpsert.routeKey ++ diff.disables.map RouteDisable.routeKey := by
  unfold RouteDiff.writes
  rw [List.map_append, List.map_map, List.map_map]
  rfl

/-- A diff can be applied to the table it was made for. -/
theorem applicable_of_diff (hready : SyncReady config service routes store)
    (hdiffed : Diffed service (byRouteKey (store.findByOwner service)) reserved routes state)
    (hupserts : diff.upserts = state.diff.upserts)
    (hdisables : diff.disables = disablesOf (byRouteKey (store.findByOwner service)) state.seen) :
    Applicable store service diff where
  distinct := by
    rw [keys_writes, hupserts, hdisables, List.nodup_append]
    refine ⟨hdiffed.distinct, ?_, ?_⟩
    · exact (indexes_byRouteKey (store.findByOwner service)).keys.sublist (keys_disablesOf _ _)
    · rintro k hk k' hk' rfl
      obtain ⟨u, hu, rfl⟩ := List.mem_map.mp hk
      obtain ⟨d, hd, hkey⟩ := List.mem_map.mp hk'
      obtain ⟨row, -, hseen, -⟩ := mem_disablesOf.mp hd
      obtain ⟨v, hv, -⟩ := (hdiffed.upserts u).mp hu
      exact hseen ((hdiffed.seen _).mpr ⟨v, hkey ▸ hv⟩)
  model u hu := by
    obtain ⟨r, -, hu⟩ := upsert_cases hready hdiffed (hupserts ▸ hu)
    rw [hu, model_upsertOf]
    exact own_upsertModel_routeKey
  update u hu id hid := by
    obtain ⟨r, -, hu⟩ := upsert_cases hready hdiffed (hupserts ▸ hu)
    rw [hu] at hid
    obtain ⟨row, hrow, rfl⟩ := Option.map_eq_some_iff.mp hid
    obtain ⟨hmem, -, hkey, -⟩ := lookup_findByOwner.mp hrow
    exact ⟨row, hmem, hkey, rfl⟩
  insert u hu _ row hrow hkey := by
    obtain ⟨r, hannounced, -⟩ := upsert_cases hready hdiffed (hupserts ▸ hu)
    exact hready.unrivalled _ _ hannounced row hrow hkey
  disable d hd := by
    rw [hdisables] at hd
    obtain ⟨row, hmem, -, -, hd⟩ := mem_disablesOf.mp hd
    have hsound := (indexes_byRouteKey _).sound _ hmem
    exact ⟨row, (PathStore.mem_findByOwner.mp hsound.1).1, hsound.2, by rw [hd]⟩

/-- No key of the manifest is another owner's. -/
theorem no_collisions (hready : SyncReady config service routes store)
    (hreserves : Reserves config store service routes reserved)
    (hdiffed : Diffed service (byRouteKey (store.findByOwner service)) reserved routes state) {c : RouteRefusal}
    (hc : c ∈ state.diff.collisions) : False := by
  obtain ⟨howner, htruthy, hother, v, hannounced⟩ := hdiffed.collision hc
  obtain ⟨hmem, -, hkey⟩ := mem_of_announced hannounced
  obtain ⟨hyaml, hrival⟩ := hreserves.get_eq ⟨v, hmem, hkey⟩
  rw [howner] at htruthy hother
  by_cases hdeclared : config.Declares c.routeKey
  · rw [hyaml hdeclared, hready.undeclared _ v hannounced hdeclared] at hother
    exact hother rfl
  · rw [hrival hdeclared] at htruthy
    unfold rivalOwner at htruthy
    cases hfind : (store.findByRouteKey c.routeKey).find? fun row => !row.ownerName.isText service with
    | none =>
        rw [hfind] at htruthy
        cases htruthy
    | some row =>
        obtain ⟨hrow, hrowKey⟩ := PathStore.mem_findByRouteKey.mp (List.mem_of_find?_eq_some hfind)
        have hforeign := List.find?_some (p := fun row => !(StoredHttpPath.ownerName row).isText service) hfind
        rw [hready.unrivalled _ v hannounced row hrow hrowKey, Bool.not_eq_true', ← Bool.not_eq_true] at hforeign
        exact hforeign ((Value.isText_iff _ _).mpr rfl)

end Analysis

/-! ## The table behind the manifest -/

section Applied

variable {config : GatewayConfig} {service key : String} {routes : List Value} {store store₁ : PathStore}
  {reserved : Obj} {diff : RouteDiff}

/-- A diff that was made for this table and has been applied to it. -/
structure SyncedTo (config : GatewayConfig) (service : String) (routes : List Value) (store store₁ : PathStore)
    (diff : RouteDiff) (state : DiffState) (reserved : Obj) : Prop where
  ready : SyncReady config service routes store
  reserves : Reserves config store service routes reserved
  diffed : Diffed service (byRouteKey (store.findByOwner service)) reserved routes state
  upserts : diff.upserts = state.diff.upserts
  disables : diff.disables = disablesOf (byRouteKey (store.findByOwner service)) state.seen
  patched : Patched store diff.writes store₁

variable {state : DiffState}

/-- A written column reads as the patch has it. -/
theorem get_of_written {row : StoredHttpPath} {columns patch : Obj} {k : String} {v : Value}
    (hcolumns : row.columns = Obj.assign columns patch) (hk : k ≠ "_id") (hown : Obj.own patch k = some v) :
    row.get k = v := by
  rw [row.get_of_ne hk, hcolumns, Obj.get_assign, hown]
  rfl

/-- A column that the patch leaves out. -/
theorem get_of_kept {row : StoredHttpPath} {columns patch : Obj} {k : String}
    (hcolumns : row.columns = Obj.assign columns patch) (hk : k ≠ "_id") (hown : Obj.own patch k = none) :
    row.get k = Obj.get columns k := by
  rw [row.get_of_ne hk, hcolumns, Obj.get_assign, hown]
  rfl

theorem isEnabled_of_get {row : StoredHttpPath} {b : Bool} (h : row.get "enabled" = .bool b) :
    row.isEnabled = b := by
  unfold StoredHttpPath.isEnabled
  rw [h]

/-- Where the rows of the new table come from. -/
theorem SyncedTo.cases (h : SyncedTo config service routes store store₁ diff state reserved)
    {row : StoredHttpPath} (hrow : row ∈ store₁.rows) :
    (row ∈ store.rows ∧ ∀ kp ∈ diff.writes, row.key ≠ some kp.1) ∨
      (∃ key r, announced routes key = some (.obj r) ∧ row.key = some key ∧
        row.columns = Obj.assign (store.columnsAt key) (upsertModel service key r true .none)) ∨
      ∃ old ∈ store.rows, old.key = row.key ∧ row.columns = Obj.assign old.columns disablePatch ∧
        ∀ key, row.key = some key → announced routes key = none := by
  rcases h.patched.cases hrow with hold | ⟨kp, hkp, hkey, hcolumns⟩
  · exact .inl hold
  · rcases List.mem_append.mp hkp with hkp | hkp
    · obtain ⟨u, hu, rfl⟩ := List.mem_map.mp hkp
      obtain ⟨r, hannounced, hu⟩ := upsert_cases h.ready h.diffed (h.upserts ▸ hu)
      refine .inr (.inl ⟨u.routeKey, r, hannounced, hkey, ?_⟩)
      have hwrite := congrArg RouteUpsert.write hu
      rw [write_upsertOf] at hwrite
      rw [hwrite] at hcolumns
      exact hcolumns
    · obtain ⟨d, hd, rfl⟩ := List.mem_map.mp hkp
      rw [h.disables] at hd
      obtain ⟨old, hold, hseen, -, -⟩ := mem_disablesOf.mp hd
      have hsound := (indexes_byRouteKey _).sound _ hold
      have holdMem : old ∈ store.rows := (PathStore.mem_findByOwner.mp hsound.1).1
      have holdKey : old.key = some d.routeKey := hsound.2
      refine .inr (.inr ⟨old, holdMem, holdKey.trans hkey.symm, ?_, fun key hrowKey => ?_⟩)
      · rw [← PathStore.columnsAt_of_mem holdMem holdKey]
        exact hcolumns
      · obtain rfl := Option.some.inj (hkey.symm.trans hrowKey)
        cases hannounced : announced routes d.write.1 with
        | none => rfl
        | some v => exact absurd ((h.diffed.seen _).mpr ⟨v, hannounced⟩) hseen

/-- **One announced route.**  Its row ends with the manifest's content, and on, exactly when the row that
was there held the defaults in the fields the manifest leaves out. -/
theorem SyncedTo.storedAs_iff (h : SyncedTo config service routes store store₁ diff state reserved) {r : Obj}
    (hannounced : announced routes key = some (.obj r)) :
    StoredAs store₁ service key r ↔
      ∀ row ∈ store.rows, row.key = some key → LeftOutAtDefault r row.columns := by
  rcases announced_cases h.ready h.reserves h.diffed hannounced with
    ⟨row, hrow, howner, hkey, hcontent, henabled, hunwritten⟩ | hupsert
  · refine iff_of_true ⟨row, (h.patched.mem hrow hkey ?_), hkey, howner, hcontent.symm, henabled⟩ ?_
    · rw [keys_writes, h.upserts, List.mem_append, not_or]
      refine ⟨hunwritten, fun hdisabled => ?_⟩
      obtain ⟨d, hd, rfl⟩ := List.mem_map.mp hdisabled
      rw [h.disables] at hd
      obtain ⟨-, -, hseen, -⟩ := mem_disablesOf.mp hd
      exact hseen ((h.diffed.seen _).mpr ⟨_, hannounced⟩)
    · intro row' hrow' hkey'
      obtain rfl := PathStore.eq_of_key hrow hrow' hkey hkey'
      exact leftOutAtDefault_of_content hcontent
  · have hwrite := List.mem_append_left (diff.disables.map RouteDisable.write)
      (List.mem_map_of_mem (f := RouteUpsert.write) (h.upserts ▸ hupsert))
    rw [write_upsertOf] at hwrite
    obtain ⟨row, hrow, hkey, hcolumns⟩ := h.patched.written _ hwrite
    dsimp only at hkey hcolumns
    have hcontent : routeContent row.columns = routeContent r ↔ LeftOutAtDefault r (store.columnsAt key) := by
      rw [hcolumns]
      exact routeContent_patched_iff
    constructor
    · rintro ⟨row', hrow', hkey', -, hcontent', -⟩ old hold holdKey
      obtain rfl := PathStore.eq_of_key hrow hrow' hkey hkey'
      rw [← PathStore.columnsAt_of_mem hold holdKey]
      exact hcontent.mp hcontent'
    · intro hleft
      refine ⟨row, hrow, hkey, get_of_written hcolumns (by decide) own_upsertModel_owner, hcontent.mpr ?_,
        isEnabled_of_get (get_of_written hcolumns (by decide) own_upsertModel_enabled)⟩
      by_cases htaken : ∃ old ∈ store.rows, old.key = some key
      · obtain ⟨old, hold, holdKey⟩ := htaken
        rw [PathStore.columnsAt_of_mem hold holdKey]
        exact hleft old hold holdKey
      · rw [PathStore.columnsAt_of_free fun old hold holdKey => htaken ⟨old, hold, holdKey⟩]
        exact fun _ _ _ => rfl

/-- The rows the manifest does not name are off. -/
theorem SyncedTo.othersDisabled (h : SyncedTo config service routes store store₁ diff state reserved) :
    OthersDisabled store₁ service routes := by
  intro row hrow howner hunannounced
  rcases h.cases hrow with ⟨hold, hunwritten⟩ | ⟨key, r, hannounced, hkey, -⟩ | ⟨old, -, -, hcolumns, -⟩
  · obtain ⟨key, hkeyOf, hkey⟩ := h.ready.keyed row hold howner
    by_contra henabled
    have hlookup : (byRouteKey (store.findByOwner service)).lookup key = some row :=
      lookup_findByOwner.mpr ⟨hold, howner, hkey, routeKeyOf_ne_empty hkeyOf⟩
    have hseen : key ∉ state.seen := by
      rw [h.diffed.seen, hunannounced key hkey]
      exact fun ⟨v, hv⟩ => Option.some_ne_none v hv.symm
    have hdisable : (⟨row._id, key, row.get "method", row.get "path"⟩ : RouteDisable) ∈ diff.disables := by
      rw [h.disables]
      exact mem_disablesOf.mpr
        ⟨row, AssocList.mem_of_lookup hlookup, hseen, Bool.eq_true_of_not_eq_false henabled, rfl⟩
    exact hunwritten _ (List.mem_append_right _ (List.mem_map_of_mem hdisable)) hkey
  · rw [hunannounced key hkey] at hannounced
    cases hannounced
  · exact isEnabled_of_get (get_of_written hcolumns (by decide) rfl)

/-- Nothing the sync writes looks like a user's edit. -/
theorem SyncedTo.unedited (h : SyncedTo config service routes store store₁ diff state reserved)
    {row : StoredHttpPath} (hrow : row ∈ store₁.rows) (howner : row.ownerName = .str service) :
    row.isModified = false ∧ NoOverrides (row.get "userOverrides") := by
  rcases h.cases hrow with ⟨hold, -⟩ | ⟨key, r, -, -, hcolumns⟩ | ⟨old, hold, -, hcolumns, -⟩
  · exact h.ready.unedited row hold howner
  · have hmodified := get_of_written hcolumns (by decide) own_upsertModel_modified
    unfold StoredHttpPath.isModified
    rw [hmodified, get_of_written hcolumns (by decide) own_upsertModel_userOverrides]
    exact ⟨rfl, .inr rfl⟩
  · have hkept (k : String) (hk : k ≠ "_id") (hown : Obj.own disablePatch k = none) : row.get k = old.get k :=
      (get_of_kept hcolumns hk hown).trans (old.get_of_ne hk).symm
    have holdOwner : old.ownerName = .str service := by
      rw [← howner]
      unfold StoredHttpPath.ownerName
      rw [hkept "owner" (by decide) rfl]
    have hunedited := h.ready.unedited old hold holdOwner
    unfold StoredHttpPath.isModified at hunedited ⊢
    rw [hkept "modified" (by decide) rfl, hkept "userOverrides" (by decide) rfl]
    exact hunedited

/-- **The same manifest again.**  Over a table that has its content, it changes nothing. -/
theorem unchanged_of_converged (hstored : ∀ key r, announced routes key = some (.obj r) →
      StoredAs store service key r)
    (hothers : OthersDisabled store service routes)
    (hunedited : ∀ row ∈ store.rows, row.ownerName = .str service →
      row.isModified = false ∧ NoOverrides (row.get "userOverrides"))
    (hdiff : diffRoutes service routes (store.findByOwner service) reserved = .ok diff) :
    diff.changed = false := by
  obtain ⟨state, hdiffed, hupserts, hdisables, -⟩ := diffRoutes_spec hdiff
  -- an upsert is of a row that differs, and none does
  have hnoUpserts : diff.upserts = [] := by
    rw [hupserts, List.eq_nil_iff_forall_not_mem]
    intro u hu
    obtain ⟨v, hv, hupsert⟩ := (hdiffed.upserts u).mp hu
    have hobj := eq_obj_of_valid (mem_of_announced hv).2.1
    obtain ⟨row, hrow, hkey, howner, hcontent, henabled⟩ := hstored u.routeKey (fieldsOf v) (hobj ▸ hv)
    have hne := routeKeyOf_ne_empty (mem_of_announced hv).2.2
    have hlookup := lookup_findByOwner.mpr ⟨hrow, howner, hkey, hne⟩
    have hclassified := classified_of_ok hupsert
    rw [hlookup] at hclassified
    generalize houtcome : RouteOutcome.upsert u = outcome at hclassified
    cases hclassified with
    | upsert howner' hmodified overrides hoverrides hdiffers =>
        have hnone : overridesAt (some row) = .ok .none :=
          (hunedited row hrow (ownerName_of_owner howner)).2.read
        obtain rfl := Except.ok.inj (hoverrides.symm.trans hnone)
        have hsame := hdiffers row rfl
        unfold isUnchanged at hsame
        rw [applyUserOverrides_none, hcontent, henabled, beq_self_eq_true, Bool.and_true] at hsame
        cases hsame
    | collision => cases houtcome
    | skipped => cases houtcome
    | unchanged => cases houtcome
  -- a disable is of an enabled row that nothing announces, and those are disabled
  have hnoDisables : diff.disables = [] := by
    rw [hdisables, List.eq_nil_iff_forall_not_mem]
    intro d hd
    obtain ⟨row, hmem, hseen, henabled, -⟩ := mem_disablesOf.mp hd
    have hsound := (indexes_byRouteKey _).sound _ hmem
    obtain ⟨hrow, howner⟩ := PathStore.mem_findByOwner.mp hsound.1
    have hdisabled := hothers row hrow howner fun key hkey => ?_
    · rw [hdisabled] at henabled
      cases henabled
    · obtain rfl := Option.some.inj (hsound.2.symm.trans hkey)
      cases hannounced : announced routes d.routeKey with
      | none => rfl
      | some v => exact absurd ((hdiffed.seen _).mpr ⟨v, hannounced⟩) hseen
  unfold RouteDiff.changed
  rw [hnoUpserts, hnoDisables]
  rfl

end Applied

/-! ## Two handlings -/

/-- `handle` applies its diff: the repository answers, and nothing else in the manifest or the
configuration makes it throw. -/
def AppliesDiff (env : PathEnv) (config : GatewayConfig) (service : String) (routes : List Value)
    (w : PathWorld) : Prop :=
  env.Answers ∧ ((sync config service routes).run env.service w).1 = .ok ()

/-- The world behind one `handle`. -/
def handled (env : PathEnv) (config : GatewayConfig) (manifest : RouteManifest) (w : PathWorld) : PathWorld :=
  ((handle config manifest).run env.service w).2

/-- Handling the manifest settles: its routes are stored with its content and on, the service's other rows
are off, and handling it again finds nothing changed and publishes no reload. -/
structure Converges (env : PathEnv) (config : GatewayConfig) (manifest : RouteManifest) (service : String)
    (w : PathWorld) : Prop where
  stored : ∀ key r, announced manifest.list key = some (.obj r) →
    StoredAs (handled env config manifest w).store service key r
  others : OthersDisabled (handled env config manifest w).store service manifest.list
  unchanged : ∃ diff, ((plan config service manifest.list).run env.service
    (handled env config manifest w)).1 = .ok diff ∧ diff.changed = false
  noReload : ∃ ops, (handled env config manifest (handled env config manifest w)).asked =
    (handled env config manifest w).asked ++ ops ∧ ∀ topic, PathOp.publishReload topic ∉ ops

section Handled

variable {env : PathEnv} {config : GatewayConfig} {manifest : RouteManifest} {service : String} {w : PathWorld}

theorem handled_eq (hservice : manifest.service = some service) (hnamed : service ≠ "") :
    handled env config manifest w = ((sync config service manifest.list).run env.service w).2 := by
  unfold handled handle
  rw [hservice]
  dsimp only
  rw [if_neg hnamed, run_tryCatch]
  rcases (sync config service manifest.list).run env.service w with ⟨e | a, w'⟩
  · dsimp only
    rw [run_ofExcept]
  · rfl

/-- The table behind a `handle` that applied its diff. -/
theorem exists_syncedTo {routes : List Value} (hready : SyncReady config service routes w.store)
    (happlies : AppliesDiff env config service routes w) :
    ∃ diff state reserved, SyncedTo config service routes w.store
      ((sync config service routes).run env.service w).2.store diff state reserved := by
  obtain ⟨hanswers, hok⟩ := happlies
  have hplan : Ends _ _ ((plan config service routes).run env.service w) :=
    triple_plan config service routes w w rfl
  unfold sync at hok ⊢
  rw [run_bind] at hok ⊢
  generalize (plan config service routes).run env.service w = planned at hplan hok ⊢
  rcases planned with ⟨e | diff, w'⟩
  · cases hok
  · obtain ⟨hlooking, reserved, hreserves, hdiff⟩ := hplan
    obtain ⟨state, hdiffed, hupserts, hdisables, -⟩ := diffRoutes_spec hdiff
    have happlicable := applicable_of_diff hready hdiffed hupserts hdisables
    have happly : Ends _ _ ((applyDiff config service diff).run env.service w') :=
      triple_applyDiff (F := True) hanswers (fun _ => trivial) (fun _ _ _ => trivial) happlicable w' hlooking.1
    change ((applyDiff config service diff).run env.service w').1 = .ok () at hok
    refine ⟨diff, state, reserved, hready, hreserves, hdiffed, hupserts, hdisables, ?_⟩
    show Patched w.store diff.writes ((applyDiff config service diff).run env.service w').2.store
    generalize (applyDiff config service diff).run env.service w' = applied at happly hok ⊢
    rcases applied with ⟨e | a, w''⟩
    · cases hok
    · exact happly

/-- The routes and the configuration had readable keys. -/
theorem exists_keys {routes : List Value} (happlies : AppliesDiff env config service routes w) :
    (∃ yaml, reserveYaml config = .ok yaml) ∧ ∀ r ∈ routes, ∃ key, routeKeyOf r = .ok key := by
  have hplan : Ends _ _ ((plan config service routes).run env.service w) :=
    triple_plan config service routes w w rfl
  have hok := happlies.2
  unfold sync at hok
  rw [run_bind] at hok
  generalize (plan config service routes).run env.service w = planned at hplan hok
  rcases planned with ⟨e | diff, w'⟩
  · cases hok
  · obtain ⟨-, reserved, hreserves, -⟩ := hplan
    exact ⟨hreserves.yaml, hreserves.keyed⟩

/-- With readable keys and overrides, and a repository that answers, a plan returns. -/
theorem plan_returns {routes : List Value} (hanswers : env.Answers)
    (hkeys : (∃ yaml, reserveYaml config = .ok yaml) ∧ ∀ r ∈ routes, ∃ key, routeKeyOf r = .ok key)
    (hoverrides : ∀ row ∈ w.store.rows, row.ownerName = .str service → NoOverrides (row.get "userOverrides")) :
    ∃ diff w', (plan config service routes).run env.service w = (.ok diff, w') ∧ Looking w w' ∧
      ∃ reserved, Reserves config w.store service routes reserved ∧
        diffRoutes service routes (w.store.findByOwner service) reserved = .ok diff := by
  have hplan : Ends _ _ ((plan config service routes).run env.service w) :=
    triple_plan config service routes w w rfl
  generalize (plan config service routes).run env.service w = planned at hplan
  rcases planned with ⟨e | diff, w'⟩
  · obtain ⟨-, hfails⟩ := hplan
    cases hfails with
    | read asked op hop e he =>
        have honPaths : op.isOnPaths = true := by cases op <;> first | rfl | cases hop
        rw [hanswers asked op honPaths] at he
        cases he
    | yaml e he =>
        obtain ⟨yaml, hyaml⟩ := hkeys.1
        rw [hyaml] at he
        cases he
    | key r hr e he =>
        obtain ⟨key, hkey⟩ := hkeys.2 r hr
        rw [hkey] at he
        cases he
    | diff reserved e he =>
        have hread : ∀ row ∈ w.store.findByOwner service,
            ∃ overrides, readOverrides (row.get "userOverrides") = .ok overrides := by
          intro row hrow
          obtain ⟨hrow, howner⟩ := PathStore.mem_findByOwner.mp hrow
          exact ⟨_, (hoverrides row hrow (ownerName_of_owner howner)).read⟩
        obtain ⟨diff, hdiff⟩ := exists_diffRoutes service reserved hkeys.2 hread
        rw [hdiff] at he
        cases he
  · exact ⟨diff, w', rfl, hplan⟩

/-- When the diff is applied: the keys are readable, the repository answers, and what the journal and the broker
fail with prints. -/
theorem appliesDiff_of_keys {routes : List Value} (hanswers : env.Answers) (hreads : env.Reads)
    (hready : SyncReady config service routes w.store)
    (hkeys : (∃ yaml, reserveYaml config = .ok yaml) ∧ ∀ r ∈ routes, ∃ key, routeKeyOf r = .ok key) :
    AppliesDiff env config service routes w := by
  obtain ⟨diff, w', hplan, hlooking, reserved, hreserves, hdiff⟩ := plan_returns hanswers hkeys
    fun row hrow howner => (hready.unedited row hrow howner).2
  obtain ⟨state, hdiffed, hupserts, hdisables, hcollisions⟩ := diffRoutes_spec hdiff
  have hnone : ∀ c ∈ diff.collisions, prints c.conflictWith = false → False :=
    fun c hc _ => no_collisions hready hreserves hdiffed (hcollisions ▸ hc)
  have happly : Ends _ _ ((applyDiff config service diff).run env.service w') :=
    triple_applyDiff hanswers hreads.not_unreadable hnone
      (applicable_of_diff hready hdiffed hupserts hdisables) w' hlooking.1
  refine ⟨hanswers, ?_⟩
  unfold sync
  rw [run_bind_of_ok _ hplan]
  generalize (applyDiff config service diff).run env.service w' = applied at happly ⊢
  rcases applied with ⟨e | a, w''⟩
  · exact happly.elim
  · rfl

/-- Applying a diff without changes broadcasts nothing. -/
theorem noReload_of_unchanged {diff : RouteDiff} (hunchanged : diff.changed = false) (w₀ : PathWorld) :
    Keeps env.service (fun w => ∃ ops, w.asked = w₀.asked ++ ops ∧ ∀ topic, PathOp.publishReload topic ∉ ops)
      (applyDiff config service diff) := by
  refine keeps_applyDiff fun w op => ?_
  rintro ⟨ops, hasked, hno⟩ hasks
  refine ⟨ops ++ [op], by rw [asked_service, hasked, List.append_assoc], fun topic hmem => ?_⟩
  rcases List.mem_append.mp hmem with hmem | hmem
  · exact hno topic hmem
  · rw [← List.mem_singleton.mp hmem] at hasks
    cases hasks with
    | reload _ hchanged =>
        rw [hunchanged] at hchanged
        cases hchanged

/-- **Route sync converges, and is idempotent, exactly when no field is left out that the row holds.** -/
theorem sync_converges_iff (hservice : manifest.service = some service) (hnamed : service ≠ "")
    (hready : SyncReady config service manifest.list w.store)
    (happlies : AppliesDiff env config service manifest.list w) :
    Converges env config manifest service w ↔
      ∀ key r, announced manifest.list key = some (.obj r) →
        ∀ row ∈ w.store.rows, row.key = some key → LeftOutAtDefault r row.columns := by
  obtain ⟨diff, state, reserved, hsynced⟩ := exists_syncedTo hready happlies
  have hhandled : handled env config manifest w = _ := handled_eq hservice hnamed
  constructor
  · intro hconverges key r hannounced
    have hstored := hconverges.stored key r hannounced
    rw [hhandled] at hstored
    exact (hsynced.storedAs_iff hannounced).mp hstored
  · intro hleft
    have hstored : ∀ key r, announced manifest.list key = some (.obj r) →
        StoredAs (handled env config manifest w).store service key r := by
      intro key r hannounced
      rw [hhandled]
      exact (hsynced.storedAs_iff hannounced).mpr (hleft key r hannounced)
    have hothers : OthersDisabled (handled env config manifest w).store service manifest.list := by
      rw [hhandled]
      exact hsynced.othersDisabled
    have hunedited : ∀ row ∈ (handled env config manifest w).store.rows, row.ownerName = .str service →
        row.isModified = false ∧ NoOverrides (row.get "userOverrides") := by
      rw [hhandled]
      exact fun row hrow => hsynced.unedited hrow
    obtain ⟨diff', w', hplan, hlooking, reserved', -, hdiff⟩ := plan_returns happlies.1
      (exists_keys happlies) fun row hrow howner => (hunedited row hrow howner).2
    have hunchanged := unchanged_of_converged hstored hothers hunedited hdiff
    refine ⟨hstored, hothers, ⟨diff', by rw [hplan], hunchanged⟩, ?_⟩
    rw [handled_eq (w := handled env config manifest w) hservice hnamed]
    unfold sync
    rw [run_bind_of_ok _ hplan]
    refine (noReload_of_unchanged hunchanged (handled env config manifest w)).state ?_
    obtain ⟨-, ops, hasked, hreads⟩ := hlooking
    refine ⟨ops, hasked, fun topic hmem => ?_⟩
    cases hreads _ hmem

end Handled

section Examples

/-- A route as its service announces it. -/
def listRoute : Obj :=
  [("name", .str "list"), ("method", .str "GET"), ("path", .str "/docs"), ("dataSource", .str "query"),
    ("topic", .str "docs"), ("action", .str "list"), ("mode", .str "rpc")]

/-- The same route, announced with a timeout. -/
def timedRoute (timeout : Int) : Obj := listRoute ++ [("timeout", .num timeout)]

/-- The table behind a manifest that had a timeout. -/
def timedStore : PathStore where
  rows := [{ _id := "1", columns := upsertModel "docs" "GET /docs" (timedRoute 5000) true .none }]
  ids := by decide
  keys := by
    intro a ha b hb _ _
    rw [List.mem_singleton.mp ha, List.mem_singleton.mp hb]

/-- A manifest of the service. -/
def docsManifest (r : Obj) : RouteManifest := { service := some "docs", routes := .arr [.obj r] }

theorem ready_timedStore (r : Obj) :
    SyncReady {} "docs" (docsManifest r).list timedStore := by
  refine ⟨?_, ?_, fun key v _ hdeclared => ?_, ?_⟩
  · intro row hrow _
    rw [List.mem_singleton.mp hrow]
    exact ⟨"GET /docs", rfl, rfl⟩
  · intro row hrow _
    rw [List.mem_singleton.mp hrow]
    exact ⟨rfl, .inr rfl⟩
  · obtain ⟨p, hp, -⟩ := hdeclared
    cases hp
  · intro key v _ row hrow _
    rw [List.mem_singleton.mp hrow]
    rfl

theorem applies_timedStore {r : Obj} (hkey : routeKeyOf (.obj r) = .ok "GET /docs") :
    AppliesDiff .calm {} "docs" (docsManifest r).list { store := timedStore } := by
  refine appliesDiff_of_keys (fun _ _ _ => rfl) nofun (ready_timedStore r) ⟨⟨[], rfl⟩, fun v hv => ?_⟩
  rw [List.mem_singleton.mp hv]
  exact ⟨"GET /docs", hkey⟩

/-- A route that is announced again without its timeout keeps it. -/
theorem not_converges_leftOutTimeout :
    ¬ ∀ (env : PathEnv) (config : GatewayConfig) (manifest : RouteManifest) (service : String) (w : PathWorld),
      manifest.service = some service → service ≠ "" → SyncReady config service manifest.list w.store →
      AppliesDiff env config service manifest.list w → Converges env config manifest service w := by
  intro h
  have hready := ready_timedStore listRoute
  have happlies := applies_timedStore (r := listRoute) rfl
  have hconverges := h .calm {} (docsManifest listRoute) "docs" { store := timedStore } rfl (by decide)
    hready happlies
  have hstored := hconverges.stored "GET /docs" listRoute rfl
  rw [handled_eq rfl (by decide)] at hstored
  obtain ⟨diff, state, reserved, hsynced⟩ := exists_syncedTo hready happlies
  have hleft := (hsynced.storedAs_iff rfl).mp hstored _ (.head _) rfl ("timeout", some .null)
    (by simp [canonicalDefaults]) rfl
  exact absurd hleft (by decide)

/-- A manifest that changes the timeout converges. -/
theorem sync_converges_changedTimeout :
    Converges .calm {} (docsManifest (timedRoute 6000)) "docs" { store := timedStore } := by
  refine (sync_converges_iff rfl (by decide) (ready_timedStore _) (applies_timedStore rfl)).mpr ?_
  intro key r hannounced row hrow _ field hfield hleft
  obtain rfl := Value.obj.inj (List.mem_singleton.mp (mem_of_announced hannounced).1)
  rw [List.mem_singleton.mp hrow]
  apply fieldText_congr
  unfold Obj.get timedRoute at *
  rw [Obj.own_concat] at hleft
  rw [own_upsertModel_of_canonical hfield, Obj.own_concat]
  split at hleft
  · cases hleft
  · rw [if_neg ‹_›, hleft, Obj.own_nil]

end Examples

end NestAmqp.Gateway
