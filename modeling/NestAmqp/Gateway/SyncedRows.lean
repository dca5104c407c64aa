/-
# NestAmqp.Gateway.SyncedRows — everything that handling a manifest can do to the stored paths.

A manifest writes over a stored row in three ways only: with the route it announces under the row's key,
by adopting a row without an owner when the service calls itself `manual`, or by switching off a row whose
key it does not announce.  It inserts rows under announced keys, and removes none.  `handle_spec` says
so for every manifest, every table and every failure of the repository: it is where the results about
runs of manifests get all they know of one manifest.
-/
import NestAmqp.Gateway.RouteSync

namespace NestAmqp.Gateway

open NestAmqp.Js NestAmqp.Lib NestAmqp.Lib.Script

/-! ## Writes -/

/-- The patches that a manifest of a service can write over a row. -/
inductive Overwrites (config : GatewayConfig) (service : String) (routes : List Value) (row : StoredHttpPath) :
    Obj → Prop
  | upsert (key : String) (v : Value) (overrides : Overrides) (hkey : row.key = some key)
      (howner : row.get "owner" = .str service) (hannounced : announced routes key = some v)
      (hfree : config.Declares key → service = "yaml") (hmodified : row.isModified = false)
      (hoverrides : readOverrides (row.get "userOverrides") = .ok overrides) :
      Overwrites config service routes row (upsertOf service (fieldsOf v) key (some row) overrides).model
  | adopt (key : String) (v : Value) (hkey : row.key = some key) (hmanual : service = "manual")
      (howner : (row.get "owner").nullish = true) (hannounced : announced routes key = some v)
      (hfree : ¬ config.Declares key) :
      Overwrites config service routes row (upsertOf service (fieldsOf v) key none .none).model
  | disable (key : String) (hkey : row.key = some key) (hnamed : key ≠ "")
      (howner : row.get "owner" = .str service) (habsent : announced routes key = none)
      (henabled : row.isEnabled = true) :
      Overwrites config service routes row [("enabled", .bool false)]

/-- The rows that a manifest of a service can insert into a table. -/
inductive Inserts (config : GatewayConfig) (service : String) (routes : List Value) (store : PathStore) :
    Obj → Prop
  | route (key : String) (v : Value) (hannounced : announced routes key = some v)
      (hfree : config.Declares key → service = "yaml")
      (hunowned : ∀ row ∈ store.rows, row.key = some key → row.get "owner" ≠ .str service) :
      Inserts config service routes store (upsertOf service (fieldsOf v) key none .none).model

/-- A row that a manifest of the service can have become. -/
structure Evolved (config : GatewayConfig) (service : String) (routes : List Value)
    (row₀ row : StoredHttpPath) : Prop where
  id : row._id = row₀._id
  key : row.key = row₀.key
  owner : row.ownerName = row₀.ownerName
  columns : ∀ k, row.get k = row₀.get k ∨
    ∃ patch, Overwrites config service routes row₀ patch ∧ Obj.own patch k = some (row.get k)
  last : row = row₀ ∨ ∃ patch, Overwrites config service routes row₀ patch ∧
    ∀ k v, k ≠ "_id" → Obj.own patch k = some v → row.get k = v

/-- A row that a manifest of the service has inserted. -/
structure Discovered (config : GatewayConfig) (service : String) (routes : List Value) (store : PathStore)
    (row : StoredHttpPath) : Prop where
  new : ∀ r ∈ store.rows, r._id ≠ row._id
  route : ∃ key v, row.key = some key ∧ announced routes key = some v ∧
    row.get "method" = Obj.get (fieldsOf v) "method" ∧ row.get "path" = Obj.get (fieldsOf v) "path"
  owner : row.get "owner" = .str service
  overrides : row.get "userOverrides" = .arr []

/-- What a manifest of the service can ask for over a table. -/
inductive SyncAsks (config : GatewayConfig) (service : String) (routes : List Value) (store : PathStore) :
    PathOp → Prop
  | read (op : PathOp) (hread : op.isRead = true) : SyncAsks config service routes store op
  | beside (op : PathOp) (hbeside : op.isOnPaths = false) : SyncAsks config service routes store op
  | insert (model : Obj) (hinserts : Inserts config service routes store model) :
      SyncAsks config service routes store (.insert model)
  | update (row : StoredHttpPath) (hrow : row ∈ store.rows) (patch : Obj)
      (hoverwrites : Overwrites config service routes row patch) :
      SyncAsks config service routes store (.updateById (.str row._id) patch)
  | settle (id : String) (hnew : ∀ row ∈ store.rows, row._id ≠ id) (patch : Obj) :
      SyncAsks config service routes store (.updateById (.str id) patch)

/-- The table and the log, behind a manifest of the service. -/
structure Synced (config : GatewayConfig) (service : String) (routes : List Value) (w₀ w : PathWorld) :
    Prop where
  old : ∀ row₀ ∈ w₀.store.rows, ∃ row ∈ w.store.rows, Evolved config service routes row₀ row
  new : ∀ row ∈ w.store.rows, (∃ row₀ ∈ w₀.store.rows, row₀._id = row._id) ∨
    Discovered config service routes w₀.store row
  asked : ∃ ops, w.asked = w₀.asked ++ ops ∧ ∀ op ∈ ops, SyncAsks config service routes w₀.store op

/-- The operation names this row to write it. -/
def PathOp.writes (op : PathOp) (id : String) : Bool :=
  match op with
  | .updateById v _ | .removeById v => v.isText id
  | _ => false

/-- Nothing that was asked for since names the row, and it is as it was. -/
structure Untouched (row : StoredHttpPath) (w₀ w : PathWorld) : Prop where
  stored : row ∈ w.store.rows
  asked : ∃ ops, w.asked = w₀.asked ++ ops ∧ ∀ op ∈ ops, op.writes row._id = false

/-! ## What a patch keeps -/

section Patch

variable {config : GatewayConfig} {service key : String} {routes : List Value} {store : PathStore}
  {row row₀ : StoredHttpPath} {patch : Obj}

theorem StoredHttpPath.key_patched (row : StoredHttpPath) (h : Obj.own patch "routeKey" = some (.str key)) :
    (row.patched patch).key = some key := by
  unfold StoredHttpPath.key StoredHttpPath.patched
  rw [keyText_eq_some, Obj.get_assign, h]
  rfl

theorem StoredHttpPath.key_patched_of_none (row : StoredHttpPath) (h : Obj.own patch "routeKey" = none) :
    (row.patched patch).key = row.key := by
  unfold StoredHttpPath.key StoredHttpPath.patched keyText
  rw [Obj.get_assign, h]
  rfl

theorem StoredHttpPath.ownerName_patched (row : StoredHttpPath) :
    (row.patched patch).ownerName = ((Obj.own patch "owner").getD (row.get "owner")).coalesce
    (.str "manual") := by
  unfold StoredHttpPath.ownerName
  rw [row.get_patched patch (by decide)]

/-- A row counts as the service's because it names it, or because it names none and the service is
`manual`. -/
theorem ownerName_eq_iff : row.ownerName = .str service ↔
    row.get "owner" = .str service ∨ ((row.get "owner").nullish = true ∧ service = "manual") := by
  unfold StoredHttpPath.ownerName
  cases row.get "owner" <;> simp [Value.coalesce, Value.nullish, eq_comm]

theorem key_of_upsertOf (r : Obj) (ex : Option StoredHttpPath) (overrides : Overrides) :
    Obj.own (upsertOf service r key ex overrides).model "routeKey" = some (.str key) := by
  rw [model_upsertOf]
  exact own_upsertModel_routeKey

theorem owner_of_upsertOf (r : Obj) (ex : Option StoredHttpPath) (overrides : Overrides) :
    Obj.own (upsertOf service r key ex overrides).model "owner" = some (.str service) := by
  rw [model_upsertOf]
  exact own_upsertModel_owner

theorem userOverrides_of_upsertOf (r : Obj) (ex : Option StoredHttpPath) (overrides : Overrides) :
    Obj.own (upsertOf service r key ex overrides).model "userOverrides" = some overrides.stored := by
  rw [model_upsertOf]
  exact own_upsertModel_userOverrides

/-- A patch leaves the row under its key. -/
theorem Overwrites.keeps_key (h : Overwrites config service routes row₀ patch) (hkey : row.key = row₀.key) :
    (row.patched patch).key = row₀.key := by
  cases h with
  | upsert key v overrides hrowKey => exact (row.key_patched (key_of_upsertOf _ _ _)).trans hrowKey.symm
  | adopt key v hrowKey => exact (row.key_patched (key_of_upsertOf _ _ _)).trans hrowKey.symm
  | disable key => exact (row.key_patched_of_none rfl).trans hkey

/-- A patched row still counts as the same owner's. -/
theorem Overwrites.keeps_owner (h : Overwrites config service routes row₀ patch)
    (howner : row.ownerName = row₀.ownerName) : (row.patched patch).ownerName = row₀.ownerName := by
  rw [row.ownerName_patched]
  cases h with
  | upsert key v overrides _ hrowOwner =>
      rw [owner_of_upsertOf]
      exact (ownerName_of_owner hrowOwner).symm
  | adopt key v _ hmanual hrowOwner =>
      rw [owner_of_upsertOf]
      exact (ownerName_eq_iff.mpr (.inr ⟨hrowOwner, hmanual⟩)).symm
  | disable key => exact howner

/-- An owner that a patch writes is the service. -/
theorem Overwrites.owner_eq (h : Overwrites config service routes row₀ patch) {owner : String}
    (hown : Obj.own patch "owner" = some (.str owner)) : owner = service := by
  cases h with
  | upsert =>
      rw [owner_of_upsertOf] at hown
      exact (Value.str.inj (Option.some.inj hown)).symm
  | adopt =>
      rw [owner_of_upsertOf] at hown
      exact (Value.str.inj (Option.some.inj hown)).symm
  | disable => cases hown

theorem Evolved.refl (row : StoredHttpPath) : Evolved config service routes row row :=
  ⟨rfl, rfl, rfl, fun _ => .inl rfl, .inl rfl⟩

/-- The identity that an insert writes is the announced one. -/
theorem identity_of_inserted {v : Value} (hvalid : isValidRoute v = true) {field : String}
    (hfield : field = "method" ∨ field = "path") :
    Obj.own (upsertOf service (fieldsOf v) key none .none).model field = some (Obj.get (fieldsOf v) field) := by
  have hcontent : ∃ entry ∈ canonicalDefaults, entry.1 = field := by
    rcases hfield with rfl | rfl <;> simp [canonicalDefaults]
  obtain ⟨entry, hentry, rfl⟩ := hcontent
  rw [model_upsertOf, own_upsertModel_of_canonical hentry, applyUserOverrides_none]
  exact own_of_truthy (truthy_identity hvalid hfield)

theorem Evolved.patched (h : Evolved config service routes row₀ row)
    (hpatch : Overwrites config service routes row₀ patch) :
    Evolved config service routes row₀ (row.patched patch) where
  id := h.id
  key := hpatch.keeps_key h.key
  owner := hpatch.keeps_owner h.owner
  columns k := by
    by_cases hk : k = "_id"
    · subst hk
      exact .inl (congrArg Value.str h.id)
    · rw [row.get_patched patch hk]
      cases hown : Obj.own patch k with
      | none => exact h.columns k
      | some v => exact .inr ⟨patch, hpatch, hown⟩
  last := by
    refine .inr ⟨patch, hpatch, fun k v hk hown => ?_⟩
    rw [row.get_patched patch hk, hown]
    rfl

/-- A patch over a row that the manifest itself has inserted. -/
theorem Discovered.patched {model : Obj} (h : Discovered config service routes store row)
    (hmodel : Inserts config service routes store model) : Discovered config service routes store
    (row.patched model) := by
  obtain ⟨key, v, hannounced, hfree, hunowned⟩ := hmodel
  have hvalid := (mem_of_announced hannounced).2.1
  refine ⟨h.new, ⟨key, v, row.key_patched (key_of_upsertOf _ _ _), hannounced, ?_, ?_⟩, ?_, ?_⟩
  · rw [row.get_patched _ (by decide), identity_of_inserted hvalid (.inl rfl)]
    rfl
  · rw [row.get_patched _ (by decide), identity_of_inserted hvalid (.inr rfl)]
    rfl
  · rw [row.get_patched _ (by decide), owner_of_upsertOf]
    rfl
  · rw [row.get_patched _ (by decide), userOverrides_of_upsertOf]
    rfl

end Patch

/-! ## One operation -/

section Step

variable {config : GatewayConfig} {service key : String} {routes : List Value} {w₀ w : PathWorld}
  {row : StoredHttpPath} {patch : Obj} {op : PathOp}

/-- An operation that leaves the table. -/
theorem Synced.ask (h : Synced config service routes w₀ w)
    (hop : SyncAsks config service routes w₀.store op) :
    Synced config service routes w₀ (w.after op w.store) := by
  obtain ⟨ops, hasked, hops⟩ := h.asked
  refine ⟨h.old, h.new, ops ++ [op], ?_, List.forall_mem_append.mpr ⟨hops, List.forall_mem_singleton.mpr hop⟩⟩
  show w.asked ++ [op] = _
  rw [hasked, List.append_assoc]

/-- An operation, by what it makes of the table when it does not fail. -/
theorem Synced.perform {env : PathEnv} (h : Synced config service routes w₀ w)
    (hop : SyncAsks config service routes w₀.store op)
    (hstep : Synced config service routes w₀ (w.after op (w.store.perform op).2)) :
    Synced config service routes w₀ (env.service w op).2 := by
  unfold PathEnv.service
  split
  · exact h.ask hop
  · exact hstep

theorem Synced.of_looking (h : Looking w₀ w) : Synced config service routes w₀ w := by
  obtain ⟨hstore, ops, hasked, hreads⟩ := h
  refine ⟨fun row hrow => ⟨row, hstore ▸ hrow, .refl row⟩, fun row hrow => .inl ⟨row, hstore ▸ hrow, rfl⟩,
    ops, hasked, fun op hop => .read op (hreads op hop)⟩

/-- The row that a stored one has become. -/
theorem Synced.evolved (h : Synced config service routes w₀ w) (hrow : row ∈ w.store.rows)
    {row₀ : StoredHttpPath} (hrow₀ : row₀ ∈ w₀.store.rows) (hid : row._id = row₀._id) :
    Evolved config service routes row₀ row := by
  obtain ⟨row', hrow', hevolved⟩ := h.old row₀ hrow₀
  obtain rfl := PathStore.eq_of_id hrow hrow' (hid.trans hevolved.id.symm)
  exact hevolved

/-- The row that had the key of a row which is still stored. -/
theorem Synced.eq_of_key (h : Synced config service routes w₀ w) (hrow : row ∈ w.store.rows)
    (hkey : row.key = some key) {row₀ : StoredHttpPath} (hrow₀ : row₀ ∈ w₀.store.rows)
    (hkey₀ : row₀.key = some key) : row._id = row₀._id := by
  obtain ⟨row', hrow', hevolved⟩ := h.old row₀ hrow₀
  obtain rfl := PathStore.eq_of_key hrow hrow' hkey (hevolved.key.trans hkey₀)
  exact hevolved.id

/-- A write over a stored row. -/
theorem Synced.updateById (h : Synced config service routes w₀ w) (id : String) (patch : Obj)
    (hop : SyncAsks config service routes w₀.store (.updateById (.str id) patch))
    (hold : ∀ row₀ ∈ w₀.store.rows, row₀._id = id → Overwrites config service routes row₀ patch)
    (hnew : (∀ row₀ ∈ w₀.store.rows, row₀._id ≠ id) → Inserts config service routes w₀.store patch) :
    Synced config service routes w₀ (w.after (.updateById (.str id) patch)
      (w.store.updateById (.str id) patch).2) := by
  have hasked := (h.ask hop).asked
  have hupdated := w.store.updateById_spec (.str id) patch
  generalize w.store.updateById (.str id) patch = result at hupdated ⊢
  cases hupdated with
  | missing => exact ⟨h.old, h.new, hasked⟩
  | conflict => exact ⟨h.old, h.new, hasked⟩
  | stored row store' hrow hid hmem =>
      obtain rfl := Value.str.inj hid
      refine ⟨fun row₀ hrow₀ => ?_, fun r hr => ?_, hasked⟩
      · by_cases hsame : row._id = row₀._id
        · exact ⟨_, (hmem _).mpr (.inr rfl), (h.evolved hrow hrow₀ hsame).patched (hold row₀ hrow₀ hsame.symm)⟩
        · obtain ⟨r, hr, hevolved⟩ := h.old row₀ hrow₀
          refine ⟨r, (hmem r).mpr (.inl ⟨hr, fun heq => hsame ?_⟩), hevolved⟩
          rw [← heq, hevolved.id]
      · rcases (hmem r).mp hr with ⟨hr, -⟩ | rfl
        · exact h.new r hr
        · rcases h.new row hrow with ⟨row₀, hrow₀, hid₀⟩ | hdiscovered
          · exact .inl ⟨row₀, hrow₀, hid₀⟩
          · exact .inr (hdiscovered.patched (hnew hdiscovered.new))

/-- A new row. -/
theorem Synced.insert (h : Synced config service routes w₀ w) {model : Obj}
    (hinserts : Inserts config service routes w₀.store model) :
    Synced config service routes w₀ (w.after (.insert model) (w.store.insert model).2) := by
  have hasked := (h.ask (.insert model hinserts)).asked
  have hinserted := w.store.insert_spec model
  generalize w.store.insert model = result at hinserted ⊢
  cases hinserted with
  | conflict => exact ⟨h.old, h.new, hasked⟩
  | stored row store' hcolumns hid hkeys hmem =>
      refine ⟨fun row₀ hrow₀ => ?_, fun r hr => ?_, hasked⟩
      · obtain ⟨r, hr, hevolved⟩ := h.old row₀ hrow₀
        exact ⟨r, (hmem r).mpr (.inl hr), hevolved⟩
      · rcases (hmem r).mp hr with hr | rfl
        · exact h.new r hr
        · refine .inr ?_
          obtain ⟨key, v, hannounced, hfree, hunowned⟩ := hinserts
          have hget (k : String) (hk : k ≠ "_id") (value : Value)
              (hown : Obj.own (upsertOf service (fieldsOf v) key none .none).model k = some value) :
              r.get k = value := by
            rw [r.get_of_ne hk, hcolumns, Obj.get_assign, hown]
            rfl
          have hvalid := (mem_of_announced hannounced).2.1
          refine ⟨fun row₀ hrow₀ heq => ?_, ⟨key, v, ?_, hannounced, ?_, ?_⟩, ?_, ?_⟩
          · obtain ⟨row', hrow', hevolved⟩ := h.old row₀ hrow₀
            exact hid row' hrow' (hevolved.id.trans heq)
          · unfold StoredHttpPath.key
            rw [keyText_eq_some, ← r.get_of_ne (by decide)]
            exact hget _ (by decide) _ (key_of_upsertOf _ _ _)
          · exact hget _ (by decide) _ (identity_of_inserted hvalid (.inl rfl))
          · exact hget _ (by decide) _ (identity_of_inserted hvalid (.inr rfl))
          · exact hget _ (by decide) _ (owner_of_upsertOf _ _ _)
          · exact hget _ (by decide) _ (userOverrides_of_upsertOf _ _ _)

end Step

/-! ## The diff -/

section Diff

variable {env : PathEnv} {config : GatewayConfig} {service : String} {routes : List Value} {w₀ w : PathWorld}
  {reserved : Obj} {state : DiffState} {diff : RouteDiff} {u : RouteUpsert} {row : StoredHttpPath}

/-- Only `yaml` gets past the keys that the YAML declares. -/
theorem Reserves.yaml_of_declares {store : PathStore} (h : Reserves config store service routes reserved)
    {key : String} (howner : (Obj.get reserved key).truthy = true → Obj.get reserved key = .str service)
    (hdeclared : config.Declares key) : service = "yaml" := by
  have hget : Obj.get reserved key = .str "yaml" := by
    unfold Obj.get
    rw [h.declared key hdeclared]
    rfl
  rw [hget] at howner
  exact (Value.str.inj (howner rfl)).symm

/-- An upsert, over the row that counts as the service's under its key. -/
theorem overwrites_of_upsert (hreserves : Reserves config w₀.store service routes reserved)
    (hdiffed : Diffed service (byRouteKey (w₀.store.findByOwner service)) reserved routes state)
    (hu : u ∈ state.diff.upserts) (hrow : row ∈ w₀.store.rows) (hkey : row.key = some u.routeKey)
    (howner : row.ownerName = .str service) : Overwrites config service routes row u.model := by
  obtain ⟨v, overrides, hannounced, hfree, hmodified, hoverrides, hupsert⟩ := hdiffed.upsert hu
  have hnamed := routeKeyOf_ne_empty (mem_of_announced hannounced).2.2
  rcases ownerName_eq_iff.mp howner with howner | ⟨hownerless, hmanual⟩
  · have hlookup := lookup_findByOwner.mpr ⟨hrow, howner, hkey, hnamed⟩
    rw [hlookup] at hoverrides hupsert
    rw [hupsert]
    exact .upsert _ v overrides hkey howner hannounced (hreserves.yaml_of_declares hfree)
      (hmodified row hlookup) hoverrides
  · have hnone : (byRouteKey (w₀.store.findByOwner service)).lookup u.routeKey = none := by
      rw [Option.eq_none_iff_forall_ne_some]
      intro other hother
      obtain ⟨hmem, hotherOwner, hotherKey, -⟩ := lookup_findByOwner.mp hother
      obtain rfl := PathStore.eq_of_key hrow hmem hkey hotherKey
      rw [hotherOwner] at hownerless
      cases hownerless
    rw [hnone] at hoverrides hupsert
    obtain rfl := Except.ok.inj hoverrides
    rw [hupsert]
    refine .adopt _ v hkey hmanual hownerless hannounced fun hdeclared => ?_
    exact absurd (hmanual.symm.trans (hreserves.yaml_of_declares hfree hdeclared)) (by decide)

/-- An upsert of a known row names one that counts as the service's. -/
theorem row_of_upsert (hdiffed : Diffed service
    (byRouteKey (w₀.store.findByOwner service)) reserved routes state)
    (hu : u ∈ state.diff.upserts) {id : String} (hid : u.existingId = some id) :
    ∃ row ∈ w₀.store.rows, row._id = id ∧ row.key = some u.routeKey ∧ row.ownerName = .str service := by
  obtain ⟨v, overrides, -, -, -, -, hupsert⟩ := hdiffed.upsert hu
  rw [hupsert] at hid
  obtain ⟨row, hlookup, rfl⟩ := Option.map_eq_some_iff.mp hid
  obtain ⟨hrow, howner, hkey, -⟩ := lookup_findByOwner.mp hlookup
  exact ⟨row, hrow, rfl, hkey, ownerName_of_owner howner⟩

/-- An upsert of no known row is an insert. -/
theorem inserts_of_upsert (hreserves : Reserves config w₀.store service routes reserved)
    (hdiffed : Diffed service (byRouteKey (w₀.store.findByOwner service)) reserved routes state)
    (hu : u ∈ state.diff.upserts) (hnone : u.existingId = none) :
    Inserts config service routes w₀.store u.model := by
  obtain ⟨v, overrides, hannounced, hfree, -, hoverrides, hupsert⟩ := hdiffed.upsert hu
  have hlookup : (byRouteKey (w₀.store.findByOwner service)).lookup u.routeKey = none := by
    rw [hupsert] at hnone
    exact Option.map_eq_none_iff.mp hnone
  have hnamed := routeKeyOf_ne_empty (mem_of_announced hannounced).2.2
  rw [hlookup] at hoverrides hupsert
  obtain rfl := Except.ok.inj hoverrides
  rw [hupsert]
  refine .route _ v hannounced (hreserves.yaml_of_declares hfree) fun row hrow hkey howner => ?_
  rw [lookup_findByOwner.mpr ⟨hrow, howner, hkey, hnamed⟩] at hlookup
  cases hlookup

theorem overwrites_of_disable
    (hdiffed : Diffed service (byRouteKey (w₀.store.findByOwner service)) reserved routes state)
    {d : RouteDisable} (hd : d ∈ disablesOf (byRouteKey (w₀.store.findByOwner service)) state.seen) :
    ∃ row ∈ w₀.store.rows, row._id = d.id ∧
      Overwrites config service routes row [("enabled", .bool false)] := by
  obtain ⟨row, hmem, hseen, henabled, hd⟩ := mem_disablesOf.mp hd
  obtain ⟨hrow, hkey⟩ := (indexes_byRouteKey _).sound _ hmem
  obtain ⟨hrow, howner⟩ := PathStore.mem_findByOwner.mp hrow
  refine ⟨row, hrow, by rw [hd], .disable _ hkey ((indexes_byRouteKey _).named _ hmem) howner ?_ henabled⟩
  rw [Option.eq_none_iff_forall_ne_some]
  exact fun v hv => hseen ((hdiffed.seen _).mpr ⟨v, hv⟩)

/-- **One operation of an applied diff.** -/
theorem Synced.step (h : Synced config service routes w₀ w)
    (hreserves : Reserves config w₀.store service routes reserved)
    (hdiffed : Diffed service (byRouteKey (w₀.store.findByOwner service)) reserved routes state)
    (hupserts : diff.upserts = state.diff.upserts)
    (hdisables : diff.disables = disablesOf (byRouteKey (w₀.store.findByOwner service)) state.seen)
    {op : PathOp} (hasks : Asks service diff w.store op) :
    Synced config service routes w₀ (env.service w op).2 := by
  cases hasks with
  | lookup key => exact h.perform (.read _ rfl) (h.ask (.read _ rfl))
  | journal entry => exact h.perform (.beside _ rfl) (h.ask (.beside _ rfl))
  | reload topic => exact h.perform (.beside _ rfl) (h.ask (.beside _ rfl))
  | insert u hu hnone =>
      have hinserts := inserts_of_upsert hreserves hdiffed (hupserts ▸ hu) hnone
      exact h.perform (.insert _ hinserts) (h.insert hinserts)
  | update u hu id hid =>
      obtain ⟨row, hrow, rfl, hkey, howner⟩ := row_of_upsert hdiffed (hupserts ▸ hu) hid
      have hwrites := overwrites_of_upsert hreserves hdiffed (hupserts ▸ hu) hrow hkey howner
      refine h.perform (.update row hrow _ hwrites) (h.updateById _ _ (.update row hrow _ hwrites) ?_ ?_)
      · intro row' hrow' hid'
        rwa [PathStore.eq_of_id hrow' hrow hid']
      · exact fun hnew => absurd rfl (hnew row hrow)
  | reconcile u hu mine hmine hkey howner =>
      -- the row to reconcile with was there at the start, or is one this manifest discovered
      have hop : SyncAsks config service routes w₀.store (.updateById (.str mine._id) u.model) := by
        rcases h.new mine hmine with ⟨row₀, hrow₀, hid⟩ | hdiscovered
        · have hevolved := h.evolved hmine hrow₀ hid.symm
          rw [← hid]
          exact .update row₀ hrow₀ _ (overwrites_of_upsert hreserves hdiffed (hupserts ▸ hu) hrow₀
            (hevolved.key.symm.trans hkey) (hevolved.owner.symm.trans howner))
        · exact .settle _ hdiscovered.new _
      refine h.perform hop (h.updateById _ _ hop ?_ ?_)
      · intro row₀ hrow₀ hid
        have hevolved := h.evolved hmine hrow₀ hid.symm
        exact overwrites_of_upsert hreserves hdiffed (hupserts ▸ hu) hrow₀
          (hevolved.key.symm.trans hkey) (hevolved.owner.symm.trans howner)
      · -- the row is new, so the upsert is an insert
        intro hnew
        refine inserts_of_upsert hreserves hdiffed (hupserts ▸ hu) ?_
        rw [Option.eq_none_iff_forall_ne_some]
        intro id hid
        obtain ⟨row₀, hrow₀, -, hkey₀, -⟩ := row_of_upsert hdiffed (hupserts ▸ hu) hid
        exact hnew row₀ hrow₀ (h.eq_of_key hmine hkey hrow₀ hkey₀).symm
  | disable d hd =>
      obtain ⟨row, hrow, hid, hwrites⟩ := overwrites_of_disable hdiffed (hdisables ▸ hd)
      rw [← hid]
      refine h.perform (.update row hrow _ hwrites) (h.updateById _ _ (.update row hrow _ hwrites) ?_ ?_)
      · intro row' hrow' hid'
        rwa [PathStore.eq_of_id hrow' hrow hid']
      · exact fun hnew => absurd rfl (hnew row hrow)

/-- The manifest has no diff: a key of the YAML or of the manifest cannot be read. -/
def Unreadable (config : GatewayConfig) (routes : List Value) : Prop :=
  (∃ e, reserveYaml config = .error e) ∨ ∃ r ∈ routes, ∃ e, routeKeyOf r = .error e

theorem not_unreadable (hreserves : Reserves config w₀.store service routes reserved) :
    ¬ Unreadable config routes := by
  rintro (⟨e, he⟩ | ⟨r, hr, e, he⟩)
  · obtain ⟨yaml, hyaml⟩ := hreserves.yaml
    cases he.symm.trans hyaml
  · obtain ⟨key, hkey⟩ := hreserves.keyed r hr
    cases he.symm.trans hkey

/-- A handled manifest only looked, or it wrote as a manifest of its service can. -/
inductive Handled (config : GatewayConfig) (manifest : RouteManifest) (w₀ w : PathWorld) : Prop
  | looked (h : Looking w₀ w)
  | synced (service : String) (hservice : manifest.service = some service) (hnamed : service ≠ "")
      (hreadable : ¬ Unreadable config manifest.list)
      (h : Synced config service manifest.list w₀ w)

/-- **Everything that handling a manifest can do**, whatever the repository refuses and whenever it fails. -/
theorem handle_spec (env : PathEnv) (config : GatewayConfig) (manifest : RouteManifest) (w₀ : PathWorld) :
    Handled config manifest w₀ ((handle config manifest).run env.service w₀).2 := by
  unfold handle
  split
  next service hservice =>
    split
    next => exact .looked (.refl w₀)
    next hnamed =>
      have hsync : Triple env.service (fun w => w = w₀) (sync config service manifest.list)
          (fun _ => Handled config manifest w₀) fun _ => Handled config manifest w₀ := by
        unfold sync
        refine triple_bind ((triple_plan config service manifest.list w₀).mono (fun _ _ h => h)
          fun e w h => .looked h.1) fun diff => ?_
        rintro w ⟨hlooking, reserved, hreserves, hdiff⟩
        obtain ⟨state, hdiffed, hupserts, hdisables, -⟩ := diffRoutes_spec hdiff
        have hkeeps : Keeps env.service (Synced config service manifest.list w₀)
            (applyDiff config service diff) :=
          keeps_applyDiff fun w op hw hasks => hw.step hreserves hdiffed hupserts hdisables hasks
        refine (hkeeps w (.of_looking hlooking)).mono ?_ ?_
        · exact fun _ w hw => .synced service hservice hnamed (not_unreadable hreserves) hw
        · exact fun _ w hw => .synced service hservice hnamed (not_unreadable hreserves) hw
      have hends := triple_tryCatch hsync
        (fun e => keeps_ofExcept (I := Handled config manifest w₀) e.messageLine) w₀ rfl
      generalize ((sync config service manifest.list).tryCatch _).run env.service w₀ = r at hends ⊢
      rcases r with ⟨e | a, w⟩ <;> exact hends
  next => exact .looked (.refl w₀)

/-! ## Rows that are not written -/

theorem PathOp.writes_of_isRead {op : PathOp} (h : op.isRead = true) (id : String) : op.writes id = false := by
  cases op with
  | findByOwner | findByRouteKey | findById => rfl
  | _ => cases h

theorem PathOp.writes_of_beside {op : PathOp} (h : op.isOnPaths = false) (id : String) :
    op.writes id = false := by
  cases op with
  | journal | publishReload => rfl
  | _ => cases h

theorem Looking.untouched (h : Looking w₀ w) (hrow : row ∈ w₀.store.rows) : Untouched row w₀ w := by
  obtain ⟨hstore, ops, hasked, hreads⟩ := h
  exact ⟨hstore ▸ hrow, ops, hasked, fun op hop => PathOp.writes_of_isRead (hreads op hop) _⟩

/-- A row that no patch is for. -/
theorem Synced.untouched (h : Synced config service routes w₀ w) (hrow : row ∈ w₀.store.rows)
    (hkept : ∀ patch, ¬ Overwrites config service routes row patch) : Untouched row w₀ w := by
  constructor
  · obtain ⟨row', hrow', hevolved⟩ := h.old row hrow
    rcases hevolved.last with rfl | ⟨patch, hoverwrites, -⟩
    · exact hrow'
    · exact absurd hoverwrites (hkept patch)
  · obtain ⟨ops, hasked, hops⟩ := h.asked
    refine ⟨ops, hasked, fun op hop => ?_⟩
    cases hops op hop with
    | read _ hread => exact PathOp.writes_of_isRead hread _
    | beside _ hbeside => exact PathOp.writes_of_beside hbeside _
    | insert => rfl
    | update row' hrow' patch hoverwrites =>
        rw [Bool.eq_false_iff]
        intro hwrites
        have hid := Value.str.inj ((Value.isText_iff _ _).mp hwrites)
        rw [PathStore.eq_of_id hrow' hrow hid] at hoverwrites
        exact hkept patch hoverwrites
    | settle id hnew =>
        rw [Bool.eq_false_iff]
        intro hwrites
        exact hnew row hrow (Value.str.inj ((Value.isText_iff _ _).mp hwrites)).symm

end Diff

end NestAmqp.Gateway
