/-
# NestAmqp.Gateway.RouteIntegrity — is the stored key of a route always the key of its method and path?

A row stores its identity twice: as its method and path, and as the `routeKey` under which the index and
route sync find it.  Creating a route writes both, a manifest writes both, and so does an update that
names a method and a path.  An update that names only one of them, or a `routeKey` of its own, writes them
apart.  `routes_intact` says that this is the only way to lose the agreement, up to a user's override of
a method or a path that a create body has brought in; and with the unique index on the key, rows that
agree have distinct identities.
-/
import NestAmqp.Lib.Machine
import NestAmqp.Gateway.PathService
import NestAmqp.Gateway.SyncedRows

namespace NestAmqp.Gateway

open NestAmqp.Js NestAmqp.Lib NestAmqp.Lib.Script NestAmqp.Lib.Machine
open GatewayPathService (namesIdentity persisted createdModel updatedModel Keyed own_updatedModel)

/-! ## Integrity -/

/-- `row.routeKey === routeKeyOf(row)`. -/
def StoredHttpPath.InSync (row : StoredHttpPath) : Prop :=
  ∃ key, routeKeyOf (.obj row.columns) = .ok key ∧ row.key = some key

/-- The row serves this method and this path. -/
def StoredHttpPath.Serves (row : StoredHttpPath) (method path : String) : Prop :=
  upperMethod (row.get "method") = .ok method ∧ ((row.get "path").orElse (.str "")).toStr = path

/-- Every row has the key of its method and path, and no two rows that are on serve the same. -/
structure RoutesIntact (store : PathStore) : Prop where
  keyed : ∀ row ∈ store.rows, row.InSync
  distinct : ∀ a ∈ store.rows, ∀ b ∈ store.rows, a.isEnabled = true → b.isEnabled = true →
    ∀ method path, a.Serves method path → b.Serves method path → a._id = b._id

/-! ## What requests and manifests must not do -/

/-- An update that does not name a method and a path leaves those of the row, and its key. -/
def LeavesIdentity (body : Value) (store : PathStore) : Prop :=
  namesIdentity (persisted (fieldsOf body)) = true ∨
    ∀ row ∈ store.rows, Obj.get (fieldsOf body) "id" = .str row._id →
      routeKeyOf (.obj (row.patched (persisted (fieldsOf body))).columns) =
          routeKeyOf (.obj row.columns) ∧
        (row.patched (persisted (fieldsOf body))).key = row.key

/-- A route that is announced over an unlocked row of its service has its key also with the fields that the
row overrides. -/
def MergesUnderKey (config : GatewayConfig) (service : String) (routes : List Value)
    (store : PathStore) : Prop :=
  ∀ row ∈ store.rows, row.get "owner" = .str service → row.isModified = false →
    ∀ key v overrides, row.key = some key → announced routes key = some v →
      (config.Declares key → service = "yaml") → readOverrides (row.get "userOverrides") = .ok overrides →
        routeKeyOf (.obj (applyUserOverrides (fieldsOf v) (some row) overrides)) = .ok key

/-- Creations and removals are free. -/
def RespectsKeys (config : GatewayConfig) (w : PathWorld) : PathInput → Prop
  | .create _ _ | .remove _ _ => True
  | .update body _ => LeavesIdentity body w.store
  | .manifest manifest => ∀ service, manifest.service = some service → service ≠ "" →
      Unreadable config manifest.list ∨ MergesUnderKey config service manifest.list w.store

/-! ## Rows -/

section Rows

variable {row row₀ : StoredHttpPath} {columns patch rest model fields : Obj} {key : String}

/-- A row whose method and path are those of an object with its key. -/
theorem inSync_of_identity (hmethod : row.get "method" = Obj.get columns "method")
    (hpath : row.get "path" = Obj.get columns "path") (hidentity : routeKeyOf (.obj columns) = .ok key)
    (hkey : row.key = some key) : row.InSync := by
  refine ⟨key, ?_, hkey⟩
  rw [← hidentity]
  refine routeKeyOf_congr ?_ ?_
  · rw [← hmethod, row.get_of_ne (by decide)]
  · rw [← hpath, row.get_of_ne (by decide)]

/-- Rows in sync that serve the same have the same key. -/
theorem key_of_serves {method path : String} (h : row.InSync) (hserves : row.Serves method path) :
    row.key = some (method ++ " " ++ path) := by
  obtain ⟨key, hidentity, hkey⟩ := h
  obtain ⟨hmethod, hpath⟩ := hserves
  rw [row.get_of_ne (by decide)] at hmethod hpath
  unfold routeKeyOf member at hidentity
  obtain ⟨value, hvalue, hidentity⟩ := bind_eq_ok.mp hidentity
  obtain rfl := Except.ok.inj hvalue
  obtain ⟨upper, hupper, hidentity⟩ := bind_eq_ok.mp hidentity
  obtain rfl := Except.ok.inj (hupper.symm.trans hmethod)
  obtain ⟨value, hvalue, hidentity⟩ := bind_eq_ok.mp hidentity
  obtain rfl := Except.ok.inj hvalue
  obtain ⟨text, htext, hidentity⟩ := bind_eq_ok.mp hidentity
  unfold printed at htext
  split at htext
  · obtain rfl := Except.ok.inj htext
    rw [hkey, ← Except.ok.inj hidentity, hpath]
  · cases htext

/-- With the index, rows in sync are told apart by what they serve. -/
theorem routesIntact_of_inSync {store : PathStore} (h : ∀ row ∈ store.rows, row.InSync) :
    RoutesIntact store := by
  refine ⟨h, fun a ha b hb _ _ method path hserves hserves' => ?_⟩
  have hkeys := (key_of_serves (h a ha) hserves).trans (key_of_serves (h b hb) hserves').symm
  refine store.keys a ha b hb hkeys ?_
  rw [key_of_serves (h a ha) hserves]
  exact Option.some_ne_none _

/-- A created row. -/
theorem inSync_created (hidentity : routeKeyOf (.obj fields) = .ok key)
    (hcolumns : row.columns = Obj.assign [] (createdModel fields key)) : row.InSync := by
  have hget (k : String) (hk : k ∉ ["_id", "routeKey", "source", "modified"]) :
      row.get k = Obj.get fields k := by
    simp only [List.mem_cons, List.not_mem_nil, or_false, not_or] at hk
    rw [row.get_of_ne hk.1, hcolumns, Obj.get_assign]
    unfold createdModel Obj.get
    rw [Obj.own_spread, Obj.own_cons, Obj.own_cons, Obj.own_cons, if_neg hk.2.1, if_neg hk.2.2.1,
      if_neg hk.2.2.2]
    rfl
  refine inSync_of_identity (hget _ (by decide)) (hget _ (by decide)) hidentity ?_
  unfold StoredHttpPath.key
  rw [hcolumns, keyText_eq_some, Obj.get_assign]
  unfold createdModel
  rw [Obj.own_spread]
  rfl

/-- **An updated row** has the key the update has computed, or it has kept what it had. -/
theorem inSync_updated {released : Value} (hrow : row.InSync) (hmodel : Keyed rest model)
    (hpatch : updatedModel (some row) model released = .ok patch)
    (hleaves : namesIdentity rest = true ∨
      (routeKeyOf (.obj (row.patched rest).columns) = routeKeyOf (.obj row.columns) ∧
        (row.patched rest).key = row.key)) : (row.patched patch).InSync := by
  have hcolumn {k : String} (hk : k ∉ ["modified", "userOverrides"]) :
      Obj.get (row.patched patch).columns k = Obj.get (row.patched model).columns k := by
    show Obj.get (Obj.assign row.columns patch) k = Obj.get (Obj.assign row.columns model) k
    rw [Obj.get_assign, Obj.get_assign, own_updatedModel hpatch hk]
  have hkey : (row.patched patch).key = (row.patched model).key := by
    unfold StoredHttpPath.key keyText
    rw [hcolumn (by decide)]
  have hidentity : routeKeyOf (.obj (row.patched patch).columns) =
    routeKeyOf (.obj (row.patched model).columns) :=
    routeKeyOf_congr (hcolumn (by decide)) (hcolumn (by decide))
  unfold StoredHttpPath.InSync
  rw [hkey, hidentity]
  cases hmodel with
  | plain hnames =>
      rcases hleaves with hnames' | ⟨hsame, hsameKey⟩
      · rw [hnames] at hnames'
        cases hnames'
      · rw [hsame, hsameKey]
        exact hrow
  | keyed hnames routeKey hrest =>
      unfold namesIdentity at hnames
      rw [Bool.and_eq_true] at hnames
      have hget {k : String} (hk : k ≠ "routeKey") (htruthy : (Obj.get rest k).truthy = true) :
          Obj.get (row.patched (Obj.spread rest [("routeKey", .str routeKey)])).columns k = Obj.get rest k := by
        show Obj.get (Obj.assign row.columns _) k = _
        rw [Obj.get_assign, Obj.own_spread, Obj.own_cons, if_neg hk, own_of_truthy htruthy]
        rfl
      refine ⟨routeKey, ?_, row.key_patched ?_⟩
      · rw [← hrest]
        exact routeKeyOf_congr (hget (by decide) hnames.1) (hget (by decide) hnames.2)
      · rw [Obj.own_spread]
        rfl

end Rows

/-! ## Manifests -/

section Manifest

variable {config : GatewayConfig} {service : String} {routes : List Value} {store : PathStore}
  {row row₀ : StoredHttpPath} {w₀ w : PathWorld}

/-- Overrides put values in place of others, and drop none. -/
theorem own_applyUserOverrides (r : Obj) (ex : Option StoredHttpPath) (overrides : Overrides) {k : String}
    (h : Obj.own r k ≠ none) : Obj.own (applyUserOverrides r ex overrides) k ≠ none := by
  unfold applyUserOverrides
  split
  next => exact h
  next existing =>
    split
    next => exact h
    next =>
      have hcopied : Obj.own (Obj.assign [] r) k ≠ none := by
        rw [Obj.own_assign]
        simpa using h
      generalize Obj.assign [] r = merged at hcopied
      induction overrides.fields generalizing merged with
      | nil => exact hcopied
      | cons field fields ih =>
          refine ih _ ?_
          unfold keepOverride
          split
          · exact hcopied
          · rw [Obj.own_set]
            split
            · exact Option.some_ne_none _
            · exact hcopied

/-- **A row that a manifest has written** has the key of what was written last. -/
theorem inSync_evolved (hrow₀ : row₀ ∈ store.rows) (hsync : row₀.InSync)
    (hmerges : MergesUnderKey config service routes store) (hevolved : Evolved config service routes row₀ row) :
    row.InSync := by
  rcases hevolved.last with rfl | ⟨patch, hoverwrites, hwritten⟩
  · exact hsync
  · cases hoverwrites with
    -- the route was merged with the overrides of the row: it is a route of the same key
    | upsert key v overrides hkey howner hannounced hfree hmodified hoverrides =>
        have hvalid := (mem_of_announced hannounced).2.1
        have hmerged := hmerges row₀ hrow₀ howner hmodified key v overrides hkey hannounced hfree hoverrides
        have hget {field : String} (hfield : field = "method" ∨ field = "path") :
            row.get field = Obj.get (applyUserOverrides (fieldsOf v) (some row₀) overrides) field := by
          have hcontent : ∃ entry ∈ canonicalDefaults, entry.1 = field := by
            rcases hfield with rfl | rfl <;> simp [canonicalDefaults]
          obtain ⟨entry, hentry, hname⟩ := hcontent
          have hown : Obj.own (fieldsOf v) field ≠ none := by
            rw [own_of_truthy (truthy_identity hvalid hfield)]
            exact Option.some_ne_none _
          obtain ⟨value, hvalue⟩ := Option.ne_none_iff_exists'.mp
            (own_applyUserOverrides (fieldsOf v) (some row₀) overrides hown)
          have hid : field ≠ "_id" := by rcases hfield with rfl | rfl <;> decide
          have hread := hwritten field value hid (by
            rw [model_upsertOf, ← hname, own_upsertModel_of_canonical hentry, hname]
            exact hvalue)
          rw [hread, Obj.get, hvalue]
          rfl
        exact inSync_of_identity (hget (.inl rfl)) (hget (.inr rfl)) hmerged (hevolved.key.trans hkey)
    | adopt key v hkey hmanual howner hannounced hfree =>
        obtain ⟨-, hvalid, hidentity⟩ := mem_of_announced hannounced
        have hget {field : String} (hfield : field = "method" ∨ field = "path") :
            row.get field = Obj.get (fieldsOf v) field := by
          have hid : field ≠ "_id" := by rcases hfield with rfl | rfl <;> decide
          exact hwritten field _ hid (identity_of_inserted hvalid hfield)
        rw [eq_obj_of_valid hvalid] at hidentity
        exact inSync_of_identity (hget (.inl rfl)) (hget (.inr rfl)) hidentity (hevolved.key.trans hkey)
    | disable key hkey hnamed howner habsent henabled =>
        -- a disable writes no identity, and no other write was of an announced key
        obtain ⟨key', hidentity, hkey'⟩ := hsync
        have hget {field : String} (hfield : field = "method" ∨ field = "path") :
            row.get field = Obj.get row₀.columns field := by
          have hid : field ≠ "_id" := by rcases hfield with rfl | rfl <;> decide
          rw [← row₀.get_of_ne hid]
          rcases hevolved.columns field with hsame | ⟨patch', hoverwrites', hown⟩
          · exact hsame
          · cases hoverwrites' with
            | upsert key'' v overrides hkey'' _ hannounced =>
                obtain rfl := Option.some.inj (hkey.symm.trans hkey'')
                cases habsent.symm.trans hannounced
            | adopt key'' v hkey'' _ _ hannounced =>
                obtain rfl := Option.some.inj (hkey.symm.trans hkey'')
                cases habsent.symm.trans hannounced
            | disable =>
                rcases hfield with rfl | rfl <;> cases hown
        exact inSync_of_identity (hget (.inl rfl)) (hget (.inr rfl)) hidentity (hevolved.key.trans hkey')

/-- A manifest keeps the agreement. -/
theorem inSync_synced (hsync : ∀ row ∈ w₀.store.rows, row.InSync)
    (hmerges : MergesUnderKey config service routes w₀.store)
    (hsynced : Synced config service routes w₀ w) : ∀ row ∈ w.store.rows, row.InSync := by
  intro row hrow
  rcases hsynced.new row hrow with ⟨row₀, hrow₀, hid⟩ | hdiscovered
  · exact inSync_evolved hrow₀ (hsync row₀ hrow₀) hmerges (hsynced.evolved hrow hrow₀ hid.symm)
  · obtain ⟨key, v, hkey, hannounced, hmethod, hpath⟩ := hdiscovered.route
    obtain ⟨-, hvalid, hidentity⟩ := mem_of_announced hannounced
    rw [eq_obj_of_valid hvalid] at hidentity
    exact inSync_of_identity hmethod hpath hidentity hkey

end Manifest

/-! ## Runs from the empty table -/

section Runs

variable {env : PathEnv} {config : GatewayConfig}

/-- One request or one manifest. -/
def pathStep (env : PathEnv) (config : GatewayConfig) (w : PathWorld) (input : PathInput) : PathWorld :=
  input.play env config w

/-- One step keeps the agreement. -/
theorem inSync_step (w : PathWorld) (input : PathInput) (hsync : ∀ row ∈ w.store.rows, row.InSync)
    (hrespects : RespectsKeys config w input) : ∀ row ∈ (pathStep env config w input).store.rows,
    row.InSync := by
  unfold pathStep
  cases input with
  | create body currentUser =>
      have hended : Ends _ _ ((GatewayPathService.insertRoute body).run env.service w) :=
        GatewayPathService.triple_insertRoute body w rfl
      show ∀ row ∈ ((GatewayPathService.create body currentUser).run env.service w).2.store.rows, row.InSync
      rw [GatewayPathService.store_create]
      generalize (GatewayPathService.insertRoute body).run env.service w = ended at hended ⊢
      rcases ended with ⟨e | created, w'⟩
      · exact hended ▸ hsync
      · obtain ⟨⟨key, hidentity, hcolumns⟩, -, hmem⟩ := hended
        intro row hrow
        rcases (hmem row).mp hrow with hrow | rfl
        · exact hsync row hrow
        · exact inSync_created hidentity hcolumns
  | update body currentUser =>
      have hended : Ends _ _ ((GatewayPathService.patchRoute body).run env.service w) :=
        GatewayPathService.triple_patchRoute body w rfl
      show ∀ row ∈ ((GatewayPathService.update body currentUser).run env.service w).2.store.rows, row.InSync
      rw [GatewayPathService.store_update]
      generalize (GatewayPathService.patchRoute body).run env.service w = ended at hended ⊢
      rcases ended with ⟨e | u, w'⟩
      · exact hended ▸ hsync
      · change GatewayPathService.Edited _ _ _ u.updated at hended
        generalize u.updated = updated at hended
        cases hended with
        | missing hstore => exact hstore ▸ hsync
        -- the row that was edited has its key from its body, or has the identity it had
        | edited old hold hid model patch hmodel hpatch hmem =>
            intro row hrow
            rcases (hmem row).mp hrow with ⟨hrow, -⟩ | rfl
            · exact hsync row hrow
            · exact inSync_updated (hsync old hold) hmodel hpatch (hrespects.imp_right fun h => h old hold hid)
  | remove id currentUser =>
      have hended : Ends _ _ ((HttpPathRepository.removeById id).run env.service w) :=
        GatewayPathService.triple_removeById id w rfl
      show ∀ row ∈ ((GatewayPathService.remove id currentUser).run env.service w).2.store.rows, row.InSync
      rw [GatewayPathService.store_remove]
      generalize (HttpPathRepository.removeById id).run env.service w = ended at hended ⊢
      rcases ended with ⟨e | removed, w'⟩
      · exact hended ▸ hsync
      · exact fun row hrow => hsync row ((hended row).mp hrow).1
  | manifest manifest =>
      cases handle_spec env config manifest w with
      | looked hlooking =>
          show ∀ row ∈ ((handle config manifest).run env.service w).2.store.rows, row.InSync
          rw [hlooking.1]
          exact hsync
      | synced service hservice hnamed hreadable hsynced =>
          exact inSync_synced hsync ((hrespects service hservice hnamed).resolve_left hreadable) hsynced

/-- **Routes stay intact in every run that respects the keys**, whatever fails on the way. -/
theorem routes_intact (env : PathEnv) (config : GatewayConfig) {inputs : List PathInput}
    (hrespects : Along (pathStep env config) (RespectsKeys config) { store := .empty } inputs) :
    ∀ w, Reaches (pathStep env config) { store := .empty } inputs w → RoutesIntact w.store := by
  intro w hreaches
  have hempty : ∀ row ∈ ({ store := .empty } : PathWorld).store.rows, row.InSync :=
    fun row hrow => (List.not_mem_nil hrow).elim
  exact routesIntact_of_inSync (hrespects.invariant inSync_step hempty hreaches)

end Runs

section Examples

/-- A route, as a user creates it. -/
def createUsers : PathInput :=
  .create (.obj [("name", .str "users"), ("method", .str "GET"), ("path", .str "/users"),
    ("topic", .str "users")]) (.str "user")

/-- An update of a row that was just created. -/
def updateFirst (fields : Obj) : PathInput := .update (.obj (("id", .str "0") :: fields)) (.str "user")

/-- A method without a path changes the identity and not the key. -/
theorem not_intact_methodAlone :
    ¬ ∀ (env : PathEnv) (config : GatewayConfig) (inputs : List PathInput),
      ∀ w, Reaches (pathStep env config) { store := .empty } inputs w → RoutesIntact w.store := by
  intro h
  have hintact := h .calm {} [createUsers, updateFirst [("method", .str "POST")]] _ (reaches_run _ _ _)
  have hstale : (run (pathStep .calm {}) { store := .empty }
      [createUsers, updateFirst [("method", .str "POST")]]).store.rows.any
      (fun row => row.key == some "GET /users" && hasKey "POST /users" (.obj row.columns)) = true := by decide
  obtain ⟨row, hrow, hstate⟩ := List.any_eq_true.mp hstale
  rw [Bool.and_eq_true, beq_iff_eq, hasKey_iff] at hstate
  obtain ⟨key, hidentity, hkey⟩ := hintact.keyed row hrow
  obtain rfl := Except.ok.inj (hstate.2.symm.trans hidentity)
  exact absurd (hstate.1.symm.trans hkey) (by decide)

/-- A route that is moved by its method and its path together, and switched off. -/
theorem routes_intact_moved :
    RoutesIntact (run (pathStep .calm {}) { store := .empty }
      [createUsers, updateFirst [("method", .str "POST"), ("path", .str "/users")],
        updateFirst [("enabled", .bool false)]]).store := by
  refine routes_intact .calm {} ?_ _ (reaches_run _ _ _)
  refine ⟨trivial, .inl rfl, .inr fun row _ _ => ⟨?_, ?_⟩, trivial⟩
  · refine routeKeyOf_congr ?_ ?_ <;> exact Obj.get_assign _ _ _
  · exact row.key_patched_of_none rfl

end Examples

end NestAmqp.Gateway
