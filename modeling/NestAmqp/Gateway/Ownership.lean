/-
# NestAmqp.Gateway.Ownership — whose rows does a manifest write?

Route sync goes by the `owner` column: a row is the service's when it names the service, and a row without
an owner is that of `manual`.  The world remembers beside the table who created each row, and the question
is whether a manifest only ever writes rows that manifests of its own service created.  It does, unless a
request body has put the name of a publishing service into the `owner` column, or a service calls itself
by one of the two names the code uses for itself: `manual`, or `yaml` among the reserved keys.
`sync_isolated` is about every run of requests and manifests from the empty table.
-/
import NestAmqp.Lib.Machine
import NestAmqp.Gateway.PathService
import NestAmqp.Gateway.SyncedRows

namespace NestAmqp.Gateway

open NestAmqp.Js NestAmqp.Lib NestAmqp.Lib.Script NestAmqp.Lib.Machine

/-! ## Runs -/

/-- Who created a row. -/
inductive Creator where
  | user
  | service (name : Option String)
  deriving DecidableEq

/-- The table with its log, and who created each row. -/
structure OwnedWorld where
  world : PathWorld
  createdBy : String → Option Creator

/-- Who creates the rows that an input inserts. -/
def PathInput.creator : PathInput → Creator
  | .manifest m => .service m.service
  | _ => .user

/-- A row with this id is stored. -/
def PathStore.has (store : PathStore) (id : String) : Bool := store.rows.any (·._id == id)

/-- One request or one manifest. -/
def ownedStep (env : PathEnv) (config : GatewayConfig) (w : OwnedWorld) (input : PathInput) : OwnedWorld where
  world := input.play env config w.world
  createdBy id :=
    if (input.play env config w.world).store.has id && !w.world.store.has id then some input.creator
    else w.createdBy id

/-- No rows. -/
def OwnedWorld.empty : OwnedWorld := { world := { store := .empty }, createdBy := fun _ => none }

/-- What a manifest may do: the rows that its service did not create, or that count as another owner's, are
not written; no row is removed; and no route is inserted that the YAML declares. -/
structure Isolated (config : GatewayConfig) (manifest : RouteManifest) (w : OwnedWorld) (w' : PathWorld) :
    Prop where
  foreign : ∀ row ∈ w.world.store.rows, (∀ service, manifest.service = some service →
      w.createdBy row._id ≠ some (.service (some service)) ∨ row.ownerName ≠ .str service) →
    Untouched row w.world w'
  asked : ∃ ops, w'.asked = w.world.asked ++ ops ∧ ∀ op ∈ ops, (∀ id, op ≠ .removeById id) ∧
    ∀ model, op = .insert model → ∀ key, routeKeyOf (.obj model) = .ok key → ¬ config.Declares key

/-- Every manifest of the run is isolated. -/
def SyncIsolated (env : PathEnv) (config : GatewayConfig) (w : OwnedWorld) : PathInput → Prop
  | .manifest manifest => Isolated config manifest w (ownedStep env config w (.manifest manifest)).world
  | _ => True

/-! ## What requests and manifests must not do -/

/-- The two names that mean something else: a manifest of `manual` announces no key of a row without an owner,
unless its manifests created it; a manifest of `yaml` announces no key that the YAML declares, unless it has
a row under it. -/
structure AvoidsSentinels (config : GatewayConfig) (service : String) (routes : List Value) (w : OwnedWorld) :
    Prop where
  manual : service = "manual" → ∀ row ∈ w.world.store.rows, (row.get "owner").nullish = true →
    ∀ key, row.key = some key → (announced routes key).isSome → ¬ config.Declares key →
      w.createdBy row._id = some (.service (some service))
  yaml : service = "yaml" → ∀ key, (announced routes key).isSome → config.Declares key →
    ∃ row ∈ w.world.store.rows, row.key = some key ∧ row.get "owner" = .str service

/-- No request body names a publishing service as the owner, except of a row that its manifests created; and
manifests avoid the two names. -/
def RespectsOwners (publishes : String → Prop) (config : GatewayConfig) (w : OwnedWorld) : PathInput → Prop
  | .create body _ => ∀ service, publishes service → Obj.get (fieldsOf body) "owner" ≠ .str service
  | .update body _ => ∀ service, publishes service → Obj.own (fieldsOf body) "owner" = some (.str service) →
      ∀ id, Obj.get (fieldsOf body) "id" = .str id → w.createdBy id = some (.service (some service))
  | .remove _ _ => True
  | .manifest manifest => ∀ service, manifest.service = some service → service ≠ "" →
      Unreadable config manifest.list ∨ AvoidsSentinels config service manifest.list w

/-- The services with a manifest among the inputs. -/
def PublishedBy (inputs : List PathInput) (service : String) : Prop :=
  ∃ manifest, PathInput.manifest manifest ∈ inputs ∧ manifest.service = some service

/-- A row that names a publishing service was created by its manifests. -/
def Owned (publishes : String → Prop) (w : OwnedWorld) : Prop :=
  ∀ row ∈ w.world.store.rows, ∀ service, publishes service → row.get "owner" = .str service →
    w.createdBy row._id = some (.service (some service))

/-! ## One manifest -/

section Manifest

variable {config : GatewayConfig} {service : String} {routes : List Value} {w : OwnedWorld} {w' : PathWorld}
  {publishes : String → Prop} {row : StoredHttpPath} {patch : Obj}

/-- An inserted route has the key under which it was announced. -/
theorem routeKeyOf_inserted {key : String} {v : Value} (hannounced : announced routes key = some v) :
    routeKeyOf (.obj (upsertOf service (fieldsOf v) key none .none).model) = .ok key := by
  obtain ⟨-, hvalid, hkey⟩ := mem_of_announced hannounced
  have hget {field : String} (hfield : field = "method" ∨ field = "path") :
      Obj.get (upsertOf service (fieldsOf v) key none .none).model field = Obj.get (fieldsOf v) field := by
    rw [Obj.get, identity_of_inserted hvalid hfield]
    rfl
  rw [routeKeyOf_congr (hget (.inl rfl)) (hget (.inr rfl)), ← eq_obj_of_valid hvalid]
  exact hkey

/-- **A row that a manifest writes over** was created by a manifest of the same service. -/
theorem createdBy_of_overwrites (howned : Owned publishes w) (hpublishes : publishes service)
    (havoids : AvoidsSentinels config service routes w) (hrow : row ∈ w.world.store.rows)
    (hoverwrites : Overwrites config service routes row patch) :
    w.createdBy row._id = some (.service (some service)) ∧ row.ownerName = .str service := by
  cases hoverwrites with
  | upsert key v overrides hkey howner =>
      exact ⟨howned row hrow service hpublishes howner, ownerName_of_owner howner⟩
  | adopt key v hkey hmanual howner hannounced hfree =>
      refine ⟨havoids.manual hmanual row hrow howner key hkey (by rw [hannounced]; rfl) hfree, ?_⟩
      exact ownerName_eq_iff.mpr (.inr ⟨howner, hmanual⟩)
  | disable key hkey hnamed howner =>
      exact ⟨howned row hrow service hpublishes howner, ownerName_of_owner howner⟩

/-- What a manifest inserts, the YAML does not declare. -/
theorem undeclared_of_inserts {model : Obj} (havoids : AvoidsSentinels config service routes w)
    (hinserts : Inserts config service routes w.world.store model) {key : String}
    (hkey : routeKeyOf (.obj model) = .ok key) : ¬ config.Declares key := by
  obtain ⟨key', v, hannounced, hfree, hunowned⟩ := hinserts
  obtain rfl := Except.ok.inj (hkey.symm.trans (routeKeyOf_inserted hannounced))
  intro hdeclared
  obtain ⟨row, hrow, hrowKey, howner⟩ :=
    havoids.yaml (hfree hdeclared) key (by rw [hannounced]; rfl) hdeclared
  exact hunowned row hrow hrowKey howner

theorem isolated_of_synced {manifest : RouteManifest} (howned : Owned publishes w)
    (hpublishes : publishes service) (hservice : manifest.service = some service)
    (havoids : AvoidsSentinels config service manifest.list w)
    (hsynced : Synced config service manifest.list w.world w') : Isolated config manifest w w' := by
  constructor
  · intro row hrow hforeign
    refine hsynced.untouched hrow fun patch hoverwrites => ?_
    obtain ⟨hcreated, howner⟩ := createdBy_of_overwrites howned hpublishes havoids hrow hoverwrites
    exact (hforeign service hservice).elim (fun h => h hcreated) fun h => h howner
  · obtain ⟨ops, hasked, hops⟩ := hsynced.asked
    refine ⟨ops, hasked, fun op hop => ⟨?_, ?_⟩⟩
    · rintro id rfl
      have hasks := hops _ hop
      cases hasks with
      | read _ hread => cases hread
      | beside _ hbeside => cases hbeside
    · rintro model rfl key hkey
      have hasks := hops _ hop
      cases hasks with
      | read _ hread => cases hread
      | beside _ hbeside => cases hbeside
      | insert _ hinserts => exact undeclared_of_inserts havoids hinserts hkey

theorem isolated_of_looking {manifest : RouteManifest} (hlooking : Looking w.world w') :
    Isolated config manifest w w' := by
  refine ⟨fun row hrow _ => hlooking.untouched hrow, ?_⟩
  obtain ⟨-, ops, hasked, hreads⟩ := hlooking
  refine ⟨ops, hasked, fun op hop => ⟨?_, ?_⟩⟩
  · rintro id rfl
    cases hreads _ hop
  · rintro model rfl
    cases hreads _ hop

end Manifest

/-! ## One step -/

section Step

variable {env : PathEnv} {config : GatewayConfig} {publishes : String → Prop} {w : OwnedWorld}

theorem PathStore.has_iff {store : PathStore} {id : String} :
    store.has id = true ↔ ∃ row ∈ store.rows, row._id = id := by
  unfold PathStore.has
  simp [List.any_eq_true]

/-- A row that was stored before keeps its creator. -/
theorem createdBy_of_old {input : PathInput} {row : StoredHttpPath} (h : row ∈ w.world.store.rows) :
    (ownedStep env config w input).createdBy row._id = w.createdBy row._id := by
  have hold : w.world.store.has row._id = true := PathStore.has_iff.mpr ⟨row, h, rfl⟩
  unfold ownedStep
  dsimp only
  rw [hold, Bool.not_true, Bool.and_false]
  rfl

/-- A row that was not stored before is the input's. -/
theorem createdBy_of_new {input : PathInput} {row : StoredHttpPath}
    (h : row ∈ (ownedStep env config w input).world.store.rows)
    (hnew : ∀ r ∈ w.world.store.rows, r._id ≠ row._id) :
    (ownedStep env config w input).createdBy row._id = some input.creator := by
  have hstored : (input.play env config w.world).store.has row._id = true := PathStore.has_iff.mpr ⟨row, h, rfl⟩
  have hold : w.world.store.has row._id = false := by
    rw [Bool.eq_false_iff]
    intro hhas
    obtain ⟨r, hr, hid⟩ := PathStore.has_iff.mp hhas
    exact hnew r hr hid
  unfold ownedStep
  dsimp only
  rw [hstored, hold]
  rfl

/-- An input that stores no row with another owner than before. -/
theorem Owned.of_rows {input : PathInput} (h : Owned publishes w)
    (hrows : ∀ row ∈ (ownedStep env config w input).world.store.rows, ∀ service, publishes service →
      row.get "owner" = .str service →
        (∃ r ∈ w.world.store.rows, r._id = row._id ∧
          (r.get "owner" = .str service ∨ w.createdBy r._id = some (.service (some service)))) ∨
        (∀ r ∈ w.world.store.rows, r._id ≠ row._id) ∧ input.creator = .service (some service)) :
    Owned publishes (ownedStep env config w input) := by
  intro row hrow service hpublishes howner
  rcases hrows row hrow service hpublishes howner with ⟨r, hr, hid, hbefore⟩ | ⟨hnew, hcreator⟩
  · rw [← hid, createdBy_of_old hr]
    rcases hbefore with hbefore | hcreated
    · exact h r hr service hpublishes hbefore
    · exact hcreated
  · rw [createdBy_of_new hrow hnew, hcreator]

/-- An input that leaves the table. -/
theorem Owned.of_store {input : PathInput} (h : Owned publishes w)
    (hstore : (ownedStep env config w input).world.store = w.world.store) :
    Owned publishes (ownedStep env config w input) := by
  refine h.of_rows fun row hrow service _ howner => .inl ⟨row, hstore ▸ hrow, rfl, .inl howner⟩

/-- **Creating a route** hands it to no publishing service. -/
theorem Owned.create {body currentUser : Value} (h : Owned publishes w)
    (hrespects : RespectsOwners publishes config w (.create body currentUser)) :
    Owned publishes (ownedStep env config w (.create body currentUser)) := by
  have hended : Ends _ _ ((GatewayPathService.insertRoute body).run env.service w.world) :=
    GatewayPathService.triple_insertRoute body w.world rfl
  have hworld : (ownedStep env config w (.create body currentUser)).world.store =
      ((GatewayPathService.insertRoute body).run env.service w.world).2.store :=
    GatewayPathService.store_create body currentUser w.world
  generalize (GatewayPathService.insertRoute body).run env.service w.world = ended at hended hworld
  rcases ended with ⟨e | ⟨key, created⟩, w'⟩
  · exact h.of_store (hworld ▸ hended)
  · obtain ⟨⟨routeKey, -, hcolumns⟩, hnew, hmem⟩ : GatewayPathService.Created _ _ _ created := hended
    refine h.of_rows fun row hrow service hpublishes howner => ?_
    rw [hworld, hmem] at hrow
    rcases hrow with hrow | rfl
    · exact .inl ⟨row, hrow, rfl, .inl howner⟩
    · have hbody : row.get "owner" = Obj.get (fieldsOf body) "owner" := by
        rw [row.get_of_ne (by decide), hcolumns, Obj.get_assign]
        unfold GatewayPathService.createdModel Obj.get
        rw [Obj.own_spread]
        rfl
      exact absurd (hbody.symm.trans howner) (hrespects service hpublishes)

/-- **Updating a route** hands it to no publishing service but the one whose manifests created it. -/
theorem Owned.update {body currentUser : Value} (h : Owned publishes w)
    (hrespects : RespectsOwners publishes config w (.update body currentUser)) :
    Owned publishes (ownedStep env config w (.update body currentUser)) := by
  have hended : Ends _ _ ((GatewayPathService.patchRoute body).run env.service w.world) :=
    GatewayPathService.triple_patchRoute body w.world rfl
  have hworld : (ownedStep env config w (.update body currentUser)).world.store =
      ((GatewayPathService.patchRoute body).run env.service w.world).2.store :=
    GatewayPathService.store_update body currentUser w.world
  generalize (GatewayPathService.patchRoute body).run env.service w.world = ended at hended hworld
  rcases ended with ⟨e | u, w'⟩
  · exact h.of_store (hworld ▸ hended)
  · change GatewayPathService.Edited _ _ _ u.updated at hended
    generalize u.updated = updated at hended
    cases hended with
    | missing hstore => exact h.of_store (hworld ▸ hstore)
    | edited old hold hid model patch hmodel hpatch hmem =>
        refine h.of_rows fun row hrow service hpublishes howner => ?_
        rw [hworld, hmem] at hrow
        rcases hrow with ⟨hrow, -⟩ | rfl
        · exact .inl ⟨row, hrow, rfl, .inl howner⟩
        · refine .inl ⟨old, hold, rfl, ?_⟩
          rw [old.get_patched patch (by decide), GatewayPathService.own_updatedModel hpatch (by decide),
            hmodel.own (by decide), GatewayPathService.own_persisted (by decide)] at howner
          cases hown : Obj.own (fieldsOf body) "owner" with
          | none =>
              rw [hown] at howner
              exact .inl howner
          | some owner =>
              rw [hown] at howner
              exact .inr (hrespects service hpublishes (hown.trans (congrArg some howner)) old._id hid)

theorem Owned.remove {id currentUser : Value} (h : Owned publishes w) :
    Owned publishes (ownedStep env config w (.remove id currentUser)) := by
  have hended : Ends _ _ ((HttpPathRepository.removeById id).run env.service w.world) :=
    GatewayPathService.triple_removeById id w.world rfl
  have hworld : (ownedStep env config w (.remove id currentUser)).world.store =
      ((HttpPathRepository.removeById id).run env.service w.world).2.store :=
    GatewayPathService.store_remove id currentUser w.world
  generalize (HttpPathRepository.removeById id).run env.service w.world = ended at hended hworld
  rcases ended with ⟨e | removed, w'⟩
  · exact h.of_store (hworld ▸ hended)
  · refine h.of_rows fun row hrow service _ howner => ?_
    rw [hworld, hended] at hrow
    exact .inl ⟨row, hrow.1, rfl, .inl howner⟩

/-- **A manifest** hands rows to its own service, and only those its manifests created. -/
theorem Owned.manifest {manifest : RouteManifest} (h : Owned publishes w)
    (hrespects : RespectsOwners publishes config w (.manifest manifest))
    (hpublishes : ∀ service, manifest.service = some service → publishes service) :
    Owned publishes (ownedStep env config w (.manifest manifest)) := by
  have hhandled := handle_spec env config manifest w.world
  cases hhandled with
  | looked hlooking => exact h.of_store hlooking.1
  | synced service hservice hnamed hreadable hsynced =>
      have havoids := (hrespects service hservice hnamed).resolve_left hreadable
      refine h.of_rows fun row hrow service' hpublished howner => ?_
      rcases hsynced.new row hrow with ⟨r, hr, hid⟩ | hdiscovered
      · refine .inl ⟨r, hr, hid, ?_⟩
        rcases (hsynced.evolved hrow hr hid.symm).columns "owner" with hsame | ⟨patch, hoverwrites, hown⟩
        · exact .inl (hsame.symm.trans howner)
        · have hcreated := (createdBy_of_overwrites h (hpublishes service hservice) havoids hr hoverwrites).1
          rw [howner] at hown
          rw [hoverwrites.owner_eq hown]
          exact .inr hcreated
      · refine .inr ⟨hdiscovered.new, ?_⟩
        rw [hdiscovered.owner] at howner
        rw [← Value.str.inj howner]
        exact congrArg Creator.service hservice

end Step

/-! ## Runs from the empty table -/

/-- **Route sync is isolated in every run that respects the owners.**  Whatever the requests create, change and
remove and whatever fails, every manifest writes only rows that manifests of its own service created, and
inserts nothing that the YAML declares. -/
theorem sync_isolated (env : PathEnv) (config : GatewayConfig) {inputs : List PathInput}
    (hrespects : Along (ownedStep env config) (RespectsOwners (PublishedBy inputs) config) .empty inputs) :
    Along (ownedStep env config) (SyncIsolated env config) .empty inputs := by
  have hpublished : Along (ownedStep env config)
      (fun _ input => ∀ manifest, input = .manifest manifest → ∀ service, manifest.service = some service →
        PublishedBy inputs service) .empty inputs :=
    along_of_forall fun input hinput manifest heq service hservice => ⟨manifest, heq ▸ hinput, hservice⟩
  have hempty : Owned (PublishedBy inputs) .empty := fun row hrow => (List.not_mem_nil hrow).elim
  refine (hrespects.and hpublished).of_invariant ?_ ?_ hempty
  · rintro w input howned ⟨hinput, hservices⟩
    cases input with
    | create body currentUser => exact howned.create hinput
    | update body currentUser => exact howned.update hinput
    | remove id currentUser => exact howned.remove
    | manifest manifest => exact howned.manifest hinput (hservices manifest rfl)
  · rintro w input howned ⟨hinput, hservices⟩
    cases input with
    | create => trivial
    | update => trivial
    | remove => trivial
    | manifest manifest =>
        cases handle_spec env config manifest w.world with
        | looked hlooking => exact isolated_of_looking hlooking
        | synced service hservice hnamed hreadable hsynced =>
            exact isolated_of_synced howned (hservices manifest rfl service hservice) hservice
              ((hinput service hservice hnamed).resolve_left hreadable) hsynced

section Examples

/-- A route, created by a user with this owner. -/
def createReport (owner : Value) : PathInput :=
  .create (.obj [("name", .str "report"), ("method", .str "GET"), ("path", .str "/report"),
    ("topic", .str "reports"), ("owner", owner)]) (.str "user")

/-- A manifest of the service `reports`. -/
def reportsManifest (routes : List Value) : PathInput :=
  .manifest { service := some "reports", routes := .arr routes }

/-- A route of that service. -/
def exportRoute : Value := .obj
  [("name", .str "export"), ("method", .str "GET"), ("path", .str "/export"), ("topic", .str "reports"),
    ("action", .str "export"), ("mode", .str "rpc")]

/-- A row that a user created with the service as its owner is switched off by the service's manifest. -/
theorem not_isolated_ownerInBody :
    ¬ ∀ (env : PathEnv) (config : GatewayConfig) (inputs : List PathInput),
      Along (ownedStep env config) (SyncIsolated env config) .empty inputs := by
  intro h
  obtain ⟨-, hisolated, -⟩ := h .calm {} [createReport (.str "reports"), reportsManifest []]
  have hcreated : (run (ownedStep .calm {}) .empty [createReport (.str "reports")]).world.store.rows.any
      (fun row => row.isEnabled &&
        (run (ownedStep .calm {}) .empty [createReport (.str "reports")]).createdBy row._id == some .user) =
      true := by decide
  have hoff : (run (ownedStep .calm {}) .empty
      [createReport (.str "reports"), reportsManifest []]).world.store.rows.all
      (fun row => !row.isEnabled) = true := by decide
  obtain ⟨row, hrow, hstate⟩ := List.any_eq_true.mp hcreated
  rw [Bool.and_eq_true, beq_iff_eq] at hstate
  have huntouched := hisolated.foreign row hrow fun service _ => .inl fun hservice => by
    cases hstate.2.symm.trans hservice
  have hstored := List.all_eq_true.mp hoff row huntouched.stored
  rw [hstate.1] at hstored
  cases hstored

/-- A user's route beside those of a service. -/
theorem sync_isolated_reports :
    Along (ownedStep .calm {}) (SyncIsolated .calm {}) .empty
      [createReport .null, reportsManifest [exportRoute], reportsManifest []] := by
  have hmanifest (routes : List Value) (w : OwnedWorld) (publishes : String → Prop) :
      RespectsOwners publishes {} w (reportsManifest routes) := by
    rintro service hservice -
    obtain rfl := Option.some.inj hservice
    exact .inr ⟨fun h => absurd h (by decide), fun h => absurd h (by decide)⟩
  refine sync_isolated .calm {} ⟨?_, hmanifest _ _ _, hmanifest _ _ _, trivial⟩
  rintro service - howner
  cases howner

end Examples

end NestAmqp.Gateway
