/-
# NestAmqp.Gateway.UserEdits — do a user's edits survive auto-discovery?

A user who changes a soft field of a route overrides it: auto-discovery is to keep the user's value until
the user changes or releases it.  Any other change locks the row: auto-discovery is to leave it alone.
The manifests of a service respect both wherever they announce a route.  Where they no longer announce
it, the row is switched off, whatever the user has said about it; and a service that calls itself
`manual` takes over the rows without an owner, edits and all.  `edits_survive` says that these are the
only two ways to lose an edit.

The world remembers, beside the table, which value the user last gave to each overridden field.
-/
import NestAmqp.Lib.Machine
import NestAmqp.Gateway.PathService
import NestAmqp.Gateway.SyncedRows

namespace NestAmqp.Gateway

open NestAmqp.Js NestAmqp.Lib NestAmqp.Lib.Script NestAmqp.Lib.Machine GatewayPathService

/-! ## Overridden fields -/

/-- `row.userOverrides` lists this field. -/
def StoredHttpPath.overrides (row : StoredHttpPath) (field : String) : Bool :=
  match row.get "userOverrides" with
  | .arr items => items.any (·.isText field)
  | _ => false

/-- What the column of overrides may hold: nothing, or a list of fields that can be overridden. -/
def OverridesColumn (userOverrides : Value) : Prop :=
  userOverrides.truthy = false ∨
    ∃ items, userOverrides = .arr items ∧ ∀ item ∈ items, ∃ field ∈ userOverridableFields, item = .str field

/-- The field still has the value that was given to it.  The state of a route is on or off: `enabled` is
kept when what was given to switch a route on has become `true`. -/
def KeepsValue (field : String) (given value : Value) : Prop :=
  value = given ∨ (field = "enabled" ∧ value = .bool true ∧ isNotFalse given = true)

/-! ## Runs -/

/-- The table with its log, and the value the user last gave to each overridden field of each row. -/
structure EditWorld where
  world : PathWorld
  given : String → String → Option Value

/-- What happens to the table. -/
inductive EditInput where
  | update (body currentUser : Value)
  | manifest (manifest : RouteManifest)

/-- What the user has given, behind an update with this body whose write ended so. -/
def noteGiven (given : String → String → Option Value) (fields : Obj) :
    Except Thrown (Option StoredHttpPath) → String → String → Option Value
  | .ok (some row) => fun id field =>
      if id = row._id then
        if row.overrides field then (Obj.own fields field).or (given id field) else none
      else given id field
  | _ => given

/-- One update or one manifest. -/
def editStep (env : PathEnv) (config : GatewayConfig) (w : EditWorld) : EditInput → EditWorld
  | .update body currentUser =>
      { world := ((update body currentUser).run env.service w.world).2
        given := noteGiven w.given (fieldsOf body)
          (((patchRoute body).run env.service w.world).1.map RouteUpdate.updated) }
  | .manifest manifest => { w with world := ((handle config manifest).run env.service w.world).2 }

/-- Every overridden field has the value the user last gave it, and nothing the user has overridden has been
dropped from the overrides. -/
structure EditsKept (w : EditWorld) : Prop where
  kept : ∀ row ∈ w.world.store.rows, ∀ field, row.overrides field = true →
    ∃ value, w.given row._id field = some value ∧ KeepsValue field value (row.get field)
  held : ∀ id field value, w.given id field = some value →
    ∃ row ∈ w.world.store.rows, row._id = id ∧ row.overrides field = true

/-- The edits are kept, and the overrides are fields that can be overridden. -/
structure Coherent (w : EditWorld) : Prop extends EditsKept w where
  columns : ∀ row ∈ w.world.store.rows, OverridesColumn (row.get "userOverrides")

/-- A manifest writes no locked row. -/
def LockedUntouched (env : PathEnv) (config : GatewayConfig) (w : EditWorld) : EditInput → Prop
  | .update _ _ => True
  | .manifest manifest =>
      ∀ row ∈ w.world.store.rows, row.isModified = true →
        Untouched row w.world (editStep env config w (.manifest manifest)).world

/-! ## What a manifest must not do -/

/-- The manifest drops no route that is on and that the user has locked or whose state the user has overridden;
and one of `manual` announces no route that the user has edited and that has no owner. -/
structure LeavesEdits (config : GatewayConfig) (service : String) (routes : List Value) (store : PathStore) :
    Prop where
  announces : ∀ row ∈ store.rows, row.get "owner" = .str service → row.isEnabled = true →
    row.isModified = true ∨ row.overrides "enabled" = true →
      ∀ key, row.key = some key → key ≠ "" → (announced routes key).isSome
  adopts : service = "manual" → ∀ row ∈ store.rows, (row.get "owner").nullish = true →
    ∀ key, row.key = some key → (announced routes key).isSome → ¬ config.Declares key →
      row.isModified = false ∧ ∀ field, row.overrides field = false

/-- Updates are free. -/
def RespectsEdits (config : GatewayConfig) (w : EditWorld) : EditInput → Prop
  | .update _ _ => True
  | .manifest manifest => ∀ service, manifest.service = some service → service ≠ "" →
      Unreadable config manifest.list ∨ LeavesEdits config service manifest.list w.world.store

/-! ## Reading the overrides -/

section Read

variable {row row₀ : StoredHttpPath} {field : String} {overrides : Overrides}

theorem overrides_of_arr {items : List Value} (h : row.get "userOverrides" = .arr items) :
    row.overrides field = true ↔ .str field ∈ items := by
  unfold StoredHttpPath.overrides
  rw [h]
  simp [List.any_eq_true]

theorem overrides_congr (h : row.get "userOverrides" = row₀.get "userOverrides") :
    row.overrides field = row₀.overrides field := by
  unfold StoredHttpPath.overrides
  rw [h]

/-- A falsy column lists nothing. -/
theorem overrides_of_falsy (h : (row.get "userOverrides").truthy = false) : row.overrides field = false := by
  unfold StoredHttpPath.overrides
  generalize row.get "userOverrides" = v at h
  cases v <;> first | rfl | cases h

/-- How auto-discovery reads the column. -/
theorem readOverrides_of_column (hcolumn : OverridesColumn (row.get "userOverrides"))
    (h : readOverrides (row.get "userOverrides") = .ok overrides) :
    (overrides = .none ∧ ∀ field, row.overrides field = false) ∨
      ∃ items, row.get "userOverrides" = .arr items ∧ overrides.stored = .arr items ∧
        overrides.fields = items ∧ overrides.includesEnabled = items.any (·.isText "enabled") := by
  rcases hcolumn with hfalsy | ⟨items, hitems, -⟩
  · refine .inl ⟨?_, fun field => overrides_of_falsy hfalsy⟩
    unfold readOverrides at h
    rw [hfalsy] at h
    exact (Except.ok.inj h).symm
  · rw [hitems] at h
    change (if printsAll items then _ else _) = _ at h
    split at h
    · obtain rfl := Except.ok.inj h
      exact .inr ⟨items, hitems, rfl, rfl, rfl⟩
    · cases h

end Read

/-! ## Updates -/

section Update

variable {row : StoredHttpPath} {model patch : Obj} {released : Value} {field : String}
  {changes : List RouteFieldChange}

/-- A changed field is one the body has. -/
theorem own_of_changed (h : field ∈ (changesOf (some row) model).map (·.field)) :
    ∃ value, Obj.own model field = some value := by
  rw [← Option.ne_none_iff_exists']
  intro hnone
  obtain ⟨change, hchange, rfl⟩ := List.mem_map.mp h
  rcases List.mem_append.mp hchange with hchange | hchange
  · obtain ⟨f, -, hdiff⟩ := List.mem_filterMap.mp hchange
    rw [field_diffField hdiff] at hnone
    have hsame : Obj.get (Obj.spread row.columns model) f = Obj.get row.columns f := by
      unfold Obj.get
      rw [Obj.own_spread, hnone, Option.none_or]
    unfold diffField at hdiff
    rw [hsame, if_pos rfl] at hdiff
    cases hdiff
  · unfold enabledChange at hchange
    split at hchange
    next => cases hchange
    next => cases hchange
    next hdefined =>
      split at hchange
      next =>
        rw [List.mem_singleton.mp hchange] at hnone
        apply hdefined
        unfold Obj.get
        rw [hnone]
        rfl
      next => cases hchange

/-- Adding to a set adds nothing else. -/
theorem mem_setAdd {items : List Value} : ∀ {set : List Value} {x : Value},
    x ∈ items.foldl setAdd set → x ∈ set ∨ x ∈ items := by
  induction items with
  | nil => exact fun h => .inl h
  | cons item items ih =>
      intro set x h
      rcases ih h with hset | hitems
      · unfold setAdd at hset
        split at hset
        · exact .inl hset
        · rcases List.mem_append.mp hset with hset | hset
          · exact .inl hset
          · exact .inr (List.mem_singleton.mp hset ▸ .head _)
      · exact .inr (.tail _ hitems)

theorem mem_setDelete {items : List Value} : ∀ {set : List Value} {x : Value},
    x ∈ items.foldl setDelete set → x ∈ set := by
  induction items with
  | nil => exact fun h => h
  | cons item items ih => exact fun h => (List.mem_filter.mp (ih h)).1

/-- What an update leaves in the overrides was there, or is a soft field that the body changes. -/
theorem mem_overridesAfter (hcolumn : OverridesColumn (row.get "userOverrides")) {items : List Value}
    (h : overridesAfter (some row) changes released = .ok items) {item : Value} (hitem : item ∈ items) :
    ∃ field ∈ userOverridableFields, item = .str field ∧
      (row.overrides field = true ∨ field ∈ changes.map (·.field)) := by
  unfold overridesAfter at h
  obtain ⟨stored, hstored, h⟩ := bind_eq_ok.mp h
  obtain rfl := Except.ok.inj h
  rcases mem_setAdd (mem_setDelete hitem) with hnil | hmem
  · cases hnil
  · rcases List.mem_append.mp hmem with hmem | hmem
    · rcases hcolumn with hfalsy | ⟨items, hitems, hfields⟩
      · have hnothing : spreadItems ((row.get "userOverrides").orElse (.arr [])) = .ok stored := hstored
        unfold Value.orElse at hnothing
        rw [hfalsy] at hnothing
        obtain rfl := Except.ok.inj hnothing
        cases hmem
      · have hspread : spreadItems ((row.get "userOverrides").orElse (.arr [])) = .ok stored := hstored
        rw [hitems] at hspread
        obtain rfl := Except.ok.inj hspread
        obtain ⟨field, hfield, rfl⟩ := hfields item hmem
        exact ⟨field, hfield, rfl, .inl ((overrides_of_arr hitems).mpr hmem)⟩
    · obtain ⟨field, hfield, rfl⟩ := List.mem_map.mp hmem
      obtain ⟨hchanged, hsoft⟩ := List.mem_filter.mp hfield
      exact ⟨field, List.contains_iff_mem.mp hsoft, rfl, .inr hchanged⟩

/-! The two columns an update writes. -/

theorem get_modified_written (row : StoredHttpPath) (model : Obj) (modified overrides : Value) :
    (row.patched (Obj.spread model [("modified", modified), ("userOverrides", overrides)])).get "modified" =
      modified := by
  rw [row.get_patched _ (by decide), Obj.own_spread, Obj.own_cons, Obj.own_cons]
  rfl

theorem get_userOverrides_written (row : StoredHttpPath) (model : Obj) (modified overrides : Value) :
    (row.patched (Obj.spread model [("modified", modified), ("userOverrides", overrides)])).get
    "userOverrides" =
      overrides := by
  rw [row.get_patched _ (by decide), Obj.own_spread, Obj.own_cons, Obj.own_cons]
  rfl

/-- The column of overrides behind an update. -/
theorem get_userOverrides_patched (hcolumn : OverridesColumn (row.get "userOverrides"))
    (h : updatedModel (some row) model released = .ok patch) :
    ∃ items, (row.patched patch).get "userOverrides" = .arr items ∧
      ∀ item ∈ items, ∃ field ∈ userOverridableFields, item = .str field ∧
        (row.overrides field = true ∨ field ∈ (changesOf (some row) model).map (·.field)) := by
  unfold updatedModel at h
  obtain ⟨items, hitems, hpatch⟩ := bind_eq_ok.mp h
  obtain rfl := Except.ok.inj hpatch
  exact ⟨items, get_userOverrides_written _ _ _ _, fun item hitem => mem_overridesAfter hcolumn hitems hitem⟩

/-- Fields that can be overridden are columns that an update takes from its body. -/
theorem overridable_plain {field : String} (h : field ∈ userOverridableFields) :
    field ≠ "_id" ∧ field ≠ "routeKey" ∧ field ∉ ["id", "_id", "releaseOverrides"] ∧
      field ∉ ["modified", "userOverrides"] := by
  revert field
  decide

/-- A table that an input leaves. -/
theorem Coherent.of_store {w : EditWorld} (h : Coherent w) {w' : PathWorld}
    (hstore : w'.store = w.world.store) :
    Coherent { w with world := w' } := by
  obtain ⟨⟨hkept, hheld⟩, hcolumns⟩ := h
  rw [← hstore] at hkept hheld hcolumns
  exact ⟨⟨hkept, hheld⟩, hcolumns⟩

/-- **The row a user has updated**: what the body has is what the user gave, and what it does not have is as
it was. -/
theorem Coherent.edited {w : EditWorld} (h : Coherent w) {w' : PathWorld} {fields : Obj}
    (hrow : row ∈ w.world.store.rows) (hmodel : Keyed (persisted fields) model)
    (hpatch : updatedModel (some row) model released = .ok patch)
    (hmem : ∀ r, r ∈ w'.store.rows ↔ (r ∈ w.world.store.rows ∧ r._id ≠ row._id) ∨ r = row.patched patch) :
    Coherent { world := w', given := noteGiven w.given fields (.ok (some (row.patched patch))) } := by
  obtain ⟨items, hitems, hlisted⟩ := get_userOverrides_patched (h.columns row hrow) hpatch
  have hown {field : String} (hfield : field ∈ userOverridableFields) :
      Obj.own patch field = Obj.own fields field ∧ Obj.own model field = Obj.own fields field := by
    obtain ⟨-, hkey, hplain, hset⟩ := overridable_plain hfield
    have hmodelOwn := (hmodel.own hkey).trans (own_persisted hplain)
    exact ⟨(own_updatedModel hpatch hset).trans hmodelOwn, hmodelOwn⟩
  refine ⟨⟨?_, ?_⟩, ?_⟩
  · intro r hr field hoverridden
    rcases (hmem r).mp hr with ⟨hr, hid⟩ | rfl
    · obtain ⟨value, hgiven, hkeeps⟩ := h.kept r hr field hoverridden
      exact ⟨value, (if_neg hid).trans hgiven, hkeeps⟩
    · -- a field of the row that was edited: given by this body, or before
      obtain ⟨f, hsoft, hf, hbefore⟩ := hlisted _ ((overrides_of_arr hitems).mp hoverridden)
      obtain rfl := Value.str.inj hf
      have hgiven : noteGiven w.given fields (.ok (some (row.patched patch))) (row.patched patch)._id field =
          (Obj.own fields field).or (w.given row._id field) :=
        (if_pos rfl).trans (if_pos hoverridden)
      dsimp only
      rw [hgiven, row.get_patched patch (overridable_plain hsoft).1, (hown hsoft).1]
      cases hbody : Obj.own fields field with
      | some value => exact ⟨value, rfl, .inl rfl⟩
      | none =>
          rcases hbefore with hbefore | hchanged
          · exact h.kept row hrow field hbefore
          · obtain ⟨value, hvalue⟩ := own_of_changed hchanged
            rw [(hown hsoft).2, hbody] at hvalue
            cases hvalue
  · intro id field value hgiven
    by_cases hid : id = row._id
    · refine ⟨row.patched patch, (hmem _).mpr (.inr rfl), hid.symm, ?_⟩
      -- what is given is not dropped
      by_contra hdropped
      have hnone : noteGiven w.given fields (.ok (some (row.patched patch))) id field = none :=
        (if_pos hid).trans (if_neg hdropped)
      cases hnone.symm.trans hgiven
    · obtain ⟨r, hr, rfl, hoverridden⟩ := h.held id field value ((if_neg hid).symm.trans hgiven)
      exact ⟨r, (hmem r).mpr (.inl ⟨hr, hid⟩), rfl, hoverridden⟩
  · intro r hr
    rcases (hmem r).mp hr with ⟨hr, -⟩ | rfl
    · exact h.columns r hr
    · refine .inr ⟨items, hitems, fun item hitem => ?_⟩
      obtain ⟨field, hfield, rfl, -⟩ := hlisted item hitem
      exact ⟨field, hfield, rfl⟩

/-- An update keeps the edits, its own among them. -/
theorem Coherent.update {env : PathEnv} {config : GatewayConfig} {w : EditWorld} (h : Coherent w)
    (body currentUser : Value) : Coherent (editStep env config w (.update body currentUser)) := by
  have hended : Ends _ _ ((patchRoute body).run env.service w.world) := triple_patchRoute body w.world rfl
  have hstored := @store_update env body currentUser w.world
  show Coherent { world := ((GatewayPathService.update body currentUser).run env.service w.world).2, given := _ }
  generalize ((GatewayPathService.update body currentUser).run env.service w.world).2 = world at hstored ⊢
  generalize (patchRoute body).run env.service w.world = ended at hended hstored ⊢
  rcases ended with ⟨e | u, w'⟩
  · exact h.of_store (hstored.trans hended)
  · change world.store = w'.store at hstored
    change Coherent { world, given := noteGiven w.given (fieldsOf body) (.ok u.updated) }
    have hedited : Edited (fieldsOf body) w.world.store world.store u.updated := hstored ▸ hended
    generalize u.updated = updated at hedited ⊢
    cases hedited with
    | missing hstore => exact h.of_store hstore
    | edited row hrow hid model patch hmodel hpatch hmem => exact h.edited hrow hmodel hpatch hmem

end Update

/-! ## Manifests -/

section Manifest

variable {config : GatewayConfig} {service field : String} {routes : List Value} {store : PathStore}
  {row row₀ : StoredHttpPath} {patch : Obj} {value : Value}

/-- A row the user has locked is not written over. -/
theorem not_overwrites_of_locked (hleaves : LeavesEdits config service routes store)
    (hrow : row ∈ store.rows) (hlocked : row.isModified = true) :
    ¬ Overwrites config service routes row patch := by
  intro hoverwrites
  cases hoverwrites with
  | upsert key v overrides hkey howner hannounced hfree hmodified =>
      rw [hlocked] at hmodified
      cases hmodified
  | adopt key v hkey hmanual howner hannounced hfree =>
      have hunedited := (hleaves.adopts hmanual row hrow howner key hkey (by rw [hannounced]; rfl) hfree).1
      rw [hlocked] at hunedited
      cases hunedited
  | disable key hkey hnamed howner habsent henabled =>
      have hannounced := hleaves.announces row hrow howner henabled (.inl hlocked) key hkey hnamed
      rw [habsent] at hannounced
      cases hannounced

/-- A merged route has the row's values in the overridden fields. -/
theorem own_keepOverride {items : List Value} (hitems : ∀ item ∈ items, ∃ f, item = .str f) (r : Obj)
    (hfield : .str field ∈ items) (hcontent : field ≠ "enabled") :
    Obj.own (items.foldl (keepOverride row) r) field = some (row.get field) := by
  induction items using List.reverseRecOn with
  | nil => cases hfield
  | append_singleton items item ih =>
      obtain ⟨f, rfl⟩ := hitems item (by simp)
      rw [List.foldl_append, List.foldl_cons, List.foldl_nil]
      have hbefore (h : .str field ∈ items) := ih (fun i hi => hitems i (List.mem_append_left _ hi)) h
      unfold keepOverride at hbefore ⊢
      by_cases hf : f = field
      · subst hf
        rw [if_neg (by simpa using hcontent)]
        exact (Obj.own_set _ _ _ _).trans (if_pos rfl)
      · have hold : .str field ∈ items := by
          rcases List.mem_append.mp hfield with h | h
          · exact h
          · exact absurd (Value.str.inj (List.mem_singleton.mp h)).symm hf
        split
        · exact hbefore hold
        · exact ((Obj.own_set _ _ _ _).trans (if_neg fun h => hf h.symm)).trans (hbefore hold)

theorem overridable_content : ∀ f ∈ userOverridableFields, f ≠ "enabled" →
    f ∈ canonicalDefaults.map Prod.fst := by
  decide

/-- **What a manifest writes into an overridden field** is what the row has there. -/
theorem own_of_overwrites (hleaves : LeavesEdits config service routes store) (hrow : row ∈ store.rows)
    (hcolumn : OverridesColumn (row.get "userOverrides")) (hoverridden : row.overrides field = true)
    (hoverwrites : Overwrites config service routes row patch) (hown : Obj.own patch field = some value) :
    value = row.get field ∨ (field = "enabled" ∧ value = .bool row.isEnabled) := by
  cases hoverwrites with
  | upsert key v overrides hkey howner hannounced hfree hmodified hoverrides =>
      rcases readOverrides_of_column hcolumn hoverrides with ⟨-, hnone⟩ | ⟨items, hitems, -, hfields, henabled⟩
      · rw [hnone field] at hoverridden
        cases hoverridden
      · have hlisted := (overrides_of_arr hitems).mp hoverridden
        -- the column is a list of soft fields, and the overridden one is among them
        have hsoft : field ∈ userOverridableFields ∧ ∀ item ∈ items, ∃ f, item = .str f := by
          rcases hcolumn with hfalsy | ⟨items', hitems', hsoft⟩
          · rw [overrides_of_falsy hfalsy] at hoverridden
            cases hoverridden
          · obtain rfl := Value.arr.inj (hitems.symm.trans hitems')
            refine ⟨?_, fun item hitem => ?_⟩
            · obtain ⟨f, hf, heq⟩ := hsoft _ hlisted
              rwa [Value.str.inj heq]
            · obtain ⟨f, -, rfl⟩ := hsoft item hitem
              exact ⟨f, rfl⟩
        rw [model_upsertOf] at hown
        by_cases hstate : field = "enabled"
        · subst hstate
          rw [own_upsertModel_enabled, newEnabled, henabled, if_pos] at hown
          · exact .inr ⟨rfl, (Option.some.inj hown).symm⟩
          · exact List.any_eq_true.mpr ⟨_, hlisted, (Value.isText_iff _ _).mpr rfl⟩
        · -- the merge has put back the value of the row
          obtain ⟨content, hcontent, rfl⟩ := List.mem_map.mp (overridable_content field hsoft.1 hstate)
          have hmerged : applyUserOverrides (fieldsOf v) (some row) overrides =
              items.foldl (keepOverride row) (Obj.assign [] (fieldsOf v)) := by
            unfold applyUserOverrides
            dsimp only
            rw [hfields, if_neg]
            rw [List.isEmpty_iff]
            exact List.ne_nil_of_mem hlisted
          rw [own_upsertModel_of_canonical hcontent, hmerged, own_keepOverride hsoft.2 _ hlisted hstate] at hown
          exact .inl (Option.some.inj hown).symm
  -- a row that is adopted has no overrides
  | adopt key v hkey hmanual howner hannounced hfree =>
      rw [(hleaves.adopts hmanual row hrow howner key hkey (by rw [hannounced]; rfl) hfree).2] at hoverridden
      cases hoverridden
  | disable key hkey hnamed howner habsent henabled =>
      by_cases hstate : field = "enabled"
      · subst hstate
        have hannounced := hleaves.announces row hrow howner henabled (.inr hoverridden) key hkey hnamed
        rw [habsent] at hannounced
        cases hannounced
      · rw [Obj.own_cons, if_neg hstate] at hown
        cases hown

/-- What a manifest writes as overrides are those of the row. -/
theorem overrides_of_overwrites (hleaves : LeavesEdits config service routes store) (hrow : row ∈ store.rows)
    (hcolumn : OverridesColumn (row.get "userOverrides"))
    (hoverwrites : Overwrites config service routes row patch)
    (hown : Obj.own patch "userOverrides" = some value) :
    value = row.get "userOverrides" ∨ (value = .arr [] ∧ ∀ field, row.overrides field = false) := by
  cases hoverwrites with
  | upsert key v overrides hkey howner hannounced hfree hmodified hoverrides =>
      rw [userOverrides_of_upsertOf] at hown
      rcases readOverrides_of_column hcolumn hoverrides with ⟨rfl, hnone⟩ | ⟨items, hitems, hstored, -⟩
      · exact .inr ⟨(Option.some.inj hown).symm, hnone⟩
      · exact .inl ((Option.some.inj hown).symm.trans (hstored.trans hitems.symm))
  | adopt key v hkey hmanual howner hannounced hfree =>
      rw [userOverrides_of_upsertOf] at hown
      exact .inr ⟨(Option.some.inj hown).symm,
        (hleaves.adopts hmanual row hrow howner key hkey (by rw [hannounced]; rfl) hfree).2⟩
  | disable => cases hown

/-- The column of overrides of a row that a manifest may have written. -/
theorem userOverrides_evolved (hleaves : LeavesEdits config service routes store) (hrow₀ : row₀ ∈ store.rows)
    (hcolumn : OverridesColumn (row₀.get "userOverrides"))
    (hevolved : Evolved config service routes row₀ row) :
    (∀ field, row.overrides field = row₀.overrides field) ∧ OverridesColumn (row.get "userOverrides") := by
  have hsame (h : row.get "userOverrides" = row₀.get "userOverrides") :
      (∀ field, row.overrides field = row₀.overrides field) ∧ OverridesColumn (row.get "userOverrides") :=
    ⟨fun field => overrides_congr h, h ▸ hcolumn⟩
  rcases hevolved.columns "userOverrides" with h | ⟨patch, hoverwrites, hown⟩
  · exact hsame h
  · rcases overrides_of_overwrites hleaves hrow₀ hcolumn hoverwrites hown with h | ⟨hempty, hnone⟩
    · exact hsame h
    · refine ⟨fun field => ?_, .inr ⟨[], hempty, nofun⟩⟩
      rw [hnone field, Bool.eq_false_iff]
      exact fun h => List.not_mem_nil ((overrides_of_arr hempty).mp h)

/-- The value of an overridden field of a row that a manifest may have written. -/
theorem keepsValue_evolved (hleaves : LeavesEdits config service routes store) (hrow₀ : row₀ ∈ store.rows)
    (hcolumn : OverridesColumn (row₀.get "userOverrides")) (hoverridden : row₀.overrides field = true)
    (hevolved : Evolved config service routes row₀ row) {given : Value}
    (h : KeepsValue field given (row₀.get field)) : KeepsValue field given (row.get field) := by
  rcases hevolved.columns field with hsame | ⟨patch, hoverwrites, hown⟩
  · rwa [hsame]
  · rcases own_of_overwrites hleaves hrow₀ hcolumn hoverridden hoverwrites hown with hsame | ⟨rfl, hstate⟩
    · rwa [hsame]
    · rw [hstate]
      rcases h with hgiven | ⟨-, htrue, hgiven⟩
      · rw [← hgiven]
        unfold StoredHttpPath.isEnabled KeepsValue
        cases row₀.get "enabled" with
        | bool b => exact .inl rfl
        | _ => exact .inr ⟨rfl, rfl, rfl⟩
      · have henabled : row₀.isEnabled = true := by
          unfold StoredHttpPath.isEnabled
          rw [htrue]
        rw [henabled]
        exact .inr ⟨rfl, rfl, hgiven⟩

/-- **A manifest that leaves the edits keeps them.** -/
theorem Coherent.synced {w : EditWorld} (h : Coherent w) {w' : PathWorld}
    (hleaves : LeavesEdits config service routes w.world.store)
    (hsynced : Synced config service routes w.world w') : Coherent { w with world := w' } := by
  refine ⟨⟨?_, ?_⟩, ?_⟩
  · intro row hrow field hoverridden
    rcases hsynced.new row hrow with ⟨row₀, hrow₀, hid⟩ | hdiscovered
    · have hevolved := hsynced.evolved hrow hrow₀ hid.symm
      have hcolumn := h.columns row₀ hrow₀
      rw [(userOverrides_evolved hleaves hrow₀ hcolumn hevolved).1] at hoverridden
      obtain ⟨value, hgiven, hkeeps⟩ := h.kept row₀ hrow₀ field hoverridden
      exact ⟨value, hid ▸ hgiven, keepsValue_evolved hleaves hrow₀ hcolumn hoverridden hevolved hkeeps⟩
    · exact absurd ((overrides_of_arr hdiscovered.overrides).mp hoverridden) List.not_mem_nil
  · intro id field value hgiven
    obtain ⟨row₀, hrow₀, rfl, hoverridden⟩ := h.held id field value hgiven
    obtain ⟨row, hrow, hevolved⟩ := hsynced.old row₀ hrow₀
    refine ⟨row, hrow, hevolved.id, ?_⟩
    rwa [(userOverrides_evolved hleaves hrow₀ (h.columns row₀ hrow₀) hevolved).1]
  · intro row hrow
    rcases hsynced.new row hrow with ⟨row₀, hrow₀, hid⟩ | hdiscovered
    · exact (userOverrides_evolved hleaves hrow₀ (h.columns row₀ hrow₀)
        (hsynced.evolved hrow hrow₀ hid.symm)).2
    · exact .inr ⟨[], hdiscovered.overrides, nofun⟩

end Manifest

/-! ## Runs of updates and manifests -/

section Runs

variable {env : PathEnv} {config : GatewayConfig}

/-- One step. -/
theorem Coherent.step (w : EditWorld) (input : EditInput) (h : Coherent w)
    (hrespects : RespectsEdits config w input) : Coherent (editStep env config w input) := by
  cases input with
  | update body currentUser => exact h.update body currentUser
  | manifest manifest =>
      cases handle_spec env config manifest w.world with
      | looked hlooking => exact h.of_store hlooking.1
      | synced service hservice hnamed hreadable hsynced =>
          exact h.synced ((hrespects service hservice hnamed).resolve_left hreadable) hsynced

theorem lockedUntouched_of_respects (w : EditWorld) (input : EditInput)
    (hrespects : RespectsEdits config w input) : LockedUntouched env config w input := by
  cases input with
  | update => trivial
  | manifest manifest =>
      intro row hrow hlocked
      cases handle_spec env config manifest w.world with
      | looked hlooking => exact hlooking.untouched hrow
      | synced service hservice hnamed hreadable hsynced =>
          have hleaves := (hrespects service hservice hnamed).resolve_left hreadable
          exact hsynced.untouched hrow fun patch => not_overwrites_of_locked hleaves hrow hlocked

/-- **Edits survive every run whose manifests leave them.**  Whatever fails on the way, every overridden field
has the value the user last gave it in every state that is reached, and no manifest writes a locked row. -/
theorem edits_survive (env : PathEnv) (config : GatewayConfig) {w : EditWorld} (hcoherent : Coherent w)
    {inputs : List EditInput} (hrespects : Along (editStep env config) (RespectsEdits config) w inputs) :
    (∀ w', Reaches (editStep env config) w inputs w' → EditsKept w') ∧
      Along (editStep env config) (LockedUntouched env config) w inputs := by
  constructor
  · exact fun w' hreaches => (hrespects.invariant Coherent.step hcoherent hreaches).toEditsKept
  · exact hrespects.mono lockedUntouched_of_respects

end Runs

section Examples

/-- A route as its service announces it. -/
def filesRoute : Obj :=
  [("name", .str "files"), ("method", .str "GET"), ("path", .str "/files"), ("topic", .str "files"),
    ("action", .str "list"), ("mode", .str "rpc"), ("timeout", .num 5000)]

/-- The table behind a first manifest, which no user has edited. -/
def filesWorld : EditWorld where
  world :=
    { store :=
        { rows := [{ _id := "1", columns := upsertModel "files" "GET /files" filesRoute true .none }]
          ids := List.nodup_singleton _
          keys := by
            intro a ha b hb _ _
            rw [List.mem_singleton.mp ha, List.mem_singleton.mp hb] } }
  given := fun _ _ => none

/-- A user changes one field of that route. -/
def filesUpdate (field : String) (value : Value) : EditInput :=
  .update (.obj [("id", .str "1"), (field, value)]) (.str "user")

/-- A manifest of the service. -/
def filesManifest (routes : List Value) : EditInput :=
  .manifest { service := some "files", routes := .arr routes }

theorem coherent_filesWorld : Coherent filesWorld := by
  refine ⟨⟨fun row hrow field hoverridden => ?_, nofun⟩, fun row hrow => ?_⟩
  · rw [List.mem_singleton.mp hrow] at hoverridden
    cases hoverridden
  · rw [List.mem_singleton.mp hrow]
    exact .inr ⟨[], rfl, nofun⟩

/-- A locked route that its service no longer announces is switched off. -/
theorem not_survives_droppedRoute :
    ¬ ∀ (env : PathEnv) (config : GatewayConfig) (w : EditWorld) (inputs : List EditInput), Coherent w →
      (∀ w', Reaches (editStep env config) w inputs w' → EditsKept w') ∧
        Along (editStep env config) (LockedUntouched env config) w inputs := by
  intro h
  obtain ⟨-, -, huntouched, -⟩ := h .calm {} filesWorld
    [filesUpdate "topic" (.str "archive"), filesManifest []] coherent_filesWorld
  have hlocked : (run (editStep .calm {}) filesWorld
    [filesUpdate "topic" (.str "archive")]).world.store.rows.any
      (fun row => row.isModified && row.isEnabled) = true := by decide
  have hoff : (run (editStep .calm {}) filesWorld
      [filesUpdate "topic" (.str "archive"), filesManifest []]).world.store.rows.all
      (fun row => !row.isEnabled) = true := by decide
  obtain ⟨row, hrow, hstate⟩ := List.any_eq_true.mp hlocked
  rw [Bool.and_eq_true] at hstate
  have hstored := List.all_eq_true.mp hoff row (huntouched row hrow hstate.1).stored
  rw [hstate.2] at hstored
  cases hstored

/-- A timeout that a user has overridden stays, when the service announces the route with its own. -/
theorem edits_survive_timeout :
    (∀ w', Reaches (editStep .calm {}) filesWorld
        [filesUpdate "timeout" (.num 9000), filesManifest [.obj filesRoute]] w' → EditsKept w') ∧
      Along (editStep .calm {}) (LockedUntouched .calm {}) filesWorld
        [filesUpdate "timeout" (.num 9000), filesManifest [.obj filesRoute]] := by
  refine edits_survive .calm {} coherent_filesWorld ⟨trivial, fun service hservice _ => .inr ⟨?_, ?_⟩, trivial⟩
  · intro row hrow _ _ _ key hkey _
    have hkeys : (editStep .calm {} filesWorld (filesUpdate "timeout" (.num 9000))).world.store.rows.all
        (fun row => row.key == some "GET /files") = true := by decide
    have hfound := List.all_eq_true.mp hkeys row hrow
    rw [hkey, beq_iff_eq, Option.some.injEq] at hfound
    rw [hfound]
    decide
  · rintro rfl
    exact absurd hservice (by decide)

end Examples

end NestAmqp.Gateway
