/-
# NestAmqp.Gateway.PublishedRoutes — from a service's decorators to the gateway's route table.

At boot a service turns the metadata of its decorators into route definitions and publishes them as one
manifest.  The gateway lays the manifest over the rows it has for the service, exports the enabled rows,
and builds its router from them.  The stages are modelled where they belong; here they are put together.
-/
import NestAmqp.Gateway.CanonicalText
import NestAmqp.Gateway.Convergence
import NestAmqp.Js.PlainObject
import NestAmqp.Proxy.RouteOrder

namespace NestAmqp.Gateway.PublishedRoutes

open NestAmqp.Js NestAmqp.Lib NestAmqp.Proxy

/-! ## The publisher -/

/-- `meta[topic][action]`: the type of the action, and its `@BrokerHTTP` entries with the auth that has been
paired with them. -/
structure MetaEntry where
  type : Option String := none
  http : List Obj := []

/-- `metaInfo`: topics, actions, entries. -/
abbrev MetaInfo := List (String × List (String × MetaEntry))

/-- The definition that is pushed for the entry `h`. -/
def definitionOf (topic action : String) (entry : MetaEntry) (h : Obj) : Obj :=
  [("name", (Obj.get h "name").coalesce (.str
      (topic ++ ":" ++ action ++ ":" ++ (Obj.get h "method").toStr ++ ":" ++ (Obj.get h "path").toStr))),
    ("method", Obj.get h "method"),
    ("path", Obj.get h "path"),
    ("dataSource", (Obj.get h "dataSource").coalesce (.str "body")),
    ("topic", .str topic),
    ("action", .str action),
    ("mode", (Obj.get h "mode").coalesce (.str (if entry.type = some "event" then "event" else "rpc"))),
    ("auth", Obj.get h "auth"),
    ("allowAnonymous", Obj.get h "allowAnonymous"),
    ("actions", (Obj.get h "actions").coalesce (.arr [])),
    ("successStatusCode", Obj.get h "successStatusCode"),
    ("timeout", Obj.get h "timeout"),
    ("parseRaw", Obj.get h "parseRaw"),
    ("binary", Obj.get h "binary"),
    ("redirect", Obj.get h "redirect"),
    ("headers", (Obj.get h "headers").coalesce (.obj [])),
    ("forwardHeaders", (Obj.get h "forwardHeaders").coalesce (.obj []))]

/-- `buildPathDefinitionsFromMeta(meta)`. -/
def buildPathDefinitionsFromMeta (metaInfo : MetaInfo) : List Obj :=
  (objectEntries metaInfo).flatMap fun (topic, actions) =>
    (objectEntries actions).flatMap fun (action, entry) => entry.http.map (definitionOf topic action entry)

/-- The manifest as the gateway receives it. -/
def publish (serviceName : String) (metaInfo : MetaInfo) : RouteManifest where
  service := some serviceName
  routes := jsonCopy (.arr ((buildPathDefinitionsFromMeta metaInfo).map .obj))

/-! ## The export -/

/-- `toPlain(row)`: the id is no column. -/
def toPlain (row : StoredHttpPath) : Obj := Obj.delete row.columns "enabled"

/-- `listEnabled()`. -/
def listEnabled (store : PathStore) : List Obj := (store.rows.filter (·.isEnabled)).map toPlain

/-- A text, none of any other value. -/
def textOf : Value → Option String
  | .str s => some s
  | _ => none

/-- The texts under the keys of an object. -/
def textFields (fields : Obj) : List (String × String) := fields.filterMap fun (k, v) => (textOf v).map (k, ·)

/-- A boolean, none of any other value. -/
def flagOf : Value → Option Bool
  | .bool b => some b
  | _ => none

/-- A natural number, none of any other value. -/
def numberOf : Value → Option Nat
  | .num (.ofNat n) => some n
  | _ => none

/-- `actions`. -/
def actionsOf : Value → Option OneOrMany
  | .str s => some (.one s)
  | .arr items => some (.many (items.filterMap textOf))
  | _ => none

/-- `dataSource`. -/
def dataSourceOf : Option String → DataSource
  | some "body" => .body
  | some "query" => .query
  | some "params" => .params
  | some "body-query" => .bodyQuery
  | some "query-body" => .queryBody
  | name => .other name

/-- `mode`. -/
def modeOf : Option String → PathMode
  | some "event" => .event
  | some "rpc" => .rpc
  | name => .other (name.getD "")

/-- An exported path as the gateway reads it. -/
def pathOf (r : Obj) : PathDefinition where
  name := (textOf (Obj.get r "name")).getD ""
  method := (textOf (Obj.get r "method")).getD ""
  path := (textOf (Obj.get r "path")).getD ""
  parseRaw := (Obj.get r "parseRaw").truthy
  topic := (textOf (Obj.get r "topic")).getD ""
  action := (textOf (Obj.get r "action")).getD ""
  successStatusCode := numberOf (Obj.get r "successStatusCode")
  dataSource := dataSourceOf (textOf (Obj.get r "dataSource"))
  mode := modeOf (textOf (Obj.get r "mode"))
  auth := textOf (Obj.get r "auth")
  allowAnonymous := flagOf (Obj.get r "allowAnonymous")
  actions := actionsOf (Obj.get r "actions")
  timeout := numberOf (Obj.get r "timeout")
  binary := (Obj.get r "binary").truthy
  headers := fieldsOf (Obj.get r "headers")
  forwardHeaders := textFields (fieldsOf (Obj.get r "forwardHeaders"))
  redirect := numberOf (Obj.get r "redirect")

/-- The router behind a reload: the YAML's paths, and what the export responder answers. -/
def routerOf (routeConfig : RouteConfig) (store : PathStore) : List PathDefinition :=
  (buildRouter routeConfig (.ok (some (exportPaths ((listEnabled store).map pathOf))))).1

/-! ## One announced route -/

section Merged

variable {config : GatewayConfig} {service key : String} {routes : List Value} {store store₁ : PathStore}
  {reserved : Obj} {diff : RouteDiff} {state : DiffState} {r : Obj}

/-- **The row of an announced route** is enabled, and each of its fields reads as the announced route laid
over what the row held before. -/
theorem exists_merged (h : SyncedTo config service routes store store₁ diff state reserved)
    (hannounced : announced routes key = some (.obj r)) :
    ∃ row ∈ store₁.rows, row.key = some key ∧ row.get "owner" = .str service ∧ row.isEnabled = true ∧
      ∀ field ∈ canonicalDefaults,
        fieldText field row.columns = fieldText field (Obj.assign (store.columnsAt key) r) := by
  -- the stored row says it already, or was written
  rcases announced_cases h.ready h.reserves h.diffed hannounced with
    ⟨row, hrow, howner, hkey, hcontent, henabled, hunwritten⟩ | hupsert
  · refine ⟨row, h.patched.mem hrow hkey ?_, hkey, howner, henabled, fun field hfield => ?_⟩
    · rw [keys_writes, h.upserts, List.mem_append, not_or]
      refine ⟨hunwritten, fun hdisabled => ?_⟩
      obtain ⟨d, hd, rfl⟩ := List.mem_map.mp hdisabled
      rw [h.disables] at hd
      obtain ⟨-, -, hseen, -⟩ := mem_disablesOf.mp hd
      exact hseen ((h.diffed.seen _).mpr ⟨_, hannounced⟩)
    · rw [PathStore.columnsAt_of_mem hrow hkey]
      have hread := Obj.get_assign row.columns r field.1
      cases hown : Obj.own r field.1 with
      | none =>
          rw [hown] at hread
          exact (fieldText_congr hread).symm
      | some v =>
          rw [hown] at hread
          have hget : Obj.get r field.1 = v := by
            unfold Obj.get
            rw [hown]
            rfl
          rw [← (routeContent_eq_iff r row.columns).mp hcontent field hfield]
          exact fieldText_congr (hget.trans hread.symm)
  · have hwrite := List.mem_append_left (diff.disables.map RouteDisable.write)
      (List.mem_map_of_mem (f := RouteUpsert.write) (h.upserts ▸ hupsert))
    rw [write_upsertOf] at hwrite
    obtain ⟨row, hrow, hkey, hcolumns⟩ := h.patched.written _ hwrite
    dsimp only at hkey hcolumns
    refine ⟨row, hrow, hkey, get_of_written hcolumns (by decide) own_upsertModel_owner,
      isEnabled_of_get (get_of_written hcolumns (by decide) own_upsertModel_enabled), fun field hfield => ?_⟩
    rw [hcolumns]
    refine fieldText_congr ?_
    rw [Obj.get_assign, Obj.get_assign, own_upsertModel_of_canonical hfield]

/-- **An enabled row of the service** is that of an announced route. -/
theorem announced_of_enabled (h : SyncedTo config service routes store store₁ diff state reserved)
    {row : StoredHttpPath} (hrow : row ∈ store₁.rows) (howner : row.get "owner" = .str service)
    (henabled : row.isEnabled = true) : ∃ key v, row.key = some key ∧ announced routes key = some v := by
  by_contra hnone
  have hoff := h.othersDisabled row hrow howner fun key hkey =>
    Option.eq_none_iff_forall_ne_some.mpr fun v hv => hnone ⟨key, v, hkey, hv⟩
  rw [henabled] at hoff
  cases hoff

end Merged

/-! ## Reading routes that are the same -/

/-- Two paths that differ at most in the order of their headers, and in whether an empty list of actions is
written. -/
structure SameRoute (p q : PathDefinition) : Prop where
  scalars : { p with actions := none, headers := [], forwardHeaders := [] } =
    { q with actions := none, headers := [], forwardHeaders := [] }
  actions : p.actions.getD (.many []) = q.actions.getD (.many [])
  headers : SameUpToKeyOrder (.obj p.headers) (.obj q.headers)
  forwardHeaders : p.forwardHeaders.Perm q.forwardHeaders

/-- What is stored is JSON. -/
def HoldsJson (r : Obj) : Prop := ∀ kv ∈ r, isJson kv.2 = true

section Reading

variable {v w : Value} {a b : Obj}

theorem textOf_same (h : SameUpToKeyOrder v w) : textOf v = textOf w := by
  cases h <;> rfl

theorem flagOf_same (h : SameUpToKeyOrder v w) : flagOf v = flagOf w := by
  cases h <;> rfl

theorem numberOf_same (h : SameUpToKeyOrder v w) : numberOf v = numberOf w := by
  cases h <;> rfl

theorem truthy_same (h : SameUpToKeyOrder v w) : v.truthy = w.truthy := by
  cases h <;> rfl

theorem filterMap_textOf_same {items others : List Value} (h : List.Forall₂ SameUpToKeyOrder items others) :
    items.filterMap textOf = others.filterMap textOf := by
  induction h with
  | nil => rfl
  | cons hv _ ih => rw [List.filterMap_cons, List.filterMap_cons, textOf_same hv, ih]

theorem actionsOf_same (h : SameUpToKeyOrder v w) : actionsOf v = actionsOf w := by
  cases h with
  | refl => rfl
  | arr h => exact congrArg (fun ss => some (OneOrMany.many ss)) (filterMap_textOf_same h)
  | obj => rfl

theorem fieldsOf_same (h : SameUpToKeyOrder v w) : SameUpToKeyOrder (.obj (fieldsOf v)) (.obj (fieldsOf w)) := by
  cases h with
  | refl => exact .refl _
  | arr => exact .refl _
  | obj hperm hkeys hvalues => exact .obj hperm hkeys hvalues

theorem textFields_aligned {fields reordered : Obj} (hkeys : fields.map Prod.fst = reordered.map Prod.fst)
    (hvalues : List.Forall₂ SameUpToKeyOrder (fields.map Prod.snd) (reordered.map Prod.snd)) :
    textFields fields = textFields reordered := by
  induction fields generalizing reordered with
  | nil =>
      cases reordered with
      | nil => rfl
      | cons kv reordered => cases hkeys
  | cons kv fields ih =>
      cases reordered with
      | nil => cases hkeys
      | cons kv' reordered =>
          obtain ⟨k, v⟩ := kv
          obtain ⟨k', v'⟩ := kv'
          rw [List.map_cons, List.map_cons, List.cons.injEq] at hkeys
          rw [List.map_cons, List.map_cons, List.forall₂_cons] at hvalues
          obtain ⟨rfl, hkeys⟩ := hkeys
          have hrest := ih hkeys hvalues.2
          unfold textFields at hrest ⊢
          rw [List.filterMap_cons, List.filterMap_cons, hrest]
          dsimp only
          rw [textOf_same hvalues.1]

theorem textFields_same (h : SameUpToKeyOrder v w) : (textFields (fieldsOf v)).Perm (textFields (fieldsOf w)) := by
  cases h with
  | refl => exact .refl _
  | arr => exact .refl _
  | obj hperm hkeys hvalues =>
      unfold fieldsOf
      rw [textFields_aligned hkeys hvalues]
      exact hperm.filterMap _

/-- What stands in a field, or what stands for it when it is missing. -/
theorem comparedField_cases (a : Obj) (field : String × Option Value) :
    (Obj.get a field.1).nullish = false ∧ comparedField a field = Obj.get a field.1 ∨
      (Obj.get a field.1).nullish = true ∧ comparedField a field = (field.2.getD .null).coalesce .null := by
  unfold comparedField orDefault
  cases hnull : (Obj.get a field.1).nullish with
  | true =>
      refine .inr ⟨rfl, ?_⟩
      cases field.2 with
      | none =>
          rw [Value.coalesce_of_nullish hnull]
          rfl
      | some d =>
          dsimp only
          rw [Value.coalesce_of_nullish hnull]
          rfl
  | false =>
      refine .inl ⟨rfl, ?_⟩
      cases field.2 with
      | none => exact Value.coalesce_of_not_nullish hnull
      | some d =>
          dsimp only
          rw [Value.coalesce_of_not_nullish hnull]
          exact Value.coalesce_of_not_nullish hnull

theorem isJson_comparedField (h : HoldsJson a) {field : String × Option Value} (hfield : field ∈ canonicalDefaults) :
    isJson (comparedField a field) = true := by
  have hdefault : ∀ field ∈ canonicalDefaults, isJson ((field.2.getD .null).coalesce .null) = true := by decide
  rcases comparedField_cases a field with ⟨hthere, hsame⟩ | ⟨-, hsame⟩
  · rw [hsame]
    unfold Obj.get at hthere ⊢
    cases hown : Obj.own a field.1 with
    | none =>
        rw [hown] at hthere
        cases hthere
    | some v => exact h _ (Obj.mem_of_own hown)
  · rw [hsame]
    exact hdefault field hfield

/-- A reading that takes the default for what is missing reads a field as it is compared. -/
theorem read_compared {ρ : Type} (read : Value → ρ) (hnull : read .null = read .undefined)
    {field : String × Option Value} (hdefault : read ((field.2.getD .null).coalesce .null) = read .undefined)
    (r : Obj) : read (comparedField r field) = read (Obj.get r field.1) := by
  rcases comparedField_cases r field with ⟨-, hsame⟩ | ⟨hmissing, hsame⟩
  · rw [hsame]
  · rw [hsame, hdefault]
    rcases (Value.nullish_iff _).mp hmissing with hget | hget
    · rw [hget]
    · rw [hget, hnull]

/-- It reads the same from fields that are compared as the same. -/
theorem read_same {ρ : Type} (read : Value → ρ) (hread : ∀ v w, SameUpToKeyOrder v w → read v = read w)
    (hnull : read .null = read .undefined) {field : String × Option Value}
    (hdefault : read ((field.2.getD .null).coalesce .null) = read .undefined)
    (h : SameUpToKeyOrder (comparedField a field) (comparedField b field)) :
    read (Obj.get a field.1) = read (Obj.get b field.1) := by
  rw [← read_compared read hnull hdefault a, ← read_compared read hnull hdefault b]
  exact hread _ _ h

/-- **Routes with the same content are read as the same path.** -/
theorem sameRoute_of_content (ha : HoldsJson a) (hb : HoldsJson b)
    (h : ∀ field ∈ canonicalDefaults, fieldText field a = fieldText field b) :
    SameRoute (pathOf a) (pathOf b) := by
  have hsame := (routeContent_eq_iff_same (fun field => isJson_comparedField ha)
    fun field => isJson_comparedField hb).mp ((routeContent_eq_iff a b).mpr h)
  have htext (k : String) (hk : (k, none) ∈ canonicalDefaults ∨ (k, some .null) ∈ canonicalDefaults) :
      textOf (Obj.get a k) = textOf (Obj.get b k) := by
    rcases hk with hk | hk
    · exact read_same textOf (fun _ _ => textOf_same) rfl rfl (hsame _ hk)
    · exact read_same textOf (fun _ _ => textOf_same) rfl rfl (hsame _ hk)
  have hnumber (k : String) (hk : (k, some .null) ∈ canonicalDefaults) :
      numberOf (Obj.get a k) = numberOf (Obj.get b k) :=
    read_same numberOf (fun _ _ => numberOf_same) rfl rfl (hsame _ hk)
  have htruthy (k : String) (hk : (k, some .null) ∈ canonicalDefaults) :
      (Obj.get a k).truthy = (Obj.get b k).truthy :=
    read_same Value.truthy (fun _ _ => truthy_same) rfl rfl (hsame _ hk)
  have hflag : flagOf (Obj.get a "allowAnonymous") = flagOf (Obj.get b "allowAnonymous") :=
    read_same flagOf (fun _ _ => flagOf_same) rfl rfl (hsame ("allowAnonymous", some .null) (by simp [canonicalDefaults]))
  refine ⟨?_, ?_, ?_, ?_⟩
  · unfold pathOf
    rw [htext "name" (by simp [canonicalDefaults]), htext "method" (by simp [canonicalDefaults]),
      htext "path" (by simp [canonicalDefaults]), htext "dataSource" (by simp [canonicalDefaults]),
      htext "topic" (by simp [canonicalDefaults]), htext "action" (by simp [canonicalDefaults]),
      htext "mode" (by simp [canonicalDefaults]), htext "auth" (by simp [canonicalDefaults]), hflag,
      hnumber "successStatusCode" (by simp [canonicalDefaults]), hnumber "timeout" (by simp [canonicalDefaults]),
      hnumber "redirect" (by simp [canonicalDefaults]), htruthy "parseRaw" (by simp [canonicalDefaults]),
      htruthy "binary" (by simp [canonicalDefaults])]
  · exact read_same (fun v => (actionsOf v).getD (.many []))
      (fun _ _ h => congrArg (fun o => Option.getD o (.many [])) (actionsOf_same h)) rfl rfl
      (hsame ("actions", some (.arr [])) (by simp [canonicalDefaults]))
  · have h := fieldsOf_same (hsame ("headers", some (.obj [])) (by simp [canonicalDefaults]))
    rw [read_compared fieldsOf rfl rfl, read_compared fieldsOf rfl rfl] at h
    exact h
  · have h := textFields_same (hsame ("forwardHeaders", some (.obj [])) (by simp [canonicalDefaults]))
    rw [read_compared fieldsOf rfl rfl, read_compared fieldsOf rfl rfl] at h
    exact h

end Reading

/-! ## What is published is served -/

/-- A service declares the entry `h` for an action of a topic. -/
def MetaInfo.Declares (metaInfo : MetaInfo) (topic action : String) (entry : MetaEntry) (h : Obj) : Prop :=
  ∃ actions, (topic, actions) ∈ metaInfo ∧ (action, entry) ∈ actions ∧ h ∈ entry.http

/-- The decorator's arguments: a method and a path, and options that are JSON or left out. -/
structure WellTyped (h : Obj) : Prop where
  method : ∃ method, Obj.get h "method" = .str method
  path : ∃ path, Obj.get h "path" = .str path
  options : ∀ kv ∈ h, kv.2 = .undefined ∨ isJson kv.2 = true

section Published

variable {metaInfo : MetaInfo} {topic action : String} {entry : MetaEntry} {h d : Obj}

theorem mem_definitions : d ∈ buildPathDefinitionsFromMeta metaInfo ↔
    ∃ topic action entry h, metaInfo.Declares topic action entry h ∧ d = definitionOf topic action entry h := by
  unfold buildPathDefinitionsFromMeta MetaInfo.Declares
  constructor
  · intro hd
    obtain ⟨⟨topic, actions⟩, htopic, hd⟩ := List.mem_flatMap.mp hd
    obtain ⟨⟨action, entry⟩, haction, hd⟩ := List.mem_flatMap.mp hd
    obtain ⟨h, hh, rfl⟩ := List.mem_map.mp hd
    exact ⟨topic, action, entry, h,
      ⟨actions, mem_objectEntries.mp htopic, mem_objectEntries.mp haction, hh⟩, rfl⟩
  · rintro ⟨topic, action, entry, h, ⟨actions, htopic, haction, hh⟩, rfl⟩
    exact List.mem_flatMap.mpr ⟨(topic, actions), mem_objectEntries.mpr htopic,
      List.mem_flatMap.mpr ⟨(action, entry), mem_objectEntries.mpr haction, List.mem_map_of_mem hh⟩⟩

theorem jsonCopyItems_eq (items : List Value) : jsonCopyItems items = items.map jsonCopy := by
  induction items with
  | nil => rfl
  | cons v vs ih => rw [jsonCopyItems, ih, List.map_cons]

/-- The routes of the manifest. -/
theorem list_publish (service : String) : (publish service metaInfo).list =
    (buildPathDefinitionsFromMeta metaInfo).map fun d => .obj (jsonCopyFields d) := by
  show itemsOf (jsonCopy (.arr _)) = _
  rw [jsonCopy, jsonCopyItems_eq, List.map_map]
  rfl

/-- JSON is carried as it is. -/
theorem serialisable_of_isJson {v : Value} : isJson v = true → Serialisable v := by
  refine Value.ind (p := fun v => isJson v = true → Serialisable v) (fun v ih hv => ?_) v
  cases v with
  | undefined => cases hv
  | real text =>
      rw [isJson, Bool.and_eq_true] at hv
      unfold Serialisable jsonCopy
      rw [if_pos hv.1]
  | arr items =>
      unfold Serialisable
      rw [jsonCopy, jsonCopyItems_eq]
      have hitems := isJson_arr.mp hv
      refine congrArg Value.arr ((List.map_congr_left fun w hw => ih w hw (hitems w hw)).trans (List.map_id' _))
  | obj fields =>
      refine serialisable_obj fun kv hkv => ?_
      have hmem : kv.2 ∈ fields.map Prod.snd := List.mem_map_of_mem hkv
      exact ih kv.2 hmem ((isJson_obj.mp hv).2 _ hmem)
  | _ => rfl

theorem jsonCopyFields_cons {k : String} {v : Value} (hv : v ≠ .undefined) (o : Obj) :
    jsonCopyFields ((k, v) :: o) = (k, jsonCopy v) :: jsonCopyFields o := by
  cases v with
  | undefined => exact absurd rfl hv
  | _ => rfl

theorem mem_jsonCopyFields {o : Obj} {k : String} {w : Value} :
    (k, w) ∈ jsonCopyFields o ↔ ∃ v, (k, v) ∈ o ∧ v ≠ .undefined ∧ w = jsonCopy v := by
  induction o with
  | nil => simp [jsonCopyFields]
  | cons kv o ih =>
      obtain ⟨k', v'⟩ := kv
      by_cases hv : v' = .undefined
      · rw [hv, jsonCopyFields, ih]
        refine exists_congr fun v => and_congr_left fun hne => ?_
        rw [List.mem_cons]
        refine (or_iff_right fun heq => ?_).symm
        exact hne.1 (Prod.mk.inj heq).2
      · rw [jsonCopyFields_cons hv, List.mem_cons, ih]
        simp only [List.mem_cons, Prod.mk.injEq]
        constructor
        · rintro (⟨rfl, rfl⟩ | ⟨v, hmem, hne, rfl⟩)
          · exact ⟨v', .inl ⟨rfl, rfl⟩, hv, rfl⟩
          · exact ⟨v, .inr hmem, hne, rfl⟩
        · rintro ⟨v, ⟨rfl, rfl⟩ | hmem, hne, rfl⟩
          · exact .inl ⟨rfl, rfl⟩
          · exact .inr ⟨v, hmem, hne, rfl⟩

theorem keys_jsonCopyFields (o : Obj) : ((jsonCopyFields o).map Prod.fst).Sublist (o.map Prod.fst) := by
  induction o with
  | nil => exact .slnil
  | cons kv o ih =>
      obtain ⟨k, v⟩ := kv
      by_cases hv : v = .undefined
      · rw [hv, jsonCopyFields]
        exact ih.cons _
      · rw [jsonCopyFields_cons hv]
        exact ih.cons_cons _

/-- A property that is there is carried. -/
theorem own_jsonCopyFields {o : Obj} (hkeys : (o.map Prod.fst).Nodup) {k : String} {v : Value}
    (hown : (k, v) ∈ o) (hv : v ≠ .undefined) : Obj.own (jsonCopyFields o) k = some (jsonCopy v) :=
  (AssocList.lookup_reverse_eq_some_iff (hkeys.sublist (keys_jsonCopyFields o))).mpr
    (mem_jsonCopyFields.mpr ⟨v, hown, hv, rfl⟩)

/-- The entry of an action has what the decorator was given. -/
theorem WellTyped.get (hh : WellTyped h) (k : String) :
    Obj.get h k = .undefined ∨ isJson (Obj.get h k) = true := by
  unfold Obj.get
  cases hown : Obj.own h k with
  | none => exact .inl rfl
  | some v => exact hh.options _ (Obj.mem_of_own hown)

theorem WellTyped.coalesce (hh : WellTyped h) (k : String) {d : Value} (hd : isJson d = true) :
    (Obj.get h k).coalesce d = .undefined ∨ isJson ((Obj.get h k).coalesce d) = true := by
  unfold Value.coalesce
  split
  · exact .inr hd
  · exact hh.get k

theorem WellTyped.definition (hh : WellTyped h) :
    ∀ kv ∈ definitionOf topic action entry h, kv.2 = .undefined ∨ isJson kv.2 = true := by
  unfold definitionOf
  simp only [List.forall_mem_cons]
  refine ⟨hh.coalesce _ rfl, hh.get _, hh.get _, hh.coalesce _ rfl, .inr rfl, .inr rfl, hh.coalesce _ rfl,
    hh.get _, hh.get _, hh.coalesce _ rfl, hh.get _, hh.get _, hh.get _, hh.get _, hh.get _, hh.coalesce _ rfl,
    hh.coalesce _ rfl, List.forall_mem_nil _⟩

/-- A route of the manifest: JSON, with the texts the gateway routes by. -/
structure Announces (topic action method path : String) (d : Obj) : Prop where
  json : HoldsJson d
  method : Obj.own d "method" = some (.str method)
  path : Obj.own d "path" = some (.str path)
  topic : Obj.own d "topic" = some (.str topic)
  action : Obj.own d "action" = some (.str action)

theorem WellTyped.announces (hh : WellTyped h) {method path : String} (hmethod : Obj.get h "method" = .str method)
    (hpath : Obj.get h "path" = .str path) :
    Announces topic action method path (jsonCopyFields (definitionOf topic action entry h)) := by
  have hkeys : ((definitionOf topic action entry h).map Prod.fst).Nodup := by
    unfold definitionOf
    simp only [List.map_cons, List.map_nil]
    decide
  refine ⟨?_, ?_, ?_, ?_, ?_⟩
  · rintro ⟨k, w⟩ hmem
    obtain ⟨v, hv, hne, rfl⟩ := mem_jsonCopyFields.mp hmem
    have hjson := (hh.definition _ hv).resolve_left hne
    rw [show jsonCopy v = v from serialisable_of_isJson hjson]
    exact hjson
  · refine own_jsonCopyFields hkeys (v := .str method) ?_ nofun
    rw [← hmethod]
    simp [definitionOf]
  · refine own_jsonCopyFields hkeys (v := .str path) ?_ nofun
    rw [← hpath]
    simp [definitionOf]
  · exact own_jsonCopyFields hkeys (v := .str topic) (by simp [definitionOf]) nofun
  · exact own_jsonCopyFields hkeys (v := .str action) (by simp [definitionOf]) nofun

/-- A route that decides for a key is the definition of a declared entry. -/
theorem exists_declared {service key : String} (hannounced : announced (publish service metaInfo).list key =
    some (.obj d)) : ∃ topic action entry h, metaInfo.Declares topic action entry h ∧
      d = jsonCopyFields (definitionOf topic action entry h) := by
  have hmem := (mem_of_announced hannounced).1
  rw [list_publish] at hmem
  obtain ⟨o, ho, heq⟩ := List.mem_map.mp hmem
  obtain ⟨topic, action, entry, h, hdeclares, rfl⟩ := mem_definitions.mp ho
  exact ⟨topic, action, entry, h, hdeclares, (Value.obj.inj heq).symm⟩

theorem get_of_own {o : Obj} {k : String} {v : Value} (hown : Obj.own o k = some v) : Obj.get o k = v := by
  unfold Obj.get
  rw [hown]
  rfl

theorem routeKeyOf_texts {method path : String} (hmethod : Obj.own d "method" = some (.str method))
    (hpath : Obj.own d "path" = some (.str path)) :
    routeKeyOf (.obj d) = .ok (toUpperCase method ++ " " ++ path) := by
  have htext (s : String) : (Value.str s).orElse (.str "") = .str s := by
    unfold Value.orElse
    split
    · rfl
    next hempty =>
      have hs : s = "" := by simpa only [Value.truthy, bne_iff_ne, ne_eq, not_not] using hempty
      rw [hs]
  have hupper : upperMethod (.str method) = .ok (toUpperCase method) := by
    unfold upperMethod
    rw [htext]
  have hprinted : printed ((Value.str path).orElse (.str "")) = .ok path := by
    rw [htext]
    rfl
  exact bind_eq_ok.mpr ⟨_, congrArg Except.ok (get_of_own hmethod), bind_eq_ok.mpr ⟨_, hupper,
    bind_eq_ok.mpr ⟨_, congrArg Except.ok (get_of_own hpath), bind_eq_ok.mpr ⟨_, hprinted, rfl⟩⟩⟩⟩

/-- The keys of the manifest can be read. -/
theorem routeKeyOf_publish (htyped : ∀ topic action entry h, metaInfo.Declares topic action entry h → WellTyped h)
    {service : String} {r : Value} (hr : r ∈ (publish service metaInfo).list) : ∃ key, routeKeyOf r = .ok key := by
  rw [list_publish] at hr
  obtain ⟨o, ho, rfl⟩ := List.mem_map.mp hr
  obtain ⟨topic, action, entry, h, hdeclares, rfl⟩ := mem_definitions.mp ho
  have hh := htyped topic action entry h hdeclares
  obtain ⟨method, hmethod⟩ := hh.method
  obtain ⟨path, hpath⟩ := hh.path
  have hannounces : Announces topic action method path
    (jsonCopyFields (definitionOf topic action entry h)) := hh.announces hmethod hpath
  exact ⟨_, routeKeyOf_texts hannounces.method hannounces.path⟩

end Published

/-! ### The exported rows -/

section Exported

variable {a : Obj} {row : StoredHttpPath} {store : PathStore} {routeConfig : RouteConfig} {p : PathDefinition}

/-- Whether a path is on is not a part of it. -/
theorem pathOf_toPlain (row : StoredHttpPath) : pathOf (toPlain row) = pathOf row.columns := by
  have hget (k : String) (hk : k ≠ "enabled") : Obj.get (toPlain row) k = Obj.get row.columns k := by
    unfold Obj.get toPlain
    rw [Obj.own_delete, if_neg hk]
  unfold pathOf
  rw [hget "name" (by decide), hget "method" (by decide), hget "path" (by decide), hget "parseRaw" (by decide),
    hget "topic" (by decide), hget "action" (by decide), hget "successStatusCode" (by decide),
    hget "dataSource" (by decide), hget "mode" (by decide), hget "auth" (by decide),
    hget "allowAnonymous" (by decide), hget "actions" (by decide), hget "timeout" (by decide),
    hget "binary" (by decide), hget "headers" (by decide), hget "forwardHeaders" (by decide),
    hget "redirect" (by decide)]

theorem mem_routerOf (hrow : row ∈ store.rows) (henabled : row.isEnabled = true)
    (htaken : (registerPath routeConfig (pathOf row.columns) []).isOk = true) :
    pathOf row.columns ∈ routerOf routeConfig store := by
  unfold routerOf
  rw [buildRouter_fst]
  refine List.mem_append_right _ (mem_registered_exportPaths.mpr (List.mem_filter.mpr ⟨?_, htaken⟩))
  rw [← pathOf_toPlain]
  exact List.mem_map_of_mem (List.mem_map_of_mem (List.mem_filter.mpr ⟨hrow, henabled⟩))

/-- The router takes a path with a method, a path, a topic and a mode, when Express takes it. -/
theorem registerPath_isOk (hmethod : p.method ≠ "") (hpath : p.path ≠ "") (htopic : p.topic ≠ "")
    (hmode : p.mode ≠ .other "") (hlabel : prints p.label = true) (hexpress : (routeConfig.express (toLowerCase p.method) p.path).isOk = true) :
    (registerPath routeConfig p []).isOk = true := by
  unfold registerPath
  rw [if_neg hmethod, if_neg hpath, if_neg htopic, if_neg hmode]
  have hlines : registerLines routeConfig p = .ok () := by
    unfold registerLines printed
    rw [if_pos hlabel]
    split <;> rfl
  rw [hlines]
  cases htaken : routeConfig.express (toLowerCase p.method) p.path with
  | error e =>
      rw [htaken] at hexpress
      cases hexpress
  | ok _ => rfl

end Exported

/-! ### End to end -/

section Served

variable {config : GatewayConfig} {routeConfig : RouteConfig} {service key : String} {routes : List Value}
  {store store₁ : PathStore} {diff : RouteDiff} {state : DiffState} {reserved : Obj} {r d : Obj}
  {row : StoredHttpPath}

theorem HoldsJson.columnsAt (hstored : ∀ row ∈ store.rows, HoldsJson row.columns) (key : String) :
    HoldsJson (store.columnsAt key) := by
  by_cases htaken : ∃ row ∈ store.rows, row.key = some key
  · obtain ⟨row, hrow, hkey⟩ := htaken
    rw [PathStore.columnsAt_of_mem hrow hkey]
    exact hstored row hrow
  · rw [PathStore.columnsAt_of_free fun row hrow hkey => htaken ⟨row, hrow, hkey⟩]
    exact List.forall_mem_nil _

theorem HoldsJson.assign {a b : Obj} (ha : HoldsJson a) (hb : HoldsJson b) : HoldsJson (Obj.assign a b) :=
  Obj.forall_mem_assign (P := fun kv => isJson kv.2 = true) ha hb

theorem HoldsJson.upsertModel (hr : HoldsJson r) (service key : String) :
    HoldsJson (upsertModel service key r true .none) := by
  refine HoldsJson.assign (HoldsJson.assign (List.forall_mem_nil _) hr) ?_
  intro kv hkv
  simp only [List.mem_cons, List.not_mem_nil, or_false] at hkv
  rcases hkv with rfl | rfl | rfl | rfl | rfl | rfl <;> rfl

/-- The rows stay JSON. -/
theorem holdsJson_synced (h : SyncedTo config service routes store store₁ diff state reserved)
    (hstored : ∀ row ∈ store.rows, HoldsJson row.columns)
    (hroutes : ∀ key r, announced routes key = some (.obj r) → HoldsJson r) (hrow : row ∈ store₁.rows) :
    HoldsJson row.columns := by
  rcases h.cases hrow with ⟨hold, -⟩ | ⟨key, r, hannounced, -, hcolumns⟩ | ⟨old, hold, -, hcolumns, -⟩
  · exact hstored row hold
  · rw [hcolumns]
    exact (HoldsJson.columnsAt hstored key).assign ((hroutes key r hannounced).upsertModel service key)
  · rw [hcolumns]
    refine (hstored old hold).assign ?_
    intro kv hkv
    rw [List.mem_singleton.mp hkv]
    rfl

/-- What makes a route valid. -/
theorem valid_iff : isValidRoute (.obj d) = true ↔
    (((Obj.get d "method").truthy = true ∧ (Obj.get d "path").truthy = true) ∧ (Obj.get d "topic").truthy = true) ∧
      (Obj.get d "action").truthy = true ∧
      (Obj.get d "mode" = .str "rpc" ∨ Obj.get d "mode" = .str "event") := by
  unfold isValidRoute
  simp only [Bool.and_eq_true, Bool.or_eq_true, Value.isText_iff]
  tauto

/-- The router takes a valid route, laid over whatever was stored, when Express does. -/
theorem registerPath_of_valid {topic action method path : String} (hd : Announces topic action method path d)
    (hvalid : isValidRoute (.obj d) = true) (before : Obj) {p : PathDefinition}
    (hsame : SameRoute p (pathOf (Obj.assign before d)))
    (hexpress : (routeConfig.express (toLowerCase p.method) p.path).isOk = true) :
    (registerPath routeConfig p []).isOk = true := by
  have hget {k : String} {v : Value} (hown : Obj.own d k = some v) : Obj.get (Obj.assign before d) k = v := by
    rw [Obj.get_assign, hown]
    rfl
  have htext {k s : String} (hown : Obj.own d k = some (.str s)) (htruthy : (Obj.get d k).truthy = true) :
      (textOf (Obj.get (Obj.assign before d) k)).getD "" = s ∧ s ≠ "" := by
    rw [get_of_own hown] at htruthy
    rw [hget hown]
    exact ⟨rfl, bne_iff_ne.mp htruthy⟩
  obtain ⟨⟨⟨hmethod, hpath⟩, htopic⟩, -, hmode⟩ := valid_iff.mp hvalid
  have hmethod := htext hd.method hmethod
  have hpath := htext hd.path hpath
  have htopic := htext hd.topic htopic
  obtain ⟨-, hpmethod, hppath, -, hptopic, -, -, -, hpmode, -, -, -, -, -, -, -, -, hplabel⟩ :=
    PathDefinition.mk.inj hsame.scalars
  refine registerPath_isOk ?_ ?_ ?_ ?_ ?_ hexpress
  · exact fun h => hmethod.2 (hmethod.1.symm.trans (hpmethod.symm.trans h))
  · exact fun h => hpath.2 (hpath.1.symm.trans (hppath.symm.trans h))
  · exact fun h => htopic.2 (htopic.1.symm.trans (hptopic.symm.trans h))
  · rw [show p.mode = modeOf (textOf (Obj.get (Obj.assign before d) "mode")) from hpmode]
    rcases hmode with hmode | hmode
    · rw [hget ((own_of_truthy (by rw [hmode]; rfl)).trans (congrArg some hmode))]
      exact nofun
    · rw [hget ((own_of_truthy (by rw [hmode]; rfl)).trans (congrArg some hmode))]
      exact nofun
  · rw [hplabel]
    rfl

/-- **One key.** -/
theorem served_of_announced (h : SyncedTo config service routes store store₁ diff state reserved)
    (hstored : ∀ row ∈ store.rows, HoldsJson row.columns)
    (hroutes : ∀ key r, announced routes key = some (.obj r) → HoldsJson r)
    (hannounced : announced routes key = some (.obj d)) :
    ∃ row ∈ store₁.rows, row.key = some key ∧ row.isEnabled = true ∧ row.get "owner" = .str service ∧
      SameRoute (pathOf row.columns) (pathOf (Obj.assign (store.columnsAt key) d)) := by
  obtain ⟨row, hrow, hkey, howner, henabled, hfields⟩ := exists_merged h hannounced
  exact ⟨row, hrow, hkey, henabled, howner, sameRoute_of_content (holdsJson_synced h hstored hroutes hrow)
    ((HoldsJson.columnsAt hstored key).assign (hroutes key d hannounced)) hfields⟩

end Served

/-- The service has a route with this key on the gateway, which reads as the route of the manifest laid over what
was stored; it is in the router when Express takes its method and its path. -/
def ServedAs (routeConfig : RouteConfig) (before behind : PathStore) (service key : String) (d : Obj) : Prop :=
  ∃ row ∈ behind.rows, row.key = some key ∧ row.get "owner" = .str service ∧
    SameRoute (pathOf row.columns) (pathOf (Obj.assign (before.columnsAt key) d)) ∧
    ((routeConfig.express (toLowerCase (pathOf row.columns).method) (pathOf row.columns).path).isOk = true →
      pathOf row.columns ∈ routerOf routeConfig behind)

section EndToEnd

variable {env : PathEnv} {config : GatewayConfig} {routeConfig : RouteConfig} {metaInfo : MetaInfo}
  {service : String} {w : PathWorld}

/-- **What a service declares is what the gateway serves.**  When a service publishes its decorators' routes and
the gateway handles the manifest: every valid declared entry has its route on the gateway, the first one's where
several have the same method and path, in the router as soon as Express takes it; and the service has no other
enabled route there. -/
theorem declared_routes_served (hnamed : service ≠ "") (hanswers : env.Answers) (hreads : env.Reads)
    (hyaml : ∃ reserved, reserveYaml config = .ok reserved)
    (htyped : ∀ topic action entry h, metaInfo.Declares topic action entry h → WellTyped h)
    (hready : SyncReady config service (publish service metaInfo).list w.store)
    (hstored : ∀ row ∈ w.store.rows, HoldsJson row.columns) :
    (∀ topic action entry h, metaInfo.Declares topic action entry h →
      isValidRoute (.obj (jsonCopyFields (definitionOf topic action entry h))) = true →
      ∃ key d, routeKeyOf (.obj (jsonCopyFields (definitionOf topic action entry h))) = .ok key ∧
        announced (publish service metaInfo).list key = some (.obj d) ∧
        ServedAs routeConfig w.store (handled env config (publish service metaInfo) w).store service key d) ∧
    ∀ row ∈ (handled env config (publish service metaInfo) w).store.rows, row.get "owner" = .str service →
      row.isEnabled = true → ∃ key d, row.key = some key ∧
        announced (publish service metaInfo).list key = some (.obj d) ∧
        SameRoute (pathOf row.columns) (pathOf (Obj.assign (w.store.columnsAt key) d)) := by
  have hkeys : (∃ yaml, reserveYaml config = .ok yaml) ∧
      ∀ r ∈ (publish service metaInfo).list, ∃ key, routeKeyOf r = .ok key :=
    ⟨hyaml, fun r hr => routeKeyOf_publish htyped hr⟩
  obtain ⟨diff, state, reserved, hsynced⟩ := exists_syncedTo hready (appliesDiff_of_keys hanswers hreads hready hkeys)
  rw [← handled_eq rfl hnamed] at hsynced
  -- whatever the manifest announces comes from a declaration
  have hannounces : ∀ key d, announced (publish service metaInfo).list key = some (.obj d) →
      ∃ topic action method path, Announces topic action method path d := by
    intro key d hannounced
    obtain ⟨topic, action, entry, h, hdeclares, rfl⟩ := exists_declared hannounced
    have hh := htyped topic action entry h hdeclares
    obtain ⟨method, hmethod⟩ := hh.method
    obtain ⟨path, hpath⟩ := hh.path
    exact ⟨topic, action, method, path, hh.announces hmethod hpath⟩
  have hroutes : ∀ key d, announced (publish service metaInfo).list key = some (.obj d) → HoldsJson d := by
    intro key d hannounced
    obtain ⟨topic, action, method, path, h⟩ := hannounces key d hannounced
    exact h.json
  constructor
  · intro topic action entry h hdeclares hvalid
    have hmem : Value.obj (jsonCopyFields (definitionOf topic action entry h)) ∈ (publish service metaInfo).list := by
      rw [list_publish]
      exact List.mem_map_of_mem (mem_definitions.mpr ⟨topic, action, entry, h, hdeclares, rfl⟩)
    obtain ⟨key, hkey⟩ := routeKeyOf_publish htyped hmem
    obtain ⟨v, hannounced⟩ : ∃ v, announced (publish service metaInfo).list key = some v := by
      unfold announced
      rw [← Option.isSome_iff_exists, List.find?_isSome]
      exact ⟨_, hmem, by rw [hvalid, hasKey_iff.mpr hkey]; rfl⟩
    obtain ⟨-, hvalid', -⟩ := mem_of_announced hannounced
    rw [eq_obj_of_valid hvalid'] at hannounced hvalid'
    obtain ⟨row, hrow, hrowKey, henabled, howner, hsame⟩ := served_of_announced hsynced hstored hroutes hannounced
    obtain ⟨topic', action', method', path', hd⟩ := hannounces key _ hannounced
    exact ⟨key, _, hkey, hannounced, row, hrow, hrowKey, howner, hsame, fun hexpress =>
      mem_routerOf hrow henabled (registerPath_of_valid hd hvalid' _ hsame hexpress)⟩
  · intro row hrow howner henabled
    obtain ⟨key, v, hkey, hannounced⟩ := announced_of_enabled hsynced hrow howner henabled
    rw [eq_obj_of_valid (mem_of_announced hannounced).2.1] at hannounced
    obtain ⟨row', hrow', hkey', -, -, hsame⟩ := served_of_announced hsynced hstored hroutes hannounced
    obtain rfl := PathStore.eq_of_key hrow hrow' hkey hkey'
    exact ⟨key, _, hkey, hannounced, hsame⟩

/-- One action with one protected route. -/
def listEntry : MetaEntry where
  http := [[("method", .str "GET"), ("path", .str "/docs"), ("dataSource", .str "query"), ("auth", .str "main")]]

theorem declared_routes_served_docs : ∃ key d,
    announced (publish "docs" [("docs", [("list", listEntry)])]).list key = some (.obj d) ∧
      ServedAs {} .empty
        (handled .calm {} (publish "docs" [("docs", [("list", listEntry)])]) { store := .empty }).store "docs" key d := by
  have htyped : ∀ topic action entry h, MetaInfo.Declares [("docs", [("list", listEntry)])] topic action entry h →
      WellTyped h := by
    rintro topic action entry h ⟨actions, htopic, haction, hh⟩
    cases List.mem_singleton.mp htopic
    cases List.mem_singleton.mp haction
    cases List.mem_singleton.mp hh
    exact ⟨⟨"GET", rfl⟩, ⟨"/docs", rfl⟩, by simp [isJson]⟩
  have hready : SyncReady {} "docs" (publish "docs" [("docs", [("list", listEntry)])]).list .empty :=
    ⟨fun _ h => absurd h List.not_mem_nil, fun _ h => absurd h List.not_mem_nil,
      fun _ _ _ h => absurd h.choose_spec.1 List.not_mem_nil, fun _ _ _ _ h => absurd h List.not_mem_nil⟩
  have hstored : ∀ row ∈ PathStore.empty.rows, HoldsJson row.columns := fun _ h => absurd h List.not_mem_nil
  have hserved := @declared_routes_served .calm {} {} _ "docs" { store := .empty } (by decide) (fun _ _ _ => rfl)
    (fun _ _ _ h => by cases h) ⟨[], rfl⟩ htyped hready hstored
  obtain ⟨key, d, -, hannounced, hserved⟩ :=
    hserved.1 "docs" "list" listEntry _ ⟨_, .head _, .head _, .head _⟩ (by decide +kernel)
  exact ⟨key, d, hannounced, hserved⟩

end EndToEnd

end NestAmqp.Gateway.PublishedRoutes
