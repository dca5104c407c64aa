/-
# NestAmqp.Gateway.DiffPartition — every key and every row in one place.

A key that a valid route of the manifest has is decided by the first such route.  It ends among the
collisions, the skipped routes or the upserts, or the row under it is left as it is; and the rows whose keys
no valid route has are disabled, if they are enabled.  The loop throws where it reads more than
`isValidRoute` has looked at: a method that is no text, a path that does not print, or overrides that are no
list.
-/
import NestAmqp.Gateway.RouteDiff

namespace NestAmqp.Gateway

open NestAmqp.Js NestAmqp.Lib

/-! ## Where a key ends -/

/-- What becomes of a key. -/
inductive Fate where
  | collision
  | skipped
  | upsert
  | unchanged
  deriving DecidableEq, Repr

def RouteOutcome.fate : RouteOutcome → Fate
  | .collision _ => .collision
  | .skipped => .skipped
  | .upsert _ => .upsert
  | .unchanged => .unchanged

/-- The keys that a diff lists; what is unchanged it does not list. -/
def RouteDiff.keysOf (diff : RouteDiff) : Fate → List String
  | .collision => diff.collisions.map RouteRefusal.routeKey
  | .skipped => diff.skipped.map RouteRefusal.routeKey
  | .upsert => diff.upserts.map RouteUpsert.routeKey
  | .unchanged => []

/-- Every key that a diff lists. -/
def RouteDiff.listed (diff : RouteDiff) : List String :=
  diff.keysOf .collision ++ diff.keysOf .skipped ++ diff.keysOf .upsert

/-- The fields a user has overridden in a row. -/
def overriddenFields (row : StoredHttpPath) : List String :=
  ((overridesAt (some row)).toOption.getD .none).fields.map Value.toStr

/-- A key ends in one of the lists; or in none, its row being enabled as it is wanted and of the same
content. -/
def EndsIn (existing : List StoredHttpPath) (diff : RouteDiff) (r : Obj) (key : String) : Fate → Prop
  | .collision => key ∈ diff.keysOf .collision
  | .skipped => key ∈ diff.keysOf .skipped
  | .upsert => key ∈ diff.keysOf .upsert
  | .unchanged => key ∉ diff.listed ∧ ∃ row ∈ existing, row.key = some key ∧
      ∃ overrides, overridesAt (some row) = .ok overrides ∧ isUnchanged r row overrides = true

/-- An upsert of the route that decides for its key. -/
structure UpsertFor (service : String) (existing : List StoredHttpPath) (reserved : Obj) (r : Obj)
    (u : RouteUpsert) : Prop where
  unreserved : ∀ owner, Obj.get reserved u.routeKey = .str owner → owner = service
  renewed : ∀ row ∈ existing, row.key = some u.routeKey → row.isModified = false ∧ u.existingId = some row._id ∧
    ∀ field ∈ routeFields, Obj.get u.model field =
      if field ∈ overriddenFields row then row.get field else Obj.get r field
  fresh : (∀ row ∈ existing, row.key ≠ some u.routeKey) → u.existingId = none ∧
    ∀ field ∈ routeFields, Obj.get u.model field = Obj.get r field

/-- The diff puts every key of a valid route and every row in one place. -/
structure Partition (service : String) (routes : List Value) (existing : List StoredHttpPath) (reserved : Obj)
    (diff : RouteDiff) : Prop where
  once : diff.listed.Nodup
  known : ∀ key ∈ diff.listed, ∃ v, announced routes key = some v
  fate : ∀ key v, announced routes key = some v → ∃! fate, EndsIn existing diff (fieldsOf v) key fate
  upserts : ∀ u ∈ diff.upserts, ∃ v, announced routes u.routeKey = some v ∧
    UpsertFor service existing reserved (fieldsOf v) u
  disablesOnce : (diff.disables.map RouteDisable.routeKey).Nodup
  disables : ∀ d, d ∈ diff.disables ↔ ∃ row ∈ existing, row.key = some d.routeKey ∧ row.isEnabled = true ∧
    announced routes d.routeKey = none ∧
    d = { id := row._id, routeKey := d.routeKey, method := row.get "method", path := row.get "path" }
  apart : ∀ u ∈ diff.upserts, ∀ d ∈ diff.disables, u.existingId ≠ some d.id
  changed : diff.changed = true ↔ diff.upserts ≠ [] ∨ diff.disables ≠ []

/-- What the loop reads can be read: the keys of the valid routes, and the overrides of the rows it looks at. -/
structure Readable (service : String) (routes : List Value) (existing : List StoredHttpPath) (reserved : Obj) :
    Prop where
  keys : ∀ r ∈ routes, isValidRoute r = true → ∃ key, routeKeyOf r = .ok key
  overrides : ∀ key v, announced routes key = some v →
    (∃ owner, Obj.get reserved key = .str owner ∧ owner ≠ service) ∨
      ∀ row ∈ existing, row.key = some key →
        row.isModified = true ∨ ∃ overrides, overridesAt (some row) = .ok overrides

/-! ## The loop -/

section Loop

variable {service : String} {map : List (String × StoredHttpPath)} {reserved : Obj} {r : Obj} {key : String}
  {routes : List Value} {state state' : DiffState}

/-- What becomes of a key whose route can be classified. -/
def fateAt (service : String) (map : List (String × StoredHttpPath)) (reserved : Obj) (routes : List Value)
    (key : String) : Option Fate :=
  (announced routes key).bind fun v =>
    (classify service map reserved (fieldsOf v) key).toOption.map RouteOutcome.fate

theorem fateAt_eq {v : Value} {outcome : RouteOutcome} (hannounced : announced routes key = some v)
    (houtcome : classify service map reserved (fieldsOf v) key = .ok outcome) :
    fateAt service map reserved routes key = some outcome.fate := by
  unfold fateAt
  rw [hannounced, Option.bind_some, houtcome]
  rfl

theorem fateAt_congr {routes' : List Value} (h : announced routes' key = announced routes key) :
    fateAt service map reserved routes' key = fateAt service map reserved routes key := by
  unfold fateAt
  rw [h]

/-- What is entered goes to the end of its list. -/
theorem keysOf_record {diff : RouteDiff} {outcome : RouteOutcome}
    (h : classify service map reserved r key = .ok outcome) {fate : Fate} (hfate : fate ≠ .unchanged) :
    (diff.record r key outcome).keysOf fate =
      diff.keysOf fate ++ if outcome.fate = fate then [key] else [] := by
  cases outcome with
  | upsert u =>
      cases fate with
      | upsert =>
          show (diff.upserts ++ [u]).map RouteUpsert.routeKey = _
          rw [List.map_append, List.map_singleton, routeKey_of_upsert h]
          rfl
      | unchanged => exact absurd rfl hfate
      | collision => exact (List.append_nil _).symm
      | skipped => exact (List.append_nil _).symm
  | collision owner =>
      cases fate with
      | collision =>
          show (diff.collisions ++ [_]).map RouteRefusal.routeKey = _
          rw [List.map_append, List.map_singleton]
          rfl
      | unchanged => exact absurd rfl hfate
      | upsert => exact (List.append_nil _).symm
      | skipped => exact (List.append_nil _).symm
  | skipped =>
      cases fate with
      | skipped =>
          show (diff.skipped ++ [_]).map RouteRefusal.routeKey = _
          rw [List.map_append, List.map_singleton]
          rfl
      | unchanged => exact absurd rfl hfate
      | upsert => exact (List.append_nil _).symm
      | collision => exact (List.append_nil _).symm
  | unchanged =>
      cases fate with
      | unchanged => exact absurd rfl hfate
      | upsert => exact (List.append_nil _).symm
      | collision => exact (List.append_nil _).symm
      | skipped => exact (List.append_nil _).symm

/-- The keys are decided one by one, and each list has the keys with its fate. -/
structure Filed (service : String) (map : List (String × StoredHttpPath)) (reserved : Obj) (routes : List Value)
    (state : DiffState) : Prop where
  once : state.seen.Nodup
  keys : ∀ fate, fate ≠ .unchanged → state.diff.keysOf fate =
    state.seen.filter fun key => fateAt service map reserved routes key = some fate
  read : ∀ r ∈ routes, isValidRoute r = true → ∃ key, routeKeyOf r = .ok key

/-- A route that decides nothing. -/
theorem Filed.pass {v : Value} {invalid : List Value} (h : Filed service map reserved routes state)
    (hsame : ∀ key, announced (routes ++ [v]) key = announced routes key)
    (hread : isValidRoute v = true → ∃ key, routeKeyOf v = .ok key) :
    Filed service map reserved (routes ++ [v])
      { state with diff := { state.diff with invalid := invalid } } where
  once := h.once
  keys fate hfate := by
    simp only [fateAt_congr (hsame _)]
    rw [← h.keys fate hfate]
    cases fate <;> rfl
  read r hr hvalid := by
    rcases List.mem_append.mp hr with hr | hr
    · exact h.read r hr hvalid
    · rw [List.mem_singleton.mp hr] at hvalid ⊢
      exact hread hvalid

/-- A route that decides for its key. -/
theorem Filed.decide {v : Value} {outcome : RouteOutcome} (h : Filed service map reserved routes state)
    (hdiffed : Diffed service map reserved routes state) (hvalid : isValidRoute v = true)
    (hkey : routeKeyOf v = .ok key) (hnew : key ∉ state.seen)
    (houtcome : classify service map reserved (fieldsOf v) key = .ok outcome) :
    Filed service map reserved (routes ++ [v])
      { seen := state.seen ++ [key], diff := state.diff.record (fieldsOf v) key outcome } where
  once := List.nodup_append.mpr ⟨h.once, List.nodup_singleton _, fun k hk k' hk' heq =>
    hnew (by rwa [← List.mem_singleton.mp hk', ← heq])⟩
  keys fate hfate := by
    have hnone : announced routes key = none := by
      cases hfound : announced routes key with
      | none => rfl
      | some v' => exact absurd ((hdiffed.seen key).mpr ⟨v', hfound⟩) hnew
    have hself : announced (routes ++ [v]) key = some v := by
      rw [announced_concat, hnone, if_pos (by rw [Bool.and_eq_true, hasKey_iff]; exact ⟨hvalid, hkey⟩)]
      rfl
    have hold : ∀ k ∈ state.seen, announced (routes ++ [v]) k = announced routes k := by
      intro k hk
      obtain ⟨v', hv'⟩ := (hdiffed.seen k).mp hk
      rw [announced_concat, hv']
      rfl
    rw [keysOf_record houtcome hfate, h.keys fate hfate, List.filter_append, List.filter_singleton,
      fateAt_eq hself houtcome]
    congr 1
    · exact List.filter_congr fun k hk => by rw [fateAt_congr (hold k hk)]
    · simp
  read r hr hvalid' := by
    rcases List.mem_append.mp hr with hr | hr
    · exact h.read r hr hvalid'
    · exact ⟨key, List.mem_singleton.mp hr ▸ hkey⟩

theorem filed_foldlM (h : routes.foldlM (diffRoute service map reserved) {} = .ok state) :
    Filed service map reserved routes state := by
  induction routes using List.reverseRecOn generalizing state with
  | nil =>
      obtain rfl := Except.ok.inj h
      refine ⟨List.nodup_nil, fun fate _ => ?_, nofun⟩
      cases fate <;> rfl
  | append_singleton routes v ih =>
      rw [List.foldlM_append] at h
      obtain ⟨before, hbefore, h⟩ := bind_eq_ok.mp h
      rw [List.foldlM_cons] at h
      obtain ⟨after, hstep, h⟩ := bind_eq_ok.mp h
      obtain rfl := Except.ok.inj h
      have hdiffed := diffed_foldlM hbefore
      rcases diffRoute_cases hstep with ⟨hpassed, invalid, rfl⟩ |
        ⟨key, outcome, hvalid, hkey, hnew, houtcome, rfl⟩
      · refine (ih hbefore).pass (announced_concat_passed hdiffed.seen hpassed) fun hvalid => ?_
        rcases hpassed with hinvalid | ⟨key, -, hkey⟩
        · rw [hinvalid] at hvalid
          cases hvalid
        · exact ⟨key, hkey⟩
      · exact (ih hbefore).decide hdiffed hvalid hkey hnew houtcome

/-- A key is in at most one list, and once. -/
theorem Filed.listed_nodup (h : Filed service map reserved routes state) : state.diff.listed.Nodup := by
  unfold RouteDiff.listed
  rw [h.keys .collision nofun, h.keys .skipped nofun, h.keys .upsert nofun, List.nodup_append,
    List.nodup_append]
  have hapart : ∀ {fate fate' : Fate}, fate ≠ fate' →
      ∀ k ∈ state.seen.filter fun key => fateAt service map reserved routes key = some fate,
      ∀ k' ∈ state.seen.filter fun key => fateAt service map reserved routes key = some fate', k ≠ k' := by
    rintro fate fate' hne k hk _ hk' rfl
    have hfate := of_decide_eq_true (List.mem_filter.mp hk).2
    have hfate' := of_decide_eq_true (List.mem_filter.mp hk').2
    exact hne (Option.some.inj (hfate.symm.trans hfate'))
  refine ⟨⟨h.once.filter _, h.once.filter _, @hapart .collision .skipped nofun⟩, h.once.filter _,
    fun k hk k' hk' => ?_⟩
  rcases List.mem_append.mp hk with hk | hk
  · exact @hapart .collision .upsert nofun k hk k' hk'
  · exact @hapart .skipped .upsert nofun k hk k' hk'

theorem Filed.mem_keysOf (h : Filed service map reserved routes state) {fate : Fate}
    (hfate : fate ≠ .unchanged) :
    key ∈ state.diff.keysOf fate ↔ key ∈ state.seen ∧ fateAt service map reserved routes key = some fate := by
  rw [h.keys fate hfate, List.mem_filter, decide_eq_true_iff]

/-- What is listed is decided, and not unchanged. -/
theorem mem_listed {diff : RouteDiff} :
    key ∈ diff.listed ↔ ∃ fate, fate ≠ .unchanged ∧ key ∈ diff.keysOf fate := by
  unfold RouteDiff.listed
  rw [List.mem_append, List.mem_append]
  constructor
  · rintro ((h | h) | h)
    · exact ⟨.collision, nofun, h⟩
    · exact ⟨.skipped, nofun, h⟩
    · exact ⟨.upsert, nofun, h⟩
  · rintro ⟨fate, hfate, h⟩
    cases fate with
    | collision => exact .inl (.inl h)
    | skipped => exact .inl (.inr h)
    | upsert => exact .inr h
    | unchanged => exact absurd rfl hfate

theorem endsIn_iff {existing : List StoredHttpPath} {diff : RouteDiff} {fate : Fate}
    (hfate : fate ≠ .unchanged) :
    EndsIn existing diff r key fate ↔ key ∈ diff.keysOf fate := by
  cases fate with
  | unchanged => exact absurd rfl hfate
  | collision => exact Iff.rfl
  | skipped => exact Iff.rfl
  | upsert => exact Iff.rfl

end Loop

/-! ## The partition -/

theorem routeFields_eq : routeFields = canonicalDefaults.map Prod.fst := rfl

theorem enabled_not_mem_routeFields : "enabled" ∉ routeFields := by decide

section Partition

variable {service : String} {routes : List Value} {existing : List StoredHttpPath} {reserved : Obj}
  {state : DiffState} {diff : RouteDiff}

/-- A row by its key. -/
theorem lookup_byRouteKey (hkeys : ∀ row ∈ existing, ∃ key ≠ "", row.key = some key)
    (hdistinct : (existing.map StoredHttpPath.key).Nodup) {key : String} {row : StoredHttpPath} :
    (byRouteKey existing).lookup key = some row ↔ row ∈ existing ∧ row.key = some key := by
  rw [(indexes_byRouteKey existing).lookup_iff]
  · constructor
    · exact fun h => ⟨h.1, h.2.1⟩
    · rintro ⟨hrow, hkey⟩
      obtain ⟨key', hne, hkey'⟩ := hkeys row hrow
      rw [hkey] at hkey'
      exact ⟨hrow, hkey, Option.some.inj hkey' ▸ hne⟩
  · intro a ha b hb k hak hbk
    exact List.inj_on_of_nodup_map hdistinct ha hb (hak.trans hbk.symm)

/-- A key that is reserved is reserved to a text. -/
theorem reserved_cases (hreserved : ∀ entry ∈ reserved, ∃ owner ≠ "", entry.2 = .str owner) (key : String) :
    Obj.get reserved key = .undefined ∨ ∃ owner ≠ "", Obj.get reserved key = .str owner := by
  unfold Obj.get Obj.own
  cases hlookup : reserved.reverse.lookup key with
  | none => exact .inl rfl
  | some v =>
      obtain ⟨owner, hne, rfl⟩ := hreserved (key, v) (List.mem_reverse.mp (AssocList.mem_of_lookup hlookup))
      exact .inr ⟨owner, hne, rfl⟩

theorem truthy_str {s : String} : (Value.str s).truthy = true ↔ s ≠ "" := by simp [Value.truthy]

/-- **Each key has one fate.** -/
theorem existsUnique_endsIn (hfiled : Filed service (byRouteKey existing) reserved routes state)
    (hdiffed : Diffed service (byRouteKey existing) reserved routes state)
    (hkeys : ∀ row ∈ existing, ∃ key ≠ "", row.key = some key)
    (hdistinct : (existing.map StoredHttpPath.key).Nodup) {key : String} {v : Value}
    (hannounced : announced routes key = some v) :
    ∃! fate, EndsIn existing state.diff (fieldsOf v) key fate := by
  obtain ⟨outcome, houtcome⟩ := hdiffed.decided key v hannounced
  have hseen : key ∈ state.seen := (hdiffed.seen key).mpr ⟨v, hannounced⟩
  have hfate := fateAt_eq hannounced houtcome
  have hlisted : ∀ fate, fate ≠ .unchanged → (key ∈ state.diff.keysOf fate ↔ outcome.fate = fate) := by
    intro fate hne
    rw [hfiled.mem_keysOf hne, hfate, Option.some.injEq]
    exact and_iff_right hseen
  refine ⟨outcome.fate, ?_, fun fate hends => ?_⟩
  · by_cases hunchanged : outcome.fate = .unchanged
    · rw [hunchanged]
      cases classified_of_ok houtcome with
      | collision => cases hunchanged
      | skipped => cases hunchanged
      | upsert => cases hunchanged
      | unchanged _ row hrow _ overrides hoverrides hsame =>
          obtain ⟨hmem, hkey⟩ := (lookup_byRouteKey hkeys hdistinct).mp hrow
          refine ⟨fun hlist => ?_, row, hmem, hkey, overrides, hrow ▸ hoverrides, hsame⟩
          obtain ⟨fate, hne, hmem⟩ := mem_listed.mp hlist
          exact hne ((hlisted fate hne).mp hmem).symm
    · exact (endsIn_iff hunchanged).mpr ((hlisted _ hunchanged).mpr rfl)
  · by_cases hne : fate = .unchanged
    · subst hne
      by_contra hother
      have hchanged : outcome.fate ≠ .unchanged := fun h => hother h.symm
      exact hends.1 (mem_listed.mpr ⟨_, hchanged, (hlisted _ hchanged).mpr rfl⟩)
    · exact ((hlisted fate hne).mp ((endsIn_iff hne).mp hends)).symm

/-- **An upsert** is of the route that decides for its key, with the overridden fields of the row. -/
theorem upsertFor_of_mem (hdiffed : Diffed service (byRouteKey existing) reserved routes state)
    (hkeys : ∀ row ∈ existing, ∃ key ≠ "", row.key = some key)
    (hdistinct : (existing.map StoredHttpPath.key).Nodup)
    (hreserved : ∀ entry ∈ reserved, ∃ owner ≠ "", entry.2 = .str owner) {u : RouteUpsert}
    (hu : u ∈ state.diff.upserts) :
    ∃ v, announced routes u.routeKey = some v ∧ UpsertFor service existing reserved (fieldsOf v) u := by
  obtain ⟨v, overrides, hannounced, howner, hmodified, hoverrides, heq⟩ := hdiffed.upsert hu
  have hfield : ∀ field ∈ routeFields, Obj.get u.model field = Obj.get
      (applyUserOverrides (fieldsOf v) ((byRouteKey existing).lookup u.routeKey) overrides) field := by
    intro field hfield
    obtain ⟨entry, hentry, rfl⟩ := List.mem_map.mp (routeFields_eq ▸ hfield)
    rw [heq, model_upsertOf]
    unfold Obj.get
    rw [own_upsertModel_of_canonical hentry]
    rfl
  refine ⟨v, hannounced, fun owner hreserves => ?_, fun row hrow hkey => ?_, fun hnone => ?_⟩
  · rcases reserved_cases hreserved u.routeKey with hfree | ⟨owner', hne, howner'⟩
    · rw [hfree] at hreserves
      cases hreserves
    · rw [howner'] at hreserves howner
      have hsame := howner (truthy_str.mpr hne)
      exact (Value.str.inj hreserves).symm.trans (Value.str.inj hsame)
  · have hlookup := (lookup_byRouteKey hkeys hdistinct).mpr ⟨hrow, hkey⟩
    rw [hlookup] at hfield hoverrides
    refine ⟨hmodified row hlookup, ?_, fun field hmem => ?_⟩
    · rw [heq, hlookup]
      rfl
    · have hne : field ≠ "enabled" := fun h => enabled_not_mem_routeFields (h ▸ hmem)
      rw [hfield field hmem, get_applyUserOverrides _ _ _ hne]
      unfold overriddenFields
      rw [hoverrides]
      rfl
  · have hlookup : (byRouteKey existing).lookup u.routeKey = none := by
      rw [Option.eq_none_iff_forall_not_mem]
      intro row hrow
      obtain ⟨hmem, hkey⟩ := (lookup_byRouteKey hkeys hdistinct).mp hrow
      exact hnone row hmem hkey
    rw [hlookup] at hfield
    refine ⟨?_, hfield⟩
    rw [heq, hlookup]
    rfl

/-- **What a diff is, when there is one.** -/
theorem partition_of_ok (h : diffRoutes service routes existing reserved = .ok diff)
    (hkeys : ∀ row ∈ existing, ∃ key ≠ "", row.key = some key)
    (hdistinct : (existing.map StoredHttpPath.key).Nodup) (hids : (existing.map StoredHttpPath._id).Nodup)
    (hreserved : ∀ entry ∈ reserved, ∃ owner ≠ "", entry.2 = .str owner) :
    Partition service routes existing reserved diff := by
  unfold diffRoutes at h
  obtain ⟨state, hloop, h⟩ := bind_eq_ok.mp h
  obtain rfl := Except.ok.inj h
  have hdiffed := diffed_foldlM hloop
  have hfiled := filed_foldlM hloop
  -- a key that no route has been seen for is one that is not announced
  have hdisables : ∀ d, d ∈ disablesOf (byRouteKey existing) state.seen ↔ ∃ row ∈ existing,
      row.key = some d.routeKey ∧ row.isEnabled = true ∧ announced routes d.routeKey = none ∧
      d = { id := row._id, routeKey := d.routeKey, method := row.get "method", path := row.get "path" } := by
    intro d
    rw [mem_disablesOf]
    have hseen : d.routeKey ∉ state.seen ↔ announced routes d.routeKey = none := by
      rw [hdiffed.seen, ← Option.isSome_iff_exists, Bool.not_eq_true, Option.isSome_eq_false_iff,
        Option.isNone_iff_eq_none]
    rw [hseen]
    constructor
    · rintro ⟨row, hmem, hnone, henabled, hd⟩
      obtain ⟨hrow, hkey⟩ := (lookup_byRouteKey hkeys hdistinct).mp
        (AssocList.lookup_of_mem (indexes_byRouteKey existing).keys hmem)
      exact ⟨row, hrow, hkey, henabled, hnone, hd⟩
    · rintro ⟨row, hrow, hkey, henabled, hnone, hd⟩
      have hlookup := (lookup_byRouteKey hkeys hdistinct).mpr ⟨hrow, hkey⟩
      exact ⟨row, AssocList.mem_of_lookup hlookup, hnone, henabled, hd⟩
  refine ⟨hfiled.listed_nodup, fun key hkey => ?_, fun key v hv => ?_, fun u hu => ?_, ?_, hdisables,
    fun u hu d hd heq => ?_, ?_⟩
  · obtain ⟨fate, hne, hmem⟩ := mem_listed.mp hkey
    exact (hdiffed.seen key).mp ((hfiled.mem_keysOf hne).mp hmem).1
  · exact existsUnique_endsIn hfiled hdiffed hkeys hdistinct hv
  · exact upsertFor_of_mem hdiffed hkeys hdistinct hreserved hu
  · exact (keys_disablesOf _ _).nodup (indexes_byRouteKey existing).keys
  · -- both would be the row of one key, which is announced and is not
    obtain ⟨row, hrow, hkey, -, hnone, hid⟩ := (hdisables d).mp hd
    obtain ⟨v, hannounced, hupsert⟩ := upsertFor_of_mem hdiffed hkeys hdistinct hreserved hu
    have hid : d.id = row._id := congrArg RouteDisable.id hid
    by_cases hrow' : ∃ row' ∈ existing, row'.key = some u.routeKey
    · obtain ⟨row', hrow', hkey'⟩ := hrow'
      rw [(hupsert.renewed row' hrow' hkey').2.1, Option.some.injEq, hid] at heq
      obtain rfl := List.inj_on_of_nodup_map hids hrow' hrow heq
      rw [← Option.some.inj (hkey'.symm.trans hkey), hannounced] at hnone
      cases hnone
    · simp only [not_exists, not_and] at hrow'
      rw [(hupsert.fresh hrow').1] at heq
      cases heq
  · unfold RouteDiff.changed
    rw [Bool.or_eq_true, Bool.not_eq_true', Bool.not_eq_true', List.isEmpty_eq_false_iff,
      List.isEmpty_eq_false_iff]

/-- **The diff is a partition exactly where the loop can read what it reads**: the method and the path of every
valid route, and the overrides of the row of each, unless its key is another owner's or its row locked. -/
theorem diffRoutes_partition_iff (service : String) (routes : List Value) (existing : List StoredHttpPath)
    (reserved : Obj) (hkeys : ∀ row ∈ existing, ∃ key ≠ "", row.key = some key)
    (hdistinct : (existing.map StoredHttpPath.key).Nodup) (hids : (existing.map StoredHttpPath._id).Nodup)
    (hreserved : ∀ entry ∈ reserved, ∃ owner ≠ "", entry.2 = .str owner) :
    (∃ diff, diffRoutes service routes existing reserved = .ok diff ∧
      Partition service routes existing reserved diff) ↔ Readable service routes existing reserved := by
  have hread : ∀ key v,
      ((∃ outcome, classify service (byRouteKey existing) reserved (fieldsOf v) key = .ok outcome) ↔
      (∃ owner, Obj.get reserved key = .str owner ∧ owner ≠ service) ∨
        ∀ row ∈ existing, row.key = some key →
          row.isModified = true ∨ ∃ overrides, overridesAt (some row) = .ok overrides) := by
    intro key v
    rw [classify_returns_iff]
    refine or_congr ?_ ?_
    · rcases reserved_cases hreserved key with hfree | ⟨owner, hne, howner⟩
      · rw [hfree]
        exact ⟨fun h => (by cases h.1), fun ⟨_, h, _⟩ => (by cases h)⟩
      · rw [howner, truthy_str]
        constructor
        · exact fun h => ⟨owner, rfl, fun heq => h.2 (congrArg Value.str heq)⟩
        · rintro ⟨owner', heq, hother⟩
          exact ⟨hne, fun hsame => hother ((Value.str.inj heq).symm.trans (Value.str.inj hsame))⟩
    · cases hlookup : (byRouteKey existing).lookup key with
      | none =>
          refine ⟨fun _ row hrow hkey => ?_, fun _ => .inr ⟨_, rfl⟩⟩
          rw [(lookup_byRouteKey hkeys hdistinct).mpr ⟨hrow, hkey⟩] at hlookup
          cases hlookup
      | some row =>
          constructor
          · intro h row' hrow' hkey'
            rw [(lookup_byRouteKey hkeys hdistinct).mpr ⟨hrow', hkey'⟩] at hlookup
            rw [Option.some.inj hlookup]
            exact h
          · obtain ⟨hrow, hkey⟩ := (lookup_byRouteKey hkeys hdistinct).mp hlookup
            exact fun h => h row hrow hkey
  constructor
  · rintro ⟨diff, hdiff, -⟩
    unfold diffRoutes at hdiff
    obtain ⟨state, hloop, -⟩ := bind_eq_ok.mp hdiff
    exact ⟨(filed_foldlM hloop).read, fun key v hv => (hread key v).mp ((diffed_foldlM hloop).decided key v hv)⟩
  · intro h
    obtain ⟨diff, hdiff⟩ := diffRoutes_returns h.keys fun key v hv => (hread key v).mpr (h.overrides key v hv)
    exact ⟨diff, hdiff, partition_of_ok hdiff hkeys hdistinct hids hreserved⟩

end Partition

/-! ## Two routes -/

/-- A route with this method. -/
def routeWith (method : Value) : Value := .obj
  [("method", method), ("path", .str "/users"), ("topic", .str "users"), ("action", .str "list"),
  ("mode", .str "rpc")]

theorem diffRoutes_partition_iff_users : ∃ diff,
    diffRoutes "users" [routeWith (.str "GET")] [] [] = .ok diff ∧
      Partition "users" [routeWith (.str "GET")] [] [] diff := by
  refine (diffRoutes_partition_iff "users" [routeWith (.str "GET")] [] [] nofun List.nodup_nil List.nodup_nil
    nofun).mpr ⟨fun r hr _ => ?_, fun _ _ _ => .inr nofun⟩
  rw [List.mem_singleton.mp hr]
  exact ⟨"GET /users", by rfl⟩

/-- A method that is a number passes `isValidRoute`, and the whole diff throws. -/
theorem not_diffRoutes_partition_number :
    ¬ ∀ (service : String) (routes : List Value) (existing : List StoredHttpPath) (reserved : Obj),
      (∀ row ∈ existing, ∃ key ≠ "", row.key = some key) → (existing.map StoredHttpPath.key).Nodup →
      (existing.map StoredHttpPath._id).Nodup → (∀ entry ∈ reserved, ∃ owner ≠ "", entry.2 = .str owner) →
        ∃ diff, diffRoutes service routes existing reserved = .ok diff ∧
          Partition service routes existing reserved diff := by
  intro h
  obtain ⟨diff, hdiff, -⟩ := h "users" [routeWith (.str "GET"), routeWith (.num 5)] [] [] nofun List.nodup_nil
    List.nodup_nil nofun
  have hthrows : (diffRoutes "users" [routeWith (.str "GET"), routeWith (.num 5)] []
    []).toOption.isSome = false := by
    decide +kernel
  rw [hdiff] at hthrows
  cases hthrows

end NestAmqp.Gateway
