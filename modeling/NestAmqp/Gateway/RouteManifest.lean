/-
# NestAmqp.Gateway.RouteManifest — what identifies a route, and what its content is.

A route is identified by its method and path.  Its content is the behaviour-defining subset of its
fields, missing ones at their defaults, compared as a text that does not depend on the order of keys.
The main result takes that comparison apart: two routes have the same content exactly when every
field of the one has the text of the other's.
-/
import NestAmqp.Js.Json
import NestAmqp.Gateway.PathRepository

namespace NestAmqp.Gateway

open NestAmqp.Js NestAmqp.Lib NestAmqp.Lib.Nesting

/-! ## Identity -/

/-- `(method || '').toUpperCase()`. -/
def upperMethod (method : Value) : Except Thrown String :=
  match method.orElse (.str "") with
  | .str s => .ok (toUpperCase s)
  | _ => .error (.typeError "(r.method || '').toUpperCase is not a function")

/-- `METHOD + path`.  A value without properties, a method that is no text, or a path that does not print
throws. -/
def routeKeyOf (r : Value) : Except Thrown String := do
  let method ← member r "method"
  let upper ← upperMethod method
  let path ← member r "path"
  let path ← printed (path.orElse (.str ""))
  return upper ++ " " ++ path

/-- A key has the blank between its two parts. -/
theorem routeKeyOf_ne_empty {r : Value} {key : String} (h : routeKeyOf r = .ok key) : key ≠ "" := by
  unfold routeKeyOf at h
  obtain ⟨method, -, h⟩ := bind_eq_ok.mp h
  obtain ⟨upper, -, h⟩ := bind_eq_ok.mp h
  obtain ⟨path, -, h⟩ := bind_eq_ok.mp h
  obtain ⟨text, -, h⟩ := bind_eq_ok.mp h
  rw [← Except.ok.inj h]
  intro hempty
  have hlist := congrArg String.toList hempty
  simp at hlist

/-- The key of a route that is an object goes by two of its fields. -/
theorem routeKeyOf_congr {a b : Obj} (hmethod : Obj.get a "method" = Obj.get b "method")
    (hpath : Obj.get a "path" = Obj.get b "path") : routeKeyOf (.obj a) = routeKeyOf (.obj b) := by
  unfold routeKeyOf member
  dsimp only
  rw [hmethod, hpath]

/-- A route must be routable by the gateway. -/
def isValidRoute : Value → Bool
  | .obj r =>
      (Obj.get r "method").truthy && (Obj.get r "path").truthy && (Obj.get r "topic").truthy &&
        (Obj.get r "action").truthy &&
        ((Obj.get r "mode").isText "rpc" || (Obj.get r "mode").isText "event")
  | _ => false

/-! ## Content -/

/-- The fields of a canonical route, with the default behind `??` where there is one. -/
def canonicalDefaults : List (String × Option Value) :=
  [("name", none), ("method", none), ("path", none), ("dataSource", none), ("topic", none),
    ("action", none), ("mode", none), ("auth", some .null), ("allowAnonymous", some .null),
    ("actions", some (.arr [])), ("successStatusCode", some .null), ("timeout", some .null),
    ("parseRaw", some .null), ("binary", some .null), ("redirect", some .null),
    ("headers", some (.obj [])), ("forwardHeaders", some (.obj []))]

/-- `value ?? default`, or the value itself where there is no default. -/
def orDefault (default : Option Value) (value : Value) : Value :=
  match default with
  | none => value
  | some d => value.coalesce d

/-- The behaviour-defining subset of a route. -/
def canonicalRoute (r : Obj) : Obj :=
  canonicalDefaults.map fun (field, default) => (field, orDefault default (Obj.get r field))

/-- `ROUTE_FIELDS`: the keys of a canonical route. -/
def routeFields : List String := (canonicalRoute []).map Prod.fst

/-- `USER_OVERRIDABLE_FIELDS`. -/
def userOverridableFields : List String :=
  ["enabled", "actions", "allowAnonymous", "timeout", "redirect", "successStatusCode"]

/-- `{k1:v1,…}` with the keys in order, given the texts of the values. -/
def objectText (texts : List (String × String)) : String :=
  let keys := sortTexts (texts.map Prod.fst).eraseDups
  "\x7b" ++ ",".intercalate (keys.map fun k => quote k ++ ":" ++ (texts.reverse.lookup k).getD "null") ++
    "\x7d"

mutual
/-- JSON with the keys of every object in order. -/
def stableStringify : Value → String
  | .undefined | .null => "null"
  | .bool b => if b then "true" else "false"
  | .num n => toString n
  | .real text => realText text
  | .str s => quote s
  | .arr items => "[" ++ ",".intercalate (stringifyItems items) ++ "]"
  | .obj fields => objectText (stringifyFields fields)

/-- The texts of an array's elements. -/
def stringifyItems : List Value → List String
  | [] => []
  | v :: vs => stableStringify v :: stringifyItems vs

/-- The texts of an object's values. -/
def stringifyFields : List (String × Value) → List (String × String)
  | [] => []
  | (k, v) :: fields => (k, stableStringify v) :: stringifyFields fields
end

/-- The text by which two routes are compared. -/
def routeContent (r : Obj) : String := stableStringify (.obj (canonicalRoute r))

/-! ## The user's overrides -/

/-- A list of overridden fields as the code reads it: what is stored back, what `for … of` and spread
go through, and whether it `includes('enabled')`. -/
structure Overrides where
  stored : Value
  fields : List Value
  includesEnabled : Bool

/-- No overrides. -/
def Overrides.none : Overrides := { stored := .arr [], fields := [], includesEnabled := false }

/-- `existing?.userOverrides || []`.  A text is read by its characters; what is neither a text nor a
list has no `includes`, and an entry that does not print names no field. -/
def readOverrides (userOverrides : Value) : Except Thrown Overrides :=
  if !userOverrides.truthy then .ok { stored := .arr [], fields := [], includesEnabled := false }
  else match userOverrides with
    | .arr items =>
        if printsAll items then .ok
          { stored := userOverrides, fields := items, includesEnabled := items.any (·.isText "enabled") }
        else .error (.typeError "Cannot convert object to primitive value")
    -- `includes` of a text looks for a part of it
    | .str s => .ok
        { stored := userOverrides
          fields := s.toList.map fun c => .str (String.singleton c)
          includesEnabled := decide ("enabled".toList <:+: s.toList) }
    | _ => .error (.typeError "overrides.includes is not a function")

/-- `merged[f] = existing[f]`, for a field that is not `enabled`. -/
def keepOverride (existing : StoredHttpPath) (merged : Obj) (field : Value) : Obj :=
  if field.isText "enabled" then merged else Obj.set merged field.toStr (existing.get field.toStr)

/-- The incoming route with the stored value of every content field the user has overridden. -/
def applyUserOverrides (incoming : Obj) (existing : Option StoredHttpPath) (overrides : Overrides) : Obj :=
  match existing with
  | none => incoming
  | some row =>
      if overrides.fields.isEmpty then incoming
      else overrides.fields.foldl (keepOverride row) (Obj.assign [] incoming)

theorem applyUserOverrides_none (r : Obj) (ex : Option StoredHttpPath) : applyUserOverrides r ex .none = r := by
  cases ex <;> rfl

/-- Behind the loop over the overrides, the overridden fields are the stored row's. -/
theorem own_keepOverrides (row : StoredHttpPath) (fields : List Value) (merged : Obj) {field : String}
    (henabled : field ≠ "enabled") : Obj.own (fields.foldl (keepOverride row) merged) field =
      if field ∈ fields.map Value.toStr then some (row.get field) else Obj.own merged field := by
  induction fields using List.reverseRecOn with
  | nil => rfl
  | append_singleton fields f ih =>
      rw [List.foldl_append, List.foldl_cons, List.foldl_nil]
      generalize fields.foldl (keepOverride row) merged = kept at ih ⊢
      unfold keepOverride
      by_cases htext : f.isText "enabled" = true
      · have hne : field ≠ f.toStr := by
          rw [(Value.isText_iff f "enabled").mp htext]
          exact henabled
        rw [if_pos htext, ih]
        simp [hne]
      · rw [if_neg htext, Obj.own_set, ih]
        by_cases hfield : field = f.toStr
        · simp [hfield]
        · simp [hfield]

/-- **The overridden fields, and no others, are taken from the stored row.** -/
theorem get_applyUserOverrides (r : Obj) (row : StoredHttpPath) (overrides : Overrides) {field : String}
    (henabled : field ≠ "enabled") : Obj.get (applyUserOverrides r (some row) overrides) field =
      if field ∈ overrides.fields.map Value.toStr then row.get field else Obj.get r field := by
  unfold applyUserOverrides
  dsimp only
  split
  next hempty =>
    rw [List.isEmpty_iff.mp hempty]
    rfl
  next =>
    unfold Obj.get
    rw [own_keepOverrides _ _ _ henabled, Obj.own_assign, Obj.own_nil, Option.or_none]
    split <;> rfl

/-! ## The field diff -/

/-- The elements of a list, none of any other value. -/
def itemsOf : Value → List Value
  | .arr items => items
  | _ => []

/-- `Array.isArray(v)`. -/
def isArray : Value → Bool
  | .arr _ => true
  | _ => false

/-- The change of one field, when there is one. -/
def diffField (before after : Obj) (field : String) : Option RouteFieldChange :=
  let b := Obj.get before field
  let a := Obj.get after field
  if stableStringify (b.coalesce .null) = stableStringify (a.coalesce .null) then none
  -- lists are compared as sets of printed items
  else if isArray b || isArray a then
    let bKeys := (itemsOf b).map stableStringify
    let aKeys := (itemsOf a).map stableStringify
    some
      { field
        added := (itemsOf a).filter fun x => !bKeys.contains (stableStringify x)
        removed := (itemsOf b).filter fun x => !aKeys.contains (stableStringify x) }
  else some
    { field
      added := if a.nullish then [] else [a]
      removed := if b.nullish then [] else [b] }

/-- Per-field diff of two routes' content. -/
def diffRouteFields (before after : Obj) : List RouteFieldChange :=
  routeFields.filterMap (diffField before after)

/-- A change names the field it was computed for. -/
theorem field_diffField {before after : Obj} {field : String} {change : RouteFieldChange}
    (h : diffField before after field = some change) : change.field = field := by
  unfold diffField at h
  dsimp only at h
  split at h
  next => cases h
  next =>
    split at h
    · exact congrArg RouteFieldChange.field (Option.some.inj h).symm
    · exact congrArg RouteFieldChange.field (Option.some.inj h).symm

/-! ## Every text is closed -/

theorem closed_entry (k : String) {text : String} (h : Closed text.toList) :
    Closed (quote k ++ ":" ++ text).toList := by
  rw [String.toList_append, String.toList_append]
  exact ((closed_quote k).append (closed_of_all (by decide))).append h

theorem closed_lookup {texts : List (String × String)} (h : ∀ kt ∈ texts, Closed kt.2.toList) (k : String) :
    Closed ((texts.reverse.lookup k).getD "null").toList := by
  cases hlookup : texts.reverse.lookup k with
  | none => exact closed_of_all (by decide)
  | some text =>
      exact h (k, text) (List.mem_reverse.mp (AssocList.mem_of_lookup hlookup))

theorem closed_objectText {texts : List (String × String)} (h : ∀ kt ∈ texts, Closed kt.2.toList) :
    Closed (objectText texts).toList := by
  unfold objectText
  rw [String.toList_append, String.toList_append, String.toList_intercalate]
  refine (enclosed_intercalate ?_).closed_object
  intro t ht
  obtain ⟨s, hs, rfl⟩ := List.mem_map.mp ht
  obtain ⟨k, -, rfl⟩ := List.mem_map.mp hs
  exact closed_entry k (closed_lookup h k)

mutual
theorem closed_stableStringify : (v : Value) → Closed (stableStringify v).toList
  | .undefined | .null => closed_of_all (by decide)
  | .bool true | .bool false => closed_of_all (by decide)
  | .num n => closed_toString n
  | .real text => closed_realText text
  | .str s => closed_quote s
  | .arr items => by
      rw [stableStringify, String.toList_append, String.toList_append, String.toList_intercalate]
      refine (enclosed_intercalate ?_).closed_array
      intro t ht
      obtain ⟨s, hs, rfl⟩ := List.mem_map.mp ht
      exact closed_stringifyItems items s hs
  | .obj fields => closed_objectText (closed_stringifyFields fields)

theorem closed_stringifyItems : (items : List Value) → ∀ t ∈ stringifyItems items, Closed t.toList
  | [] => nofun
  | v :: vs => by
      intro t ht
      rcases List.mem_cons.mp ht with rfl | ht
      · exact closed_stableStringify v
      · exact closed_stringifyItems vs t ht

theorem closed_stringifyFields : (fields : List (String × Value)) →
    ∀ kt ∈ stringifyFields fields, Closed kt.2.toList
  | [] => nofun
  | (k, v) :: fields => by
      intro kt hkt
      rcases List.mem_cons.mp hkt with rfl | hkt
      · exact closed_stableStringify v
      · exact closed_stringifyFields fields kt hkt
end

/-! ## Taking the comparison apart -/

theorem mem_sortTexts {k : String} {texts : List String} : k ∈ sortTexts texts ↔ k ∈ texts :=
  (List.perm_insertionSort _ texts).mem_iff

/-- The entries of an object's text, in the order of their keys. -/
def inOrder (texts : List (String × String)) : List (String × String) :=
  (sortTexts (texts.map Prod.fst).eraseDups).map fun k => (k, (texts.reverse.lookup k).getD "null")

/-- `"k":text`. -/
def entryText (kt : String × String) : String := quote kt.1 ++ ":" ++ kt.2

theorem objectText_eq (texts : List (String × String)) :
    objectText texts = "\x7b" ++ ",".intercalate ((inOrder texts).map entryText) ++ "\x7d" := by
  unfold objectText inOrder
  rw [List.map_map]
  rfl

theorem entryText_injective : Function.Injective entryText := by
  intro a b h
  unfold entryText at h
  rw [String.append_assoc, String.append_assoc] at h
  obtain ⟨hkey, htext⟩ := quote_append_inj h
  exact Prod.ext hkey (String.append_right_inj ":" |>.mp htext)

/-- The entries of closed texts are closed, and none is empty. -/
theorem closed_inOrder {texts : List (String × String)} (h : ∀ kt ∈ texts, Closed kt.2.toList) :
    ∀ t ∈ ((inOrder texts).map entryText).map String.toList, Closed t ∧ t ≠ [] := by
  intro t ht
  obtain ⟨entry, hentry, rfl⟩ := List.mem_map.mp ht
  obtain ⟨kt, hkt, rfl⟩ := List.mem_map.mp hentry
  obtain ⟨k, -, rfl⟩ := List.mem_map.mp hkt
  refine ⟨closed_entry k (closed_lookup h k), ?_⟩
  unfold entryText quote
  rw [String.toList_append, String.toList_append, String.toList_ofList]
  exact nofun

/-- A bracketed join of closed texts, none of them empty, tells the texts. -/
theorem bracketed_inj {opening closing : String} {xs ys : List String}
    (hx : ∀ t ∈ xs.map String.toList, Closed t ∧ t ≠ []) (hy : ∀ t ∈ ys.map String.toList, Closed t ∧ t ≠ []) :
    opening ++ ",".intercalate xs ++ closing = opening ++ ",".intercalate ys ++ closing ↔ xs = ys := by
  constructor
  · intro h
    have hlist := congrArg String.toList h
    simp only [String.toList_append, String.toList_intercalate, List.append_assoc] at hlist
    have hbody := List.append_cancel_right (List.append_cancel_left hlist)
    have htoList : Function.Injective String.toList := fun _ _ => String.toList_inj.mp
    exact htoList.list_map (intercalate_inj_of_ne_nil hx hy hbody)
  · intro h
    rw [h]

/-- **The text of an object tells its entries in order.** -/
theorem objectText_eq_iff {s t : List (String × String)} (hs : ∀ kt ∈ s, Closed kt.2.toList)
    (ht : ∀ kt ∈ t, Closed kt.2.toList) : objectText s = objectText t ↔ inOrder s = inOrder t := by
  rw [objectText_eq, objectText_eq, bracketed_inj (closed_inOrder hs) (closed_inOrder ht)]
  exact entryText_injective.list_map.eq_iff

/-- Two objects with the same keys have the same text when every key has the same text in both. -/
theorem objectText_inj {s t : List (String × String)} (hkeys : s.map Prod.fst = t.map Prod.fst)
    (hs : ∀ kt ∈ s, Closed kt.2.toList) (ht : ∀ kt ∈ t, Closed kt.2.toList) :
    objectText s = objectText t ↔
      ∀ k ∈ s.map Prod.fst, (s.reverse.lookup k).getD "null" = (t.reverse.lookup k).getD "null" := by
  rw [objectText_eq_iff hs ht, inOrder, inOrder, ← hkeys, List.map_inj_left]
  constructor
  · intro h k hk
    refine (Prod.mk.inj (h k ?_)).2
    rw [mem_sortTexts, List.mem_eraseDups]
    exact hk
  · intro h k hk
    rw [mem_sortTexts, List.mem_eraseDups] at hk
    rw [h k hk]

theorem stringifyFields_eq (fields : List (String × Value)) :
    stringifyFields fields = fields.map fun kv => (kv.1, stableStringify kv.2) := by
  induction fields with
  | nil => rfl
  | cons kv fields ih => rw [stringifyFields, ih, List.map_cons]

theorem nodup_canonicalDefaults : (canonicalDefaults.map Prod.fst).Nodup := by decide

/-- Reading a table whose keys are distinct. -/
theorem lookup_reverse_map {β γ : Type} {l : List (String × β)} (hkeys : (l.map Prod.fst).Nodup)
    (g : String × β → γ) {kb : String × β} (h : kb ∈ l) :
    (l.map fun x => (x.1, g x)).reverse.lookup kb.1 = some (g kb) := by
  have hsame : (l.map fun x => (x.1, g x)).map Prod.fst = l.map Prod.fst := by
    rw [List.map_map]
    rfl
  rw [AssocList.lookup_reverse_eq_some_iff (hsame ▸ hkeys)]
  exact List.mem_map.mpr ⟨kb, h, rfl⟩

/-- The text of a field in a route's content. -/
def fieldText (field : String × Option Value) (r : Obj) : String :=
  stableStringify (orDefault field.2 (Obj.get r field.1))

/-- **Two routes have the same content when all their fields have the same text.** -/
theorem routeContent_eq_iff (a b : Obj) :
    routeContent a = routeContent b ↔ ∀ field ∈ canonicalDefaults, fieldText field a = fieldText field b := by
  have htexts (r : Obj) : stringifyFields (canonicalRoute r) =
      canonicalDefaults.map fun field => (field.1, fieldText field r) := by
    rw [stringifyFields_eq, canonicalRoute, List.map_map]
    rfl
  have hkeys (r : Obj) : (canonicalDefaults.map fun field => (field.1, fieldText field r)).map Prod.fst =
      canonicalDefaults.map Prod.fst := by
    rw [List.map_map]
    rfl
  have hclosed (r : Obj) : ∀ kt ∈ canonicalDefaults.map fun field => (field.1, fieldText field r),
      Closed kt.2.toList := by
    intro kt hkt
    obtain ⟨field, -, rfl⟩ := List.mem_map.mp hkt
    exact closed_stableStringify _
  unfold routeContent
  rw [stableStringify, stableStringify, htexts, htexts,
    objectText_inj ((hkeys a).trans (hkeys b).symm) (hclosed a) (hclosed b), hkeys]
  constructor
  · intro h field hfield
    have heq := h field.1 (List.mem_map_of_mem hfield)
    rw [lookup_reverse_map nodup_canonicalDefaults _ hfield,
      lookup_reverse_map nodup_canonicalDefaults _ hfield] at heq
    exact heq
  · intro h k hk
    obtain ⟨field, hfield, rfl⟩ := List.mem_map.mp hk
    rw [lookup_reverse_map nodup_canonicalDefaults _ hfield,
      lookup_reverse_map nodup_canonicalDefaults _ hfield]
    exact h field hfield

theorem fieldText_congr {field : String × Option Value} {a b : Obj}
    (h : Obj.get a field.1 = Obj.get b field.1) : fieldText field a = fieldText field b := by
  unfold fieldText
  rw [h]

end NestAmqp.Gateway
