/-
# NestAmqp.Js.PlainObject — objects that are used as tables.

`const table = {}` has, beside what is put into it, what it inherits: a name of `Object.prototype` reads as
something that is there.  Its values come out with the array indices first, in their order, and the other keys
behind them as they were put in.
-/
import NestAmqp.Js.Thrown

namespace NestAmqp.Js

/-- The names of `Object.prototype`, each of them a function or an object. -/
def objectPrototype : List String :=
  ["constructor", "__defineGetter__", "__defineSetter__", "hasOwnProperty", "__lookupGetter__",
  "__lookupSetter__",
    "isPrototypeOf", "propertyIsEnumerable", "toString", "valueOf", "__proto__", "toLocaleString"]

/-- The names `Array.prototype` has beside those of `Object.prototype`. -/
def arrayPrototype : List String :=
  ["at", "concat", "copyWithin", "fill", "find", "findIndex", "findLast", "findLastIndex", "lastIndexOf",
    "pop", "push", "reverse", "shift", "unshift", "slice", "sort", "splice", "includes", "indexOf", "join",
    "keys", "entries", "values", "forEach", "filter", "flat", "flatMap", "map", "every", "some", "reduce",
    "reduceRight", "toReversed", "toSorted", "toSpliced", "with"]

/-- The names `String.prototype` has beside them. -/
def stringPrototype : List String :=
  ["anchor", "at", "big", "blink", "bold", "charAt", "charCodeAt", "codePointAt", "concat", "endsWith",
    "fontcolor", "fontsize", "fixed", "includes", "indexOf", "isWellFormed", "italics", "lastIndexOf",
    "link", "localeCompare", "match", "matchAll", "normalize", "padEnd", "padStart", "repeat", "replace",
    "replaceAll", "search", "slice", "small", "split", "strike", "sub", "substr", "substring", "sup",
    "startsWith", "toWellFormed", "trim", "trimStart", "trimLeft", "trimEnd", "trimRight",
    "toLocaleLowerCase", "toLocaleUpperCase", "toLowerCase", "toUpperCase"]

/-- The names `Number.prototype` has beside them; `Boolean.prototype` has none. -/
def numberPrototype : List String := ["toExponential", "toFixed", "toPrecision"]

/-- The names a value inherits. -/
def inheritedNames : Value → List String
  | .undefined | .null => []
  | .bool _ | .obj _ => objectPrototype
  | .num _ | .real _ => numberPrototype ++ objectPrototype
  | .str _ => stringPrototype ++ objectPrototype
  | .arr _ => arrayPrototype ++ objectPrototype

/-- `v?.[k]`, with what the value inherits: functions, which stand here as objects without properties. -/
def read (v : Value) (k : String) : Value :=
  (ownProperty v k).getD (if (inheritedNames v).contains k then .obj [] else .undefined)

/-- A key that is an array index. -/
def arrayIndex (key : String) : Option Nat :=
  key.toNat?.filter fun n => toString n == key && n < 4294967295

/-- `Object.values(table)`. -/
def objectValues {τ : Type} (table : List (String × τ)) : List τ :=
  let indexed := table.filterMap fun entry => (arrayIndex entry.1).map fun n => (n, entry.2)
  (indexed.insertionSort fun a b => a.1 ≤ b.1).map Prod.snd ++
    (table.filter fun entry => (arrayIndex entry.1).isNone).map Prod.snd

theorem mem_objectValues {τ : Type} {table : List (String × τ)} {v : τ} :
    v ∈ objectValues table ↔ ∃ key, (key, v) ∈ table := by
  unfold objectValues
  rw [List.mem_append, List.mem_map, List.mem_map]
  constructor
  · rintro (⟨⟨n, v⟩, hmem, rfl⟩ | ⟨⟨key, v⟩, hmem, rfl⟩)
    · obtain ⟨⟨key, v'⟩, hentry, hindex⟩ := List.mem_filterMap.mp ((List.mem_insertionSort _).mp hmem)
      obtain ⟨m, -, heq⟩ := Option.map_eq_some_iff.mp hindex
      cases heq
      exact ⟨key, hentry⟩
    · exact ⟨key, (List.mem_filter.mp hmem).1⟩
  · rintro ⟨key, hmem⟩
    cases hindex : arrayIndex key with
    | none => exact .inr ⟨(key, v), List.mem_filter.mpr ⟨hmem, by simp [hindex]⟩, rfl⟩
    | some n =>
        refine .inl ⟨(n, v), (List.mem_insertionSort _).mpr (List.mem_filterMap.mpr ⟨(key, v), hmem, ?_⟩), rfl⟩
        simp [hindex]

/-- `out[path] = value`: under `__proto__` it sets the prototype of the table, or nothing. -/
def assign {τ : Type} (out : List (String × τ)) (path : String) (value : τ) : List (String × τ) :=
  if path = "__proto__" then out
  else if out.any fun entry => entry.1 == path then
    out.map fun entry => if entry.1 = path then (path, value) else entry
  else out ++ [(path, value)]

/-- Values under different keys are put in one after the other, but for the one under `__proto__`. -/
theorem foldl_assign {τ : Type} (entries out : List (String × τ))
    (h : (out.map Prod.fst ++ entries.map Prod.fst).Nodup) :
    entries.foldl (fun out e => assign out e.1 e.2) out =
      out ++ entries.filter fun e => e.1 != "__proto__" := by
  induction entries generalizing out with
  | nil => simp
  | cons entry entries ih =>
      rw [List.map_cons] at h
      have hnew : entry.1 ∉ out.map Prod.fst := fun hmem =>
        (List.nodup_append.mp h).2.2 _ hmem _ List.mem_cons_self rfl
      rw [List.foldl_cons, List.filter_cons]
      by_cases hproto : entry.1 = "__proto__"
      · rw [assign, if_pos hproto, if_neg (by simp [hproto]), ih]
        exact h.sublist ((List.sublist_cons_self _ _).append_left _)
      · have habsent : (out.any fun e => e.1 == entry.1) = false := by
          rw [Bool.eq_false_iff, Ne, List.any_eq_true]
          rintro ⟨e, he, heq⟩
          exact hnew (beq_iff_eq.mp heq ▸ List.mem_map_of_mem he)
        rw [assign, if_neg hproto, if_neg (by simp [habsent]), if_pos (bne_iff_ne.mpr hproto), ih]
        · simp
        · simpa using h

/-- `Object.entries(table)`. -/
def objectEntries {τ : Type} (table : List (String × τ)) : List (String × τ) :=
  objectValues (table.map fun entry => (entry.1, entry))

theorem mem_objectEntries {τ : Type} {table : List (String × τ)} {entry : String × τ} :
    entry ∈ objectEntries table ↔ entry ∈ table := by
  unfold objectEntries
  rw [mem_objectValues]
  constructor
  · rintro ⟨key, hmem⟩
    obtain ⟨e, he, heq⟩ := List.mem_map.mp hmem
    rwa [← (Prod.mk.inj heq).2]
  · exact fun hmem => ⟨entry.1, List.mem_map.mpr ⟨entry, hmem, rfl⟩⟩

/-- Every value comes out once. -/
theorem length_objectEntries {τ : Type} (table : List (String × τ)) :
    (objectEntries table).length = table.length := by
  unfold objectEntries objectValues
  generalize table = entries
  rw [List.length_append, List.length_map, List.length_insertionSort, List.length_map]
  induction entries with
  | nil => rfl
  | cons entry entries ih =>
      rw [List.map_cons, List.filterMap_cons, List.filter_cons, List.length_cons]
      cases arrayIndex entry.1 with
      | none =>
          simp only [Option.map_none, Option.isNone_none, if_true, List.length_cons]
          omega
      | some n =>
          simp only [Option.map_some, Option.isNone_some, Bool.false_eq_true, if_false, List.length_cons]
          omega

theorem objectEntries_of_named {τ : Type} {table : List (String × τ)}
    (h : ∀ entry ∈ table, arrayIndex entry.1 = none) : objectEntries table = table := by
  unfold objectEntries objectValues
  have hindexed : ((table.map fun entry => (entry.1, entry)).filterMap fun entry =>
      (arrayIndex entry.1).map fun n => (n, entry.2)) = [] := by
    refine List.filterMap_eq_nil_iff.mpr fun e he => ?_
    obtain ⟨entry, hentry, rfl⟩ := List.mem_map.mp he
    rw [h entry hentry]
    rfl
  have hnamed : ((table.map fun entry => (entry.1, entry)).filter fun entry => (arrayIndex entry.1).isNone) =
      table.map fun entry => (entry.1, entry) := by
    refine List.filter_eq_self.mpr fun e he => ?_
    obtain ⟨entry, hentry, rfl⟩ := List.mem_map.mp he
    rw [h entry hentry]
    rfl
  rw [hindexed, hnamed, List.map_map]
  exact List.map_id' table

end NestAmqp.Js
