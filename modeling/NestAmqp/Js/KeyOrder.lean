/-
# NestAmqp.Js.KeyOrder — JSON values, and when two of them differ in the order of keys alone.

A JSON value is one in which nothing is missing, every number is finite and every object has each of its
keys once.  Two of them are the same up to the order of keys when one becomes the other by reordering
objects, at any depth.  Arrays keep their order, and a key that holds `null` is a key.
-/
import Mathlib.Data.List.Forall2
import Mathlib.Data.List.Nodup
import NestAmqp.Js.Json

namespace NestAmqp.Js

/-! ## JSON values -/

mutual
/-- A value that `JSON.parse` can return.  A number that is no integer prints with a point or an exponent;
`-0` is the integer `0`, as it is for `===`. -/
def isJson : Value → Bool
  | .undefined => false
  | .null | .bool _ | .num _ | .str _ => true
  | .real text => isFiniteText text && (text.toList.contains '.' || text.toList.contains 'e')
  | .arr items => areJson items
  | .obj fields => decide (fields.map Prod.fst).Nodup && haveJson fields

/-- The elements of an array. -/
def areJson : List Value → Bool
  | [] => true
  | v :: vs => isJson v && areJson vs

/-- The properties of an object. -/
def haveJson : List (String × Value) → Bool
  | [] => true
  | (_, v) :: fields => isJson v && haveJson fields
end

/-- A JSON value. -/
abbrev Json := { v : Value // isJson v = true }

/-- What a value is put together from. -/
def Value.parts : Value → List Value
  | .arr items => items
  | .obj fields => fields.map Prod.snd
  | _ => []

section Parts

variable {p : Value → Prop}

mutual
/-- What a value has whenever its parts have it, every value has. -/
theorem Value.ind (h : ∀ v : Value, (∀ w ∈ v.parts, p w) → p v) : (v : Value) → p v
  | .undefined | .null | .bool _ | .num _ | .real _ | .str _ => h _ (List.forall_mem_nil _)
  | .arr items => h _ (Value.ind_items h items)
  | .obj fields => h _ (Value.ind_fields h fields)

theorem Value.ind_items (h : ∀ v : Value, (∀ w ∈ v.parts, p w) → p v) :
    (items : List Value) → ∀ w ∈ items, p w
  | [] => List.forall_mem_nil _
  | v :: vs => List.forall_mem_cons.mpr ⟨Value.ind h v, Value.ind_items h vs⟩

theorem Value.ind_fields (h : ∀ v : Value, (∀ w ∈ v.parts, p w) → p v) :
    (fields : List (String × Value)) → ∀ w ∈ fields.map Prod.snd, p w
  | [] => List.forall_mem_nil _
  | (_, v) :: fields => List.forall_mem_cons.mpr ⟨Value.ind h v, Value.ind_fields h fields⟩
end

end Parts

section Json

variable {items : List Value} {fields : Obj}

theorem areJson_iff : areJson items = true ↔ ∀ v ∈ items, isJson v = true := by
  induction items with
  | nil => simp [areJson]
  | cons v vs ih => rw [areJson, Bool.and_eq_true, ih, List.forall_mem_cons]

theorem haveJson_iff : haveJson fields = true ↔ ∀ v ∈ fields.map Prod.snd, isJson v = true := by
  induction fields with
  | nil => simp [haveJson]
  | cons kv fields ih => rw [haveJson, Bool.and_eq_true, ih, List.map_cons, List.forall_mem_cons]

@[simp] theorem isJson_arr : isJson (.arr items) = true ↔ ∀ v ∈ items, isJson v = true := areJson_iff

@[simp] theorem isJson_obj : isJson (.obj fields) = true ↔
    (fields.map Prod.fst).Nodup ∧ ∀ v ∈ fields.map Prod.snd, isJson v = true := by
  rw [isJson, Bool.and_eq_true, decide_eq_true_iff, haveJson_iff]

end Json

/-! ## The same up to the order of keys -/

/-- The same value, or arrays of the same elements in the same order, or objects with the same values under
the same keys once the one of them is reordered. -/
inductive SameUpToKeyOrder : Value → Value → Prop
  | refl (v : Value) : SameUpToKeyOrder v v
  | arr {items others : List Value} (h : List.Forall₂ SameUpToKeyOrder items others) :
      SameUpToKeyOrder (.arr items) (.arr others)
  | obj {fields reordered others : Obj} (hperm : reordered.Perm others)
      (hkeys : fields.map Prod.fst = reordered.map Prod.fst)
      (hvalues : List.Forall₂ SameUpToKeyOrder (fields.map Prod.snd) (reordered.map Prod.snd)) :
      SameUpToKeyOrder (.obj fields) (.obj others)

namespace SameUpToKeyOrder

variable {x y : Value} {items others : List Value} {fields others' : Obj}

/-- Without parts there is nothing to reorder. -/
theorem eq_of_parts (h : SameUpToKeyOrder x y) (harr : ∀ items, x ≠ .arr items)
    (hobj : ∀ fields, x ≠ .obj fields) : x = y := by
  cases h with
  | refl => rfl
  | arr => exact absurd rfl (harr _)
  | obj => exact absurd rfl (hobj _)

theorem arr_iff : SameUpToKeyOrder (.arr items) (.arr others) ↔
    List.Forall₂ SameUpToKeyOrder items others := by
  constructor
  · intro h
    cases h with
    | refl => exact List.forall₂_same.mpr fun v _ => refl v
    | arr h => exact h
  · exact arr

theorem obj_iff : SameUpToKeyOrder (.obj fields) (.obj others') ↔
    ∃ reordered : Obj, reordered.Perm others' ∧ fields.map Prod.fst = reordered.map Prod.fst ∧
      List.Forall₂ SameUpToKeyOrder (fields.map Prod.snd) (reordered.map Prod.snd) := by
  constructor
  · intro h
    cases h with
    | refl => exact ⟨fields, .rfl, rfl, List.forall₂_same.mpr fun v _ => refl v⟩
    | obj hperm hkeys hvalues => exact ⟨_, hperm, hkeys, hvalues⟩
  · rintro ⟨reordered, hperm, hkeys, hvalues⟩
    exact obj hperm hkeys hvalues

end SameUpToKeyOrder

end NestAmqp.Js
