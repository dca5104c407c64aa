/-
# NestAmqp.Js.Value — the JavaScript values that requests, messages and claims carry.

The code under `libs/` moves untyped values around: query parameters, parsed bodies, mapped token
claims, message headers.  This module fixes what the development knows about them: the value tree,
the operators the code applies (`??`, `||`, `String(v)`), and plain objects with `Object.assign` and
spread.

Numbers are split in two: `num` is an integer, `real` is any other number, carried as the text that
`String(n)` prints for it.  Integers are exact, however large.
-/
import Mathlib.Data.List.Induction
import Mathlib.Data.List.Lex
import Mathlib.Data.List.Sort
import Mathlib.Order.Lattice.Nat
import NestAmqp.Lib.AssocList

namespace NestAmqp.Js

/-! ## Values -/

/-- A JavaScript value as it reaches the code from a request, a token or a message. -/
inductive Value where
  | undefined
  | null
  | bool (b : Bool)
  | num (n : Int)
  | real (text : String)
  | str (s : String)
  | arr (items : List Value)
  | obj (fields : List (String × Value))
  deriving Repr, Inhabited

/-- The own enumerable properties of a plain object, in insertion order. -/
abbrev Obj := List (String × Value)

namespace Value

/-- `v == null`: what `??` and `?.` test. -/
def nullish : Value → Bool
  | .undefined | .null => true
  | _ => false

/-- JavaScript truthiness, what `!v`, `||` and `if (v)` test. -/
def truthy : Value → Bool
  | .undefined | .null => false
  | .bool b => b
  | .num n => n != 0
  | .real text => text != "NaN"
  | .str s => s != ""
  | .arr _ | .obj _ => true

/-- `a ?? b`. -/
def coalesce (a b : Value) : Value := if a.nullish then b else a

/-- `a || b`. -/
def orElse (a b : Value) : Value := if a.truthy then a else b

mutual
/-- `String(v)`; an object without a `toString` of its own prints as `[object Object]`. -/
def toStr : Value → String
  | .undefined => "undefined"
  | .null => "null"
  | .bool true => "true"
  | .bool false => "false"
  | .num n => toString n
  | .real text => text
  | .str s => s
  | .arr items => ",".intercalate (joinItems items)
  | .obj _ => "[object Object]"

/-- The pieces `Array.prototype.join` puts together: absent elements print as the empty string. -/
def joinItems : List Value → List String
  | [] => []
  | v :: vs => (if v.nullish then "" else toStr v) :: joinItems vs
end

/-- `v === 's'`. -/
def isText (v : Value) (s : String) : Bool :=
  match v with
  | .str t => t == s
  | _ => false

@[simp] theorem isText_iff (v : Value) (s : String) : v.isText s = true ↔ v = .str s := by
  cases v <;> simp [isText]

@[simp] theorem coalesce_of_nullish {a b : Value} (h : a.nullish = true) : a.coalesce b = b := by
  simp [coalesce, h]

@[simp] theorem coalesce_of_not_nullish {a b : Value} (h : a.nullish = false) :
    a.coalesce b = a := by
  simp [coalesce, h]

theorem nullish_iff (v : Value) : v.nullish = true ↔ v = .undefined ∨ v = .null := by
  cases v <;> simp [nullish]

end Value

/-! ## Text helpers -/

/-- `s.split(sep)` for a one-character separator. -/
def split (s : String) (sep : Char) : List String := (s.toList.splitOn sep).map String.ofList

/-- No piece of a split list has the separator. -/
theorem not_mem_of_mem_splitOn {α : Type} [BEq α] [LawfulBEq α] {a : α} {xs l : List α}
    (h : l ∈ xs.splitOn a) : a ∉ l := by
  induction xs generalizing l with
  | nil =>
      rw [List.splitOn_nil, List.mem_singleton] at h
      rw [h]
      exact List.not_mem_nil
  | cons x xs ih =>
      rw [List.splitOn_cons_eq_if_modifyHead] at h
      split at h
      · rcases List.mem_cons.mp h with rfl | h
        · exact List.not_mem_nil
        · exact ih h
      next hx =>
        obtain ⟨head, tail, heq⟩ := List.exists_cons_of_ne_nil (List.splitOn_ne_nil a xs)
        rw [heq] at h ih
        rcases List.mem_cons.mp h with rfl | h
        · intro hmem
          rcases List.mem_cons.mp hmem with rfl | hmem
          · exact hx (beq_self_eq_true a)
          · exact ih (.head _) hmem
        · exact ih (.tail _ h)

theorem mem_of_mem_splitOn {α : Type} [BEq α] [LawfulBEq α] {a : α} {xs l : List α}
    (h : l ∈ xs.splitOn a) {c : α} (hc : c ∈ l) : c ∈ xs := by
  induction xs generalizing l with
  | nil =>
      rw [List.splitOn_nil, List.mem_singleton] at h
      rwa [h] at hc
  | cons x xs ih =>
      rw [List.splitOn_cons_eq_if_modifyHead] at h
      split at h
      · rcases List.mem_cons.mp h with rfl | h
        · cases hc
        · exact .tail _ (ih h hc)
      next =>
        obtain ⟨head, tail, heq⟩ := List.exists_cons_of_ne_nil (List.splitOn_ne_nil a xs)
        rw [heq] at h ih
        rcases List.mem_cons.mp h with rfl | h
        · rcases List.mem_cons.mp hc with rfl | hc
          · exact .head _
          · exact .tail _ (ih (.head _) hc)
        · exact .tail _ (ih (.tail _ h) hc)

theorem split_ne_nil (s : String) (sep : Char) : split s sep ≠ [] := by
  unfold split
  rw [Ne, List.map_eq_nil_iff]
  exact List.splitOn_ne_nil sep s.toList

theorem split_of_not_mem {s : String} {sep : Char} (h : sep ∉ s.toList) : split s sep = [s] := by
  unfold split
  rw [List.splitOn_eq_singleton h, List.map_singleton, String.ofList_toList]

/-- The parts of a text do not have the separator. -/
theorem not_mem_of_mem_split {s part : String} {sep : Char} (h : part ∈ split s sep) : sep ∉ part.toList := by
  unfold split at h
  obtain ⟨l, hl, rfl⟩ := List.mem_map.mp h
  rw [String.toList_ofList]
  exact not_mem_of_mem_splitOn hl

/-- What the parts of a text have, the text has. -/
theorem mem_of_mem_split {s part : String} {sep c : Char} (h : part ∈ split s sep) (hc : c ∈ part.toList) :
    c ∈ s.toList := by
  unfold split at h
  obtain ⟨l, hl, rfl⟩ := List.mem_map.mp h
  rw [String.toList_ofList] at hc
  exact mem_of_mem_splitOn hl hc

/-- The white space and the line ends of JavaScript: `\s`, and what `trim` takes off. -/
def isBlank (c : Char) : Bool :=
  c ∈ ['\t', '\n', '\u000b', '\u000c', '\r', ' ', '\u00a0', '\u1680', '\u2000', '\u2001', '\u2002', '\u2003',
    '\u2004', '\u2005', '\u2006', '\u2007', '\u2008', '\u2009', '\u200a', '\u2028', '\u2029', '\u202f',
    '\u205f', '\u3000', '\ufeff']

/-- `s.trim()`. -/
def trim (s : String) : String :=
  String.ofList ((s.toList.dropWhile isBlank).reverse.dropWhile isBlank).reverse

/-- `s.toUpperCase()`, on the ASCII letters header names are made of. -/
def toUpperCase (s : String) : String := String.ofList (s.toList.map Char.toUpper)

/-- `s.toLowerCase()`, on the ASCII letters header names are made of. -/
def toLowerCase (s : String) : String := String.ofList (s.toList.map Char.toLower)

/-- The UTF-16 code units of a text, by which JavaScript compares texts. -/
def codeUnits (s : String) : List Nat := s.toList.flatMap fun c =>
  if c.toNat < 0x10000 then [c.toNat]
  else [0xD800 + (c.toNat - 0x10000) / 0x400, 0xDC00 + (c.toNat - 0x10000) % 0x400]

/-- The code units of one character. -/
theorem codeUnits_cons (c : Char) (cs : List Char) : codeUnits (String.ofList (c :: cs)) =
    (if c.toNat < 0x10000 then [c.toNat]
      else [0xD800 + (c.toNat - 0x10000) / 0x400, 0xDC00 + (c.toNat - 0x10000) % 0x400]) ++
      codeUnits (String.ofList cs) := by
  simp [codeUnits]

/-- Texts with the same code units are the same: a first unit below `0xD800` or from `0xE000` on is a
character, any other one is the first half of a pair. -/
theorem codeUnits_injective : Function.Injective codeUnits := by
  intro s t h
  rw [← String.toList_inj]
  rw [← String.ofList_toList (s := s), ← String.ofList_toList (s := t)] at h
  generalize s.toList = cs at h ⊢
  generalize t.toList = ds at h ⊢
  induction cs generalizing ds with
  | nil =>
      cases ds with
      | nil => rfl
      | cons d ds =>
          rw [codeUnits_cons] at h
          split at h <;> simp [codeUnits] at h
  | cons c cs ih =>
      cases ds with
      | nil =>
          rw [codeUnits_cons] at h
          split at h <;> simp [codeUnits] at h
      | cons d ds =>
          have hc : c.toNat < 0xD800 ∨ 0xDFFF < c.toNat ∧ c.toNat < 0x110000 := c.valid
          have hd : d.toNat < 0xD800 ∨ 0xDFFF < d.toNat ∧ d.toNat < 0x110000 := d.valid
          have hsame : c.toNat = d.toNat ∧ codeUnits (String.ofList cs) = codeUnits (String.ofList ds) := by
            rw [codeUnits_cons, codeUnits_cons] at h
            split at h <;> split at h <;> simp only [List.cons_append, List.nil_append, List.cons.injEq] at h
            · exact h
            · omega
            · omega
            · exact ⟨by omega, h.2.2⟩
          rw [Char.toNat_inj.mp hsame.1, ih ds hsame.2]

/-- `[...texts].sort()`. -/
def sortTexts (texts : List String) : List String :=
  texts.insertionSort fun a b => codeUnits a ≤ codeUnits b

/-- `texts.join(',')`. -/
def joinComma (texts : List String) : String := ",".intercalate texts

/-- `` `${v}` `` of an optional string: a missing one prints as `undefined`. -/
def template (s : Option String) : String := s.getD "undefined"

/-- Truthiness of an optional string: present and not empty. -/
def truthyText (s : Option String) : Bool := s.any fun t => t != ""

/-- `string | string[]`. -/
inductive OneOrMany where
  | one (s : String)
  | many (ss : List String)
  deriving DecidableEq, Repr

/-- `Array.isArray(value) ? value : (value ? [value] : [])`. -/
def OneOrMany.toList : OneOrMany → List String
  | .one s => if s = "" then [] else [s]
  | .many ss => ss

/-- `value.length > 0`, on a string as on a list. -/
def OneOrMany.nonEmpty : OneOrMany → Bool
  | .one s => s != ""
  | .many ss => !ss.isEmpty

/-! ## Plain objects -/

namespace Obj

/-- The own property `k`: `none` when the object has no such key.  A repeated key reads as its last
occurrence, as `JSON.parse` has it. -/
def own (o : Obj) (k : String) : Option Value := o.reverse.lookup k

/-- `o[k]` for a key that no prototype carries. -/
def get (o : Obj) (k : String) : Value := (own o k).getD .undefined

/-- `o[k] = v`: in place when the key is there, at the end otherwise. -/
def set (o : Obj) (k : String) (v : Value) : Obj :=
  if o.any (fun kv => kv.1 == k) then o.map (fun kv => if kv.1 == k then (k, v) else kv)
  else o ++ [(k, v)]

/-- `delete o[k]`. -/
def delete (o : Obj) (k : String) : Obj := o.filter fun kv => kv.1 != k

/-- `Object.assign(target, source)`. -/
def assign (target source : Obj) : Obj := source.foldl (fun o kv => set o kv.1 kv.2) target

/-- `{ ...a, ...b }`. -/
def spread (a b : Obj) : Obj := assign (assign [] a) b

@[simp] theorem own_nil (k : String) : own [] k = none := rfl

theorem own_concat (o : Obj) (k j : String) (v : Value) :
    own (o ++ [(k, v)]) j = if j = k then some v else own o j := by
  unfold own
  by_cases h : j = k
  · simp [h]
  · have hne : (j == k) = false := by simpa using h
    simp [List.lookup_cons, hne, h]

theorem own_cons (o : Obj) (k j : String) (v : Value) :
    own ((k, v) :: o) j = (own o j).or (if j = k then some v else none) := by
  unfold own
  rw [List.reverse_cons, List.lookup_append]
  by_cases h : j = k
  · simp [h]
  · have hne : (j == k) = false := by simpa using h
    simp [List.lookup_cons, hne, h]

theorem own_eq_none_iff (o : Obj) (k : String) : own o k = none ↔ ∀ kv ∈ o, kv.1 ≠ k := by
  induction o with
  | nil => simp
  | cons kv o ih =>
      obtain ⟨j, v⟩ := kv
      rw [own_cons, Option.or_eq_none_iff, ih, List.forall_mem_cons]
      by_cases h : k = j
      · simp [h]
      · have hne : ¬ j = k := fun e => h e.symm
        simp [h, hne]

/-- A property that is read is there. -/
theorem mem_of_own {o : Obj} {k : String} {v : Value} (h : own o k = some v) : (k, v) ∈ o :=
  List.mem_reverse.mp (Lib.AssocList.mem_of_lookup h)

/-- Writing a key in place: the other keys keep their value. -/
theorem own_map_set (o : Obj) (k j : String) (v : Value) :
    own (o.map fun kv => if kv.1 == k then (k, v) else kv) j =
      if j = k then (own o k).map (fun _ => v) else own o j := by
  induction o with
  | nil => simp
  | cons kv o ih =>
      obtain ⟨i, w⟩ := kv
      by_cases hik : i = k
      · subst hik
        simp only [List.map_cons, beq_self_eq_true, if_true, own_cons, ih]
        by_cases hj : j = i
        · subst hj
          cases h : own o j <;> simp
        · simp [hj]
      · have hne : (i == k) = false := by simpa using hik
        simp only [List.map_cons, hne, Bool.false_eq_true, if_false, own_cons, ih]
        by_cases hj : j = k
        · subst hj
          have : ¬ j = i := fun e => hik e.symm
          simp [this]
        · simp [hj]

@[simp] theorem own_set (o : Obj) (k j : String) (v : Value) :
    own (set o k v) j = if j = k then some v else own o j := by
  unfold set
  split
  next h =>
    rw [own_map_set]
    by_cases hj : j = k
    · -- the key is present, so the in-place write is seen
      obtain ⟨⟨i, w⟩, hmem, hik⟩ := List.any_eq_true.mp h
      have hsome : own o k ≠ none := by
        intro hnone
        exact (own_eq_none_iff o k).mp hnone _ hmem (by simpa using hik)
      obtain ⟨x, hx⟩ := Option.ne_none_iff_exists'.mp hsome
      simp [hj, hx]
    · simp [hj]
  next => exact own_concat o k j v

/-- A copied object answers from the source first and from the target otherwise. -/
@[simp] theorem own_assign (target source : Obj) (k : String) :
    own (assign target source) k = (own source k).or (own target k) := by
  induction source using List.reverseRecOn with
  | nil => simp [assign]
  | append_singleton s kv ih =>
      obtain ⟨j, v⟩ := kv
      have hstep : assign target (s ++ [(j, v)]) = set (assign target s) j v := by
        simp [assign]
      rw [hstep, own_set, ih, own_concat]
      split <;> simp

@[simp] theorem own_spread (a b : Obj) (k : String) :
    own (spread a b) k = (own b k).or (own a k) := by
  simp [spread]

/-- A copied object reads as the source does where the source has the key. -/
theorem get_assign (target source : Obj) (k : String) :
    get (assign target source) k = (own source k).getD (get target k) := by
  unfold get
  rw [own_assign]
  cases own source k <;> rfl

/-- What holds of both objects' properties holds of the copied object's. -/
theorem forall_mem_assign {P : String × Value → Prop} {target source : Obj} (htarget : ∀ kv ∈ target, P kv)
    (hsource : ∀ kv ∈ source, P kv) : ∀ kv ∈ assign target source, P kv := by
  induction source using List.reverseRecOn with
  | nil => exact htarget
  | append_singleton source kv ih =>
      have hbefore := ih fun kv' hkv' => hsource kv' (List.mem_append_left _ hkv')
      have hkv : P (kv.1, kv.2) := hsource kv (List.mem_append_right _ (.head _))
      have hstep : assign target (source ++ [kv]) = set (assign target source) kv.1 kv.2 := by
        simp [assign]
      rw [hstep]
      unfold set
      split
      · intro kv' hkv'
        obtain ⟨old, hold, rfl⟩ := List.mem_map.mp hkv'
        split
        · exact hkv
        · exact hbefore old hold
      · intro kv' hkv'
        rcases List.mem_append.mp hkv' with hold | hnew
        · exact hbefore kv' hold
        · rw [List.mem_singleton.mp hnew]
          exact hkv

theorem own_delete (o : Obj) (k j : String) :
    own (delete o k) j = if j = k then none else own o j := by
  induction o with
  | nil => simp [delete]
  | cons kv o ih =>
      obtain ⟨i, w⟩ := kv
      unfold delete at ih ⊢
      by_cases hik : i = k
      · subst hik
        simp only [List.filter_cons, bne_self_eq_false, Bool.false_eq_true, if_false, ih, own_cons]
        by_cases hj : j = i
        · simp [hj]
        · simp [hj]
      · have hne : (i != k) = true := by simpa using hik
        simp only [List.filter_cons, hne, if_true, own_cons, ih]
        by_cases hj : j = k
        · subst hj
          have : ¬ j = i := fun e => hik e.symm
          simp [this]
        · simp [hj]

end Obj

end NestAmqp.Js
