/-
# NestAmqp.Lib.OrderedMap — a map that remembers the order its keys came in.

`set` on a key that is there writes in place, on a new key it appends; `delete` closes the gap.  No key
occurs twice, which is a field of the structure, so that a lookup and a membership say the same.
-/
import NestAmqp.Lib.AssocList

namespace NestAmqp.Lib

/-- Entries in the order of their insertion. -/
structure OrderedMap (κ α : Type) where
  entries : List (κ × α)
  nodup : (entries.map Prod.fst).Nodup

namespace OrderedMap

variable {κ α : Type}

@[ext]
theorem ext {m m' : OrderedMap κ α} (h : m.entries = m'.entries) : m = m' := by
  cases m
  cases m'
  cases h
  rfl

/-- No entries. -/
def empty : OrderedMap κ α := ⟨[], List.nodup_nil⟩

/-- The keys, oldest first. -/
def keys (m : OrderedMap κ α) : List κ := m.entries.map Prod.fst

/-- The values, oldest first. -/
def values (m : OrderedMap κ α) : List α := m.entries.map Prod.snd

@[simp] theorem entries_empty : (empty : OrderedMap κ α).entries = [] := rfl

theorem mem_keys {m : OrderedMap κ α} {k : κ} : k ∈ m.keys ↔ ∃ a, (k, a) ∈ m.entries := by
  unfold keys
  simp

/-- Only the entries that `p` keeps. -/
def filter (m : OrderedMap κ α) (p : κ × α → Bool) : OrderedMap κ α :=
  ⟨m.entries.filter p, m.nodup.sublist (List.filter_sublist.map _)⟩

/-- Every value rewritten, under its key. -/
def mapValues (m : OrderedMap κ α) (f : κ → α → α) : OrderedMap κ α where
  entries := m.entries.map fun e => (e.1, f e.1 e.2)
  nodup := by
    rw [List.map_map]
    exact m.nodup

@[simp] theorem entries_filter (m : OrderedMap κ α) (p : κ × α → Bool) :
    (m.filter p).entries = m.entries.filter p := rfl

@[simp] theorem keys_mapValues (m : OrderedMap κ α) (f : κ → α → α) : (m.mapValues f).keys = m.keys := by
  show (m.entries.map fun e => (e.1, f e.1 e.2)).map Prod.fst = m.entries.map Prod.fst
  rw [List.map_map]
  rfl

variable [DecidableEq κ]

/-- `map.get(key)`. -/
def get? (m : OrderedMap κ α) (k : κ) : Option α := m.entries.lookup k

/-- `map.has(key)`. -/
def has (m : OrderedMap κ α) (k : κ) : Bool := decide (k ∈ m.keys)

/-- An entry behind all others. -/
def append (m : OrderedMap κ α) (k : κ) (a : α) (h : k ∉ m.keys) : OrderedMap κ α where
  entries := m.entries ++ [(k, a)]
  nodup := by
    rw [List.map_append, List.nodup_append]
    refine ⟨m.nodup, List.nodup_singleton _, ?_⟩
    intro j hj j' hj' heq
    rw [heq, List.mem_singleton.mp hj'] at hj
    exact h hj

/-- `map.set(key, value)`. -/
def set (m : OrderedMap κ α) (k : κ) (a : α) : OrderedMap κ α :=
  if h : k ∈ m.keys then m.mapValues fun j old => if j = k then a else old else m.append k a h

/-- `map.delete(key)`. -/
def delete (m : OrderedMap κ α) (k : κ) : OrderedMap κ α := m.filter fun e => e.1 ≠ k

theorem mem_iff_get? {m : OrderedMap κ α} {k : κ} {a : α} : (k, a) ∈ m.entries ↔ m.get? k = some a :=
  (AssocList.lookup_eq_some_iff m.nodup).symm

theorem mem_keys_iff {m : OrderedMap κ α} {k : κ} : k ∈ m.keys ↔ ∃ a, m.get? k = some a := by
  rw [mem_keys]
  exact exists_congr fun a => mem_iff_get?

theorem get?_eq_none_iff {m : OrderedMap κ α} {k : κ} : m.get? k = none ↔ k ∉ m.keys := by
  rw [mem_keys_iff, not_exists, Option.eq_none_iff_forall_ne_some]

@[simp] theorem get?_empty (k : κ) : (empty : OrderedMap κ α).get? k = none := rfl

/-- Two maps whose lookups agree with membership agree on `get?` when they agree on entries. -/
theorem get?_eq_of_mem {m m' : OrderedMap κ α} {k : κ}
    (h : ∀ a, (k, a) ∈ m.entries ↔ (k, a) ∈ m'.entries) : m.get? k = m'.get? k := by
  refine Option.ext fun a => ?_
  rw [← mem_iff_get?, ← mem_iff_get?]
  exact h a

theorem entries_set_of_mem {m : OrderedMap κ α} {k : κ} (h : k ∈ m.keys) (a : α) :
    (m.set k a).entries = m.entries.map fun e => (e.1, if e.1 = k then a else e.2) := by
  unfold set
  rw [dif_pos h]
  rfl

theorem entries_set_of_not_mem {m : OrderedMap κ α} {k : κ} (h : k ∉ m.keys) (a : α) :
    (m.set k a).entries = m.entries ++ [(k, a)] := by
  unfold set
  rw [dif_neg h]
  rfl

theorem mem_entries_set {m : OrderedMap κ α} {k : κ} {a : α} {e : κ × α} :
    e ∈ (m.set k a).entries ↔ (e ∈ m.entries ∧ e.1 ≠ k) ∨ e = (k, a) := by
  obtain ⟨j, b⟩ := e
  by_cases h : k ∈ m.keys
  · rw [entries_set_of_mem h, List.mem_map]
    constructor
    · rintro ⟨⟨j', b'⟩, hmem, heq⟩
      obtain ⟨rfl, hb⟩ := Prod.mk.inj heq
      by_cases hj : j' = k
      · rw [if_pos hj] at hb
        rw [hj, hb]
        exact .inr rfl
      · rw [if_neg hj] at hb
        exact .inl ⟨hb ▸ hmem, hj⟩
    · rintro (⟨hmem, hj⟩ | heq)
      · exact ⟨(j, b), hmem, by rw [if_neg hj]⟩
      · obtain ⟨b', hb'⟩ := mem_keys.mp h
        obtain ⟨rfl, rfl⟩ := Prod.mk.inj heq
        exact ⟨(j, b'), hb', by rw [if_pos rfl]⟩
  · rw [entries_set_of_not_mem h, List.mem_append, List.mem_singleton]
    refine or_congr_left (iff_self_and.mpr fun hmem hj => h ?_)
    exact mem_keys.mpr ⟨b, hj ▸ hmem⟩

theorem get?_set (m : OrderedMap κ α) (k : κ) (a : α) (j : κ) :
    (m.set k a).get? j = if j = k then some a else m.get? j := by
  refine Option.ext fun b => ?_
  rw [← mem_iff_get?, mem_entries_set]
  split
  next h => simp [h, eq_comm]
  next h => simp [h, mem_iff_get?]

@[simp] theorem get?_set_self (m : OrderedMap κ α) (k : κ) (a : α) : (m.set k a).get? k = some a := by
  rw [get?_set, if_pos rfl]

theorem get?_set_of_ne (m : OrderedMap κ α) {k j : κ} (a : α) (h : j ≠ k) :
    (m.set k a).get? j = m.get? j := by
  rw [get?_set, if_neg h]

theorem mem_keys_set {m : OrderedMap κ α} {k j : κ} {a : α} : j ∈ (m.set k a).keys ↔ j = k ∨ j ∈ m.keys := by
  rw [mem_keys_iff, mem_keys_iff]
  simp only [get?_set]
  split
  next h => simp [h]
  next h => simp [h]

theorem keys_set_of_mem {m : OrderedMap κ α} {k : κ} (h : k ∈ m.keys) (a : α) : (m.set k a).keys = m.keys := by
  unfold set
  rw [dif_pos h, keys_mapValues]

theorem mem_entries_delete {m : OrderedMap κ α} {k : κ} {e : κ × α} :
    e ∈ (m.delete k).entries ↔ e ∈ m.entries ∧ e.1 ≠ k := by
  unfold delete
  simp

theorem get?_delete (m : OrderedMap κ α) (k j : κ) :
    (m.delete k).get? j = if j = k then none else m.get? j := by
  refine Option.ext fun b => ?_
  rw [← mem_iff_get?, mem_entries_delete]
  split
  next h => simp [h]
  next h => simp [h, mem_iff_get?]

/-- Deleting keys one by one is filtering them out. -/
theorem entries_foldl_delete (m : OrderedMap κ α) (ks : List κ) :
    (ks.foldl delete m).entries = m.entries.filter fun e => e.1 ∉ ks := by
  induction ks generalizing m with
  | nil => simp
  | cons k ks ih =>
      rw [List.foldl_cons, ih]
      show (m.entries.filter _).filter _ = _
      rw [List.filter_filter]
      refine List.filter_congr fun e _ => ?_
      simp [Bool.and_comm]

end OrderedMap

end NestAmqp.Lib
