/-
# NestAmqp.Lib.KeyedRecords — a list of records as a map from keys to finite sets.

A collection that keeps one record per key is a map, and the usual operations on it are updates of that
map.  Each record has a key and carries a finite set; an absent key stands for the empty set, so no
record carries one.
-/
import Mathlib.Data.Finset.Basic
import Mathlib.Data.List.Nodup

namespace NestAmqp.Lib

variable {α κ β : Type}

/-- The records are the map: one record per key, whose set is the key's and is not empty. -/
structure Represents (key : α → κ) (val : α → Finset β) (records : List α) (M : κ → Finset β) : Prop where
  oneRecord : (records.map key).Nodup
  value : ∀ a ∈ records, M (key a) = val a
  nonempty : ∀ a ∈ records, (val a).Nonempty
  absent : ∀ k, (∀ a ∈ records, key a ≠ k) → M k = ∅

namespace Represents

variable {key : α → κ} {val : α → Finset β} {records : List α} {M : κ → Finset β} {a : α}

/-- No records, and nothing at any key. -/
theorem nil : Represents key val [] fun _ => ∅ := ⟨List.nodup_nil, nofun, nofun, fun _ _ => rfl⟩

/-- Two records with one key are one record. -/
theorem eq_of_key (h : Represents key val records M) {b : α} (ha : a ∈ records) (hb : b ∈ records)
    (hkey : key a = key b) : a = b := List.inj_on_of_nodup_map h.oneRecord ha hb hkey

/-- What is at a key is in a record. -/
theorem mem_iff (h : Represents key val records M) {k : κ} {x : β} :
    x ∈ M k ↔ ∃ a ∈ records, key a = k ∧ x ∈ val a := by
  constructor
  · intro hx
    by_contra hnone
    have habsent : ∀ a ∈ records, key a ≠ k := by
      intro a ha hk
      apply hnone
      rw [← hk, h.value a ha] at hx
      exact ⟨a, ha, hk, hx⟩
    rw [h.absent k habsent] at hx
    exact Finset.notMem_empty x hx
  · intro hx
    obtain ⟨a, ha, rfl, hx⟩ := hx
    rw [h.value a ha]
    exact hx

/-- A key is absent when no record has it. -/
theorem eq_empty_iff (h : Represents key val records M) {k : κ} :
    M k = ∅ ↔ ∀ a ∈ records, key a ≠ k := by
  constructor
  · intro hempty a ha hk
    apply (h.nonempty a ha).ne_empty
    rw [← h.value a ha, hk, hempty]
  · exact h.absent k

variable [DecidableEq κ]

/-- **Creating** the record of an absent key. -/
theorem concat (h : Represents key val records M) (hnew : ∀ b ∈ records, key b ≠ key a)
    (hval : (val a).Nonempty) :
    Represents key val (records ++ [a]) (Function.update M (key a) (val a)) where
  oneRecord := by
    rw [List.map_append, List.nodup_append]
    refine ⟨h.oneRecord, List.nodup_singleton _, ?_⟩
    intro k hk k' hk' heq
    obtain ⟨b, hb, rfl⟩ := List.mem_map.mp hk
    rw [List.map_singleton, List.mem_singleton] at hk'
    exact hnew b hb (heq.trans hk')
  value := by
    intro b hb
    rcases List.mem_append.mp hb with hb | hb
    · rw [Function.update_of_ne (hnew b hb)]
      exact h.value b hb
    · rw [List.mem_singleton.mp hb, Function.update_self]
  nonempty := by
    intro b hb
    rcases List.mem_append.mp hb with hb | hb
    · exact h.nonempty b hb
    · rw [List.mem_singleton.mp hb]
      exact hval
  absent := by
    intro k hk
    have hne := hk a (List.mem_append_right _ (List.mem_singleton_self a))
    rw [Function.update_of_ne hne.symm]
    exact h.absent k fun b hb => hk b (List.mem_append_left _ hb)

/-- **Changing** one record, which keeps its key. -/
theorem modify (h : Represents key val records M) (ha : a ∈ records) {f : α → α}
    (hkey : key (f a) = key a) (hother : ∀ b ∈ records, b ≠ a → f b = b) (hval : (val (f a)).Nonempty) :
    Represents key val (records.map f) (Function.update M (key a) (val (f a))) := by
  have hkeys : ∀ b ∈ records, key (f b) = key b := by
    intro b hb
    by_cases hba : b = a
    · rw [hba, hkey]
    · rw [hother b hb hba]
  refine ⟨?_, fun c hc => ?_, fun c hc => ?_, fun k hk => ?_⟩
  · rw [List.map_map]
    have hsame : records.map (key ∘ f) = records.map key := List.map_congr_left hkeys
    rw [hsame]
    exact h.oneRecord
  · obtain ⟨b, hb, rfl⟩ := List.mem_map.mp hc
    by_cases hba : b = a
    · rw [hba, hkey, Function.update_self]
    · have hne : key b ≠ key a := fun heq => hba (h.eq_of_key hb ha heq)
      rw [hother b hb hba, Function.update_of_ne hne]
      exact h.value b hb
  · obtain ⟨b, hb, rfl⟩ := List.mem_map.mp hc
    by_cases hba : b = a
    · rw [hba]
      exact hval
    · rw [hother b hb hba]
      exact h.nonempty b hb
  · have hk' : ∀ b ∈ records, key b ≠ k := by
      intro b hb
      rw [← hkeys b hb]
      exact hk _ (List.mem_map_of_mem hb)
    rw [Function.update_of_ne (hk' a ha).symm]
    exact h.absent k hk'

/-- **Removing** one record. -/
theorem remove (h : Represents key val records M) (ha : a ∈ records) {p : α → Bool}
    (hp : ∀ b ∈ records, p b = true ↔ b ≠ a) :
    Represents key val (records.filter p) (Function.update M (key a) ∅) := by
  have hsplit : ∀ b, b ∈ records.filter p ↔ b ∈ records ∧ b ≠ a := by
    intro b
    rw [List.mem_filter]
    exact and_congr_right (hp b)
  refine ⟨?_, fun b hb => ?_, fun b hb => ?_, fun k hk => ?_⟩
  · exact h.oneRecord.sublist (List.filter_sublist.map _)
  · obtain ⟨hb, hba⟩ := (hsplit b).mp hb
    have hne : key b ≠ key a := fun heq => hba (h.eq_of_key hb ha heq)
    rw [Function.update_of_ne hne]
    exact h.value b hb
  · exact h.nonempty b ((hsplit b).mp hb).1
  · by_cases hka : k = key a
    · rw [hka, Function.update_self]
    · rw [Function.update_of_ne hka]
      apply h.absent k
      intro b hb hbk
      by_cases hba : b = a
      · exact hka (by rw [← hbk, hba])
      · exact hk b ((hsplit b).mpr ⟨hb, hba⟩) hbk

end Represents

end NestAmqp.Lib
