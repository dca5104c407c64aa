/-
# NestAmqp.Lib.NamedRecords — collections whose records are found by a name of their own.

A record is put under its name: over the record that has the name, or at the end.  It is removed by its
name.  The lemmas say which names a collection has after either, and that a name stays with one record.
-/
import Mathlib.Data.List.Nodup

namespace NestAmqp.Lib.NamedRecords

variable {α κ : Type} (name : α → κ) {merge : α → α} {l : List α} {new a b : α} {k : κ}

/-- The names that are taken. -/
def names (l : List α) : List κ := l.map name

theorem mem_names {name : α → κ} : k ∈ names name l ↔ ∃ a ∈ l, name a = k := by simp [names]

variable [DecidableEq κ]

/-- The record under its name, merged into the one that has it. -/
def upsert (merge : α → α) (l : List α) (new : α) : List α :=
  if l.any fun a => name a == name new then l.map fun a => if name a == name new then merge a else a
  else l ++ [new]

/-- The first record with the name is taken out. -/
def remove (l : List α) (k : κ) : List α := l.eraseP fun a => name a == k

variable {name}

/-! ## Putting a record -/

theorem mem_upsert (h : b ∈ upsert name merge l new) :
    b ∈ l ∨ b = new ∨ ∃ a ∈ l, name a = name new ∧ b = merge a := by
  unfold upsert at h
  split at h
  · obtain ⟨a, ha, rfl⟩ := List.mem_map.mp h
    by_cases hname : name a = name new
    · simp only [hname, beq_self_eq_true, if_true]
      exact .inr (.inr ⟨a, ha, hname, rfl⟩)
    · simp only [beq_eq_false_iff_ne.mpr hname]
      exact .inl ha
  · rcases List.mem_append.mp h with hold | hnew
    · exact .inl hold
    · exact .inr (.inl (List.mem_singleton.mp hnew))

/-- **Looking a name up** behind a record that replaces the one that has its name. -/
theorem find?_upsert (l : List α) (new : α) (k : κ) :
    (upsert name (fun _ => new) l new).find? (fun a => name a == k) =
      if name new = k then some new else l.find? fun a => name a == k := by
  unfold upsert
  split
  next hany =>
    rw [List.find?_map]
    by_cases hk : name new = k
    · -- the record that is replaced is the one that is found
      subst hk
      have hsame : ((fun a => name a == name new) ∘ fun a => if name a == name new then new else a) =
          fun a => name a == name new := by
        funext a
        by_cases ha : name a = name new <;> simp [ha]
      obtain ⟨a, hfound⟩ := Option.isSome_iff_exists.mp
        ((List.find?_isSome (p := fun a => name a == name new)).mpr
        (List.any_eq_true.mp hany))
      have hname := List.find?_some hfound
      rw [hsame, hfound, if_pos rfl]
      simp only [Option.map_some, hname, if_true]
    · have hsame : ((fun a => name a == k) ∘ fun a => if name a == name new then new else a) =
          fun a => name a == k := by
        funext a
        by_cases ha : name a = name new
        · simp [ha]
        · simp [ha]
      rw [hsame, if_neg hk]
      cases hfound : l.find? fun a => name a == k with
      | none => rfl
      | some a =>
          have hname : name a = k := by simpa using List.find?_some hfound
          simp [hname, Ne.symm hk]
  next hnone =>
    rw [List.find?_append]
    by_cases hk : name new = k
    · have hfree : l.find? (fun a => name a == k) = none := by
        rw [List.find?_eq_none]
        intro a ha htaken
        exact hnone (List.any_eq_true.mpr ⟨a, ha, by rw [hk]; exact htaken⟩)
      simp [hfree, hk]
    · simp [hk]

/-- Merging leaves the names, so only the new one is added. -/
theorem names_upsert_of_mem (hmerge : ∀ a, name (merge a) = name a) (h : name new ∈ names name l) :
    names name (upsert name merge l new) = names name l := by
  have hany : (l.any fun a => name a == name new) = true := by
    obtain ⟨a, ha, hname⟩ := mem_names.mp h
    exact List.any_eq_true.mpr ⟨a, ha, by simp [hname]⟩
  unfold upsert names
  rw [if_pos hany, List.map_map]
  apply List.map_congr_left
  intro a _
  show name (if name a == name new then merge a else a) = name a
  split
  · exact hmerge a
  · rfl

theorem upsert_of_not_mem (h : name new ∉ names name l) : upsert name merge l new = l ++ [new] := by
  have hnone : ¬ (l.any fun a => name a == name new) = true := by
    intro hany
    obtain ⟨a, ha, hname⟩ := List.any_eq_true.mp hany
    exact h (mem_names.mpr ⟨a, ha, beq_iff_eq.mp hname⟩)
  unfold upsert
  rw [if_neg hnone]

theorem mem_names_upsert (hmerge : ∀ a, name (merge a) = name a) :
    k ∈ names name (upsert name merge l new) ↔ k ∈ names name l ∨ k = name new := by
  by_cases h : name new ∈ names name l
  · rw [names_upsert_of_mem hmerge h]
    refine ⟨.inl, fun hk => hk.elim id ?_⟩
    rintro rfl
    exact h
  · rw [upsert_of_not_mem h]
    simp [names]

theorem nodup_upsert (hmerge : ∀ a, name (merge a) = name a) (h : (names name l).Nodup) :
    (names name (upsert name merge l new)).Nodup := by
  by_cases hmem : name new ∈ names name l
  · rw [names_upsert_of_mem hmerge hmem]
    exact h
  · rw [upsert_of_not_mem hmem]
    show (List.map name (l ++ [new])).Nodup
    rw [List.map_append, List.nodup_append]
    refine ⟨h, List.nodup_singleton _, ?_⟩
    rintro k hk _ hnew rfl
    rw [List.map_singleton, List.mem_singleton] at hnew
    exact hmem (hnew ▸ hk)

/-! ## Removing a record -/

theorem mem_remove (h : b ∈ remove name l k) : b ∈ l := List.mem_of_mem_eraseP h

theorem nodup_remove (h : (names name l).Nodup) : (names name (remove name l k)).Nodup :=
  h.sublist (List.eraseP_sublist.map name)

/-- A name that one record has is free once that record is removed. -/
theorem mem_names_remove (h : (names name l).Nodup) {j : κ} :
    j ∈ names name (remove name l k) ↔ j ∈ names name l ∧ j ≠ k := by
  constructor
  · intro hj
    obtain ⟨a, ha, rfl⟩ := mem_names.mp hj
    refine ⟨mem_names.mpr ⟨a, mem_remove ha, rfl⟩, ?_⟩
    rintro rfl
    -- The removed record had the same name, before the rest of the collection.
    obtain ⟨c, l₁, l₂, -, hc, hl, hremoved⟩ := List.exists_of_eraseP (p := fun b => name b == name a)
      (mem_remove ha) (by simp)
    have hrest : a ∈ l₁ ++ l₂ := by
      rw [← hremoved]
      exact ha
    have hnames : names name l = names name l₁ ++ name c :: names name l₂ := by simp [hl, names]
    rw [hnames, List.nodup_middle, List.nodup_cons] at h
    apply h.1
    rw [beq_iff_eq.mp hc]
    show name a ∈ List.map name l₁ ++ List.map name l₂
    rw [← List.map_append]
    exact List.mem_map_of_mem hrest
  · rintro ⟨hj, hne⟩
    obtain ⟨a, ha, rfl⟩ := mem_names.mp hj
    refine mem_names.mpr ⟨a, ?_, rfl⟩
    unfold remove
    rw [List.mem_eraseP_of_neg (by simpa using hne)]
    exact ha

end NestAmqp.Lib.NamedRecords
