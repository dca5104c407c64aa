/-
# NestAmqp.Lib.Grouping — one pass over a list into a map of running aggregates.

Each element has a key; the first one of a key opens an aggregate behind the others, and every one of the
key is added to it.  So there is one aggregate for each key that occurs, over the elements of the key in
their order, and a sum over the aggregates is a sum over the elements.
-/
import Mathlib.Algebra.BigOperators.Group.List.Basic
import Mathlib.Data.List.Induction
import Mathlib.Data.List.Nodup

namespace NestAmqp.Lib

variable {α β κ : Type} [DecidableEq κ]

/-- Update what is at a key; a fresh aggregate goes behind the others. -/
def upsert (key : κ) (fresh : β) (update : β → β) : List (κ × β) → List (κ × β)
  | [] => [(key, update fresh)]
  | (k, b) :: entries =>
      if k = key then (k, update b) :: entries else (k, b) :: upsert key fresh update entries

/-- The aggregates of a list, in the order of their first elements. -/
def groupBy (key : α → κ) (fresh : α → β) (add : β → α → β) (xs : List α) : List (κ × β) :=
  xs.foldl (fun entries x => upsert (key x) (fresh x) (fun b => add b x) entries) []

/-! ## One update -/

section Upsert

variable {key : κ} {fresh : β} {update : β → β} {entries : List (κ × β)}

theorem keys_upsert : (upsert key fresh update entries).map Prod.fst =
    if key ∈ entries.map Prod.fst then entries.map Prod.fst else entries.map Prod.fst ++ [key] := by
  induction entries with
  | nil => rfl
  | cons entry entries ih =>
      obtain ⟨k, b⟩ := entry
      unfold upsert
      by_cases hk : k = key
      · simp [hk]
      · rw [if_neg hk, List.map_cons, ih]
        have hne : ¬ key = k := fun h => hk h.symm
        simp only [List.map_cons, List.mem_cons, hne, false_or]
        split <;> rfl

theorem mem_keys_upsert {k : κ} :
    k ∈ (upsert key fresh update entries).map Prod.fst ↔ k ∈ entries.map Prod.fst ∨ k = key := by
  rw [keys_upsert]
  split
  next hmem =>
    refine ⟨.inl, fun h => h.elim id ?_⟩
    rintro rfl
    exact hmem
  next => rw [List.mem_append, List.mem_singleton]

theorem nodup_keys_upsert (h : (entries.map Prod.fst).Nodup) :
    ((upsert key fresh update entries).map Prod.fst).Nodup := by
  rw [keys_upsert]
  split
  · exact h
  next hmem =>
    refine List.nodup_append.mpr ⟨h, List.nodup_singleton _, fun a ha b hb => ?_⟩
    rw [List.mem_singleton.mp hb]
    rintro rfl
    exact hmem ha

/-- **What an entry is after an update:** of another key, updated, or fresh. -/
theorem mem_upsert {entry : κ × β} (hnodup : (entries.map Prod.fst).Nodup)
    (h : entry ∈ upsert key fresh update entries) :
    (entry.1 ≠ key ∧ entry ∈ entries) ∨ (∃ b, (key, b) ∈ entries ∧ entry = (key, update b)) ∨
      key ∉ entries.map Prod.fst ∧ entry = (key, update fresh) := by
  induction entries with
  | nil => exact .inr (.inr ⟨nofun, List.mem_singleton.mp h⟩)
  | cons head entries ih =>
      obtain ⟨k, b⟩ := head
      obtain ⟨hhead, htail⟩ := List.nodup_cons.mp hnodup
      unfold upsert at h
      split at h
      next hk =>
        subst hk
        rcases List.mem_cons.mp h with rfl | hmem
        · exact .inr (.inl ⟨b, .head _, rfl⟩)
        · refine .inl ⟨?_, .tail _ hmem⟩
          intro hkey
          exact hhead (List.mem_map.mpr ⟨entry, hmem, hkey⟩)
      next hk =>
        rcases List.mem_cons.mp h with rfl | hmem
        · exact .inl ⟨hk, .head _⟩
        · rcases ih htail hmem with ⟨hne, hold⟩ | ⟨b', hold, heq⟩ | ⟨hnew, heq⟩
          · exact .inl ⟨hne, .tail _ hold⟩
          · exact .inr (.inl ⟨b', .tail _ hold, heq⟩)
          · refine .inr (.inr ⟨?_, heq⟩)
            rw [List.map_cons, List.mem_cons, not_or]
            exact ⟨fun heq => hk heq.symm, hnew⟩

/-- **What a lookup finds after an update.** -/
theorem lookup_upsert [BEq κ] [LawfulBEq κ] (k : κ) : (upsert key fresh update entries).lookup k =
    if k = key then some (update ((entries.lookup key).getD fresh)) else entries.lookup k := by
  induction entries with
  | nil =>
      unfold upsert
      by_cases hk : k = key
      · simp [hk]
      · simp [List.lookup_cons, beq_false_of_ne hk, hk]
  | cons entry entries ih =>
      obtain ⟨k', b⟩ := entry
      unfold upsert
      by_cases hk' : k' = key
      · subst hk'
        by_cases hk : k = k'
        · simp [hk]
        · simp [List.lookup_cons, beq_false_of_ne hk, hk]
      · rw [if_neg hk', List.lookup_cons, ih, List.lookup_cons, List.lookup_cons,
          beq_false_of_ne (Ne.symm hk')]
        by_cases hk : k = k'
        · subst hk
          simp [hk']
        · simp [beq_false_of_ne hk]

end Upsert

/-! ## The aggregates of a list -/

section GroupBy

variable {key : α → κ} {fresh : α → β} {add : β → α → β} {xs : List α}

theorem groupBy_concat (xs : List α) (x : α) : groupBy key fresh add (xs ++ [x]) =
    upsert (key x) (fresh x) (fun b => add b x) (groupBy key fresh add xs) := by
  unfold groupBy
  rw [List.foldl_append]
  rfl

/-- One aggregate for each key. -/
theorem nodup_keys_groupBy : ((groupBy key fresh add xs).map Prod.fst).Nodup := by
  induction xs using List.reverseRecOn with
  | nil => exact List.nodup_nil
  | append_singleton xs x ih =>
      rw [groupBy_concat]
      exact nodup_keys_upsert ih

/-- The keys that occur. -/
theorem mem_keys_groupBy {k : κ} :
    k ∈ (groupBy key fresh add xs).map Prod.fst ↔ ∃ x ∈ xs, key x = k := by
  induction xs using List.reverseRecOn with
  | nil => exact ⟨nofun, nofun⟩
  | append_singleton xs x ih =>
      rw [groupBy_concat, mem_keys_upsert, ih]
      simp only [List.mem_append, List.mem_singleton, or_and_right, exists_or, exists_eq_left, eq_comm (a := k)]

/-- **An aggregate** is over all elements of its key, in their order, from what the first of them opened. -/
theorem groupBy_value {entry : κ × β} (h : entry ∈ groupBy key fresh add xs) :
    ∃ first rest, (xs.filter fun x => key x = entry.1) = first :: rest ∧
      entry.2 = (first :: rest).foldl add (fresh first) := by
  induction xs using List.reverseRecOn generalizing entry with
  | nil => cases h
  | append_singleton xs x ih =>
      rw [groupBy_concat] at h
      rw [List.filter_append]
      rcases mem_upsert nodup_keys_groupBy h with ⟨hne, hold⟩ | ⟨b, hold, rfl⟩ | ⟨hnew, rfl⟩
      · obtain ⟨first, rest, hfilter, hvalue⟩ := ih hold
        refine ⟨first, rest, ?_, hvalue⟩
        rw [hfilter, List.filter_cons_of_neg (by simpa using Ne.symm hne), List.filter_nil, List.append_nil]
      · obtain ⟨first, rest, hfilter, hvalue⟩ := ih hold
        dsimp only at hvalue hfilter ⊢
        refine ⟨first, rest ++ [x], ?_, ?_⟩
        · rw [hfilter, List.filter_cons_of_pos (by simp), List.filter_nil, List.cons_append]
        · rw [← List.cons_append, List.foldl_append, ← hvalue]
          rfl
      · have hnone : (xs.filter fun y => key y = key x) = [] := by
          refine List.filter_eq_nil_iff.mpr fun y hy hkey => hnew (mem_keys_groupBy.mpr ⟨y, hy, ?_⟩)
          simpa using hkey
        refine ⟨x, [], ?_, rfl⟩
        rw [hnone, List.filter_cons_of_pos (by simp), List.filter_nil, List.nil_append]

/-- A sum over the keys of the sums over the elements of each is the sum over the elements. -/
theorem sum_filter_keys {M : Type} [AddCommMonoid M] (weight : α → M) {keys : List κ} (hnodup : keys.Nodup)
    (hmem : ∀ x ∈ xs, key x ∈ keys) :
    (keys.map fun k => ((xs.filter fun x => key x = k).map weight).sum).sum = (xs.map weight).sum := by
  induction xs with
  | nil => simp
  | cons x xs ih =>
      obtain ⟨hx, hxs⟩ := List.forall_mem_cons.mp hmem
      have hsplit : ∀ k, (((x :: xs).filter fun y => key y = k).map weight).sum =
          (if key x = k then weight x else 0) + ((xs.filter fun y => key y = k).map weight).sum := by
        intro k
        rw [List.filter_cons]
        by_cases hk : key x = k <;> simp [hk]
      simp only [hsplit]
      rw [List.sum_map_add, ih hxs, List.map_cons, List.sum_cons,
        List.sum_map_eq_nsmul_single (key x) _ (fun k hne _ => if_neg (Ne.symm hne)),
        List.count_eq_one_of_mem hnodup hx, one_nsmul, if_pos rfl]

/-- **A sum over the aggregates** is a sum over the elements. -/
theorem sum_groupBy {M : Type} [AddCommMonoid M] {total : κ × β → M} {weight : α → M}
    (htotal : ∀ entry ∈ groupBy key fresh add xs,
      total entry = ((xs.filter fun x => key x = entry.1).map weight).sum) :
    ((groupBy key fresh add xs).map total).sum = (xs.map weight).sum := by
  have hkeys : (((groupBy key fresh add xs).map Prod.fst).map fun k =>
      ((xs.filter fun x => key x = k).map weight).sum).sum = (xs.map weight).sum :=
    sum_filter_keys weight nodup_keys_groupBy fun x hx => mem_keys_groupBy.mpr ⟨x, hx, rfl⟩
  rw [List.map_map] at hkeys
  rw [List.map_congr_left htotal]
  exact hkeys

end GroupBy

end NestAmqp.Lib
