/-
# NestAmqp.Lib.AssocList — lists of pairs, read by their keys.

`List.lookup` answers with the first pair under a key.  Where every key stands once it answers with the pair
there is, so that the answers tell the list up to its order.
-/
import Mathlib.Data.List.Nodup

namespace NestAmqp.Lib.AssocList

variable {κ β : Type} [BEq κ] [LawfulBEq κ] {l s t : List (κ × β)} {k : κ} {b : β}

/-- What is answered is there. -/
theorem mem_of_lookup (h : l.lookup k = some b) : (k, b) ∈ l := by
  obtain ⟨front, back, rfl, -⟩ := List.lookup_eq_some_iff.mp h
  exact List.mem_append_right _ (.head _)

theorem lookup_of_mem (hkeys : (l.map Prod.fst).Nodup) (h : (k, b) ∈ l) : l.lookup k = some b := by
  obtain ⟨front, back, rfl⟩ := List.append_of_mem h
  refine List.lookup_eq_some_iff.mpr ⟨front, back, rfl, ?_⟩
  intro entry hentry
  rw [List.map_append, List.nodup_append] at hkeys
  have hne := hkeys.2.2 entry.1 (List.mem_map_of_mem hentry) k (.head _)
  exact bne_iff_ne.mpr hne.symm

theorem lookup_eq_some_iff (hkeys : (l.map Prod.fst).Nodup) : l.lookup k = some b ↔ (k, b) ∈ l :=
  ⟨mem_of_lookup, lookup_of_mem hkeys⟩

/-- Reading from the back gives the same. -/
theorem lookup_reverse_eq_some_iff (hkeys : (l.map Prod.fst).Nodup) :
    l.reverse.lookup k = some b ↔ (k, b) ∈ l := by
  have hreverse : (l.reverse.map Prod.fst).Nodup := by
    rw [List.map_reverse, List.nodup_reverse]
    exact hkeys
  rw [lookup_eq_some_iff hreverse, List.mem_reverse]

/-- **The answers tell the list up to its order.** -/
theorem perm_iff_lookup_reverse (hs : (s.map Prod.fst).Nodup) (ht : (t.map Prod.fst).Nodup) :
    s.Perm t ↔ ∀ k, s.reverse.lookup k = t.reverse.lookup k := by
  rw [List.perm_ext_iff_of_nodup hs.of_map ht.of_map]
  constructor
  · intro h k
    refine Option.ext fun b => ?_
    rw [lookup_reverse_eq_some_iff hs, lookup_reverse_eq_some_iff ht]
    exact h (k, b)
  · rintro h ⟨k, b⟩
    rw [← lookup_reverse_eq_some_iff hs, ← lookup_reverse_eq_some_iff ht, h k]

end NestAmqp.Lib.AssocList
