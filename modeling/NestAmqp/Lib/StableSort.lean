/-
# NestAmqp.Lib.StableSort — what a stable sort returns, whichever algorithm it is.

Under a total preorder two entries are tied when each may stand before the other.  A stable sort puts a list
in order and leaves tied entries in the order they came in.  That says what it returns: any two stable sorts
agree, and insertion sort is one.
-/
import Mathlib.Data.List.Sort

namespace NestAmqp.Lib

variable {α : Type} {r : α → α → Prop} [DecidableRel r]

/-- Each of the two may stand before the other. -/
def Tied (r : α → α → Prop) (a b : α) : Prop := r a b ∧ r b a

instance (a b : α) : Decidable (Tied r a b) := inferInstanceAs (Decidable (r a b ∧ r b a))

/-- `sorted` is `entries` in order, tied entries as they came. -/
structure StablySorts (r : α → α → Prop) [DecidableRel r] (entries sorted : List α) : Prop where
  perm : sorted.Perm entries
  ordered : sorted.Pairwise r
  stable : ∀ a, sorted.filter (fun b => Tied r a b) = entries.filter (fun b => Tied r a b)

section Preorder

variable [Std.Total r] [IsTrans α r]

omit [DecidableRel r] [IsTrans α r] in
theorem tied_refl (a : α) : Tied r a a := ⟨refl a, refl a⟩

omit [Std.Total r] in
/-- Entries that are tied with one another are in order as they are. -/
theorem pairwise_filter_tied (a : α) (entries : List α) :
    (entries.filter (fun b => Tied r a b)).Pairwise r := by
  refine List.pairwise_of_forall_mem_list fun b hb c hc => ?_
  have hab : Tied r a b := of_decide_eq_true (List.mem_filter.mp hb).2
  have hac : Tied r a c := of_decide_eq_true (List.mem_filter.mp hc).2
  exact IsTrans.trans _ _ _ hab.2 hac.1

theorem stablySorts_insertionSort (entries : List α) : StablySorts r entries (entries.insertionSort r) where
  perm := List.perm_insertionSort r entries
  ordered := List.pairwise_insertionSort r entries
  stable a := by
    have hsub : (entries.filter (fun b => Tied r a b)).Sublist (entries.insertionSort r) :=
      List.sublist_insertionSort (pairwise_filter_tied a entries) List.filter_sublist
    have hfiltered := hsub.filter (fun b => Tied r a b)
    rw [List.filter_filter] at hfiltered
    simp only [Bool.and_self] at hfiltered
    refine (hfiltered.eq_of_length ?_).symm
    exact ((List.perm_insertionSort r entries).filter _).length_eq.symm

omit [IsTrans α r] in
/-- Two stable sorts of the same entries begin with the same one: each first entry may stand before the
other, so they are tied, and the tied entries come in the same order. -/
theorem StablySorts.head_eq {a b : α} {entries l l' : List α} (h : StablySorts r entries (a :: l))
    (h' : StablySorts r entries (b :: l')) : a = b := by
  have hmem : b ∈ a :: l := (h.perm.trans h'.perm.symm).mem_iff.mpr (.head _)
  have hmem' : a ∈ b :: l' := (h.perm.trans h'.perm.symm).mem_iff.mp (.head _)
  have hab : r a b := by
    rcases List.mem_cons.mp hmem with rfl | hmem
    · exact refl b
    · exact (List.pairwise_cons.mp h.ordered).1 b hmem
  have hba : r b a := by
    rcases List.mem_cons.mp hmem' with rfl | hmem'
    · exact refl a
    · exact (List.pairwise_cons.mp h'.ordered).1 a hmem'
  have hstable := (h.stable a).trans (h'.stable a).symm
  rw [List.filter_cons, if_pos (decide_eq_true (tied_refl a)), List.filter_cons,
    if_pos (decide_eq_true ⟨hab, hba⟩)] at hstable
  exact (List.cons.inj hstable).1

omit [IsTrans α r] in
/-- **Stable sorts agree.** -/
theorem StablySorts.unique {entries sorted sorted' : List α} (h : StablySorts r entries sorted)
    (h' : StablySorts r entries sorted') : sorted = sorted' := by
  induction sorted generalizing sorted' entries with
  | nil => exact (List.nil_perm.mp (h.perm.trans h'.perm.symm)).symm
  | cons a sorted ih =>
      cases sorted' with
      | nil => exact (List.perm_nil.mp (h.perm.trans h'.perm.symm))
      | cons b sorted' =>
          obtain rfl := h.head_eq h'
          have hperm : sorted'.Perm sorted := (List.perm_cons a).mp (h'.perm.trans h.perm.symm)
          have hself : StablySorts r sorted sorted :=
            ⟨.refl _, (List.pairwise_cons.mp h.ordered).2, fun _ => rfl⟩
          refine congrArg (a :: ·) (ih hself ⟨hperm, (List.pairwise_cons.mp h'.ordered).2, fun c => ?_⟩)
          have hstable := (h'.stable c).trans (h.stable c).symm
          rw [List.filter_cons, List.filter_cons] at hstable
          split at hstable
          · exact (List.cons.inj hstable).2
          · exact hstable

/-- **What a stable sort returns** is what insertion sort returns. -/
theorem stablySorts_iff {entries sorted : List α} :
    StablySorts r entries sorted ↔ sorted = entries.insertionSort r := by
  constructor
  · exact fun h => h.unique (stablySorts_insertionSort entries)
  · rintro rfl
    exact stablySorts_insertionSort entries

end Preorder

end NestAmqp.Lib
