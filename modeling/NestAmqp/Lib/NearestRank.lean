/-
# NestAmqp.Lib.NearestRank — percentiles by nearest rank.

The percentile `p` of a list is its least element that at least `p` percent of the list do not exceed.  In the
sorted list it stands at the rank `p / 100` of the length, rounded up.
-/
import Mathlib.Data.List.Sort
import Mathlib.Data.Rat.Floor
import Mathlib.Order.Bounds.Basic
import Mathlib.Tactic.Linarith

namespace NestAmqp.Lib

variable {α : Type} [LinearOrder α] {ds sorted : List α} {p : ℚ} {v : α}

/-- `v` is the nearest-rank percentile `p` of the list. -/
def NearestRank (p : ℚ) (ds : List α) (v : α) : Prop :=
  IsLeast {x | x ∈ ds ∧ p / 100 * ds.length ≤ ds.countP (· ≤ x)} v

/-- The order of the list does not matter. -/
theorem NearestRank.of_perm (hperm : sorted.Perm ds) (h : NearestRank p sorted v) : NearestRank p ds v := by
  unfold NearestRank at h ⊢
  simpa only [hperm.mem_iff, hperm.length_eq, hperm.countP_eq] using h

/-- A higher percentile is no smaller. -/
theorem NearestRank.mono {q : ℚ} {w : α} (hpq : p ≤ q) (hv : NearestRank p ds v)
    (hw : NearestRank q ds w) : v ≤ w := by
  refine hv.2 ⟨hw.1.1, le_trans ?_ hw.1.2⟩
  gcongr

/-- More than `i` elements of a sorted list do not exceed the one at `i`. -/
theorem lt_countP_of_sorted (hsorted : sorted.Pairwise (· ≤ ·)) {i : Nat} (hi : i < sorted.length) :
    i < sorted.countP (· ≤ sorted[i]) := by
  have htake : (sorted.take (i + 1)).countP (· ≤ sorted[i]) = i + 1 := by
    have hall : ∀ x ∈ sorted.take (i + 1), decide (x ≤ sorted[i]) = true := by
      intro x hx
      obtain ⟨j, hj, rfl⟩ := List.mem_iff_getElem.mp hx
      rw [List.length_take] at hj
      rw [List.getElem_take, decide_eq_true_iff]
      rcases Nat.lt_or_ge j i with hlt | hge
      · exact List.pairwise_iff_getElem.mp hsorted j i (by omega) hi hlt
      · obtain rfl : j = i := by omega
        exact le_refl _
    rw [List.countP_eq_length.mpr hall, List.length_take]
    omega
  have hle : (sorted.take (i + 1)).countP (· ≤ sorted[i]) ≤ sorted.countP (· ≤ sorted[i]) :=
    (List.take_sublist _ _).countP_le
  omega

/-- At most `i` elements of a sorted list are below the one at `i`. -/
theorem countP_le_of_sorted (hsorted : sorted.Pairwise (· ≤ ·)) {i : Nat} (hi : i < sorted.length) {x : α}
    (hx : x < sorted[i]) : sorted.countP (· ≤ x) ≤ i := by
  have hdrop : (sorted.drop i).countP (· ≤ x) = 0 := by
    refine List.countP_eq_zero.mpr fun y hy => ?_
    obtain ⟨j, hj, rfl⟩ := List.mem_iff_getElem.mp hy
    rw [List.length_drop] at hj
    rw [List.getElem_drop, decide_eq_true_iff, not_le]
    refine lt_of_lt_of_le hx ?_
    rcases Nat.eq_zero_or_pos j with rfl | hpos
    · exact le_refl _
    · exact List.pairwise_iff_getElem.mp hsorted i (i + j) hi (by omega) (by omega)
  calc sorted.countP (· ≤ x) = (sorted.take i).countP (· ≤ x) + (sorted.drop i).countP (· ≤ x) := by
        rw [← List.countP_append, List.take_append_drop]
    _ ≤ i := by
        rw [hdrop, Nat.add_zero]
        exact le_trans List.countP_le_length (List.length_take_le _ _)

/-- **The nearest rank** in a sorted list. -/
theorem nearestRank_of_sorted (hsorted : sorted.Pairwise (· ≤ ·)) {i : Nat} (hi : i < sorted.length)
    (hrank : ⌈p / 100 * sorted.length⌉ = (i : Int) + 1) : NearestRank p sorted sorted[i] := by
  have hceil (n : Nat) : p / 100 * sorted.length ≤ n ↔ i < n := by
    rw [← Int.cast_natCast n, ← Int.ceil_le, hrank]
    omega
  refine ⟨⟨List.getElem_mem hi, (hceil _).mpr (lt_countP_of_sorted hsorted hi)⟩, ?_⟩
  rintro x ⟨-, hx⟩
  refine not_lt.mp fun hlt => ?_
  have hsmall := countP_le_of_sorted hsorted hi hlt
  have hlarge := (hceil _).mp hx
  omega

end NestAmqp.Lib
