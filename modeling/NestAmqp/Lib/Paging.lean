/-
# NestAmqp.Lib.Paging — walking the pages of a list that grows.

Each page is read off the list as it stands at that moment.  While the list only grows at its end, the
pages read so far are a sublist of it, so none is shown twice, and they hold everything the list began
with, up to where the walk has come.
-/
import Mathlib.Data.List.Infix
import Mathlib.Data.List.Range

namespace NestAmqp.Lib.Paging

variable {τ : Type}

/-- The page of the list, counted from zero. -/
def pageOf (limit : Nat) (list : List τ) (i : Nat) : List τ := (list.take ((i + 1) * limit)).drop (i * limit)

/-- The pages of a walk, each read when its turn comes. -/
def walk (limit : Nat) (lists : Nat → List τ) (n : Nat) : List τ :=
  (List.range n).flatMap fun i => pageOf limit (lists i) i

variable {limit : Nat} {lists : Nat → List τ}

theorem walk_succ (n : Nat) : walk limit lists (n + 1) = walk limit lists n ++ pageOf limit (lists n) n := by
  unfold walk
  rw [List.range_succ, List.flatMap_append, List.flatMap_singleton]

/-- A page continues the pages before it. -/
theorem take_append_pageOf (list : List τ) (i : Nat) :
    list.take (i * limit) ++ pageOf limit list i = list.take ((i + 1) * limit) := by
  have hbefore : list.take (i * limit) = (list.take ((i + 1) * limit)).take (i * limit) := by
    rw [List.take_take, Nat.min_eq_left (Nat.mul_le_mul_right limit (Nat.le_succ i))]
  unfold pageOf
  rw [hbefore, List.take_append_drop]

/-- Nothing is shown twice, and in the order of the list. -/
theorem walk_sublist (hgrow : ∀ i, lists i <+: lists (i + 1)) (n : Nat) :
    (walk limit lists n).Sublist ((lists n).take (n * limit)) := by
  induction n with
  | zero =>
      rw [Nat.zero_mul]
      exact List.Sublist.refl _
  | succ n ih =>
      rw [walk_succ]
      have hpage := ih.append (List.Sublist.refl (pageOf limit (lists n) n))
      rw [take_append_pageOf] at hpage
      exact hpage.trans ((hgrow n).take _).sublist

theorem prefix_of_le (hgrow : ∀ i, lists i <+: lists (i + 1)) (n : Nat) : lists 0 <+: lists n := by
  induction n with
  | zero => exact List.prefix_rfl
  | succ n ih => exact ih.trans (hgrow n)

/-- Nothing the list began with is left out. -/
theorem mem_walk (hgrow : ∀ i, lists i <+: lists (i + 1)) {x : τ} {n : Nat}
    (hx : x ∈ (lists 0).take (n * limit)) : x ∈ walk limit lists n := by
  induction n with
  | zero =>
      rw [Nat.zero_mul] at hx
      exact hx
  | succ n ih =>
      rw [← take_append_pageOf] at hx
      rw [walk_succ]
      rcases List.mem_append.mp hx with hbefore | hpage
      · exact List.mem_append_left _ (ih hbefore)
      · have hnow : pageOf limit (lists 0) n <+: pageOf limit (lists n) n :=
          ((prefix_of_le hgrow n).take _).drop _
        exact List.mem_append_right _ (hnow.subset hpage)

end NestAmqp.Lib.Paging
