/-
# NestAmqp.Lib.Plans — calls in series and side by side.

A plan says which calls wait for which: `seq` is `await p; await q`, `both` is `Promise.all`.  It runs in
every interleaving of what is side by side.  Calls may need what other calls give; a plan meets the needs
in all its interleavings exactly when every call finds what it needs in what was there and in what stands
before it in series.
-/
import Mathlib.Data.Set.Lattice

namespace NestAmqp.Lib

/-- Calls, in series and side by side. -/
inductive Plan (ε : Type) where
  | done
  | call (e : ε)
  | seq (p q : Plan ε)
  | both (p q : Plan ε)

/-- The third list takes the first and the second as they come. -/
inductive Interleaves {ε : Type} : List ε → List ε → List ε → Prop
  | nil : Interleaves [] [] []
  | left {e : ε} {l r t : List ε} : Interleaves l r t → Interleaves (e :: l) r (e :: t)
  | right {e : ε} {l r t : List ε} : Interleaves l r t → Interleaves l (e :: r) (e :: t)

namespace Interleaves

variable {ε : Type}

theorem nil_left (r : List ε) : Interleaves [] r r := by
  induction r with
  | nil => exact .nil
  | cons e r ih => exact .right ih

theorem append (l r : List ε) : Interleaves l r (l ++ r) := by
  induction l with
  | nil => exact nil_left r
  | cons e l ih => exact .left ih

theorem symm {l r t : List ε} (h : Interleaves l r t) : Interleaves r l t := by
  induction h with
  | nil => exact .nil
  | left _ ih => exact .right ih
  | right _ ih => exact .left ih

theorem perm {l r t : List ε} (h : Interleaves l r t) : t.Perm (l ++ r) := by
  induction h with
  | nil => exact List.Perm.refl _
  | left _ ih => exact ih.cons _
  | right _ ih => exact (ih.cons _).trans List.perm_middle.symm

end Interleaves

namespace Plan

variable {ε φ : Type}

/-- `for … await`. -/
def series (ps : List (Plan ε)) : Plan ε := ps.foldr seq done

/-- `Promise.all`. -/
def all (ps : List (Plan ε)) : Plan ε := ps.foldr both done

/-- The calls of the plan. -/
def calls : Plan ε → List ε
  | done => []
  | call e => [e]
  | seq p q => p.calls ++ q.calls
  | both p q => p.calls ++ q.calls

/-- The orders in which the calls of the plan may be performed. -/
inductive Runs : Plan ε → List ε → Prop
  | done : Runs done []
  | call (e : ε) : Runs (call e) [e]
  | seq {p q : Plan ε} {l r : List ε} : Runs p l → Runs q r → Runs (seq p q) (l ++ r)
  | both {p q : Plan ε} {l r t : List ε} : Runs p l → Runs q r → Interleaves l r t → Runs (both p q) t

/-- Every order is a permutation of the calls. -/
theorem Runs.perm {p : Plan ε} {t : List ε} (h : p.Runs t) : t.Perm p.calls := by
  induction h with
  | done => exact List.Perm.refl _
  | call e => exact List.Perm.refl _
  | seq _ _ hp hq => exact hp.append hq
  | both _ _ hmix hp hq => exact hmix.perm.trans (hp.append hq)

/-- The order in which the plan is written is one of them. -/
theorem runs_calls (p : Plan ε) : p.Runs p.calls := by
  induction p with
  | done => exact .done
  | call e => exact .call e
  | seq p q hp hq => exact .seq hp hq
  | both p q hp hq => exact .both hp hq (.append _ _)

@[simp] theorem calls_series (ps : List (Plan ε)) : (series ps).calls = ps.flatMap calls := by
  induction ps with
  | nil => rfl
  | cons p ps ih => exact congrArg (p.calls ++ ·) ih

@[simp] theorem calls_all (ps : List (Plan ε)) : (all ps).calls = ps.flatMap calls := by
  induction ps with
  | nil => rfl
  | cons p ps ih => exact congrArg (p.calls ++ ·) ih

/-! ## Needs -/

section Needs

variable (needs gives : ε → Set φ)

/-- All that the calls give. -/
def given (t : List ε) : Set φ := {x | ∃ e ∈ t, x ∈ gives e}

/-- Performed in this order, every call finds what it needs. -/
def MetBy (there : Set φ) : List ε → Prop
  | [] => True
  | e :: t => needs e ⊆ there ∧ MetBy (there ∪ gives e) t

/-- Every call of the plan finds what it needs in what stands before it in series. -/
def Met (there : Set φ) : Plan ε → Prop
  | done => True
  | call e => needs e ⊆ there
  | seq p q => p.Met there ∧ q.Met (there ∪ given gives p.calls)
  | both p q => p.Met there ∧ q.Met there

variable {needs gives} {x : φ} {there there' : Set φ}

@[simp] theorem given_nil : given gives [] = ∅ := by
  ext x
  simp [given]

theorem given_cons (e : ε) (t : List ε) : given gives (e :: t) = gives e ∪ given gives t := by
  ext x
  simp [given]

theorem given_append (l r : List ε) : given gives (l ++ r) = given gives l ∪ given gives r := by
  ext x
  simp [given, or_and_right, exists_or]

theorem given_perm {l r : List ε} (h : l.Perm r) : given gives l = given gives r := by
  ext x
  exact exists_congr fun e => and_congr_left fun _ => h.mem_iff

theorem MetBy.mono {t : List ε} (h : MetBy needs gives there t) (hsub : there ⊆ there') :
    MetBy needs gives there' t := by
  induction t generalizing there there' with
  | nil => trivial
  | cons e t ih => exact ⟨h.1.trans hsub, ih h.2 (Set.union_subset_union_left _ hsub)⟩

theorem metBy_append {l r : List ε} : MetBy needs gives there (l ++ r) ↔
    MetBy needs gives there l ∧ MetBy needs gives (there ∪ given gives l) r := by
  induction l generalizing there with
  | nil =>
      rw [given_nil, Set.union_empty]
      exact ⟨fun h => ⟨trivial, h⟩, And.right⟩
  | cons e l ih =>
      rw [given_cons, ← Set.union_assoc]
      exact (and_congr_right fun _ => ih).trans and_assoc.symm

/-- Two orders that are met stay so when they are mixed. -/
theorem MetBy.interleave {l r t : List ε} (h : Interleaves l r t) (hl : MetBy needs gives there l)
    (hr : MetBy needs gives there r) : MetBy needs gives there t := by
  induction h generalizing there with
  | nil => trivial
  | left _ ih => exact ⟨hl.1, ih hl.2 (hr.mono Set.subset_union_left)⟩
  | right _ ih => exact ⟨hr.1, ih (hl.mono Set.subset_union_left) hr.2⟩

/-- **A plan meets its needs** in every order exactly when each call finds them before it in series. -/
theorem met_iff {p : Plan ε} : p.Met needs gives there ↔ ∀ t, p.Runs t → MetBy needs gives there t := by
  induction p generalizing there with
  | done =>
      refine iff_of_true trivial fun t ht => ?_
      cases ht
      trivial
  | call e =>
      constructor
      · intro h t ht
        cases ht
        exact ⟨h, trivial⟩
      · exact fun h => (h [e] (.call e)).1
  | seq p q hp hq =>
      constructor
      · rintro ⟨hfirst, hsecond⟩ t ht
        cases ht with
        | seq hl hr =>
            rw [metBy_append, given_perm hl.perm]
            exact ⟨hp.mp hfirst _ hl, hq.mp hsecond _ hr⟩
      · intro h
        have hboth : ∀ l r, p.Runs l → q.Runs r → MetBy needs gives there l ∧
            MetBy needs gives (there ∪ given gives p.calls) r := by
          intro l r hl hr
          rw [← given_perm hl.perm, ← metBy_append]
          exact h _ (.seq hl hr)
        exact ⟨hp.mpr fun l hl => (hboth l _ hl q.runs_calls).1,
          hq.mpr fun r hr => (hboth _ r p.runs_calls hr).2⟩
  | both p q hp hq =>
      constructor
      · rintro ⟨hleft, hright⟩ t ht
        cases ht with
        | both hl hr hmix => exact .interleave hmix (hp.mp hleft _ hl) (hq.mp hright _ hr)
      · intro h
        constructor
        · refine hp.mpr fun l hl => ?_
          exact (metBy_append.mp (h _ (.both hl q.runs_calls (.append _ _)))).1
        · refine hq.mpr fun r hr => ?_
          exact (metBy_append.mp (h _ (.both p.runs_calls hr (Interleaves.append _ _).symm))).1

@[simp] theorem met_call {e : ε} : (call e).Met needs gives there ↔ needs e ⊆ there := Iff.rfl

theorem met_all {ps : List (Plan ε)} : (all ps).Met needs gives there ↔ ∀ p ∈ ps, p.Met needs gives there := by
  induction ps with
  | nil => exact iff_of_true trivial (List.forall_mem_nil _)
  | cons p ps ih => exact (and_congr_right fun _ => ih).trans List.forall_mem_cons.symm

/-- In series, each finds what it needs in what the ones before it give. -/
theorem met_series_cons {p : Plan ε} {ps : List (Plan ε)} : (series (p :: ps)).Met needs gives there ↔
    p.Met needs gives there ∧ (series ps).Met needs gives (there ∪ given gives p.calls) := Iff.rfl

end Needs

end Plan

end NestAmqp.Lib
