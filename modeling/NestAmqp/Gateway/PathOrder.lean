/-
# NestAmqp.Gateway.PathOrder — the order in which stored paths are exported.

`comparePaths` goes through two paths segment by segment: where the kinds differ, static comes before
parametric before wildcard; where two static segments differ, the texts decide; a prefix comes before what
it is a prefix of.  It compares as one list of keys with another, so it is a total preorder, and `orderPaths`
leaves no path before one that it compares above.
-/
import Mathlib.Data.List.Lex
import Mathlib.Data.Prod.Lex
import NestAmqp.Js.Value
import NestAmqp.Lib.StableSort

namespace NestAmqp.Gateway

open NestAmqp.Js NestAmqp.Lib

/-! ## Segments -/

/-- A segment of a path or of a URL. -/
abbrev Segment := { s : String // s ≠ "" ∧ '/' ∉ s.toList }

/-- A piece of a text between two slashes, unless it is empty. -/
def toSegment (s : String) : Option Segment := if h : s ≠ "" ∧ '/' ∉ s.toList then some ⟨s, h⟩ else none

/-- `path.split('/').filter(Boolean)`. -/
def splitSegments (path : String) : List Segment := (split path '/').filterMap toSegment

/-- `segment.startsWith(':')`. -/
def startsParam (segment : String) : Bool := segment.toList.head? == some ':'

/-- Static before parametric before wildcard. -/
def segmentKind (segment : String) : Nat :=
  if startsParam segment then 1 else if segment.toList.contains '*' then 2 else 0

/-- `a < b` of two texts. -/
def textBefore (a b : String) : Bool := codeUnits a < codeUnits b

/-! ## Comparing paths -/

/-- The loop of `comparePaths`. -/
def compareSegments : List Segment → List Segment → Int
  | [], [] => 0
  | [], _ :: _ => -1
  | _ :: _, [] => 1
  | a :: as, b :: bs =>
      let ka := segmentKind a
      let kb := segmentKind b
      if ka ≠ kb then (ka : Int) - kb
      else if ka = 0 ∧ a.1 ≠ b.1 then if textBefore a b then -1 else 1
      else compareSegments as bs

/-- `comparePaths(a, b)`. -/
def comparePaths (a b : String) : Int := compareSegments (splitSegments a) (splitSegments b)

/-- `orderPaths(paths)`, for records with a path. -/
def orderPaths {τ : Type} (path : τ → String) (paths : List τ) : List τ :=
  paths.insertionSort fun a b => comparePaths (path a) (path b) ≤ 0

/-! ## It is an order on keys -/

/-- What of a segment is compared: its kind, and its text when it is static. -/
def segmentKey (segment : Segment) : Nat ×ₗ List Nat :=
  toLex (segmentKind segment, if segmentKind segment = 0 then codeUnits segment else [])

theorem segmentKey_lt_iff (a b : Segment) : segmentKey a < segmentKey b ↔
    segmentKind a < segmentKind b ∨
      segmentKind a = segmentKind b ∧ segmentKind a = 0 ∧ textBefore a b = true := by
  unfold segmentKey textBefore
  rw [Prod.Lex.toLex_lt_toLex]
  refine or_congr_right (and_congr_right fun hkind => ?_)
  dsimp only at hkind ⊢
  rw [← hkind]
  by_cases hstatic : segmentKind a = 0
  · simp [hstatic]
  · simp [hstatic]

theorem segmentKey_eq_iff (a b : Segment) : segmentKey a = segmentKey b ↔
    segmentKind a = segmentKind b ∧ (segmentKind a = 0 → a.1 = b.1) := by
  unfold segmentKey
  rw [toLex_inj, Prod.mk.injEq]
  refine and_congr_right fun hkind => ?_
  rw [← hkind]
  by_cases hstatic : segmentKind a = 0
  · simp [hstatic, codeUnits_injective.eq_iff]
  · simp [hstatic]

/-- Of two different texts one comes first. -/
theorem textBefore_swap {a b : String} (h : a ≠ b) : textBefore b a = !textBefore a b := by
  unfold textBefore
  have hne : codeUnits a ≠ codeUnits b := fun heq => h (codeUnits_injective heq)
  by_cases hlt : codeUnits a < codeUnits b
  · simp [hlt, not_lt_of_gt hlt]
  · simp [hlt, lt_of_le_of_ne (not_lt.mp hlt) hne.symm]

/-- **The comparison of two paths is that of their keys.** -/
theorem compareSegments_pos_iff (as bs : List Segment) :
    0 < compareSegments as bs ↔ bs.map segmentKey < as.map segmentKey := by
  induction as generalizing bs with
  | nil => cases bs <;> simp [compareSegments]
  | cons a as ih =>
      cases bs with
      | nil => simp [compareSegments]
      | cons b bs =>
          rw [List.map_cons, List.map_cons, List.cons_lt_cons_iff, segmentKey_lt_iff, segmentKey_eq_iff,
            ← ih bs,
            compareSegments]
          split
          next hkind => omega
          next hkind =>
            have hkind : segmentKind a = segmentKind b := not_not.mp hkind
            split
            next hstatic =>
              -- two static segments: their texts decide
              rw [textBefore_swap hstatic.2]
              cases textBefore a b <;> simp [← hkind, hstatic.1, Ne.symm hstatic.2]
            next hsame =>
              -- nothing is decided here
              have heq : segmentKind a = 0 → b.1 = a.1 := fun h => by_contra fun hne => hsame ⟨h, Ne.symm hne⟩
              have hnot : segmentKind a = 0 → textBefore b a = false := by
                intro h
                rw [heq h]
                exact decide_eq_false (lt_irrefl _)
              rw [← hkind]
              constructor
              · exact fun hrest => .inr ⟨⟨rfl, heq⟩, hrest⟩
              · rintro ((hlt | ⟨-, hstatic, hbefore⟩) | ⟨-, hrest⟩)
                · exact absurd hlt (lt_irrefl _)
                · rw [hnot hstatic] at hbefore
                  cases hbefore
                · exact hrest

theorem comparePaths_nonpos_iff (a b : String) :
    comparePaths a b ≤ 0 ↔ (splitSegments a).map segmentKey ≤ (splitSegments b).map segmentKey := by
  rw [← not_lt, ← not_lt (α := List _), ← compareSegments_pos_iff]
  rfl

/-- **Compared the other way round**, two paths have the opposite result. -/
theorem compareSegments_swap (as bs : List Segment) : compareSegments bs as = -compareSegments as bs := by
  induction as generalizing bs with
  | nil => cases bs <;> rfl
  | cons a as ih =>
      cases bs with
      | nil => rfl
      | cons b bs =>
          rw [compareSegments, compareSegments]
          by_cases hkind : segmentKind a = segmentKind b
          · simp only [hkind, ne_eq, not_true, if_false]
            by_cases hstatic : segmentKind b = 0 ∧ a.1 ≠ b.1
            · have hstatic' : segmentKind b = 0 ∧ b.1 ≠ a.1 := ⟨hstatic.1, Ne.symm hstatic.2⟩
              simp only [if_pos hstatic, if_pos hstatic', textBefore_swap hstatic.2]
              cases textBefore a b <;> rfl
            · have hstatic' : ¬ (segmentKind b = 0 ∧ b.1 ≠ a.1) := fun h => hstatic ⟨h.1, Ne.symm h.2⟩
              simp only [if_neg hstatic, if_neg hstatic', ih bs]
          · have hkind' : segmentKind b ≠ segmentKind a := Ne.symm hkind
            simp only [ne_eq, hkind, hkind', not_false_iff, if_true]
            omega

theorem comparePaths_swap (a b : String) : comparePaths b a = -comparePaths a b := compareSegments_swap _ _

/-- Two paths have the same kinds and the same static segments, position by position. -/
def SameSegments (as bs : List Segment) : Prop :=
  List.Forall₂ (fun a b : Segment => segmentKind a = segmentKind b ∧ (segmentKind a = 0 → a.1 = b.1)) as bs

theorem sameSegments_iff (as bs : List Segment) :
    SameSegments as bs ↔ as.map segmentKey = bs.map segmentKey := by
  induction as generalizing bs with
  | nil => cases bs <;> simp [SameSegments]
  | cons a as ih =>
      cases bs with
      | nil => simp [SameSegments]
      | cons b bs =>
          rw [List.map_cons, List.map_cons, List.cons.injEq, segmentKey_eq_iff, ← ih bs]
          unfold SameSegments
          exact List.forall₂_cons

/-- **Ties** are the paths with the same keys. -/
theorem compareSegments_eq_zero_iff (as bs : List Segment) : compareSegments as bs = 0 ↔
    SameSegments as bs := by
  have hswap := compareSegments_swap as bs
  have hpos := compareSegments_pos_iff as bs
  have hneg := compareSegments_pos_iff bs as
  rw [sameSegments_iff]
  constructor
  · intro hzero
    refine le_antisymm (not_lt.mp fun hlt => ?_) (not_lt.mp fun hlt => ?_)
    · have := hpos.mpr hlt
      omega
    · have := hneg.mpr hlt
      omega
  · intro heq
    have hnot := mt hpos.mp (heq ▸ lt_irrefl _)
    have hnot' := mt hneg.mp (heq ▸ lt_irrefl _)
    omega

/-! ## Sorting by it -/

section Sorting

variable {τ : Type} (path : τ → String)

instance : Std.Total fun a b : τ => comparePaths (path a) (path b) ≤ 0 where
  total a b := by
    rw [comparePaths_nonpos_iff, comparePaths_nonpos_iff]
    exact le_total _ _

instance : IsTrans τ fun a b => comparePaths (path a) (path b) ≤ 0 where
  trans a b c := by
    rw [comparePaths_nonpos_iff, comparePaths_nonpos_iff, comparePaths_nonpos_iff]
    exact le_trans

/-- **What comes first in an ordered list does not compare above what comes later.** -/
theorem pairwise_orderPaths (paths : List τ) :
    (orderPaths path paths).Pairwise fun a b => comparePaths (path a) (path b) ≤ 0 :=
  List.pairwise_insertionSort _ paths

theorem mem_orderPaths {τ : Type} {path : τ → String} {paths : List τ} {a : τ} :
    a ∈ orderPaths path paths ↔ a ∈ paths := List.mem_insertionSort _

theorem tied_iff {a b : τ} : Tied (fun a b => comparePaths (path a) (path b) ≤ 0) a b ↔
    comparePaths (path a) (path b) = 0 := by
  have hswap := comparePaths_swap (path a) (path b)
  show comparePaths (path a) (path b) ≤ 0 ∧ comparePaths (path b) (path a) ≤ 0 ↔ _
  omega

/-- **The comparator is lawful**: antisymmetric in sign, transitive and total, with the ties it says; so what
`orderPaths` returns is the one list that a stable sort by it can return. -/
theorem comparePaths_lawful :
    (∀ a b, (comparePaths a b).sign = -(comparePaths b a).sign) ∧
    (∀ a b c, comparePaths a b ≤ 0 → comparePaths b c ≤ 0 → comparePaths a c ≤ 0) ∧
    (∀ a b, comparePaths a b ≤ 0 ∨ comparePaths b a ≤ 0) ∧
    (∀ a b, comparePaths a b = 0 ↔ SameSegments (splitSegments a) (splitSegments b)) ∧
    ∀ {τ : Type} (path : τ → String) (paths ordered : List τ), ordered = orderPaths path paths ↔
      ordered.Perm paths ∧
      (ordered.Pairwise fun a b => comparePaths (path a) (path b) ≤ 0) ∧
      ∀ a, ordered.filter (fun b => comparePaths (path a) (path b) = 0) =
        paths.filter (fun b => comparePaths (path a) (path b) = 0) := by
  refine ⟨fun a b => ?_, fun a b c => ?_, fun a b => ?_, fun a b => ?_, fun path paths ordered => ?_⟩
  · rw [comparePaths_swap b a, Int.sign_neg]
  · exact IsTrans.trans (r := fun a b => comparePaths a b ≤ 0) a b c
  · exact Std.Total.total (r := fun a b => comparePaths a b ≤ 0) a b
  · exact compareSegments_eq_zero_iff _ _
  · unfold orderPaths
    rw [← stablySorts_iff]
    constructor
    · intro h
      refine ⟨h.perm, h.ordered, fun a => ?_⟩
      simpa only [tied_iff] using h.stable a
    · rintro ⟨hperm, hordered, hstable⟩
      refine ⟨hperm, hordered, fun a => ?_⟩
      simpa only [tied_iff] using hstable a

end Sorting

end NestAmqp.Gateway
