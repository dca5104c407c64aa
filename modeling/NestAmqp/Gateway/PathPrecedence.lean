/-
# NestAmqp.Gateway.PathPrecedence — which of the ordered paths hide which.

A segment of a path is static text, `:name`, which takes exactly one segment of a URL, or `*name`, which takes
one or more.  Express takes the first route that matches, and `comparePaths` ranks segments so that it meets the
most specific one first.  Until a `*name` comes the two paths are aligned, and only a `:name` of the wider path
over a `*name` of the narrower one misleads the ranks.  Behind a common `*name` nothing is aligned any more, and
whatever puts the wider path first hides the narrower one.
-/
import NestAmqp.Lib.Topic
import NestAmqp.Proxy.RouteOrder

namespace NestAmqp.Gateway

open NestAmqp.Js NestAmqp.Lib
open NestAmqp.Lib.Topic
open NestAmqp.Proxy

/-! ## URLs -/

/-- `*name`, or `*` alone. -/
def isWildcard (s : String) : Bool :=
  match s.toList with
  | '*' :: cs => cs.all fun c => c.isAlphanum || c == '_'
  | _ => false

/-- What a segment takes of a URL: its own text, any segment, or any segment and what follows it. -/
def segmentTokens (s : Segment) : List (Token Segment) :=
  if isParam s then [.star] else if isWildcard s then [.star, .hash] else [.word s]

/-- The URLs of a path, as a pattern over their segments. -/
def urlPattern (segments : List Segment) : List (Token Segment) := segments.flatMap segmentTokens

/-- Static text, `:name` or `*name`. -/
def PlainSegment (s : Segment) : Prop := isParam s ∨ isWildcard s ∨ isStatic s

/-- `p` matches some of the URLs that `q` matches, but not all of them. -/
def Narrower (p q : String) : Prop :=
  StrictlyWithin (urlPattern (splitSegments p)) (urlPattern (splitSegments q))

/-- `wide` is put before `narrow` where they first differ: it ends there, or has a segment of a lower kind, or
the static segment whose text comes first. -/
inductive Ahead : List Segment → List Segment → Prop
  | ends {a : Segment} {narrow : List Segment} : Ahead [] (a :: narrow)
  | kind {b a : Segment} {wide narrow : List Segment} (hkind : segmentKind b < segmentKind a) :
      Ahead (b :: wide) (a :: narrow)
  | text {b a : Segment} {wide narrow : List Segment} (hb : segmentKind b = 0) (ha : segmentKind a = 0)
      (hbefore : textBefore b a = true) : Ahead (b :: wide) (a :: narrow)
  | later {b a : Segment} {wide narrow : List Segment} (hkind : segmentKind b = segmentKind a)
      (hsame : segmentKind b = 0 → b.1 = a.1) (hrest : Ahead wide narrow) : Ahead (b :: wide) (a :: narrow)

/-- Where two paths first differ, `wide` has a `:name` and `narrow` a `*name`; or they have had a `*name` in
common, and `wide` is put first. -/
inductive Misled : List Segment → List Segment → Prop
  | param {b a : Segment} {wide narrow : List Segment} (hb : segmentKind b = 1) (ha : segmentKind a = 2) :
      Misled (b :: wide) (a :: narrow)
  | behind {b a : Segment} {wide narrow : List Segment} (hb : segmentKind b = 2) (ha : segmentKind a = 2)
      (hrest : Ahead wide narrow) : Misled (b :: wide) (a :: narrow)
  | later {b a : Segment} {wide narrow : List Segment} (hkind : segmentKind b = segmentKind a)
      (hsame : segmentKind b = 0 → b.1 = a.1) (hrest : Misled wide narrow) : Misled (b :: wide) (a :: narrow)

/-! ## The ranks -/

section Ranks

variable {a b : Segment} {wide narrow : List Segment}

/-- A plain segment: its kind, and what it takes. -/
theorem plainSegment_cases (h : PlainSegment a) :
    (segmentKind a = 0 ∧ segmentTokens a = [.word a]) ∨ (segmentKind a = 1 ∧ segmentTokens a = [.star]) ∨
      (segmentKind a = 2 ∧ segmentTokens a = [.star, .hash]) := by
  unfold segmentTokens
  by_cases hparam : isParam a = true
  · rcases plain_cases (.inl hparam) with ⟨hkind, -⟩ | ⟨-, hpiece⟩
    · exact .inr (.inl ⟨hkind, if_pos hparam⟩)
    · -- a parameter is no literal
      have hstarts : startsParam a = true := by
        unfold isParam at hparam
        unfold startsParam
        split at hparam
        next c cs htext => rw [htext]; rfl
        next => cases hparam
      unfold pieceOf at hpiece
      rw [hstarts] at hpiece
      cases hpiece
  · rw [if_neg hparam]
    by_cases hwild : isWildcard a = true
    · refine .inr (.inr ⟨?_, if_pos hwild⟩)
      unfold isWildcard at hwild
      split at hwild
      next cs htext =>
        unfold segmentKind startsParam
        rw [htext]
        simp
      next => cases hwild
    · have hstatic : isStatic a = true := (h.resolve_left hparam).resolve_left hwild
      have hkind : segmentKind a = 0 := by
        unfold segmentKind startsParam
        unfold isStatic at hstatic
        rw [List.all_eq_true] at hstatic
        have hstar : a.1.toList.contains '*' = false := by
          by_contra hmem
          have hmem : '*' ∈ a.1.toList := by simpa using hmem
          exact absurd (hstatic '*' hmem) (by decide)
        have hcolon : (a.1.toList.head? == some ':') = false := by
          by_contra hmem
          have hmem : a.1.toList.head? = some ':' := by simpa using hmem
          exact absurd (hstatic ':' (List.mem_of_mem_head? hmem)) (by decide)
        rw [hstar, hcolon]
        rfl
      exact .inl ⟨hkind, if_neg hwild⟩

theorem urlPattern_cons (a : Segment) (narrow : List Segment) :
    urlPattern (a :: narrow) = segmentTokens a ++ urlPattern narrow := List.flatMap_cons

/-- **What is put first**, said where the paths differ. -/
theorem ahead_iff (wide narrow : List Segment) : compareSegments wide narrow < 0 ↔ Ahead wide narrow := by
  constructor
  · intro h
    induction wide generalizing narrow with
    | nil =>
        cases narrow with
        | nil => exact absurd h (lt_irrefl 0)
        | cons a narrow => exact .ends
    | cons b wide ih =>
        cases narrow with
        | nil => exact absurd h (show ¬ (1 : Int) < 0 by decide)
        | cons a narrow =>
            rw [compareSegments] at h
            by_cases hkind : segmentKind b = segmentKind a
            · simp only [hkind, ne_eq, not_true, if_false] at h
              by_cases hstatic : segmentKind a = 0 ∧ b.1 ≠ a.1
              · rw [if_pos hstatic] at h
                refine .text (hkind.trans hstatic.1) hstatic.1 (by_contra fun hno => ?_)
                rw [if_neg hno] at h
                exact absurd h (by decide)
              · rw [if_neg hstatic] at h
                exact .later hkind (fun hb => by_contra fun hne => hstatic ⟨hkind ▸ hb, hne⟩) (ih narrow h)
            · simp only [ne_eq, hkind, not_false_iff, if_true] at h
              exact .kind (by omega)
  · intro h
    induction h with
    | ends => exact (by decide : (-1 : Int) < 0)
    | kind hkind =>
        rw [compareSegments]
        simp only [ne_eq, hkind.ne, not_false_iff, if_true]
        omega
    | text hb ha hbefore =>
        rename_i b a wide narrow
        have hne : b.1 ≠ a.1 := by
          intro heq
          rw [heq] at hbefore
          exact absurd (of_decide_eq_true hbefore) (lt_irrefl _)
        rw [compareSegments]
        simp only [hb, ha, ne_eq, not_true, if_false, hne, not_false_iff, and_self, if_true, hbefore]
        decide
    | later hkind hsame hrest ih =>
        rw [compareSegments]
        simp only [hkind, ne_eq, not_true, if_false]
        rw [if_neg fun hdiffer => hdiffer.2 (hsame (hkind ▸ hdiffer.1))]
        exact ih

theorem Misled.ahead (h : Misled wide narrow) : Ahead wide narrow := by
  induction h with
  | param hb ha => exact .kind (by omega)
  | behind hb ha hrest => exact .later (hb.trans ha.symm) (fun h => absurd (hb.symm.trans h) (by decide)) hrest
  | later hkind hsame _ ih => exact .later hkind hsame ih

theorem Misled.exists_wildcard (h : Misled wide narrow) : ∃ a ∈ narrow, segmentKind a = 2 := by
  induction h with
  | param hb ha => exact ⟨_, .head _, ha⟩
  | behind hb ha hrest => exact ⟨_, .head _, ha⟩
  | later hkind hsame _ ih =>
      obtain ⟨a, hmem, ha⟩ := ih
      exact ⟨a, .tail _ hmem, ha⟩

/-- Paths that compare alike match the same URLs. -/
theorem urlPattern_eq (hsame : SameSegments wide narrow) (hwide : ∀ s ∈ wide, PlainSegment s)
    (hnarrow : ∀ s ∈ narrow, PlainSegment s) : urlPattern wide = urlPattern narrow := by
  induction hsame with
  | nil => rfl
  | cons h _ ih =>
      obtain ⟨hb, hwide⟩ := List.forall_mem_cons.mp hwide
      obtain ⟨ha, hnarrow⟩ := List.forall_mem_cons.mp hnarrow
      rw [urlPattern_cons, urlPattern_cons, ih hwide hnarrow]
      congr 1
      obtain ⟨hkind, hsame⟩ := h
      rcases plainSegment_cases hb with ⟨hkb, htb⟩ | ⟨hkb, htb⟩ | ⟨hkb, htb⟩ <;>
        rcases plainSegment_cases ha with ⟨hka, hta⟩ | ⟨hka, hta⟩ | ⟨hka, hta⟩ <;>
        first
        | exact absurd (hkb.symm.trans (hkind.trans hka)) (by decide)
        | rw [htb, hta]
      rw [Subtype.ext (hsame hkb)]

/-- **What is put first and is wider is misled.**  Up to a common `*name` the two paths are aligned, so that the
wider one has no literal where the narrower one has none. -/
theorem misled_of_within (hahead : Ahead wide narrow) (hwide : ∀ s ∈ wide, PlainSegment s)
    (hnarrow : ∀ s ∈ narrow, PlainSegment s) (hwithin : Within (urlPattern narrow) (urlPattern wide)) :
    Misled wide narrow := by
  induction hahead with
  -- the wider path ends, and takes nothing but what has ended
  | ends =>
      obtain ⟨ha, -⟩ := List.forall_mem_cons.mp hnarrow
      rename_i a narrow
      rw [urlPattern_cons] at hwithin
      rcases plainSegment_cases ha with ⟨-, hta⟩ | ⟨-, hta⟩ | ⟨-, hta⟩ <;>
        rw [hta] at hwithin <;> exact absurd hwithin (not_within_nil a)
  | kind hkind =>
      rename_i b a wide narrow
      obtain ⟨hb, -⟩ := List.forall_mem_cons.mp hwide
      obtain ⟨ha, -⟩ := List.forall_mem_cons.mp hnarrow
      rw [urlPattern_cons, urlPattern_cons] at hwithin
      rcases plainSegment_cases hb with ⟨hkb, htb⟩ | ⟨hkb, htb⟩ | ⟨hkb, htb⟩
      · -- a literal takes one segment only
        obtain ⟨other, hother⟩ := exists_other b
        have hne : other ≠ b := fun h => hother (h ▸ rfl)
        rcases plainSegment_cases ha with ⟨hka, -⟩ | ⟨-, hta⟩ | ⟨-, hta⟩
        · omega
        · rw [htb, hta] at hwithin
          exact absurd hwithin (not_within_word nofun hne nofun)
        · rw [htb, hta] at hwithin
          exact absurd hwithin (not_within_word nofun hne nofun)
      · -- a parameter takes one segment: only a wildcard of the narrower path is more than that
        rcases plainSegment_cases ha with ⟨hka, -⟩ | ⟨hka, -⟩ | ⟨hka, -⟩
        · omega
        · omega
        · exact .param hkb hka
      · -- nothing is of a higher kind than a wildcard
        rcases plainSegment_cases ha with ⟨hka, -⟩ | ⟨hka, -⟩ | ⟨hka, -⟩ <;> omega
  | text hkb hka hbefore =>
      obtain ⟨hb, -⟩ := List.forall_mem_cons.mp hwide
      obtain ⟨ha, -⟩ := List.forall_mem_cons.mp hnarrow
      rw [urlPattern_cons, urlPattern_cons] at hwithin
      rcases plainSegment_cases hb with ⟨-, htb⟩ | ⟨hkb', -⟩ | ⟨hkb', -⟩
      · rcases plainSegment_cases ha with ⟨-, hta⟩ | ⟨hka', -⟩ | ⟨hka', -⟩
        · rw [htb, hta] at hwithin
          obtain ⟨rfl, -⟩ := within_word_cons.mp hwithin
          exact absurd (of_decide_eq_true hbefore) (lt_irrefl _)
        · omega
        · omega
      · omega
      · omega
  | later hkind hsame hrest ih =>
      rename_i b a wide narrow
      obtain ⟨hb, hwide⟩ := List.forall_mem_cons.mp hwide
      obtain ⟨ha, hnarrow⟩ := List.forall_mem_cons.mp hnarrow
      rw [urlPattern_cons, urlPattern_cons] at hwithin
      rcases plainSegment_cases hb with ⟨hkb, htb⟩ | ⟨hkb, htb⟩ | ⟨hkb, htb⟩
      · have heq : b = a := Subtype.ext (hsame hkb)
        rw [← heq, htb] at hwithin
        exact .later hkind hsame (ih hwide hnarrow (within_word_cons.mp hwithin).2)
      · rcases plainSegment_cases ha with ⟨hka, -⟩ | ⟨hka, hta⟩ | ⟨hka, -⟩
        · omega
        · rw [htb, hta] at hwithin
          exact .later hkind hsame (ih hwide hnarrow ((within_star_cons a).mp hwithin))
        · omega
      · -- behind a common wildcard nothing is aligned any more
        exact .behind hkb (hkind ▸ hkb) hrest

/-- A `*name` only at the end. -/
def TrailingWildcard (segments : List Segment) : Prop := ∀ s ∈ segments.dropLast, segmentKind s ≠ 2

theorem TrailingWildcard.tail (h : TrailingWildcard (a :: narrow)) : TrailingWildcard narrow := by
  cases narrow with
  | nil => exact fun s hs => by cases hs
  | cons c narrow => exact fun s hs => h s (.tail _ hs)

theorem TrailingWildcard.eq_nil (h : TrailingWildcard (a :: narrow)) (ha : segmentKind a = 2) :
    narrow = [] := by
  cases narrow with
  | nil => rfl
  | cons c narrow => exact absurd ha (h a (.head _))

/-- Any segments at all are more than a path of given segments takes, unless it has a `*name`. -/
theorem not_within_hash (hwide : ∀ s ∈ wide, PlainSegment s) : ¬ Within [.hash] (urlPattern wide) := by
  intro h
  have hall : ∀ ks : List Segment, routes [.hash] ks = true := fun ks =>
    (routes_hash_iff [] ks).mpr ⟨ks, [], (List.append_nil ks).symm, rfl⟩
  cases wide with
  | nil =>
      have hnone := h [⟨"x", by decide⟩] (hall _)
      cases hnone
  | cons b wide =>
      -- the empty URL is none of its URLs
      have hempty := h [] (hall [])
      rw [urlPattern_cons] at hempty
      rcases plainSegment_cases (hwide b (.head _)) with ⟨-, htb⟩ | ⟨-, htb⟩ | ⟨-, htb⟩ <;>
        rw [htb] at hempty <;> cases hempty

/-- **A `*name` at the end does not mislead.** -/
theorem not_misled_of_trailing (hwide : ∀ s ∈ wide, PlainSegment s) (hnarrow : ∀ s ∈ narrow, PlainSegment s)
    (hwideLast : TrailingWildcard wide) (hnarrowLast : TrailingWildcard narrow)
    (hstrict : StrictlyWithin (urlPattern narrow) (urlPattern wide)) : ¬ Misled wide narrow := by
  intro hmisled
  induction hmisled with
  | param hkb hka =>
      rename_i b a wide narrow
      obtain rfl := hnarrowLast.eq_nil hka
      obtain ⟨hb, hwide⟩ := List.forall_mem_cons.mp hwide
      obtain ⟨ha, -⟩ := List.forall_mem_cons.mp hnarrow
      have hwithin := hstrict.1
      rw [urlPattern_cons, urlPattern_cons] at hwithin
      rcases plainSegment_cases hb with ⟨hkb', -⟩ | ⟨-, htb⟩ | ⟨hkb', -⟩
      · omega
      · rcases plainSegment_cases ha with ⟨hka', -⟩ | ⟨hka', -⟩ | ⟨-, hta⟩
        · omega
        · omega
        · rw [htb, hta] at hwithin
          exact not_within_hash hwide ((within_star_cons a).mp hwithin)
      · omega
  | behind hkb hka hrest =>
      obtain rfl := hwideLast.eq_nil hkb
      obtain rfl := hnarrowLast.eq_nil hka
      cases hrest
  | later hkind hsame hrest ih =>
      rename_i b a wide narrow
      obtain ⟨hb, hwide⟩ := List.forall_mem_cons.mp hwide
      obtain ⟨ha, hnarrow⟩ := List.forall_mem_cons.mp hnarrow
      rw [urlPattern_cons, urlPattern_cons] at hstrict
      rcases plainSegment_cases hb with ⟨hkb, htb⟩ | ⟨hkb, htb⟩ | ⟨hkb, -⟩
      · have heq : b = a := Subtype.ext (hsame hkb)
        rw [← heq, htb] at hstrict
        exact ih hwide hnarrow hwideLast.tail hnarrowLast.tail ((strictlyWithin_word_cons b).mp hstrict)
      · rcases plainSegment_cases ha with ⟨hka, -⟩ | ⟨-, hta⟩ | ⟨hka, -⟩
        · omega
        · rw [htb, hta] at hstrict
          exact ih hwide hnarrow hwideLast.tail hnarrowLast.tail ((strictlyWithin_star_cons a).mp hstrict)
        · omega
      · -- both end here
        obtain rfl := hwideLast.eq_nil hkb
        obtain rfl := hnarrowLast.eq_nil (hkind ▸ hkb)
        cases hrest

end Ranks

/-! ## The ordered list -/

/-- `:name`, `*name` and static segments only. -/
def PlainSegments (path : String) : Prop := ∀ s ∈ splitSegments path, PlainSegment s

/-- A narrower path comes before a wider one, unless the wider one misleads. -/
theorem compare_nonpos_of_narrower {p q : String} (hp : PlainSegments p) (hq : PlainSegments q)
    (h : Narrower q p) : comparePaths p q ≤ 0 ↔ Misled (splitSegments p) (splitSegments q) := by
  constructor
  · intro hle
    refine misled_of_within ((ahead_iff _ _).mp (lt_of_le_of_ne hle fun hzero => ?_)) hp hq h.1
    have hsame := urlPattern_eq ((compareSegments_eq_zero_iff _ _).mp hzero) hp hq
    exact h.2 fun ks hks => hsame ▸ hks
  · exact fun hmisled => ((ahead_iff _ _).mpr hmisled.ahead).le

/-- **No path of an ordered list comes behind a wider one** exactly when no wider path misleads. -/
theorem orderPaths_precedence_iff {τ : Type} (path : τ → String) (paths : List τ)
    (hplain : ∀ p ∈ paths, PlainSegments (path p)) :
    ((orderPaths path paths).Pairwise fun p q => ¬ Narrower (path q) (path p)) ↔
      ∀ p ∈ paths, ∀ q ∈ paths, Narrower (path q) (path p) →
        ¬ Misled (splitSegments (path p)) (splitSegments (path q)) := by
  have hsorted := pairwise_orderPaths path paths
  constructor
  · intro h p hp q hq hnarrower hmisled
    have hlt : comparePaths (path p) (path q) < 0 := (ahead_iff _ _).mpr hmisled.ahead
    have hp : p ∈ orderPaths path paths := mem_orderPaths.mpr hp
    have hq : q ∈ orderPaths path paths := mem_orderPaths.mpr hq
    obtain ⟨i, hi, rfl⟩ := List.mem_iff_getElem.mp hp
    obtain ⟨j, hj, rfl⟩ := List.mem_iff_getElem.mp hq
    rcases Nat.lt_trichotomy i j with hij | rfl | hij
    · exact List.pairwise_iff_getElem.mp h i j hi hj hij hnarrower
    · exact hnarrower.2 hnarrower.1
    · have hle := List.pairwise_iff_getElem.mp hsorted j i hj hi hij
      have hswap := comparePaths_swap (path (orderPaths path paths)[i]) (path (orderPaths path paths)[j])
      omega
  · intro h
    refine (List.Pairwise.and_mem.mp hsorted).imp ?_
    rintro p q ⟨hp, hq, hle⟩ hnarrower
    have hp := mem_orderPaths.mp hp
    have hq := mem_orderPaths.mp hq
    exact h p hp q hq hnarrower ((compare_nonpos_of_narrower (hplain p hp) (hplain q hq) hnarrower).mp hle)

/-- **Paths with a `*name` only at the end are ordered, the most specific first.** -/
theorem orderPaths_precedence_of_trailing {τ : Type} (path : τ → String) (paths : List τ)
    (hplain : ∀ p ∈ paths, PlainSegments (path p))
    (hlast : ∀ p ∈ paths, TrailingWildcard (splitSegments (path p))) :
    (orderPaths path paths).Pairwise fun p q => ¬ Narrower (path q) (path p) := by
  refine (List.Pairwise.and_mem.mp (pairwise_orderPaths path paths)).imp ?_
  rintro p q ⟨hp, hq, hle⟩ hnarrower
  have hp := mem_orderPaths.mp hp
  have hq := mem_orderPaths.mp hq
  exact not_misled_of_trailing (hplain p hp) (hplain q hq) (hlast p hp) (hlast q hq) hnarrower
    ((compare_nonpos_of_narrower (hplain p hp) (hplain q hq) hnarrower).mp hle)

/-! ## Two users and two files -/

theorem plainSegments_users : ∀ p ∈ ["/users/:id", "/users/me"], PlainSegments p := by
  unfold PlainSegments PlainSegment
  decide +kernel

theorem orderPaths_precedence_iff_users :
    (orderPaths id ["/users/:id", "/users/me"]).Pairwise fun p q => ¬ Narrower q p := by
  refine (orderPaths_precedence_iff id _ plainSegments_users).mpr fun p _ q hq _ hmisled => ?_
  obtain ⟨a, ha, hkind⟩ := hmisled.exists_wildcard
  have hnone : ∀ q ∈ ["/users/:id", "/users/me"], ∀ a ∈ splitSegments q, segmentKind a ≠ 2 := by
    decide +kernel
  exact hnone q hq a ha hkind

/-- All files come before the editor of one. -/
theorem not_orderPaths_precedence_files :
    ¬ ∀ paths : List String, (∀ p ∈ paths, PlainSegments p) →
      (orderPaths id paths).Pairwise fun p q => ¬ Narrower q p := by
  intro h
  have hplain : ∀ p ∈ ["/files/*path/edit", "/files/*path"], PlainSegments p := by
    unfold PlainSegments PlainSegment
    decide +kernel
  have hordered : orderPaths id ["/files/*path/edit", "/files/*path"] =
      ["/files/*path", "/files/*path/edit"] := by
    decide +kernel
  have hpattern : urlPattern (splitSegments "/files/*path") = [.word ⟨"files", by decide⟩, .star, .hash] := by
    decide +kernel
  have hedit : urlPattern (splitSegments "/files/*path/edit") =
      [.word ⟨"files", by decide⟩, .star, .hash, .word ⟨"edit", by decide⟩] := by
    decide +kernel
  have hpairwise := h _ hplain
  rw [hordered] at hpairwise
  refine List.rel_of_pairwise_cons hpairwise (.head _) ?_
  unfold Narrower
  rw [hpattern, hedit, strictlyWithin_word_cons, strictlyWithin_star_cons ⟨"edit", by decide⟩]
  refine ⟨fun ks _ => (routes_hash_iff [] ks).mpr ⟨ks, [], (List.append_nil ks).symm, rfl⟩, fun hwithin => ?_⟩
  exact absurd (hwithin [] rfl) (by decide)

end NestAmqp.Gateway
