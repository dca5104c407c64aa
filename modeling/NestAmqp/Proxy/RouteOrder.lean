/-
# NestAmqp.Proxy.RouteOrder — which routes of the gateway's table shadow which.

Express takes the first route that matches.  The table that `doReload` registers is the YAML's paths, in
the order they are listed, and behind them the exported ones, which the export has ordered.  A route is
shadowed when one before it, of the same method, matches every URL it matches and more.

A URL is matched segment by segment: a static segment matches the segments that read like it, letter case
aside, which is what Express does unless it is told otherwise; a `:name` matches every segment.
-/
import NestAmqp.Gateway.PathOrder
import NestAmqp.Lib.Patterns
import NestAmqp.Proxy.RouteReload

namespace NestAmqp.Proxy

open NestAmqp.Js
open NestAmqp.Lib NestAmqp.Lib.Pattern
open NestAmqp.Gateway

/-! ## Matching -/

/-- How Express reads a static segment. -/
def readsAs (s : Segment) : String := toLowerCase s

/-- A segment of a route, as the matcher sees it. -/
def pieceOf (s : Segment) : Piece Segment := if startsParam s then .any else .lit s

/-- A route's path, as the matcher sees it. -/
def routePattern (path : String) : List (Piece Segment) := (splitSegments path).map pieceOf

/-- The characters that mean more than themselves in a path. -/
def patternChars : List Char := ['/', ':', '*', '?', '+', '(', ')', '[', ']', '\x7b', '\x7d', '!', '\\']

/-- `:name`. -/
def isParam (s : String) : Bool :=
  match s.toList with
  | ':' :: c :: cs => (c :: cs).all fun c => c.isAlphanum || c == '_'
  | _ => false

/-- A segment that stands for itself. -/
def isStatic (s : String) : Bool := s.toList.all fun c => !patternChars.contains c

/-- A path of static segments and `:name` segments. -/
structure PlainPath (path : String) : Prop where
  rooted : path.toList.head? = some '/'
  unbroken : ¬ ['/', '/'] <:+: path.toList
  segments : ∀ s ∈ splitSegments path, isParam s ∨ isStatic s

/-- `p`, which comes first, takes everything that `q` matches, and more. -/
def Shadows (p q : PathDefinition) : Prop :=
  toLowerCase p.method = toLowerCase q.method ∧
    StrictlyCovers readsAs (routePattern p.path) (routePattern q.path)

/-- No route of a table is shadowed by one before it. -/
def Unshadowed (table : List PathDefinition) : Prop := table.Pairwise fun p q => ¬ Shadows p q

/-- At the first segment where two paths differ, both are static and differ in letter case only, and the
text of the one comes first. -/
inductive LetterCaseFirst : List Segment → List Segment → Prop
  | here {a b : Segment} {as bs : List Segment} (ha : segmentKind a = 0) (hb : segmentKind b = 0)
      (hcase : readsAs a = readsAs b) (hbefore : textBefore a b = true) : LetterCaseFirst (a :: as) (b :: bs)
  | later {a b : Segment} {as bs : List Segment} (hkind : segmentKind a = segmentKind b)
      (hsame : segmentKind a = 0 → a.1 = b.1) (hrest : LetterCaseFirst as bs) :
      LetterCaseFirst (a :: as) (b :: bs)

/-- What the export responder returns for the enabled paths. -/
def exportPaths (enabled : List PathDefinition) : List PathDefinition :=
  orderPaths PathDefinition.path enabled

/-- The paths that can be registered. -/
def registered (config : RouteConfig) (paths : List PathDefinition) : List PathDefinition :=
  paths.filter fun path => (registerPath config path []).isOk

/-! ## The table -/

section Table

variable {config : RouteConfig}

/-- A path is added at the end or refused, whatever the router has. -/
theorem registerPath_eq (config : RouteConfig) (path : PathDefinition) (router : List PathDefinition) :
    registerPath config path router = (registerPath config path []).map fun _ => router ++ [path] := by
  unfold registerPath
  by_cases hmethod : path.method = ""
  · simp only [hmethod, if_true, Except.map]
  by_cases hpath : path.path = ""
  · simp only [hpath, if_true, Except.map]
    split <;> rfl
  by_cases htopic : path.topic = ""
  · simp only [hmethod, hpath, htopic, if_true, if_false, Except.map]
  by_cases hmode : path.mode = .other ""
  · simp only [hmethod, hpath, htopic, hmode, if_true, if_false, Except.map]
  · simp only [hmethod, hpath, htopic, hmode, if_false]
    cases registerLines config path with
    | error e => rfl
    | ok _ => cases config.express (toLowerCase path.method) path.path <;> rfl

theorem registerNext_fst (built : List PathDefinition × Nat) (path : PathDefinition) :
    (registerNext config built path).1 = built.1 ++ registered config [path] := by
  unfold registerNext registered
  rw [registerPath_eq]
  cases h : registerPath config path [] with
  | error e => simp [Except.map, Except.isOk, Except.toBool, h]
  | ok r => simp [Except.map, Except.isOk, Except.toBool, h]

/-- **The table** is what can be registered of the YAML's paths and then of the pulled ones. -/
theorem buildRouter_fst (config : RouteConfig) (pulled : PulledPaths) :
    (buildRouter config pulled).1 = registered config config.paths ++ registered config (extPath pulled) := by
  have hfold : ∀ (paths : List PathDefinition) (built : List PathDefinition × Nat),
      (paths.foldl (registerNext config) built).1 = built.1 ++ registered config paths := by
    intro paths
    induction paths with
    | nil => exact fun built => (List.append_nil _).symm
    | cons path paths ih =>
        intro built
        rw [List.foldl_cons, ih, registerNext_fst, List.append_assoc]
        unfold registered
        rw [← List.filter_append, List.singleton_append]
  unfold buildRouter
  rw [hfold, List.nil_append]
  unfold registered
  rw [← List.filter_append]

end Table

/-! ## Covering and comparing -/

section Compare

variable {a b : Segment} {as bs : List Segment}

/-- A segment of a plain path: its kind, and how it is matched. -/
theorem plain_cases (h : isParam a ∨ isStatic a) :
    (segmentKind a = 1 ∧ pieceOf a = .any) ∨ (segmentKind a = 0 ∧ pieceOf a = .lit a) := by
  unfold segmentKind pieceOf
  cases hstarts : startsParam a with
  | true => exact .inl ⟨rfl, rfl⟩
  | false =>
      right
      have hstatic : isStatic a = true := by
        refine h.resolve_left fun hparam => ?_
        unfold isParam at hparam
        unfold startsParam at hstarts
        split at hparam
        next c cs htext => simp [htext] at hstarts
        next => cases hparam
      have hstar : a.1.toList.contains '*' = false := by
        by_contra hmem
        have hmem : '*' ∈ a.1.toList := by simpa using hmem
        have hplain := List.all_eq_true.mp hstatic '*' hmem
        exact absurd hplain (by decide)
      simp only [hstar]
      exact ⟨rfl, rfl⟩

/-- No segment is read like every segment. -/
theorem exists_other (a : Segment) : ∃ x, readsAs x ≠ readsAs a := by
  refine ⟨⟨a.1 ++ "x", by simp, ?_⟩, ?_⟩
  · have hslash := a.2.2
    simp [hslash]
  · intro h
    have hlength := congrArg String.length h
    simp [readsAs, toLowerCase] at hlength

/-- **A covering path compares above what it covers**, but for static segments that differ in letter case. -/
theorem letterCaseFirst_of_nonpos (has : ∀ s ∈ as, isParam s ∨ isStatic s)
    (hbs : ∀ s ∈ bs, isParam s ∨ isStatic s)
    (hcovers : List.Forall₂ (CoversPiece readsAs) (as.map pieceOf) (bs.map pieceOf))
    (hstrict : ¬ List.Forall₂ (CoversPiece readsAs) (bs.map pieceOf) (as.map pieceOf))
    (hle : compareSegments as bs ≤ 0) : LetterCaseFirst as bs := by
  induction as generalizing bs with
  | nil =>
      cases bs with
      | nil => exact absurd .nil hstrict
      | cons b bs => cases hcovers
  | cons a as ih =>
      cases bs with
      | nil => cases hcovers
      | cons b bs =>
          obtain ⟨ha, has⟩ := List.forall_mem_cons.mp has
          obtain ⟨hb, hbs⟩ := List.forall_mem_cons.mp hbs
          rw [List.map_cons, List.map_cons, List.forall₂_cons] at hcovers
          rw [List.map_cons, List.map_cons, List.forall₂_cons] at hstrict
          obtain ⟨hpiece, hrest⟩ := hcovers
          rw [compareSegments] at hle
          rcases plain_cases ha with ⟨hka, hpa⟩ | ⟨hka, hpa⟩ <;> rcases plain_cases hb with ⟨hkb, hpb⟩ |
            ⟨hkb, hpb⟩
          · -- both are parameters
            simp only [hka, hkb, ne_eq, not_true, Nat.one_ne_zero, false_and, if_false] at hle
            rw [hpa, hpb] at hstrict
            exact .later (hka.trans hkb.symm) (fun h => absurd (hka.symm.trans h) Nat.one_ne_zero)
              (ih has hbs hrest (fun h => hstrict ⟨trivial, h⟩) hle)
          · -- a parameter before a static segment compares above it
            simp only [hka, hkb] at hle
            rw [if_pos Nat.one_ne_zero] at hle
            exact absurd hle (by decide)
          · -- a static segment covers no parameter
            rw [hpa, hpb] at hpiece
            exact hpiece.elim
          · -- both are static: the same text, or texts that differ in letter case
            rw [hpa, hpb] at hpiece hstrict
            simp only [hka, hkb, ne_eq, not_true, true_and, if_false] at hle
            by_cases hsame : a.1 = b.1
            · rw [if_neg (not_not.mpr hsame)] at hle
              refine .later (hka.trans hkb.symm) (fun _ => hsame)
                (ih has hbs hrest (fun h => hstrict ⟨?_, h⟩) hle)
              exact Eq.symm hpiece
            · rw [if_pos hsame] at hle
              refine .here hka hkb hpiece ?_
              by_contra hno
              rw [if_neg hno] at hle
              exact absurd hle (by decide)

/-- A path whose text comes first is compared below. -/
theorem LetterCaseFirst.compare (h : LetterCaseFirst as bs) : 0 < compareSegments bs as := by
  induction h with
  | here ha hb hcase hbefore =>
      rw [compareSegments_pos_iff, List.map_cons, List.map_cons, List.cons_lt_cons_iff, segmentKey_lt_iff]
      exact .inl (.inr ⟨ha.trans hb.symm, ha, hbefore⟩)
  | later hkind hsame _ ih =>
      rw [compareSegments_pos_iff] at ih ⊢
      rw [List.map_cons, List.map_cons, List.cons_lt_cons_iff, segmentKey_eq_iff]
      exact .inr ⟨⟨hkind, hsame⟩, ih⟩

instance : Nonempty Segment := ⟨⟨"x", by decide⟩⟩

/-- A path that shadows one that it does not compare above. -/
theorem Shadows.letterCaseFirst {p q : PathDefinition} (h : Shadows p q) (hp : PlainPath p.path)
    (hq : PlainPath q.path)
    (hle : comparePaths p.path q.path ≤ 0) : LetterCaseFirst (splitSegments p.path) (splitSegments q.path) := by
  obtain ⟨-, hcovers, hstrict⟩ := h
  unfold routePattern at hcovers hstrict
  rw [covers_iff exists_other] at hcovers hstrict
  exact letterCaseFirst_of_nonpos hp.segments hq.segments hcovers hstrict hle

end Compare

/-! ## Shadowed routes -/

/-- An exported path that shadows another comes before it only by letter case. -/
def ShadowsByCase (p q : PathDefinition) : Prop :=
  Shadows p q ∧ LetterCaseFirst (splitSegments p.path) (splitSegments q.path)

theorem unshadowed_append {l r : List PathDefinition} :
    Unshadowed (l ++ r) ↔ Unshadowed l ∧ Unshadowed r ∧ ∀ p ∈ l, ∀ q ∈ r, ¬ Shadows p q :=
  List.pairwise_append

theorem mem_registered_exportPaths {config : RouteConfig} {enabled : List PathDefinition} {p : PathDefinition} :
    p ∈ registered config (exportPaths enabled) ↔ p ∈ registered config enabled := by
  unfold registered exportPaths
  rw [List.mem_filter, List.mem_filter, mem_orderPaths]

theorem not_shadows_self (p : PathDefinition) : ¬ Shadows p p := fun h => h.2.2 h.2.1

/-- **The exported part of the table.**  No export shadows another but by letter case. -/
theorem unshadowed_exportPaths_iff (config : RouteConfig) (enabled : List PathDefinition)
    (hplain : ∀ p ∈ enabled, PlainPath p.path) :
    Unshadowed (registered config (exportPaths enabled)) ↔
      ∀ p ∈ registered config enabled, ∀ q ∈ registered config enabled, ¬ ShadowsByCase p q := by
  have hsorted : (registered config (exportPaths enabled)).Pairwise
      fun p q => comparePaths p.path q.path ≤ 0 := (pairwise_orderPaths _ enabled).filter _
  have hpath : ∀ p ∈ registered config enabled, PlainPath p.path := fun p hp =>
    hplain p (List.mem_filter.mp hp).1
  constructor
  · intro hunshadowed p hp q hq hcase
    obtain ⟨i, hi, rfl⟩ := List.mem_iff_getElem.mp (mem_registered_exportPaths.mpr hp)
    obtain ⟨j, hj, rfl⟩ := List.mem_iff_getElem.mp (mem_registered_exportPaths.mpr hq)
    rcases Nat.lt_trichotomy i j with hij | rfl | hij
    · exact List.pairwise_iff_getElem.mp hunshadowed i j hi hj hij hcase.1
    · exact not_shadows_self _ hcase.1
    · -- the shadowing path would compare below
      have hle := List.pairwise_iff_getElem.mp hsorted j i hj hi hij
      exact absurd hcase.2.compare (not_lt.mpr hle)
  · intro hnone
    refine (List.Pairwise.and_mem.mp hsorted).imp ?_
    rintro p q ⟨hp, hq, hle⟩ hshadows
    have hp := mem_registered_exportPaths.mp hp
    have hq := mem_registered_exportPaths.mp hq
    exact hnone p hp q hq ⟨hshadows, hshadows.letterCaseFirst (hpath p hp) (hpath q hq) hle⟩

/-- **No route of the table is shadowed** exactly when the YAML's paths, as listed, do not shadow each other,
none of them shadows an exported path, and no exported path shadows another that differs in letter case. -/
theorem table_unshadowed_iff (config : RouteConfig) (enabled : List PathDefinition)
    (hplain : ∀ p ∈ config.paths ++ enabled, PlainPath p.path) :
    Unshadowed (buildRouter config (.ok (some (exportPaths enabled)))).1 ↔
      Unshadowed (registered config config.paths) ∧
      (∀ p ∈ registered config config.paths, ∀ q ∈ registered config enabled, ¬ Shadows p q) ∧
      ∀ p ∈ registered config enabled, ∀ q ∈ registered config enabled, ¬ ShadowsByCase p q := by
  have htable : extPath (.ok (some (exportPaths enabled))) = exportPaths enabled := rfl
  rw [buildRouter_fst, htable, unshadowed_append,
    unshadowed_exportPaths_iff config enabled fun p hp => hplain p (List.mem_append_right _ hp),
    and_comm (a := ∀ p ∈ registered config enabled, _)]
  refine and_congr_right fun _ => and_congr_left fun _ => forall₂_congr fun p _ => ?_
  exact forall_congr' fun q => by rw [mem_registered_exportPaths]

/-! ## A static and a parametric path -/

/-- `GET` on a path. -/
def getPath (path : String) : PathDefinition := { path, topic := "users", action := "get" }

/-- The path of one user by its name, and that of any user. -/
def ownUser : PathDefinition := getPath "/users/me"

def anyUser : PathDefinition := getPath "/users/:id"

theorem plain_users : ∀ p ∈ [ownUser, anyUser], PlainPath p.path := by
  intro p hp
  rcases List.mem_pair.mp hp with rfl | rfl <;> exact ⟨rfl, by decide, by decide⟩

theorem covers_users : List.Forall₂ (CoversPiece readsAs) (routePattern anyUser.path)
    (routePattern ownUser.path) ∧
    ¬ List.Forall₂ (CoversPiece readsAs) (routePattern ownUser.path) (routePattern anyUser.path) := by
  have hany : routePattern anyUser.path = [.lit ⟨"users", by decide⟩, .any] := by
    decide +kernel
  have hown : routePattern ownUser.path = [.lit ⟨"users", by decide⟩, .lit ⟨"me", by decide⟩] := by
    decide +kernel
  rw [hany, hown]
  constructor
  · exact .cons rfl (.cons trivial .nil)
  · rintro (_ | ⟨-, _ | ⟨hpiece, -⟩⟩)
    exact hpiece

theorem table_unshadowed_iff_ownFirst :
    Unshadowed (buildRouter { paths := [ownUser] } (.ok (some (exportPaths [anyUser])))).1 := by
  refine (table_unshadowed_iff { paths := [ownUser] } [anyUser] plain_users).mpr
    ⟨(List.pairwise_singleton _ _).filter _, ?_, ?_⟩
  · intro p hp q hq hshadows
    rw [List.mem_singleton.mp (List.mem_filter.mp hp).1,
      List.mem_singleton.mp (List.mem_filter.mp hq).1] at hshadows
    exact covers_users.2 ((covers_iff exists_other).mp hshadows.2.1)
  · intro p hp q hq hcase
    rw [List.mem_singleton.mp (List.mem_filter.mp hp).1,
      List.mem_singleton.mp (List.mem_filter.mp hq).1] at hcase
    exact not_shadows_self _ hcase.1

/-- The YAML's parametric path hides the exported static one. -/
theorem not_table_unshadowed_anyFirst :
    ¬ ∀ (config : RouteConfig) (enabled : List PathDefinition),
      (∀ p ∈ config.paths ++ enabled, PlainPath p.path) →
        Unshadowed (buildRouter config (.ok (some (exportPaths enabled)))).1 := by
  intro h
  have hunshadowed := h { paths := [anyUser] } [ownUser] fun p hp =>
    plain_users p ((List.Perm.swap ownUser anyUser []).mem_iff.mp hp)
  rw [buildRouter_fst, unshadowed_append] at hunshadowed
  have hshadows : Shadows anyUser ownUser :=
    ⟨rfl, (covers_iff exists_other).mpr covers_users.1, fun h =>
    covers_users.2 ((covers_iff exists_other).mp h)⟩
  refine hunshadowed.2.2 anyUser ?_ ownUser (mem_registered_exportPaths.mpr ?_) hshadows
  · exact List.mem_filter.mpr ⟨.head _, by decide⟩
  · exact List.mem_filter.mpr ⟨.head _, by decide⟩

end NestAmqp.Proxy
