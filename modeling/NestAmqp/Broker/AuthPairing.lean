/-
# NestAmqp.Broker.AuthPairing — which declared auth protects which declared route.

`pairAuthToRoutes` copies one `@BrokerAuth` onto each `@BrokerHTTP` of a method, under one rule for a
single route and another for several, and a separate loop collects the warnings.  A declaration is told
apart by its position in the list, since two may read the same: `pairedAt` is the position the search of
the source stops at.
-/
import NestAmqp.Js.Value
import Mathlib.Data.List.Basic

namespace NestAmqp.Broker.AuthPairing

open NestAmqp.Js

/-! ## The pairing -/

/-- An entry of `@BrokerHTTP`: what the pairing reads and writes of it. -/
structure BrokerHttp where
  name : Option String := none
  auth : Option String := none
  allowAnonymous : Option Bool := none
  actions : Option OneOrMany := none
  deriving DecidableEq, Repr

/-- An entry of `@BrokerAuth`. -/
structure BrokerAuth where
  authName : String
  allowAnonymous : Option Bool := none
  actions : Option OneOrMany := none
  httpName : Option String := none
  deriving DecidableEq, Repr

/-- The search for the auth of one route. -/
def paired (multiHttp : Bool) (allAuth : List BrokerAuth) (h : BrokerHttp) : Option BrokerAuth :=
  if multiHttp then
    if truthyText h.name then allAuth.find? fun a => a.httpName == h.name else none
  else (allAuth.find? fun a => !truthyText a.httpName).or allAuth.head?

/-- `h.auth = paired.authName`, and so on. -/
def BrokerHttp.withAuth (h : BrokerHttp) (a : BrokerAuth) : BrokerHttp :=
  { h with auth := some a.authName, allowAnonymous := a.allowAnonymous, actions := a.actions }

def pairRoute (multiHttp : Bool) (allAuth : List BrokerAuth) (h : BrokerHttp) : BrokerHttp :=
  match paired multiHttp allAuth h with
  | some a => h.withAuth a
  | none => h

/-- `new Set(allHttp.map((h) => h.name).filter(Boolean))`. -/
def routeNames (allHttp : List BrokerHttp) : List String :=
  (allHttp.filterMap fun h => if truthyText h.name then h.name else none).eraseDups

/-- The warning about one declaration, if there is one. -/
def authWarning (site : String) (allHttp : List BrokerHttp) (a : BrokerAuth) : Option String :=
  let location := if site = "" then "" else " on " ++ site
  let names := routeNames allHttp
  let named := if ", ".intercalate names = "" then "none" else ", ".intercalate names
  if !truthyText a.httpName then
    some ("@BrokerAuth '" ++ a.authName ++ "'" ++ location ++
      " has no 'httpName' but the method declares " ++ toString allHttp.length ++
      " @BrokerHTTP routes; auth NOT applied. Add httpName matching a @BrokerHTTP \x7b name \x7d (" ++
      named ++ ").")
  else if !names.contains (template a.httpName) then
    some ("@BrokerAuth '" ++ a.authName ++ "'" ++ location ++ " references httpName '" ++
      template a.httpName ++ "' matching no @BrokerHTTP \x7b name \x7d (" ++ named ++
      "); auth NOT applied.")
  else none

/-- `pairAuthToRoutes`: the routes as it leaves them, and its warnings. -/
def pairAuthToRoutes (allHttp : List BrokerHttp) (allAuth : List BrokerAuth) (site : String) :
    List BrokerHttp × List String :=
  if allHttp = [] ∨ allAuth = [] then (allHttp, [])
  else
    let multiHttp := decide (allHttp.length > 1)
    (allHttp.map (pairRoute multiHttp allAuth),
      if multiHttp then allAuth.filterMap (authWarning site allHttp) else [])

/-! ## Positions -/

/-- The position the search stops at. -/
def pairedAt (multiHttp : Bool) (allAuth : List BrokerAuth) (h : BrokerHttp) : Option Nat :=
  if multiHttp then
    if truthyText h.name then allAuth.findIdx? fun a => a.httpName == h.name else none
  else (allAuth.findIdx? fun a => !truthyText a.httpName).or (if allAuth = [] then none else some 0)

theorem find?_eq_findIdx? {α : Type} (p : α → Bool) (l : List α) :
    l.find? p = (l.findIdx? p).bind fun i => l[i]? := by
  induction l with
  | nil => rfl
  | cons a l ih =>
      rw [List.find?_cons, List.findIdx?_cons]
      cases hp : p a with
      | true => rfl
      | false =>
          rw [ih, if_neg Bool.false_ne_true]
          cases l.findIdx? p <;> rfl

/-- The position is that of the declaration found. -/
theorem paired_eq (multiHttp : Bool) (allAuth : List BrokerAuth) (h : BrokerHttp) :
    paired multiHttp allAuth h = (pairedAt multiHttp allAuth h).bind fun i => allAuth[i]? := by
  unfold paired pairedAt
  split
  · split
    · exact find?_eq_findIdx? _ _
    · rfl
  · rw [find?_eq_findIdx?]
    cases hfound : allAuth.findIdx? fun a => !truthyText a.httpName with
    | some i =>
        obtain ⟨hlt, -⟩ := List.findIdx?_eq_some_iff_getElem.mp hfound
        simp [List.getElem?_eq_getElem hlt]
    | none =>
        cases allAuth with
        | nil => rfl
        | cons a allAuth => simp

/-! ## What becomes of a declaration -/

variable (allHttp : List BrokerHttp) (allAuth : List BrokerAuth) (site : String)

/-- The declaration at the position is the one applied to a route. -/
def Applied (i : Nat) : Prop :=
  ∃ (k : Nat) (h : BrokerHttp) (a : BrokerAuth), allHttp[k]? = some h ∧ allAuth[i]? = some a ∧
    pairedAt (decide (allHttp.length > 1)) allAuth h = some i ∧
    (pairAuthToRoutes allHttp allAuth site).1[k]? = some (h.withAuth a)

/-- A returned warning opens with the name of the declaration. -/
def NamedInWarning (a : BrokerAuth) : Prop :=
  ∃ w ∈ (pairAuthToRoutes allHttp allAuth site).2,
    ("@BrokerAuth '" ++ a.authName ++ "'").toList <+: w.toList

/-- Another declaration is applied in the place of the one at the position: on a single route the first
without a `httpName`, or else the first of all; on several an earlier one with the same `httpName`. -/
def GivesWay (i : Nat) : Prop :=
  ∃ j, j ≠ i ∧ Applied allHttp allAuth site j ∧
    (allHttp.length > 1 → j < i ∧
      (allAuth[j]?.map BrokerAuth.httpName) = allAuth[i]?.map BrokerAuth.httpName)

variable {allHttp allAuth site}

theorem applied_of_pairedAt {k i : Nat} {h : BrokerHttp} {a : BrokerAuth} (hk : allHttp[k]? = some h)
    (ha : allAuth[i]? = some a)
    (hpaired : pairedAt (decide (allHttp.length > 1)) allAuth h = some i) :
    Applied allHttp allAuth site i := by
  refine ⟨k, h, a, hk, ha, hpaired, ?_⟩
  have hne : ¬ (allHttp = [] ∨ allAuth = []) := by
    rintro (rfl | rfl)
    · simp at hk
    · simp at ha
  unfold pairAuthToRoutes
  rw [if_neg hne]
  have hfound : paired (decide (allHttp.length > 1)) allAuth h = some a := by
    rw [paired_eq, hpaired]
    exact ha
  simp [hk, pairRoute, hfound]

/-- A warning about a declaration names it. -/
theorem named_of_authWarning {a : BrokerAuth} {w : String} (h : authWarning site allHttp a = some w) :
    ("@BrokerAuth '" ++ a.authName ++ "'").toList <+: w.toList := by
  unfold authWarning at h
  dsimp only at h
  split at h
  · rw [← Option.some.inj h]
    simp only [String.toList_append, List.append_assoc, List.prefix_append_right_inj]
    exact List.prefix_append _ _
  · split at h
    · rw [← Option.some.inj h]
      simp only [String.toList_append, List.append_assoc, List.prefix_append_right_inj]
      exact List.prefix_append _ _
    · cases h

/-- With several routes there is a warning for every declaration that has no `httpName`, or an unknown
one. -/
theorem namedInWarning_of_unmatched (hmulti : allHttp.length > 1) {a : BrokerAuth} (ha : a ∈ allAuth)
    (hunmatched : truthyText a.httpName = false ∨
      (routeNames allHttp).contains (template a.httpName) = false) :
    NamedInWarning allHttp allAuth site a := by
  have hne : ¬ (allHttp = [] ∨ allAuth = []) := by
    rintro (rfl | rfl)
    · simp at hmulti
    · simp at ha
  obtain ⟨w, hw⟩ : ∃ w, authWarning site allHttp a = some w := by
    unfold authWarning
    dsimp only
    split
    · exact ⟨_, rfl⟩
    next htruthy =>
      rcases hunmatched with hfalsy | hunknown
      · rw [hfalsy] at htruthy
        exact absurd rfl htruthy
      · rw [hunknown]
        exact ⟨_, rfl⟩
  refine ⟨w, ?_, named_of_authWarning hw⟩
  unfold pairAuthToRoutes
  rw [if_neg hne]
  simp only [hmulti, decide_true, if_true]
  exact List.mem_filterMap.mpr ⟨a, ha, hw⟩

theorem mem_routeNames {name : String} :
    name ∈ routeNames allHttp ↔ ∃ h ∈ allHttp, truthyText h.name = true ∧ h.name = some name := by
  unfold routeNames
  rw [List.mem_eraseDups, List.mem_filterMap]
  refine exists_congr fun h => and_congr_right fun _ => ?_
  split
  next htruthy => exact ⟨fun heq => ⟨htruthy, heq⟩, And.right⟩
  next hfalsy => exact ⟨nofun, fun hboth => absurd hboth.1 hfalsy⟩

/-- On a single route some declaration is applied. -/
theorem exists_pairedAt_single (hne : allAuth ≠ []) (h : BrokerHttp) :
    ∃ j a, pairedAt false allAuth h = some j ∧ allAuth[j]? = some a := by
  unfold pairedAt
  rw [if_neg Bool.false_ne_true, if_neg hne]
  cases hfound : allAuth.findIdx? fun a => !truthyText a.httpName with
  | some j =>
      obtain ⟨hlt, -⟩ := List.findIdx?_eq_some_iff_getElem.mp hfound
      exact ⟨j, allAuth[j], rfl, List.getElem?_eq_getElem hlt⟩
  | none =>
      obtain ⟨a, rest, rfl⟩ := List.exists_cons_of_ne_nil hne
      exact ⟨0, a, rfl, rfl⟩

/-- On several routes a declaration whose `httpName` is the name of one is applied, or an earlier one
with that `httpName` is. -/
theorem exists_pairedAt_named {i : Nat} {a : BrokerAuth} (ha : allAuth[i]? = some a) {h : BrokerHttp}
    (htruthy : truthyText h.name = true) (hname : a.httpName = h.name) :
    ∃ j b, pairedAt true allAuth h = some j ∧ allAuth[j]? = some b ∧ b.httpName = h.name ∧ j ≤ i := by
  obtain ⟨hi, hget⟩ := List.getElem?_eq_some_iff.mp ha
  unfold pairedAt
  rw [if_pos rfl, if_pos htruthy]
  cases hfound : allAuth.findIdx? fun a => a.httpName == h.name with
  | none =>
      have hnone := List.findIdx?_eq_none_iff.mp hfound a (List.mem_of_getElem? ha)
      rw [hname, beq_self_eq_true] at hnone
      cases hnone
  | some j =>
      obtain ⟨hj, hmatch, hfirst⟩ := List.findIdx?_eq_some_iff_getElem.mp hfound
      refine ⟨j, allAuth[j], rfl, List.getElem?_eq_getElem hj, beq_iff_eq.mp hmatch, ?_⟩
      by_contra hlate
      have hearlier := hfirst i (Nat.lt_of_not_le hlate)
      rw [hget, hname, beq_self_eq_true] at hearlier
      exact hearlier rfl

/-- No declaration is lost: it is applied, named in a warning, or gives way to one that is applied. -/
theorem applied_or_named_or_givesWay (hroutes : allHttp ≠ []) {i : Nat} {a : BrokerAuth}
    (ha : allAuth[i]? = some a) :
    Applied allHttp allAuth site i ∨ NamedInWarning allHttp allAuth site a ∨
      GivesWay allHttp allAuth site i := by
  have hne : allAuth ≠ [] := List.ne_nil_of_mem (List.mem_of_getElem? ha)
  by_cases hmulti : allHttp.length > 1
  · by_cases hmatched : truthyText a.httpName = true ∧
        (routeNames allHttp).contains (template a.httpName) = true
    · obtain ⟨htext, hknown⟩ := hmatched
      obtain ⟨h, hh, htruthy, hname⟩ := mem_routeNames.mp (List.contains_iff_mem.mp hknown)
      have hsame : a.httpName = h.name := by
        rw [hname]
        cases hopt : a.httpName with
        | none =>
            rw [hopt] at htext
            cases htext
        | some name => rfl
      obtain ⟨k, hk⟩ := List.mem_iff_getElem?.mp hh
      obtain ⟨j, b, hat, hb, hbname, hle⟩ := exists_pairedAt_named ha htruthy hsame
      rw [← decide_eq_true hmulti] at hat
      have happlied : Applied allHttp allAuth site j := applied_of_pairedAt hk hb hat
      by_cases hij : j = i
      · exact .inl (hij ▸ happlied)
      · refine .inr (.inr ⟨j, hij, happlied, fun _ => ⟨lt_of_le_of_ne hle hij, ?_⟩⟩)
        rw [hb, ha, Option.map_some, Option.map_some, hbname, hsame]
    · refine .inr (.inl (namedInWarning_of_unmatched hmulti (List.mem_of_getElem? ha) ?_))
      by_cases htext : truthyText a.httpName = true
      · exact .inr (Bool.eq_false_iff.mpr fun hknown => hmatched ⟨htext, hknown⟩)
      · exact .inl (Bool.eq_false_iff.mpr htext)
  · obtain ⟨h, rest, rfl⟩ := List.exists_cons_of_ne_nil hroutes
    obtain ⟨j, b, hat, hb⟩ := exists_pairedAt_single hne h
    rw [← decide_eq_false hmulti] at hat
    have happlied : Applied (h :: rest) allAuth site j := applied_of_pairedAt (k := 0) rfl hb hat
    by_cases hij : j = i
    · exact .inl (hij ▸ happlied)
    · exact .inr (.inr ⟨j, hij, happlied, fun h => absurd h hmulti⟩)

/-- With several routes a route is left as it is, or gets a declaration with its own name. -/
theorem own_httpName (hmulti : allHttp.length > 1) {k : Nat} {h : BrokerHttp}
    (hk : allHttp[k]? = some h) :
    (pairAuthToRoutes allHttp allAuth site).1[k]? = some h ∨
      ∃ a ∈ allAuth, a.httpName = h.name ∧ truthyText h.name = true ∧
        (pairAuthToRoutes allHttp allAuth site).1[k]? = some (h.withAuth a) := by
  unfold pairAuthToRoutes
  split
  · exact .inl hk
  · simp only [hmulti, decide_true, List.getElem?_map, hk, Option.map_some]
    cases hfound : paired true allAuth h with
    | none =>
        left
        rw [pairRoute, hfound]
    | some a =>
        right
        unfold paired at hfound
        rw [if_pos rfl] at hfound
        split at hfound
        next htruthy =>
          have hmatch := List.find?_some hfound
          refine ⟨a, List.mem_of_find?_eq_some hfound, beq_iff_eq.mp hmatch, htruthy, ?_⟩
          rw [pairRoute, paired, if_pos rfl, if_pos htruthy, hfound]
        next => cases hfound

/-- What the pairing accounts for: every declaration of a method that has routes, and on several routes
the name of what each receives. -/
structure Accounted (allHttp : List BrokerHttp) (allAuth : List BrokerAuth) (site : String) : Prop where
  everyAuth : allHttp ≠ [] → ∀ (i : Nat) (a : BrokerAuth), allAuth[i]? = some a →
    Applied allHttp allAuth site i ∨ NamedInWarning allHttp allAuth site a ∨
      GivesWay allHttp allAuth site i
  ownName : allHttp.length > 1 → ∀ (k : Nat) (h : BrokerHttp), allHttp[k]? = some h →
    (pairAuthToRoutes allHttp allAuth site).1[k]? = some h ∨
      ∃ a ∈ allAuth, a.httpName = h.name ∧ truthyText h.name = true ∧
        (pairAuthToRoutes allHttp allAuth site).1[k]? = some (h.withAuth a)

/-- **No declared auth is lost.**  Every `@BrokerAuth` of a method with routes is applied to a route, is
named in a warning, or gives way to one that is applied; and with several routes no route receives an
auth declared for another name. -/
theorem pairAuthToRoutes_accounts (allHttp : List BrokerHttp) (allAuth : List BrokerAuth)
    (site : String) : Accounted allHttp allAuth site :=
  ⟨fun hroutes _ _ ha => applied_or_named_or_givesWay hroutes ha, fun hmulti _ _ hk =>
    own_httpName hmulti hk⟩

/-- A single route takes the first of two auths, and no warning names the second. -/
theorem pairAuthToRoutes_drops : ¬ ∀ (allHttp : List BrokerHttp) (allAuth : List BrokerAuth)
    (site : String) (i : Nat) (a : BrokerAuth), allAuth[i]? = some a →
    Applied allHttp allAuth site i ∨ NamedInWarning allHttp allAuth site a := by
  intro hall
  rcases hall [{}] [{ authName := "customers" }, { authName := "admins" }] "" 1
    { authName := "admins" } rfl with ⟨k, h, a, -, -, hat, -⟩ | ⟨w, hw, -⟩
  · have hzero : pairedAt false [{ authName := "customers" }, { authName := "admins" }] h = some 0 := rfl
    rw [show decide ([({} : BrokerHttp)].length > 1) = false from rfl, hzero] at hat
    cases hat
  · cases hw

end NestAmqp.Broker.AuthPairing
