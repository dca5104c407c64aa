/-
# NestAmqp.Lib.Tasks — a list of tasks of which one takes a step.

Concurrent calls are a list: a new call is appended, and a step replaces one of them in place.  Two
rules carry an invariant over such a step: what holds of every task, and that some task is there.
-/
import Mathlib.Data.List.Basic

namespace NestAmqp.Lib.Tasks

variable {τ : Type} {tasks : List τ} {i : Nat} {old new : τ}

/-- The task that took the step is there. -/
theorem mem_set_self (h : tasks[i]? = some old) : new ∈ tasks.set i new := by
  obtain ⟨hlt, -⟩ := List.getElem?_eq_some_iff.mp h
  exact List.mem_set hlt new

/-- A task that did not take the step is still there. -/
theorem mem_set_of_mem (h : tasks[i]? = some old) {t : τ} (ht : t ∈ tasks) :
    t ∈ tasks.set i new ∨ t = old := by
  obtain ⟨j, hj⟩ := List.mem_iff_getElem?.mp ht
  by_cases hij : i = j
  · subst hij
    rw [h] at hj
    exact .inr (Option.some.inj hj).symm
  · refine .inl (List.mem_iff_getElem?.mpr ⟨j, ?_⟩)
    rw [List.getElem?_set_ne hij]
    exact hj

/-- **What holds of every task** holds after a step whose task meets it. -/
theorem forall_set {P : τ → Prop} (hold : ∀ t ∈ tasks, P t) (hnew : P new) :
    ∀ t ∈ tasks.set i new, P t := by
  intro t ht
  rcases List.mem_or_eq_of_mem_set ht with h | rfl
  · exact hold t h
  · exact hnew

/-- **A task that is there** stays there, when the step keeps what it is known by. -/
theorem exists_set {Q : τ → Prop} (h : tasks[i]? = some old) (hQ : Q old → Q new)
    (hex : ∃ t ∈ tasks, Q t) : ∃ t ∈ tasks.set i new, Q t := by
  obtain ⟨t, ht, hqt⟩ := hex
  rcases mem_set_of_mem h ht with hmem | rfl
  · exact ⟨t, hmem, hqt⟩
  · exact ⟨new, mem_set_self h, hQ hqt⟩

/-- A step that does not change whether its task is one of a kind. -/
theorem exists_set_iff {Q : τ → Prop} (h : tasks[i]? = some old) (hQ : Q new ↔ Q old) :
    (∃ t ∈ tasks.set i new, Q t) ↔ ∃ t ∈ tasks, Q t := by
  constructor
  · rintro ⟨t, ht, hqt⟩
    rcases List.mem_or_eq_of_mem_set ht with hmem | rfl
    · exact ⟨t, hmem, hqt⟩
    · exact ⟨old, List.mem_of_getElem? h, hQ.mp hqt⟩
  · exact exists_set h hQ.mpr

/-- A new call that is not of a kind. -/
theorem exists_concat_iff {Q : τ → Prop} (hQ : ¬ Q new) : (∃ t ∈ tasks ++ [new], Q t) ↔ ∃ t ∈ tasks, Q t := by
  constructor
  · rintro ⟨t, ht, hqt⟩
    rcases List.mem_append.mp ht with hmem | hnew
    · exact ⟨t, hmem, hqt⟩
    · rw [List.mem_singleton.mp hnew] at hqt
      exact absurd hqt hQ
  · rintro ⟨t, ht, hqt⟩
    exact ⟨t, List.mem_append_left _ ht, hqt⟩

/-- How many tasks are of a kind, behind a step of one of them. -/
theorem countP_step (h : tasks[i]? = some old) (p : τ → Bool) :
    (tasks.set i new).countP p + (if p old then 1 else 0) = tasks.countP p + (if p new then 1 else 0) := by
  obtain ⟨hlt, rfl⟩ := List.getElem?_eq_some_iff.mp h
  have hset := List.countP_set (p := p) (a := new) hlt
  have hold : (if p tasks[i] then 1 else 0) ≤ tasks.countP p := by
    split
    next hp => exact List.countP_pos_iff.mpr ⟨_, List.getElem_mem hlt, hp⟩
    next => exact Nat.zero_le _
  omega

/-- A new call holds what it starts with. -/
theorem forall_concat {P : τ → Prop} (hold : ∀ t ∈ tasks, P t) (hnew : P new) :
    ∀ t ∈ tasks ++ [new], P t := by
  intro t ht
  rcases List.mem_append.mp ht with h | h
  · exact hold t h
  · rw [List.mem_singleton.mp h]
    exact hnew

/-! ## Two lists side by side -/

variable {tasks' : List τ} {new' : τ} {L : τ → τ → Prop}

/-- At one place there is a task in both lists, or in neither. -/
theorem forall₂_getElem? {τ' : Type} {L : τ → τ' → Prop} {others : List τ'} (h : List.Forall₂ L tasks others)
    (i : Nat) : tasks[i]? = none ∧ others[i]? = none ∨
      ∃ t t', tasks[i]? = some t ∧ others[i]? = some t' ∧ L t t' := by
  induction h generalizing i with
  | nil => exact .inl ⟨rfl, rfl⟩
  | cons hL _ ih =>
      cases i with
      | zero => exact .inr ⟨_, _, rfl, rfl, hL⟩
      | succ i => exact ih i

/-- The same task takes a step in both. -/
theorem forall₂_set (h : List.Forall₂ L tasks tasks') (hnew : L new new') (i : Nat) :
    List.Forall₂ L (tasks.set i new) (tasks'.set i new') := by
  induction h generalizing i with
  | nil => exact .nil
  | cons hL hrest ih =>
      cases i with
      | zero => exact .cons hnew hrest
      | succ i => exact .cons hL (ih i)

/-- A new call in both. -/
theorem forall₂_concat (h : List.Forall₂ L tasks tasks') (hnew : L new new') :
    List.Forall₂ L (tasks ++ [new]) (tasks' ++ [new']) := by
  induction h with
  | nil => exact .cons hnew .nil
  | cons hL _ ih => exact .cons hL ih

/-- The same tasks are kept in both. -/
theorem forall₂_filter (h : List.Forall₂ L tasks tasks') {p q : τ → Bool} (hpq : ∀ t t', L t t' → p t = q t') :
    List.Forall₂ L (tasks.filter p) (tasks'.filter q) := by
  induction h with
  | nil => exact .nil
  | cons hL _ ih =>
      rw [List.filter_cons, List.filter_cons, hpq _ _ hL]
      split
      · exact .cons hL ih
      · exact ih

/-- The same question has the same answer in both. -/
theorem any_congr (h : List.Forall₂ L tasks tasks') {p q : τ → Bool} (hpq : ∀ t t', L t t' → p t = q t') :
    tasks.any p = tasks'.any q := by
  induction h with
  | nil => rfl
  | cons hL _ ih => rw [List.any_cons, List.any_cons, hpq _ _ hL, ih]

end NestAmqp.Lib.Tasks
