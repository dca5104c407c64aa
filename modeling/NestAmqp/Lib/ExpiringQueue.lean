/-
# NestAmqp.Lib.ExpiringQueue — queues that delay their messages, and that are deleted when unused.

A queue holds every item for a fixed time and then passes it on to a target.  The queue itself lives on
a second clock: unless it is declared again, it is deleted some time after its last declaration, with
whatever it still holds.  This module is the bookkeeping between the two clocks.  `Outlasts` says that no
queue is deleted before the items in it are due; under it letting time pass loses nothing, and every
item is passed on in the end.  Without it something is lost, however long one waits.
-/
import Mathlib.Data.List.Perm.Basic

namespace NestAmqp.Lib.ExpiringQueue

/-- An item and the time it is passed on. -/
structure Parked (α : Type) where
  item : α
  due : Int

/-- A queue, with the time it was last declared. -/
structure Queue (κ α : Type) where
  key : κ
  target : κ
  ttl : Int
  expires : Int
  declaredAt : Int
  parked : List (Parked α) := []

variable {κ α : Type}

/-- When the queue is deleted unless it is declared again. -/
def Queue.deadline (q : Queue κ α) : Int := q.declaredAt + q.expires

/-- The items of a queue, each with the target it is meant for. -/
def Queue.contents (q : Queue κ α) : List (α × κ) := q.parked.map fun p => (p.item, q.target)

/-- What the queue passes on until the time `t`: what is due by then, and before the queue is gone. -/
def Queue.passedOn (t : Int) (q : Queue κ α) : List (α × κ) :=
  (q.parked.filter fun p => p.due ≤ t ∧ p.due ≤ q.deadline).map fun p => (p.item, q.target)

/-- The queue at the time `t`, if it is still there. -/
def Queue.rest (t : Int) (q : Queue κ α) : Option (Queue κ α) :=
  if t ≤ q.deadline then some { q with parked := q.parked.filter fun p => t < p.due } else none

/-- The items of all queues. -/
def contents (qs : List (Queue κ α)) : List (α × κ) := qs.flatMap Queue.contents

/-- What the queues pass on until the time `t`. -/
def passedOn (t : Int) (qs : List (Queue κ α)) : List (α × κ) := qs.flatMap (Queue.passedOn t)

/-- The queues that are left at the time `t`. -/
def rest (t : Int) (qs : List (Queue κ α)) : List (Queue κ α) := qs.filterMap (Queue.rest t)

section Operations

variable [DecidableEq κ]

/-- The queue with this key. -/
def find (key : κ) (qs : List (Queue κ α)) : Option (Queue κ α) := qs.find? fun q => q.key = key

/-- Declare a queue: one that exists only gets its clock set back. -/
def declare (now : Int) (new : Queue κ α) : List (Queue κ α) → List (Queue κ α)
  | [] => [{ new with declaredAt := now, parked := [] }]
  | q :: qs => if q.key = new.key then { q with declaredAt := now } :: qs else q :: declare now new qs

/-- Put an item into the queue with this key, if there is one. -/
def park (now : Int) (key : κ) (item : α) : List (Queue κ α) → List (Queue κ α)
  | [] => []
  | q :: qs =>
      if q.key = key then { q with parked := q.parked ++ [{ item, due := now + q.ttl }] } :: qs
      else q :: park now key item qs

end Operations

/-! ## What the operations do to the items -/

@[simp] theorem contents_nil : contents ([] : List (Queue κ α)) = [] := rfl

@[simp] theorem contents_cons (q : Queue κ α) (qs : List (Queue κ α)) :
    contents (q :: qs) = q.contents ++ contents qs := rfl

section Operations

variable [DecidableEq κ]

@[simp] theorem find_nil (key : κ) : find key ([] : List (Queue κ α)) = none := rfl

theorem find_cons (key : κ) (q : Queue κ α) (qs : List (Queue κ α)) :
    find key (q :: qs) = if q.key = key then some q else find key qs := by
  unfold find
  rw [List.find?_cons]
  by_cases h : q.key = key <;> simp [h]

theorem mem_of_find {key : κ} {qs : List (Queue κ α)} {q : Queue κ α} (h : find key qs = some q) :
    q ∈ qs ∧ q.key = key := by
  unfold find at h
  exact ⟨List.mem_of_find?_eq_some h, by simpa using List.find?_some h⟩

/-- Declaring a queue moves no item. -/
theorem contents_declare (now : Int) (new : Queue κ α) (qs : List (Queue κ α)) :
    contents (declare now new qs) = contents qs := by
  induction qs with
  | nil => rfl
  | cons q qs ih =>
      unfold declare
      split
      · rfl
      · rw [contents_cons, ih, contents_cons]

/-- Without the queue the item is dropped. -/
theorem park_of_missing {key : κ} {qs : List (Queue κ α)} (h : find key qs = none) (now : Int)
    (item : α) : park now key item qs = qs := by
  induction qs with
  | nil => rfl
  | cons q qs ih =>
      rw [find_cons] at h
      unfold park
      split at h
      · cases h
      next hkey => rw [if_neg hkey, ih h]

/-- With the queue the item is among the others. -/
theorem contents_park {key : κ} {qs : List (Queue κ α)} {q : Queue κ α} (h : find key qs = some q)
    (now : Int) (item : α) :
    (contents (park now key item qs)).Perm (contents qs ++ [(item, q.target)]) := by
  induction qs with
  | nil => cases h
  | cons q' qs ih =>
      rw [find_cons] at h
      unfold park
      split at h
      next hkey =>
        obtain rfl := Option.some.inj h
        rw [if_pos hkey, contents_cons, contents_cons]
        have hadded : Queue.contents { q' with parked := q'.parked ++ [{ item, due := now + q'.ttl }] } =
            q'.contents ++ [(item, q'.target)] := by
          unfold Queue.contents
          rw [List.map_append]
          rfl
        rw [hadded, List.append_assoc, List.append_assoc]
        exact List.perm_append_comm.append_left _
      next hkey =>
        rw [if_neg hkey, contents_cons, contents_cons, List.append_assoc]
        exact (ih h).append_left _

end Operations

/-! ## Two clocks -/

/-- No queue is deleted before its items are due. -/
def Outlasts (qs : List (Queue κ α)) : Prop := ∀ q ∈ qs, ∀ p ∈ q.parked, p.due ≤ q.deadline

/-- What is left of a queue after a while. -/
def Queue.kept (t : Int) (q : Queue κ α) : List (α × κ) := ((q.rest t).map Queue.contents).getD []

theorem contents_rest (t : Int) (qs : List (Queue κ α)) :
    contents (rest t qs) = qs.flatMap (Queue.kept t) := by
  induction qs with
  | nil => rfl
  | cons q qs ih =>
      unfold rest
      rw [List.filterMap_cons, List.flatMap_cons, ← ih]
      unfold Queue.kept
      cases q.rest t <;> rfl

/-- One queue that outlasts its items neither loses nor duplicates one. -/
theorem Queue.passedOn_append_kept {q : Queue κ α} (hq : ∀ p ∈ q.parked, p.due ≤ q.deadline) (t : Int) :
    (q.passedOn t ++ q.kept t).Perm q.contents := by
  unfold Queue.passedOn Queue.kept Queue.rest
  by_cases ht : t ≤ q.deadline
  · have hdue : (q.parked.filter fun p => p.due ≤ t ∧ p.due ≤ q.deadline) =
        q.parked.filter fun p => p.due ≤ t := by
      refine List.filter_congr fun p hp => ?_
      have hle := hq p hp
      simp [hle]
    have hnot : (q.parked.filter fun p => decide (t < p.due)) =
        q.parked.filter fun p => !decide (p.due ≤ t) := by
      refine List.filter_congr fun p _ => ?_
      rw [← decide_not, decide_eq_decide]
      omega
    rw [if_pos ht, hdue]
    show (_ ++ List.map _ (q.parked.filter fun p => decide (t < p.due))).Perm _
    rw [hnot, ← List.map_append]
    exact (List.filter_append_perm _ q.parked).map _
  · have hall : (q.parked.filter fun p => p.due ≤ t ∧ p.due ≤ q.deadline) = q.parked := by
      refine List.filter_eq_self.mpr fun p hp => ?_
      have hle := hq p hp
      rw [decide_eq_true_iff]
      omega
    rw [if_neg ht, hall, Option.map_none, Option.getD_none, List.append_nil]
    exact List.Perm.refl _

/-- **Time loses nothing.**  What is passed on until `t` and what is left then is what there was. -/
theorem passedOn_append_rest {qs : List (Queue κ α)} (h : Outlasts qs) (t : Int) :
    (passedOn t qs ++ contents (rest t qs)).Perm (contents qs) := by
  rw [contents_rest]
  exact (List.flatMap_append_perm qs _ _).trans
    (List.Perm.flatMap_left qs fun q hq => Queue.passedOn_append_kept (h q hq) t)

theorem Queue.length_passedOn_le (t : Int) (q : Queue κ α) :
    (q.passedOn t).length ≤ q.contents.length := by
  unfold Queue.passedOn Queue.contents
  rw [List.length_map, List.length_map]
  exact List.length_filter_le _ _

theorem Queue.length_passedOn_lt {q : Queue κ α} {p : Parked α} (hp : p ∈ q.parked)
    (hlate : q.deadline < p.due) (t : Int) : (q.passedOn t).length < q.contents.length := by
  unfold Queue.passedOn Queue.contents
  rw [List.length_map, List.length_map]
  refine List.length_filter_lt_length_iff_exists.mpr ⟨p, hp, ?_⟩
  rw [decide_eq_true_iff]
  omega

theorem length_passedOn_le (t : Int) (qs : List (Queue κ α)) :
    (passedOn t qs).length ≤ (contents qs).length := by
  induction qs with
  | nil => exact Nat.le_refl 0
  | cons q qs ih =>
      have hhead := Queue.length_passedOn_le t q
      unfold passedOn contents at ih ⊢
      rw [List.flatMap_cons, List.flatMap_cons, List.length_append, List.length_append]
      omega

/-- **Time loses an item that its queue does not outlast**, however long one waits. -/
theorem length_passedOn_lt {qs : List (Queue κ α)} {q : Queue κ α} (hq : q ∈ qs) {p : Parked α}
    (hp : p ∈ q.parked) (hlate : q.deadline < p.due) (t : Int) :
    (passedOn t qs).length < (contents qs).length := by
  induction qs with
  | nil => cases hq
  | cons q' qs ih =>
      have hhead := Queue.length_passedOn_le t q'
      have hrest := length_passedOn_le t qs
      unfold passedOn contents at ih hrest ⊢
      rw [List.flatMap_cons, List.flatMap_cons, List.length_append, List.length_append]
      rcases List.mem_cons.mp hq with rfl | hq
      · have hlt := Queue.length_passedOn_lt hp hlate t
        omega
      · have hlt := ih hq
        omega

/-- The queues are all gone after a while. -/
theorem exists_rest_eq_nil (qs : List (Queue κ α)) : ∃ t, ∀ t', t ≤ t' → rest t' qs = [] := by
  induction qs with
  | nil => exact ⟨0, fun _ _ => rfl⟩
  | cons q qs ih =>
      obtain ⟨t, ht⟩ := ih
      refine ⟨max t (q.deadline + 1), fun t' hle => ?_⟩
      unfold rest Queue.rest
      rw [List.filterMap_cons, if_neg (by omega)]
      exact ht t' (by omega)

/-! ## What keeps the queues outlasting their items -/

theorem outlasts_rest {qs : List (Queue κ α)} (h : Outlasts qs) (t : Int) : Outlasts (rest t qs) := by
  intro q hq p hp
  obtain ⟨q', hq', hrest⟩ := List.mem_filterMap.mp hq
  unfold Queue.rest at hrest
  split at hrest
  · obtain rfl := Option.some.inj hrest
    exact h q' hq' p (List.mem_filter.mp hp).1
  · cases hrest

section Operations

variable [DecidableEq κ]

/-- A declaration of a queue that was not declared later. -/
theorem outlasts_declare {qs : List (Queue κ α)} (h : Outlasts qs) {now : Int}
    (hnow : ∀ q ∈ qs, q.declaredAt ≤ now) (new : Queue κ α) : Outlasts (declare now new qs) := by
  induction qs with
  | nil =>
      intro q hq p hp
      rw [List.mem_singleton.mp hq] at hp
      cases hp
  | cons q qs ih =>
      have hhead := h q (.head _)
      have htail : Outlasts qs := fun q' hq' => h q' (.tail _ hq')
      unfold declare
      split
      · intro q' hq' p hp
        rcases List.mem_cons.mp hq' with rfl | hq'
        · have hdue : p.due ≤ q.declaredAt + q.expires := hhead p hp
          have hlast := hnow q (.head _)
          show p.due ≤ now + q.expires
          omega
        · exact htail q' hq' p hp
      · intro q' hq' p hp
        rcases List.mem_cons.mp hq' with rfl | hq'
        · exact hhead p hp
        · exact ih htail (fun q hq => hnow q (.tail _ hq)) q' hq' p hp

/-- An item that is put into a queue that outlasts it. -/
theorem outlasts_park {qs : List (Queue κ α)} (h : Outlasts qs) {key : κ} {q : Queue κ α}
    (hq : find key qs = some q) {now : Int} (hlast : now + q.ttl ≤ q.deadline) (item : α) :
    Outlasts (park now key item qs) := by
  induction qs with
  | nil => cases hq
  | cons q' qs ih =>
      have hhead := h q' (.head _)
      have htail : Outlasts qs := fun q hq => h q (.tail _ hq)
      rw [find_cons] at hq
      unfold park
      split at hq
      next hkey =>
        obtain rfl := Option.some.inj hq
        rw [if_pos hkey]
        intro q hmem p hp
        rcases List.mem_cons.mp hmem with rfl | hmem
        · rcases List.mem_append.mp hp with hp | hp
          · exact hhead p hp
          · rw [List.mem_singleton.mp hp]
            exact hlast
        · exact htail q hmem p hp
      next hkey =>
        rw [if_neg hkey]
        intro q hmem p hp
        rcases List.mem_cons.mp hmem with rfl | hmem
        · exact hhead p hp
        · exact ih htail hq q hmem p hp

/-- The parked item is in its queue. -/
theorem exists_mem_park {qs : List (Queue κ α)} {key : κ} {q : Queue κ α} (hq : find key qs = some q)
    (now : Int) (item : α) :
    ∃ q' ∈ park now key item qs, q'.deadline = q.deadline ∧
      { item, due := now + q.ttl } ∈ q'.parked := by
  induction qs with
  | nil => cases hq
  | cons q' qs ih =>
      rw [find_cons] at hq
      unfold park
      split at hq
      next hkey =>
        obtain rfl := Option.some.inj hq
        rw [if_pos hkey]
        exact ⟨_, .head _, rfl, List.mem_append_right _ (.head _)⟩
      next hkey =>
        rw [if_neg hkey]
        obtain ⟨q'', hmem, hrest⟩ := ih hq
        exact ⟨q'', .tail _ hmem, hrest⟩

/-! ## What all queues keep -/

omit [DecidableEq κ] in
theorem forall_rest {P : Queue κ α → Prop} {qs : List (Queue κ α)} (h : ∀ q ∈ qs, P q) {t : Int}
    (hP : ∀ q parked, P q → P { q with parked }) : ∀ q ∈ rest t qs, P q := by
  intro q hq
  obtain ⟨q', hq', hrest⟩ := List.mem_filterMap.mp hq
  unfold Queue.rest at hrest
  split at hrest
  · obtain rfl := Option.some.inj hrest
    exact hP q' _ (h q' hq')
  · cases hrest

theorem forall_declare {P : Queue κ α → Prop} {qs : List (Queue κ α)} (h : ∀ q ∈ qs, P q)
    {now : Int} {new : Queue κ α} (hnew : P { new with declaredAt := now, parked := [] })
    (hP : ∀ q, P q → P { q with declaredAt := now }) : ∀ q ∈ declare now new qs, P q := by
  induction qs with
  | nil =>
      intro q hq
      rw [List.mem_singleton.mp hq]
      exact hnew
  | cons q qs ih =>
      have hhead := h q (.head _)
      have htail : ∀ q ∈ qs, P q := fun q hq => h q (.tail _ hq)
      unfold declare
      split
      · intro q' hq'
        rcases List.mem_cons.mp hq' with rfl | hq'
        · exact hP q hhead
        · exact htail q' hq'
      · intro q' hq'
        rcases List.mem_cons.mp hq' with rfl | hq'
        · exact hhead
        · exact ih htail q' hq'

theorem forall_park {P : Queue κ α → Prop} {qs : List (Queue κ α)} (h : ∀ q ∈ qs, P q) {now : Int}
    {key : κ} {item : α} (hP : ∀ q parked, P q → P { q with parked }) :
    ∀ q ∈ park now key item qs, P q := by
  induction qs with
  | nil => exact h
  | cons q qs ih =>
      have hhead := h q (.head _)
      have htail : ∀ q ∈ qs, P q := fun q hq => h q (.tail _ hq)
      unfold park
      split
      · intro q' hq'
        rcases List.mem_cons.mp hq' with rfl | hq'
        · exact hP q _ hhead
        · exact htail q' hq'
      · intro q' hq'
        rcases List.mem_cons.mp hq' with rfl | hq'
        · exact hhead
        · exact ih htail q' hq'

end Operations

end NestAmqp.Lib.ExpiringQueue
