/-
# NestAmqp.Lib.Recency — maps in the order of their last writes.

A map that iterates in insertion order, and whose every write takes the key out and puts it back at the
end, lists its keys by their last write.  `lastWrite` reads that time off the log of writes, newest
first; `InOrder` says that the map agrees with it.  Removing entries keeps the order, a write keeps it,
and whatever is dropped from the front was written before whatever stays.  `Since` is the same question
about one thing in a log of events, oldest first: it was begun, and nothing has ended it since.
-/
import Mathlib.Data.List.Basic
import Mathlib.Data.List.Nodup

namespace NestAmqp.Lib.Recency

variable {κ β : Type} [DecidableEq κ]

/-- The time of the last write of a key, counted from one; zero when the key was never written. -/
def lastWrite : List κ → κ → Nat
  | [], _ => 0
  | key :: older, k => if key = k then older.length + 1 else lastWrite older k

theorem lastWrite_le (log : List κ) (k : κ) : lastWrite log k ≤ log.length := by
  induction log with
  | nil => exact Nat.le_refl 0
  | cons key older ih =>
      unfold lastWrite
      split
      · exact Nat.le_refl _
      · exact Nat.le_succ_of_le ih

@[simp] theorem lastWrite_self (log : List κ) (k : κ) : lastWrite (k :: log) k = log.length + 1 :=
  if_pos rfl

theorem lastWrite_of_ne {key k : κ} (h : key ≠ k) (log : List κ) :
    lastWrite (key :: log) k = lastWrite log k := if_neg h

/-- The entries of the map stand in the order of their last writes, and all were written. -/
structure InOrder (log : List κ) (map : List (κ × β)) : Prop where
  recency : map.Pairwise fun x y => lastWrite log x.1 < lastWrite log y.1
  written : ∀ e ∈ map, 0 < lastWrite log e.1

theorem inOrder_nil (log : List κ) : InOrder log ([] : List (κ × β)) := ⟨.nil, nofun⟩

namespace InOrder

variable {log : List κ} {map : List (κ × β)}

/-- Removing entries keeps the order. -/
theorem sublist (h : InOrder log map) {map' : List (κ × β)} (hsub : map'.Sublist map) :
    InOrder log map' :=
  ⟨h.recency.sublist hsub, fun e he => h.written e (hsub.subset he)⟩

/-- A write moves its key to the end. -/
theorem write (h : InOrder log map) {key : κ} (hout : ∀ e ∈ map, e.1 ≠ key) (b : β) :
    InOrder (key :: log) (map ++ [(key, b)]) := by
  have hkept : ∀ e ∈ map, lastWrite (key :: log) e.1 = lastWrite log e.1 :=
    fun e he => lastWrite_of_ne (Ne.symm (hout e he)) log
  constructor
  · rw [List.pairwise_append]
    refine ⟨h.recency.imp_of_mem fun hx hy hlt => ?_, List.pairwise_singleton _ _, fun x hx y hy => ?_⟩
    · rw [hkept _ hx, hkept _ hy]
      exact hlt
    · obtain rfl := List.mem_singleton.mp hy
      rw [hkept x hx, lastWrite_self]
      exact Nat.lt_succ_of_le (lastWrite_le log x.1)
  · intro e he
    rcases List.mem_append.mp he with hold | hnew
    · rw [hkept e hold]
      exact h.written e hold
    · obtain rfl := List.mem_singleton.mp hnew
      rw [lastWrite_self]
      exact Nat.succ_pos _

/-- What is dropped from the front was written before what stays. -/
theorem oldest {out kept : List (κ × β)} (h : InOrder log (out ++ kept)) :
    ∀ x ∈ out, ∀ y ∈ kept, lastWrite log x.1 < lastWrite log y.1 :=
  (List.pairwise_append.mp h.recency).2.2

end InOrder

/-! ## Begun and not ended since -/

/-- An event of the log starts it, and no later one ends it. -/
def Since {ι : Type} (starts ends : ι → Prop) (log : List ι) : Prop :=
  ∃ before i after, log = before ++ i :: after ∧ starts i ∧ ∀ j ∈ after, ¬ ends j

section Since

variable {ι : Type} {starts ends : ι → Prop}

theorem not_since_nil : ¬ Since starts ends [] := by
  rintro ⟨before, i, after, heq, -⟩
  simp at heq

/-- **One more event**: it starts the thing, or the thing stood before and it does not end it. -/
theorem since_concat {log : List ι} {i : ι} :
    Since starts ends (log ++ [i]) ↔ starts i ∨ (Since starts ends log ∧ ¬ ends i) := by
  constructor
  · rintro ⟨before, j, after, heq, hstarts, hkept⟩
    rcases List.eq_nil_or_concat after with rfl | ⟨init, last, rfl⟩
    · obtain ⟨-, hlast⟩ := List.append_inj' heq rfl
      exact .inl (List.singleton_inj.mp hlast ▸ hstarts)
    · rw [List.concat_eq_append] at heq hkept
      rw [← List.cons_append, ← List.append_assoc] at heq
      obtain ⟨rfl, hlast⟩ := List.append_inj' heq rfl
      obtain rfl := List.singleton_inj.mp hlast
      refine .inr ⟨⟨before, j, init, rfl, hstarts, fun k hk => hkept k (List.mem_append_left _ hk)⟩, ?_⟩
      exact hkept i (List.mem_append_right _ List.mem_cons_self)
  · rintro (hstarts | ⟨⟨before, j, after, rfl, hstarts, hkept⟩, hends⟩)
    · exact ⟨log, i, [], rfl, hstarts, List.forall_mem_nil _⟩
    · refine ⟨before, j, after ++ [i], by simp, hstarts, fun k hk => ?_⟩
      rcases List.mem_append.mp hk with hk | hk
      · exact hkept k hk
      · exact List.mem_singleton.mp hk ▸ hends

end Since

end NestAmqp.Lib.Recency
