/-
# NestAmqp.Lib.Agreement — two runs that cannot be told apart by what they return.

Two scripts agree when, from states in a relation, they return or throw the same and end in states in the
relation.  The rules follow the syntax of scripts, both sides at once; a part that returns nothing and
moves only within the relation may differ freely.
-/
import NestAmqp.Lib.Script

namespace NestAmqp.Lib.Script

variable {Op : Type} {Ans : Op → Type} {χ σ τ α β : Type}

/-- From related states, the runs end alike, in related states. -/
def Agree (service : Service Op Ans χ σ) (service' : Service Op Ans χ τ) (R : σ → τ → Prop)
    (p q : Script Op Ans χ α) : Prop :=
  ∀ s t, R s t → (run service p s).1 = (run service' q t).1 ∧ R (run service p s).2 (run service' q t).2

section Rules

variable {service : Service Op Ans χ σ} {service' : Service Op Ans χ τ} {R : σ → τ → Prop}
  {p q : Script Op Ans χ α}

theorem agree_pure (a : α) : Agree service service' R (pure a) (pure a) := fun _ _ h => ⟨rfl, h⟩

theorem agree_threw (e : χ) :
    Agree service service' R (threw e : Script Op Ans χ α) (threw e) := fun _ _ h => ⟨rfl, h⟩

theorem agree_perform {op : Op}
    (h : ∀ s t, R s t → (service s op).1 = (service' t op).1 ∧ R (service s op).2 (service' t op).2) :
    Agree service service' R (perform op) (perform op) := by
  intro s t hst
  rw [run_perform, run_perform]
  exact h s t hst

theorem Agree.bind {f g : α → Script Op Ans χ β} (hp : Agree service service' R p q)
    (hf : ∀ a, Agree service service' R (f a) (g a)) : Agree service service' R (p >>= f) (q >>= g) := by
  intro s t hst
  obtain ⟨hanswer, hstates⟩ := hp s t hst
  rw [run_bind, run_bind]
  generalize run service p s = r at hanswer hstates
  generalize run service' q t = r' at hanswer hstates
  obtain ⟨answer, s'⟩ := r
  obtain ⟨answer', t'⟩ := r'
  obtain rfl : answer = answer' := hanswer
  cases answer with
  | ok a => exact hf a s' t' hstates
  | error e => exact ⟨rfl, hstates⟩

theorem Agree.tryCatch {f g : χ → Script Op Ans χ α} (hp : Agree service service' R p q)
    (hf : ∀ e, Agree service service' R (f e) (g e)) :
    Agree service service' R (p.tryCatch f) (q.tryCatch g) := by
  intro s t hst
  obtain ⟨hanswer, hstates⟩ := hp s t hst
  rw [run_tryCatch, run_tryCatch]
  generalize run service p s = r at hanswer hstates
  generalize run service' q t = r' at hanswer hstates
  obtain ⟨answer, s'⟩ := r
  obtain ⟨answer', t'⟩ := r'
  obtain rfl : answer = answer' := hanswer
  cases answer with
  | ok a => exact ⟨rfl, hstates⟩
  | error e => exact hf e s' t' hstates

theorem agree_forEach {f g : β → Script Op Ans χ Unit} {l : List β}
    (h : ∀ x ∈ l, Agree service service' R (f x) (g x)) :
    Agree service service' R (forEach f l) (forEach g l) := by
  induction l with
  | nil => exact agree_pure ()
  | cons x l ih =>
      exact (h x (.head _)).bind fun _ => ih fun y hy => h y (.tail _ hy)

/-- Two parts that return nothing and keep the relation, each against any state of the other side. -/
theorem agree_of_quiet {p q : Script Op Ans χ Unit}
    (hp : ∀ t, Triple service (fun s => R s t) p (fun _ s => R s t) fun _ _ => False)
    (hq : ∀ s, Triple service' (fun t => R s t) q (fun _ t => R s t) fun _ _ => False) :
    Agree service service' R p q := by
  intro s t hst
  have hleft := hp t s hst
  generalize run service p s = r at hleft
  rcases r with ⟨e | a, s'⟩
  · exact hleft.elim
  · have hright := hq s' t hleft
    generalize run service' q t = r' at hright
    rcases r' with ⟨e | a', t'⟩
    · exact hright.elim
    · exact ⟨rfl, hright⟩

end Rules

end NestAmqp.Lib.Script
