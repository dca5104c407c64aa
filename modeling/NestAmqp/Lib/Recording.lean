/-
# NestAmqp.Lib.Recording — what scripts asked, and what they were answered.

`noting` gives a service a note beside its state, which every call adds to: a question with its answer.  The
service answers as before, so a triple over it is one over the noting service.  `recording` notes the calls
of a run; a rule for one call says what becomes of the record whatever the answer is.
-/
import NestAmqp.Lib.Interleaving

namespace NestAmqp.Lib.Script

variable {ι Op : Type} {Ans : Op → Type} {χ σ γ α : Type}

/-- A question with its answer. -/
structure Call (Op : Type) (Ans : Op → Type) (χ : Type) where
  op : Op
  answer : Except χ (Ans op)

/-- The service, with a note beside its state. -/
def noting (note : γ → Call Op Ans χ → γ) (service : Service Op Ans χ σ) : Service Op Ans χ (σ × γ) :=
  fun s op => ((service s.1 op).1, (service s.1 op).2, note s.2 ⟨op, (service s.1 op).1⟩)

/-- The service, with the calls so far. -/
def recording (service : Service Op Ans χ σ) : Service Op Ans χ (σ × List (Call Op Ans χ)) :=
  noting (fun calls call => calls ++ [call]) service

/-- The calls of a run. -/
def calls (service : Service Op Ans χ σ) (p : Script Op Ans χ α) (s : σ) : List (Call Op Ans χ) :=
  (run (recording service) p (s, [])).2.2

variable {note : γ → Call Op Ans χ → γ}

/-- A note does not change a run. -/
theorem run_noting (service : Service Op Ans χ σ) (p : Script Op Ans χ α) (s : σ × γ) :
    run service p s.1 = ((run (noting note service) p s).1, (run (noting note service) p s).2.1) := by
  induction p generalizing s with
  | done a => rfl
  | threw e => rfl
  | ask op next ih => exact ih _ (noting note service s op).2

section Rules

variable {service : Service Op Ans χ σ} {P P' : σ → Prop} {Q Q' : α → σ → Prop} {E E' : χ → σ → Prop} {I : σ → Prop}
  {p : Script Op Ans χ α}

theorem Triple.noted (h : Triple service P p Q E) :
    Triple (noting note service) (fun s => P s.1) p (fun a s => Q a s.1) fun e s => E e s.1 := by
  intro s hs
  have hends : Ends Q E _ := h s.1 hs
  rw [run_noting service p s] at hends
  generalize run (noting note service) p s = r at hends ⊢
  rcases r with ⟨e | a, s'⟩ <;> exact hends

theorem Triple.and (h : Triple service P p Q E) (h' : Triple service P' p Q' E') :
    Triple service (fun s => P s ∧ P' s) p (fun a s => Q a s ∧ Q' a s) fun e s => E e s ∧ E' e s := by
  intro s hs
  have hends := h s hs.1
  have hends' := h' s hs.2
  generalize run service p s = r at hends hends' ⊢
  rcases r with ⟨e | a, s'⟩ <;> exact ⟨hends, hends'⟩

/-- What every answer keeps, every script keeps. -/
theorem keeps_of_service (h : ∀ s op, I s → I (service s op).2) (p : Script Op Ans χ α) :
    Keeps service I p := by
  intro s hs
  induction p generalizing s with
  | done a => exact hs
  | threw e => exact hs
  | ask op next ih => exact ih _ _ (h s op hs)

/-- One call, whatever it is answered. -/
theorem triple_call {op : Op} {P : List (Call Op Ans χ) → Prop} {Q : Ans op → List (Call Op Ans χ) → Prop}
    {E : χ → List (Call Op Ans χ) → Prop} (hok : ∀ calls a, P calls → Q a (calls ++ [⟨op, .ok a⟩]))
    (herror : ∀ calls e, P calls → E e (calls ++ [⟨op, .error e⟩])) :
    Triple (recording service) (fun s => P s.2) (perform op) (fun a s => Q a s.2) fun e s => E e s.2 := by
  refine triple_perform fun s hs => ?_
  unfold recording noting
  cases (service s.1 op).1 with
  | ok a => exact hok s.2 a hs
  | error e => exact herror s.2 e hs

end Rules

end NestAmqp.Lib.Script
