/-
# NestAmqp.Lib.Machine — runs of a state machine, and invariants along them.

A machine is a step function over states and inputs; a run is the fold of the step function over a
list of inputs.  `Along` says that every step of a run, seen with the state it starts from, meets a
condition: it is how a result about "every run whose steps all meet the condition" is stated.  The
induction over runs is done here once, in `Along.invariant`.
-/
import Mathlib.Data.List.Basic

namespace NestAmqp.Lib.Machine

variable {σ ι : Type}

/-- The state a run ends in. -/
def run (step : σ → ι → σ) (s : σ) (inputs : List ι) : σ := inputs.foldl step s

@[simp] theorem run_nil (step : σ → ι → σ) (s : σ) : run step s [] = s := rfl

@[simp] theorem run_cons (step : σ → ι → σ) (s : σ) (i : ι) (inputs : List ι) :
    run step s (i :: inputs) = run step (step s i) inputs := rfl

theorem run_append (step : σ → ι → σ) (s : σ) (l r : List ι) :
    run step s (l ++ r) = run step (run step s l) r := List.foldl_append

/-- Every step of the run meets `ok` in the state it is taken from. -/
def Along (step : σ → ι → σ) (ok : σ → ι → Prop) : σ → List ι → Prop
  | _, [] => True
  | s, i :: inputs => ok s i ∧ Along step ok (step s i) inputs

instance Along.decidable (step : σ → ι → σ) (ok : σ → ι → Prop) [∀ s i, Decidable (ok s i)] :
    ∀ (s : σ) (inputs : List ι), Decidable (Along step ok s inputs)
  | _, [] => .isTrue trivial
  | s, i :: inputs =>
      have := Along.decidable step ok (step s i) inputs
      inferInstanceAs (Decidable (ok s i ∧ Along step ok (step s i) inputs))

/-- A state is reached by a run when some prefix of its inputs ends there. -/
def Reaches (step : σ → ι → σ) (s : σ) (inputs : List ι) (s' : σ) : Prop :=
  ∃ l r, inputs = l ++ r ∧ run step s l = s'

/-- **Invariant rule.**  What every admissible step preserves holds in every state a run of
admissible steps reaches. -/
theorem Along.invariant {step : σ → ι → σ} {ok : σ → ι → Prop} {Inv : σ → Prop}
    (hstep : ∀ s i, Inv s → ok s i → Inv (step s i)) {s : σ} {inputs : List ι} (hs : Inv s)
    (h : Along step ok s inputs) {s' : σ} (hr : Reaches step s inputs s') : Inv s' := by
  obtain ⟨l, r, rfl, rfl⟩ := hr
  induction l generalizing s with
  | nil => exact hs
  | cons i l ih => exact ih (hstep s i hs h.1) h.2

/-- What every step preserves holds at the end of every run. -/
theorem run_invariant {step : σ → ι → σ} {I : σ → Prop} (hstep : ∀ s i, I s → I (step s i)) {s : σ}
    (hs : I s) (inputs : List ι) : I (run step s inputs) := by
  induction inputs generalizing s with
  | nil => exact hs
  | cons i inputs ih => exact ih (hstep s i hs)

/-- The final state of a run is one of the states it reaches. -/
theorem reaches_run (step : σ → ι → σ) (s : σ) (inputs : List ι) :
    Reaches step s inputs (run step s inputs) := ⟨inputs, [], by simp, rfl⟩

/-- A run in two parts. -/
theorem along_append (step : σ → ι → σ) (ok : σ → ι → Prop) (s : σ) (l r : List ι) :
    Along step ok s (l ++ r) ↔ Along step ok s l ∧ Along step ok (run step s l) r := by
  induction l generalizing s with
  | nil => exact ⟨fun h => ⟨trivial, h⟩, fun h => h.2⟩
  | cons i l ih => exact (and_congr_right fun _ => ih (step s i)).trans and_assoc.symm

/-- A condition along a run, place by place. -/
theorem along_iff_split {step : σ → ι → σ} {ok : σ → ι → Prop} {s : σ} {inputs : List ι} :
    Along step ok s inputs ↔ ∀ l i r, inputs = l ++ i :: r → ok (run step s l) i := by
  constructor
  · rintro h l i r rfl
    exact ((along_append step ok s l (i :: r)).mp h).2.1
  · intro h
    induction inputs generalizing s with
    | nil => trivial
    | cons i inputs ih =>
        exact ⟨h [] i inputs rfl, ih fun l j r hsplit => h (i :: l) j r (congrArg (i :: ·) hsplit)⟩

/-- A weaker condition. -/
theorem Along.mono {step : σ → ι → σ} {ok ok' : σ → ι → Prop}
    (himp : ∀ s i, ok s i → ok' s i) {s : σ} {inputs : List ι} (h : Along step ok s inputs) :
    Along step ok' s inputs := by
  induction inputs generalizing s with
  | nil => trivial
  | cons i inputs ih => exact ⟨himp s i h.1, ih h.2⟩

/-- Two conditions at once. -/
theorem Along.and {step : σ → ι → σ} {P Q : σ → ι → Prop} {s : σ} {inputs : List ι}
    (hP : Along step P s inputs) (hQ : Along step Q s inputs) :
    Along step (fun s i => P s i ∧ Q s i) s inputs := by
  induction inputs generalizing s with
  | nil => trivial
  | cons i inputs ih => exact ⟨⟨hP.1, hQ.1⟩, ih hP.2 hQ.2⟩

/-- A condition every state of the run meets by an invariant. -/
theorem along_of_invariant {step : σ → ι → σ} {ok : σ → ι → Prop} {I : σ → Prop}
    (hstep : ∀ s i, I s → I (step s i)) (hok : ∀ s i, I s → ok s i) {s : σ} (hs : I s) (inputs : List ι) :
    Along step ok s inputs := by
  induction inputs generalizing s with
  | nil => trivial
  | cons i inputs ih => exact ⟨hok s i hs, ih (hstep s i hs)⟩

/-- What an invariant gives at every admissible step. -/
theorem Along.of_invariant {step : σ → ι → σ} {ok P : σ → ι → Prop} {Inv : σ → Prop}
    (hstep : ∀ s i, Inv s → ok s i → Inv (step s i)) (hP : ∀ s i, Inv s → ok s i → P s i) {s : σ}
    {inputs : List ι} (hs : Inv s) (h : Along step ok s inputs) : Along step P s inputs := by
  induction inputs generalizing s with
  | nil => trivial
  | cons i inputs ih => exact ⟨hP s i hs h.1, ih (hstep s i hs h.1) h.2⟩

/-- A condition on the inputs alone. -/
theorem along_iff_forall {step : σ → ι → σ} {ok : ι → Prop} {s : σ} {inputs : List ι} :
    Along step (fun _ i => ok i) s inputs ↔ ∀ i ∈ inputs, ok i := by
  induction inputs generalizing s with
  | nil => simp [Along]
  | cons i inputs ih => exact (and_congr_right fun _ => ih).trans List.forall_mem_cons.symm

theorem along_of_forall {step : σ → ι → σ} {ok : ι → Prop} {s : σ} {inputs : List ι}
    (h : ∀ i ∈ inputs, ok i) : Along step (fun _ i => ok i) s inputs := along_iff_forall.mpr h

/-- Under an invariant, two conditions that agree at every admissible step agree along runs of
admissible steps. -/
theorem Along.congr {step : σ → ι → σ} {ok P Q : σ → ι → Prop} {I : σ → Prop}
    (hstep : ∀ s i, I s → ok s i → I (step s i) ∧ (P s i ↔ Q s i)) {s : σ} {inputs : List ι} (hs : I s)
    (h : Along step ok s inputs) : Along step P s inputs ↔ Along step Q s inputs := by
  induction inputs generalizing s with
  | nil => exact Iff.rfl
  | cons i inputs ih =>
      obtain ⟨hI, hPQ⟩ := hstep s i hs h.1
      exact and_congr hPQ (ih hI h.2)

/-- Two machines on the same inputs: conditions that agree on related states agree along the two runs. -/
theorem Along.iff_of_related {τ : Type} {step : σ → ι → σ} {step' : τ → ι → τ} {ok Q : τ → ι → Prop}
    {P : σ → ι → Prop} {R : σ → τ → Prop}
    (hstep : ∀ s t i, R s t → ok t i → R (step s i) (step' t i) ∧ (P s i ↔ Q t i)) {s : σ} {t : τ}
    {inputs : List ι} (hR : R s t) (h : Along step' ok t inputs) :
    Along step P s inputs ↔ Along step' Q t inputs := by
  induction inputs generalizing s t with
  | nil => exact Iff.rfl
  | cons i inputs ih =>
      obtain ⟨hnext, hPQ⟩ := hstep s t i hR h.1
      exact and_congr hPQ (ih hnext h.2)

/-- A run over inputs that are made from others. -/
theorem along_map {κ : Type} (f : κ → ι) (step : σ → ι → σ) (ok : σ → ι → Prop) (s : σ)
    (inputs : List κ) : Along step ok s (inputs.map f) ↔
      Along (fun s j => step s (f j)) (fun s j => ok s (f j)) s inputs := by
  induction inputs generalizing s with
  | nil => exact Iff.rfl
  | cons j inputs ih => exact and_congr Iff.rfl (ih (step s (f j)))

/-- **Counted invariant rule.**  An invariant of admissible steps that also knows how many were taken. -/
theorem Along.counted {step : σ → ι → σ} {ok : σ → ι → Prop} {I : Nat → σ → Prop}
    (hstep : ∀ n s i, I n s → ok s i → I (n + 1) (step s i)) {s : σ} {n : Nat} (hs : I n s)
    {inputs : List ι} (h : Along step ok s inputs) : I (n + inputs.length) (run step s inputs) := by
  induction inputs generalizing s n with
  | nil => exact hs
  | cons i inputs ih =>
      have hrest := ih (hstep n s i hs h.1) h.2
      rwa [Nat.add_right_comm, Nat.add_assoc] at hrest

theorem run_counted {step : σ → ι → σ} {I : Nat → σ → Prop}
    (hstep : ∀ n s i, I n s → I (n + 1) (step s i)) {s : σ} {n : Nat} (hs : I n s)
    (inputs : List ι) : I (n + inputs.length) (run step s inputs) := by
  have hall : Along step (fun _ _ => True) s inputs := along_of_forall fun _ _ => trivial
  exact hall.counted (fun n s i h _ => hstep n s i h) hs

theorem Along.invariant_run {step : σ → ι → σ} {ok : σ → ι → Prop} {Inv : σ → Prop}
    (hstep : ∀ s i, Inv s → ok s i → Inv (step s i)) {s : σ} {inputs : List ι} (hs : Inv s)
    (h : Along step ok s inputs) : Inv (run step s inputs) :=
  h.invariant hstep hs (reaches_run step s inputs)

theorem Reaches.cons {step : σ → ι → σ} {s s' : σ} {i : ι} {inputs : List ι}
    (h : Reaches step (step s i) inputs s') : Reaches step s (i :: inputs) s' := by
  obtain ⟨l, r, rfl, rfl⟩ := h
  exact ⟨i :: l, r, rfl, rfl⟩

/-- **Exact conditions.**  Along admissible inputs: when an invariant implies `P`, is kept by every step
that meets `ok`, and every other step from it breaks `P`, then `P` holds in all states of the run exactly
when all its steps meet `ok`. -/
theorem Along.iff_forall_reaches_of {step : σ → ι → σ} {adm ok : σ → ι → Prop} {Inv P : σ → Prop}
    (hP : ∀ s, Inv s → P s) (hstep : ∀ s i, Inv s → adm s i → ok s i → Inv (step s i))
    (hbad : ∀ s i, Inv s → adm s i → ¬ ok s i → ¬ P (step s i)) {s : σ} (hs : Inv s) {inputs : List ι}
    (hadm : Along step adm s inputs) :
    (∀ s', Reaches step s inputs s' → P s') ↔ Along step ok s inputs := by
  constructor
  · intro h
    induction inputs generalizing s with
    | nil => trivial
    | cons i inputs ih =>
        have hok : ok s i := by
          by_contra hno
          exact hbad s i hs hadm.1 hno (h (step s i) ⟨[i], inputs, rfl, rfl⟩)
        exact ⟨hok, ih (hstep s i hs hadm.1 hok) hadm.2 fun s' hs' => h s' hs'.cons⟩
  · exact fun h s' hs' => hP s' ((hadm.and h).invariant (fun s i hs hboth => hstep s i hs hboth.1 hboth.2)
      hs hs')

/-- The same with every input admissible. -/
theorem Along.iff_forall_reaches {step : σ → ι → σ} {ok : σ → ι → Prop} {Inv P : σ → Prop}
    (hP : ∀ s, Inv s → P s) (hstep : ∀ s i, Inv s → ok s i → Inv (step s i))
    (hbad : ∀ s i, Inv s → ¬ ok s i → ¬ P (step s i)) {s : σ} (hs : Inv s) (inputs : List ι) :
    (∀ s', Reaches step s inputs s' → P s') ↔ Along step ok s inputs :=
  iff_forall_reaches_of hP (fun s i hs _ => hstep s i hs) (fun s i hs _ => hbad s i hs) hs
    (along_iff_forall.mpr fun _ _ => trivial : Along step (fun _ _ => True) s inputs)

/-! ## Two runs -/

/-- **Simulation rule.**  Two states that are related stay so along inputs that are related one by one. -/
theorem run_simulation {R : σ → σ → Prop} {L : ι → ι → Prop} {step : σ → ι → σ}
    (hstep : ∀ s t i j, R s t → L i j → R (step s i) (step t j)) {s t : σ} (h : R s t) {is js : List ι}
    (hinputs : List.Forall₂ L is js) : R (run step s is) (run step t js) := by
  induction hinputs generalizing s t with
  | nil => exact h
  | cons hij _ ih => exact ih (hstep s t _ _ h hij)

/-- The inputs without those that are dropped in the state they come in. -/
def without (step : σ → ι → σ) (drop : σ → ι → Bool) : σ → List ι → List ι
  | _, [] => []
  | s, i :: inputs =>
      if drop s i then without step drop (step s i) inputs else i :: without step drop (step s i) inputs

/-- **Noninterference rule.**  When every input keeps two states related, and a dropped input is not seen
on the one side, then the run with all inputs ends related to the run without the dropped ones. -/
theorem run_without {R : σ → σ → Prop} {step : σ → ι → σ} {drop : σ → ι → Bool}
    (hstep : ∀ s t i, R s t → R (step s i) (step t i)) (hdrop : ∀ s t i, R s t → drop s i = true →
    R (step s i) t)
    {s t : σ} (h : R s t) (inputs : List ι) :
    R (run step s inputs) (run step t (without step drop s inputs)) := by
  induction inputs generalizing s t with
  | nil => exact h
  | cons i inputs ih =>
      unfold without
      split
      next hi => exact ih (hdrop s t i h hi)
      next => exact ih (hstep s t i h)

end NestAmqp.Lib.Machine
