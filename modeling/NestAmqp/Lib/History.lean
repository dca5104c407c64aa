/-
# NestAmqp.Lib.History — the states and the inputs of a run, by the time on its clock.

A machine whose state has a clock that goes up by one at every step leaves a history: what the state was
at each time, and which input it took then.  A later state can be compared with earlier ones of the same
run: what was copied out of a state at some time is what the history has for that time.
-/
import NestAmqp.Lib.Machine

namespace NestAmqp.Lib

open NestAmqp.Lib.Machine

/-- What a run was at each time, and what it took then. -/
structure History (σ ι : Type) where
  state : Nat → σ
  input : Nat → Option ι

namespace History

variable {σ ι : Type} (step : σ → ι → σ) (clock : σ → Nat)

/-- The history of the run from `s`. -/
def ofRun (s : σ) (inputs : List ι) : History σ ι where
  state time := run step s (inputs.take (time - clock s))
  input time := if clock s ≤ time then inputs[time - clock s]? else none

/-- The history has the state, taking the input, at its time. -/
structure Records (history : History σ ι) (s : σ) (i : ι) : Prop where
  state : history.state (clock s) = s
  input : history.input (clock s) = some i

variable {step clock}

/-- The clock counts the steps. -/
theorem clock_run (hclock : ∀ s i, clock (step s i) = clock s + 1) (s : σ) (inputs : List ι) :
    clock (run step s inputs) = clock s + inputs.length :=
  run_counted (I := fun n t => clock t = clock s + n) (n := 0)
    (fun n t i ht => by rw [hclock, ht, Nat.add_assoc]) rfl inputs |>.trans (by rw [Nat.zero_add])

/-- **Every step of a run is in its history.** -/
theorem along_records (hclock : ∀ s i, clock (step s i) = clock s + 1) (s : σ) (inputs : List ι) :
    Along step (Records clock (ofRun step clock s inputs)) s inputs := by
  have hsuffix : ∀ before after, inputs = before ++ after →
      Along step (Records clock (ofRun step clock s inputs)) (run step s before) after := by
    intro before after
    -- by induction on what is still to come
    induction after generalizing before with
    | nil => exact fun _ => trivial
    | cons i after ih =>
        intro hinputs
        have htime : clock (run step s before) - clock s = before.length := by
          rw [clock_run hclock, Nat.add_sub_cancel_left]
        have hnext : inputs = (before ++ [i]) ++ after := by
          rw [List.append_assoc]
          exact hinputs
        refine ⟨⟨?_, ?_⟩, ?_⟩
        · show run step s (inputs.take (clock (run step s before) - clock s)) = run step s before
          rw [htime, hinputs, List.take_left]
        · have hle : clock s ≤ clock (run step s before) := by
            rw [clock_run hclock]
            exact Nat.le_add_right _ _
          show (if clock s ≤ clock (run step s before) then inputs[clock (run step s before) - clock s]?
            else none) = some i
          rw [if_pos hle, htime, hinputs, List.getElem?_append_right (Nat.le_refl _), Nat.sub_self]
          rfl
        · have hrest := ih (before ++ [i]) hnext
          rwa [run_append] at hrest
  exact hsuffix [] inputs rfl

/-- When an input was taken, the run was in the state of that time. -/
theorem reaches_of_input (hclock : ∀ s i, clock (step s i) = clock s + 1) {s : σ} {inputs : List ι}
    {time : Nat} {i : ι} (h : (ofRun step clock s inputs).input time = some i) :
    Reaches step s inputs ((ofRun step clock s inputs).state time) ∧
      clock ((ofRun step clock s inputs).state time) = time ∧ time < clock (run step s inputs) := by
  change (if clock s ≤ time then inputs[time - clock s]? else none) = some i at h
  split at h
  next hle =>
    obtain ⟨hlt, -⟩ := List.getElem?_eq_some_iff.mp h
    refine ⟨⟨inputs.take (time - clock s), inputs.drop (time - clock s),
      (List.take_append_drop _ _).symm, rfl⟩, ?_, ?_⟩
    · show clock (run step s (inputs.take (time - clock s))) = time
      rw [clock_run hclock, List.length_take, Nat.min_eq_left (Nat.le_of_lt hlt)]
      exact Nat.add_sub_cancel' hle
    · rw [clock_run hclock]
      omega
  next => cases h

/-- **Invariants about the past.**  What every step preserves that the history has on record holds at the
end of the run. -/
theorem invariant_run {ok : σ → ι → Prop} {Inv : σ → Prop}
    (hclock : ∀ s i, clock (step s i) = clock s + 1) {s : σ} {inputs : List ι}
    (hstep : ∀ t i, Inv t → ok t i → Records clock (ofRun step clock s inputs) t i → Inv (step t i))
    (hs : Inv s) (hok : Along step ok s inputs) : Inv (run step s inputs) :=
  (hok.and (along_records hclock s inputs)).invariant_run
    (fun t i (hinv : Inv t) hboth => hstep t i hinv hboth.1 hboth.2) hs

end History

end NestAmqp.Lib
