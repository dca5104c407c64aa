/-
# NestAmqp.Lib.Components — a machine made of numbered components.

Some inputs add a component, at the end; every input is shown to every component there is, which reacts to
it by itself and knows its own number.  The state of a component is then the run of its own machine over
the inputs since it was born, whatever became of the others.
-/
import NestAmqp.Lib.Machine

namespace NestAmqp.Lib.Components

open NestAmqp.Lib.Machine

variable {κ ι : Type} (born : ι → Option κ) (react : Nat → κ → ι → κ)

/-- One input: every component reacts, and then one may be born. -/
def step (cs : List κ) (i : ι) : List κ := (cs.mapIdx fun n c => react n c i) ++ (born i).toList

variable {born react} {cs cs' : List κ} {n : Nat} {c : κ}

theorem getElem?_step (h : cs[n]? = some c) (i : ι) : (step born react cs i)[n]? = some (react n c i) := by
  have hlt : n < (cs.mapIdx fun n c => react n c i).length := by
    rw [List.length_mapIdx]
    exact (List.getElem?_eq_some_iff.mp h).1
  unfold step
  rw [List.getElem?_append_left hlt, List.getElem?_mapIdx, h]
  rfl

/-- **A component by itself.** -/
theorem getElem?_run (h : cs[n]? = some c) (inputs : List ι) :
    (run (step born react) cs inputs)[n]? = some (run (react n) c inputs) := by
  induction inputs generalizing cs c with
  | nil => exact h
  | cons i inputs ih => exact ih (getElem?_step h i)

theorem getElem?_born {i : ι} (h : born i = some c) :
    (step born react cs i)[cs.length]? = some c := by
  have hplace : (cs.mapIdx fun n c => react n c i).length ≤ cs.length :=
    Nat.le_of_eq List.length_mapIdx
  unfold step
  rw [List.getElem?_append_right hplace, List.length_mapIdx, Nat.sub_self, h]
  rfl

/-- Every component was there before, or is born now. -/
theorem getElem?_step_cases {i : ι} (h : (step born react cs i)[n]? = some c) :
    (∃ old, cs[n]? = some old ∧ c = react n old i) ∨ (n = cs.length ∧ born i = some c) := by
  unfold step at h
  by_cases hlt : n < cs.length
  · rw [List.getElem?_append_left (by rwa [List.length_mapIdx]), List.getElem?_mapIdx] at h
    obtain ⟨old, hold, rfl⟩ := Option.map_eq_some_iff.mp h
    exact .inl ⟨old, hold, rfl⟩
  · rw [List.getElem?_append_right (by rw [List.length_mapIdx]; exact Nat.le_of_not_lt hlt),
      List.length_mapIdx] at h
    cases hborn : born i with
    | none =>
        rw [hborn] at h
        cases h
    | some new =>
        rw [hborn] at h
        obtain ⟨hzero, -⟩ := List.getElem?_eq_some_iff.mp h
        have hn : n = cs.length := by
          have hone : n - cs.length < 1 := hzero
          omega
        rw [hn, Nat.sub_self] at h
        exact .inr ⟨hn, h⟩

/-- **A component since its birth.** -/
theorem getElem?_run_born {i : ι} (h : born i = some c) (l r : List ι) :
    (run (step born react) cs (l ++ i :: r))[(run (step born react) cs l).length]? =
      some (run (react (run (step born react) cs l).length) c r) := by
  rw [run_append, run_cons]
  exact getElem?_run (getElem?_born h) r

theorem length_step (cs : List κ) (i : ι) :
    (step born react cs i).length = cs.length + (born i).toList.length := by
  simp [step]

/-- A component that is not there yet depends on how many there are, not on what they are. -/
theorem getElem?_run_congr (hlength : cs.length = cs'.length) (hn : cs.length ≤ n) (inputs : List ι) :
    (run (step born react) cs inputs)[n]? = (run (step born react) cs' inputs)[n]? := by
  induction inputs generalizing cs cs' with
  | nil =>
      show cs[n]? = cs'[n]?
      rw [List.getElem?_eq_none hn, List.getElem?_eq_none (hlength ▸ hn)]
  | cons i inputs ih =>
      have hlength' : (step born react cs i).length = (step born react cs' i).length := by
        rw [length_step, length_step, hlength]
      by_cases hlate : (step born react cs i).length ≤ n
      · exact ih hlength' hlate
      · -- it is born now, in both
        rw [length_step] at hlate
        cases hborn : born i with
        | none =>
            rw [hborn] at hlate
            exact absurd hn hlate
        | some c =>
            rw [hborn] at hlate
            obtain rfl : n = cs.length := by
              have hlt : n < cs.length + 1 := Nat.not_le.mp hlate
              omega
            have hat : (step born react cs' i)[cs.length]? = some c := by
              rw [hlength]
              exact getElem?_born hborn
            exact (getElem?_run (getElem?_born hborn) inputs).trans (getElem?_run hat inputs).symm

/-- What no reaction changes is told by the births. -/
theorem map_run {β : Type} (f : κ → β) (hreact : ∀ n c i, f (react n c i) = f c) (cs : List κ)
    (inputs : List ι) : (run (step born react) cs inputs).map f =
      cs.map f ++ inputs.filterMap fun i => (born i).map f := by
  induction inputs generalizing cs with
  | nil => simp
  | cons i inputs ih =>
      have hmap : (step born react cs i).map f = cs.map f ++ ((born i).map f).toList := by
        unfold step
        rw [List.map_append]
        congr 1
        · apply List.ext_getElem?
          intro n
          simp [List.getElem?_mapIdx, hreact, Option.map_map, Function.comp_def]
        · cases born i <;> rfl
      rw [run_cons, ih, hmap, List.append_assoc]
      congr 1
      cases hborn : born i <;> simp [hborn]

end NestAmqp.Lib.Components
