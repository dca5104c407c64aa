/-
# NestAmqp.Lib.Interleaving — scripts that take turns at one state.

Several scripts run against services that share a state; a schedule says whose operation comes next.  A
script is reasoned about alone: it relies on what the others can do to the state between two of its
operations, and guarantees what its own operations do.  When each one's guarantee is something the others
rely on, what was shown of each alone holds of every schedule of all of them.
-/
import Mathlib.Logic.Function.Basic
import NestAmqp.Lib.Machine
import NestAmqp.Lib.Script

namespace NestAmqp.Lib.Script

variable {ι Op : Type} {Ans : Op → Type} {χ σ α β : Type}

/-! ## One script among others -/

/-- The others keep to the rely condition, which any number of their operations keeps to. -/
structure Steady (R : σ → σ → Prop) : Prop where
  refl : ∀ s, R s s
  trans : ∀ {s s' s''}, R s s' → R s' s'' → R s s''

/-- From `s`, with any steps of `R` before each operation: every operation is a step of `G`, and the script
ends in `Q` or `E`. -/
def Secures (service : Service Op Ans χ σ) (R G : σ → σ → Prop) (Q : α → σ → Prop) (E : χ → σ → Prop) :
    Script Op Ans χ α → σ → Prop
  | done a, s => ∀ s', R s s' → Q a s'
  | threw e, s => ∀ s', R s s' → E e s'
  | ask op next, s => ∀ s', R s s' →
      G s' (service s' op).2 ∧ Secures service R G Q E (next (service s' op).1) (service s' op).2

/-- From every state with `P`. -/
def Holds (service : Service Op Ans χ σ) (R G : σ → σ → Prop) (P : σ → Prop) (p : Script Op Ans χ α)
    (Q : α → σ → Prop) (E : χ → σ → Prop) : Prop :=
  ∀ s, P s → Secures service R G Q E p s

/-- A condition that the others keep. -/
def Stable (R : σ → σ → Prop) (P : σ → Prop) : Prop := ∀ s s', R s s' → P s → P s'

section Rules

variable {service : Service Op Ans χ σ} {R G : σ → σ → Prop} {P P' : σ → Prop} {Q Q' : α → σ → Prop}
  {T : β → σ → Prop} {E E' : χ → σ → Prop} {p : Script Op Ans χ α}

theorem Secures.steady (hR : Steady R) {s s' : σ} (h : Secures service R G Q E p s) (hs : R s s') :
    Secures service R G Q E p s' := by
  cases p with
  | done a => exact fun s'' hs' => h s'' (hR.trans hs hs')
  | threw e => exact fun s'' hs' => h s'' (hR.trans hs hs')
  | ask op next => exact fun s'' hs' => h s'' (hR.trans hs hs')

theorem Secures.mono {s : σ} (h : Secures service R G Q E p s) (hQ : ∀ a s, Q a s → Q' a s)
    (hE : ∀ e s, E e s → E' e s) : Secures service R G Q' E' p s := by
  induction p generalizing s with
  | done a => exact fun s' hs => hQ a s' (h s' hs)
  | threw e => exact fun s' hs => hE e s' (h s' hs)
  | ask op next ih => exact fun s' hs => ⟨(h s' hs).1, ih _ (h s' hs).2⟩

theorem Holds.mono (h : Holds service R G P p Q E) (hP : ∀ s, P' s → P s) (hQ : ∀ a s, Q a s → Q' a s)
    (hE : ∀ e s, E e s → E' e s) : Holds service R G P' p Q' E' :=
  fun s hs => (h s (hP s hs)).mono hQ hE

theorem holds_pure {a : α} (hP : Stable R P) (h : ∀ s, P s → Q a s) :
    Holds service R G P (pure a : Script Op Ans χ α) Q E :=
  fun s hs s' hs' => h s' (hP s s' hs' hs)

theorem holds_bind (hR : Steady R) {f : α → Script Op Ans χ β} (hp : Holds service R G P p Q E)
    (hf : ∀ a, Holds service R G (Q a) (f a) T E) : Holds service R G P (p >>= f) T E := by
  intro s hs
  have hsecures := hp s hs
  clear hp hs
  induction p generalizing s with
  | done a => exact hf a s (hsecures s (hR.refl s))
  | threw e => exact hsecures
  | ask op next ih => exact fun s' hs' => ⟨(hsecures s' hs').1, ih _ _ (hsecures s' hs').2⟩

theorem holds_tryCatch (hR : Steady R) {handler : χ → Script Op Ans χ α} (hp : Holds service R G P p Q E)
    (hhandler : ∀ e, Holds service R G (E e) (handler e) Q E') :
    Holds service R G P (p.tryCatch handler) Q E' := by
  intro s hs
  have hsecures := hp s hs
  clear hp hs
  induction p generalizing s with
  | done a => exact hsecures
  | threw e => exact hhandler e s (hsecures s (hR.refl s))
  | ask op next ih => exact fun s' hs' => ⟨(hsecures s' hs').1, ih _ _ (hsecures s' hs').2⟩

/-- One operation, from a condition that the others keep, to conditions that they keep. -/
theorem holds_perform {op : Op} {Q : Ans op → σ → Prop} (hP : Stable R P) (hQ : ∀ a, Stable R (Q a))
    (hE : ∀ e, Stable R (E e))
    (h : ∀ s, P s → G s (service s op).2 ∧ Ends Q E (service s op)) :
    Holds service R G P (perform op) Q E := by
  intro s hs s' hs'
  obtain ⟨hstep, hends⟩ := h s' (hP s s' hs' hs)
  refine ⟨hstep, ?_⟩
  generalize service s' op = answer at hends ⊢
  rcases answer with ⟨e | a, t⟩
  · exact fun t' ht => hE e t t' ht hends
  · exact fun t' ht => hQ a t t' ht hends

theorem holds_forEach (hR : Steady R) {f : β → Script Op Ans χ Unit} {J : List β → σ → Prop} (l : List β)
    (hJ : ∀ before, Stable R (J before))
    (hstep : ∀ before x after, l = before ++ x :: after →
      Holds service R G (J before) (f x) (fun _ => J (before ++ [x])) E) :
    Holds service R G (J []) (forEach f l) (fun _ => J l) E := by
  suffices h : ∀ after before, l = before ++ after →
      Holds service R G (J before) (forEach f after) (fun _ => J l) E from h l [] rfl
  intro after
  induction after with
  | nil =>
      rintro before rfl
      rw [List.append_nil]
      exact holds_pure (hJ before) fun _ hs => hs
  | cons x after ih =>
      intro before hl
      refine holds_bind hR (hstep before x after hl) fun _ => ih (before ++ [x]) ?_
      rw [hl, List.append_assoc, List.singleton_append]

theorem holds_foldEach (hR : Steady R) {f : α → β → Script Op Ans χ α} {J : List β → α → σ → Prop} (l : List β)
    (acc : α) (hJ : ∀ before acc, Stable R (J before acc))
    (hstep : ∀ before x after, l = before ++ x :: after → ∀ acc,
      Holds service R G (J before acc) (f acc x) (J (before ++ [x])) E) :
    Holds service R G (J [] acc) (foldEach f acc l) (J l) E := by
  suffices h : ∀ after before acc, l = before ++ after →
      Holds service R G (J before acc) (foldEach f acc after) (J l) E from h l [] acc rfl
  intro after
  induction after with
  | nil =>
      rintro before acc rfl
      rw [List.append_nil]
      exact holds_pure (hJ before acc) fun _ hs => hs
  | cons x after ih =>
      intro before acc hl
      refine holds_bind hR (hstep before x after hl acc) fun acc => ih (before ++ [x]) acc ?_
      rw [hl, List.append_assoc, List.singleton_append]

end Rules

/-! ## All of them -/

section Turns

variable [DecidableEq ι] (service : ι → Service Op Ans χ σ)

/-- The scripts as far as they have come, and the state they share. -/
structure Turns (ι Op : Type) (Ans : Op → Type) (χ σ α : Type) where
  scripts : ι → Script Op Ans χ α
  state : σ

/-- One party's next operation; a party that has ended does nothing. -/
def takeTurn (c : Turns ι Op Ans χ σ α) (i : ι) : Turns ι Op Ans χ σ α :=
  match c.scripts i with
  | ask op next =>
      { scripts := Function.update c.scripts i (next (service i c.state op).1)
        state := (service i c.state op).2 }
  | _ => c

/-- A party has ended. -/
def ended : Script Op Ans χ α → Bool
  | ask _ _ => false
  | _ => true

/-! ### Turns come to an end -/

theorem ended_takeTurn {c : Turns ι Op Ans χ σ α} {i : ι} (h : ended (c.scripts i) = true) (j : ι) :
    ended ((takeTurn service c j).scripts i) = true := by
  unfold takeTurn
  split
  next op next hask =>
    dsimp only
    rw [Function.update_of_ne]
    · exact h
    · rintro rfl
      rw [hask] at h
      cases h
  next => exact h

theorem ended_run {c : Turns ι Op Ans χ σ α} {i : ι} (h : ended (c.scripts i) = true) (schedule : List ι) :
    ended ((Machine.run (takeTurn service) c schedule).scripts i) = true :=
  Machine.run_invariant (I := fun c : Turns ι Op Ans χ σ α => ended (c.scripts i) = true)
  (fun _ j hc => ended_takeTurn service hc j) h
    schedule

/-- A party that is given enough turns ends. -/
theorem exists_turns_ended (c : Turns ι Op Ans χ σ α) (i : ι) :
    ∃ turns, ended ((Machine.run (takeTurn service) c turns).scripts i) = true := by
  generalize hscript : c.scripts i = p
  induction p generalizing c with
  | done a => exact ⟨[], by rw [Machine.run_nil, hscript]; rfl⟩
  | threw e => exact ⟨[], by rw [Machine.run_nil, hscript]; rfl⟩
  | ask op next ih =>
      have hnext : (takeTurn service c i).scripts i = next (service i c.state op).1 := by
        unfold takeTurn
        rw [hscript]
        exact Function.update_self i _ _
      obtain ⟨turns, hturns⟩ := ih _ _ hnext
      exact ⟨i :: turns, hturns⟩

/-- Any number of parties that are given enough turns end. -/
theorem exists_schedule_ended (c : Turns ι Op Ans χ σ α) (parties : List ι) :
    ∃ schedule, ∀ i ∈ parties, ended ((Machine.run (takeTurn service) c schedule).scripts i) = true := by
  induction parties generalizing c with
  | nil => exact ⟨[], nofun⟩
  | cons i parties ih =>
      obtain ⟨turns, hturns⟩ := exists_turns_ended service c i
      obtain ⟨schedule, hschedule⟩ := ih (Machine.run (takeTurn service) c turns)
      refine ⟨turns ++ schedule, fun j hj => ?_⟩
      rw [Machine.run_append]
      rcases List.mem_cons.mp hj with rfl | hj
      · exact ended_run service hturns schedule
      · exact hschedule j hj

/-! ### The parallel rule -/

variable {service} {R G : ι → σ → σ → Prop} {Q : ι → α → σ → Prop} {E : ι → χ → σ → Prop}

/-- **Parallel rule.**  When every guarantee is among what the other parties rely on, what each party secures
alone is secured after any schedule. -/
theorem secures_of_turns (hR : ∀ i, Steady (R i)) (hG : ∀ i j, j ≠ i → ∀ s s', G j s s' → R i s s')
    {c : Turns ι Op Ans χ σ α}
    (hsecures : ∀ i, Secures (service i) (R i) (G i) (Q i) (E i) (c.scripts i) c.state) (schedule : List ι) :
    ∀ i, Secures (service i) (R i) (G i) (Q i) (E i)
      ((Machine.run (takeTurn service) c schedule).scripts i)
      (Machine.run (takeTurn service) c schedule).state := by
  refine Machine.run_invariant (I := fun c : Turns ι Op Ans χ σ α => ∀ i,
    Secures (service i) (R i) (G i) (Q i) (E i) (c.scripts i) c.state) ?_ hsecures schedule
  intro c j h i
  unfold takeTurn
  split
  next op next hask =>
    have hturn := h j
    rw [hask] at hturn
    obtain ⟨hstep, hnext⟩ := hturn c.state ((hR j).refl c.state)
    dsimp only
    by_cases hij : i = j
    · subst hij
      rw [Function.update_self]
      exact hnext
    · rw [Function.update_of_ne hij]
      exact (h i).steady (hR i) (hG i j (Ne.symm hij) _ _ hstep)
  next => exact h i

/-- What a party that has ended has secured. -/
theorem ends_of_secures {service : Service Op Ans χ σ} {R G : σ → σ → Prop} {Q : α → σ → Prop}
    {E : χ → σ → Prop} (hR : Steady R) {p : Script Op Ans χ α} {s : σ} (h : Secures service R G Q E p s)
    (hended : ended p = true) : (∃ a, p = done a ∧ Q a s) ∨ ∃ e, p = threw e ∧ E e s := by
  cases p with
  | done a => exact .inl ⟨a, rfl, h s (hR.refl s)⟩
  | threw e => exact .inr ⟨e, rfl, h s (hR.refl s)⟩
  | ask op next => cases hended

end Turns

end NestAmqp.Lib.Script
