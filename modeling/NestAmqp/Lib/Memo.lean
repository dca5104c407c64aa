/-
# NestAmqp.Lib.Memo — services that answer from a memo keyed by a digest of the question.

A service answers questions, and remembers answers under a key computed from the question.  Two laws
connect it with what is behind it.  A lawful service returns the true answer or one it remembered, and
remembers nothing but true answers; a sticky service remembers every answer and never forgets.  Of a
lawful service every answer of a run is true if no two of its questions share a key and differ in their
answers, and of a sticky one only if.
-/
import NestAmqp.Lib.Machine

namespace NestAmqp.Lib.Memo

open NestAmqp.Lib.Machine

variable {σ ι Q K A : Type}

/-- No two of the questions share a key and differ in their answers. -/
def Separated (key : Q → K) (answer : Q → A) (qs : List Q) : Prop :=
  ∀ q ∈ qs, ∀ q' ∈ qs, key q = key q' → answer q = answer q'

/-- A service: what a call does to the state and what it returns, and the question that a call puts to
the memo.  A call that fails returns nothing. -/
structure Service (σ ι Q A : Type) where
  call : σ → ι → Option A × σ
  question : ι → Option Q

namespace Service

variable (service : Service σ ι Q A)

def step (s : σ) (i : ι) : σ := (service.call s i).2

/-- The call returns the true answer, if it returns one. -/
def Exact (answer : Q → A) (s : σ) (i : ι) : Prop :=
  ∀ q a, service.question i = some q → (service.call s i).1 = some a → a = answer q

/-- Answers are true or remembered, and only true answers are remembered. -/
structure Lawful (key : Q → K) (answer : Q → A) (Inv : σ → Prop) (Cached : σ → K → A → Prop) : Prop where
  inv : ∀ s i, Inv s → Inv (service.step s i)
  answered : ∀ s i q a, Inv s → service.question i = some q → (service.call s i).1 = some a →
    a = answer q ∨ Cached s (key q) a
  cached : ∀ s i k a, Inv s → Cached (service.step s i) k a →
    Cached s k a ∨ ∃ q, service.question i = some q ∧ key q = k ∧ answer q = a

/-- Every question is answered, and its answer remembered for good. -/
structure Sticky (key : Q → K) (Kept : σ → K → A → Prop) : Prop where
  stored : ∀ s i q, service.question i = some q →
    ∃ a, (service.call s i).1 = some a ∧ Kept (service.step s i) (key q) a
  reused : ∀ s i q a, service.question i = some q → Kept s (key q) a → (service.call s i).1 = some a
  kept : ∀ s i k a, Kept s k a → Kept (service.step s i) k a

variable {service} {key : Q → K} {answer : Q → A}

/-- **Separation is enough.** -/
theorem Lawful.exact {Inv : σ → Prop} {Cached : σ → K → A → Prop}
    (h : service.Lawful key answer Inv Cached) {qs : List Q} (hsep : Separated key answer qs)
    {s : σ} (hinv : Inv s) (hback : ∀ k a, Cached s k a → ∃ q ∈ qs, key q = k ∧ answer q = a)
    {inputs : List ι} (hqs : ∀ i ∈ inputs, ∀ q, service.question i = some q → q ∈ qs) :
    Along service.step (service.Exact answer) s inputs := by
  induction inputs generalizing s with
  | nil => trivial
  | cons i inputs ih =>
      have hexact : service.Exact answer s i := by
        intro q a hq ha
        rcases h.answered s i q a hinv hq ha with htrue | hcached
        · exact htrue
        · obtain ⟨q', hq', hkey, hanswer⟩ := hback _ _ hcached
          rw [← hanswer]
          exact hsep q' hq' q (hqs i (.head _) q hq) hkey
      refine ⟨hexact, ih (h.inv s i hinv) (fun k a hcached => ?_) fun j hj => hqs j (.tail _ hj)⟩
      rcases h.cached s i k a hinv hcached with hold | ⟨q, hq, hkey, hanswer⟩
      · exact hback k a hold
      · exact ⟨q, hqs i (.head _) q hq, hkey, hanswer⟩

/-- What is kept answers every later question with that key. -/
theorem Sticky.answer_of_kept {Kept : σ → K → A → Prop} (h : service.Sticky key Kept) {s : σ} {k : K}
    {a : A} (hkept : Kept s k a) {inputs : List ι}
    (hexact : Along service.step (service.Exact answer) s inputs) :
    ∀ q ∈ inputs.filterMap service.question, key q = k → answer q = a := by
  induction inputs generalizing s with
  | nil => exact nofun
  | cons i inputs ih =>
      intro q hq hkey
      have hlater := ih (h.kept s i k a hkept) hexact.2 q
      cases hi : service.question i with
      | none =>
          rw [List.filterMap_cons_none hi] at hq
          exact hlater hq hkey
      | some q' =>
          rw [List.filterMap_cons_some hi] at hq
          rcases List.mem_cons.mp hq with rfl | hq
          · subst hkey
            exact (hexact.1 q a hi (h.reused s i q a hi hkept)).symm
          · exact hlater hq hkey

/-- **Separation is needed.** -/
theorem Sticky.separated {Kept : σ → K → A → Prop} (h : service.Sticky key Kept) {s : σ}
    {inputs : List ι} (hexact : Along service.step (service.Exact answer) s inputs) :
    Separated key answer (inputs.filterMap service.question) := by
  induction inputs generalizing s with
  | nil => exact nofun
  | cons i inputs ih =>
      have htail := ih hexact.2
      cases hi : service.question i with
      | none =>
          rw [List.filterMap_cons_none hi]
          exact htail
      | some q =>
          rw [List.filterMap_cons_some hi]
          obtain ⟨a, ha, hkept⟩ := h.stored s i q hi
          have hlater := h.answer_of_kept hkept hexact.2
          have hhead : answer q = a := (hexact.1 q a hi ha).symm
          intro q₁ h₁ q₂ h₂ hkey
          rcases List.mem_cons.mp h₁ with heq₁ | hmem₁
          · rcases List.mem_cons.mp h₂ with heq₂ | hmem₂
            · rw [heq₁, heq₂]
            · rw [heq₁] at hkey ⊢
              rw [hhead, hlater q₂ hmem₂ hkey.symm]
          · rcases List.mem_cons.mp h₂ with heq₂ | hmem₂
            · rw [heq₂] at hkey ⊢
              rw [hhead, hlater q₁ hmem₁ hkey]
            · exact htail q₁ hmem₁ q₂ hmem₂ hkey

end Service

end NestAmqp.Lib.Memo
