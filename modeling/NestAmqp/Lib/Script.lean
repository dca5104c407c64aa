/-
# NestAmqp.Lib.Script — programs that ask a service one operation at a time.

A `Script` is a program whose every operation is a question to a service outside it: the service
answers, or fails, and the program goes on from the answer.  What a script does is kept apart from
what the service does: `run` plays a script against a service with a state, one operation after the
other.

A triple says what holds of the service's state when a script returns and when it throws.  The rules
follow the syntax of scripts; a loop keeps what each of its passes keeps.
-/
import Mathlib.Data.List.Basic

namespace NestAmqp.Lib

/-- A program over the operations `Op`, each with its type of answers, that returns an `α` or throws
a `χ`. -/
inductive Script (Op : Type) (Ans : Op → Type) (χ α : Type) where
  | done (a : α)
  | threw (e : χ)
  | ask (op : Op) (next : Except χ (Ans op) → Script Op Ans χ α)

/-- How a service with states `σ` answers. -/
abbrev Service (Op : Type) (Ans : Op → Type) (χ σ : Type) := σ → (op : Op) → Except χ (Ans op) × σ

namespace Script

variable {Op : Type} {Ans : Op → Type} {χ σ α β : Type}

/-! ## Programs -/

/-- Sequencing: a throw skips the continuation. -/
protected def bind : Script Op Ans χ α → (α → Script Op Ans χ β) → Script Op Ans χ β
  | done a, f => f a
  | threw e, _ => threw e
  | ask op next, f => ask op fun answer => (next answer).bind f

instance : Monad (Script Op Ans χ) where
  pure := done
  bind := Script.bind

/-- `try { p } catch (e) { handler(e) }`. -/
def tryCatch (handler : χ → Script Op Ans χ α) : Script Op Ans χ α → Script Op Ans χ α
  | done a => done a
  | threw e => handler e
  | ask op next => ask op fun answer => (next answer).tryCatch handler

/-- A value that is known, or a throw. -/
def ofExcept : Except χ α → Script Op Ans χ α
  | .ok a => done a
  | .error e => threw e

/-- One operation: its failure is thrown. -/
def perform (op : Op) : Script Op Ans χ (Ans op) := ask op ofExcept

/-- `for (const x of l) { f(x) }`. -/
def forEach (f : β → Script Op Ans χ Unit) : List β → Script Op Ans χ Unit
  | [] => done ()
  | x :: xs => f x >>= fun _ => forEach f xs

/-- `for (const x of l) { acc = f(acc, x) }`. -/
def foldEach (f : α → β → Script Op Ans χ α) : α → List β → Script Op Ans χ α
  | acc, [] => done acc
  | acc, x :: xs => f acc x >>= fun acc => foldEach f acc xs

/-! ## Runs -/

/-- The run of a script against a service. -/
def run (service : Service Op Ans χ σ) : Script Op Ans χ α → σ → Except χ α × σ
  | done a, s => (.ok a, s)
  | threw e, s => (.error e, s)
  | ask op next, s => run service (next (service s op).1) (service s op).2

variable (service : Service Op Ans χ σ)

@[simp] theorem run_pure (a : α) (s : σ) : run service (pure a : Script Op Ans χ α) s = (.ok a, s) := rfl

theorem run_bind (p : Script Op Ans χ α) (f : α → Script Op Ans χ β) (s : σ) :
    run service (p >>= f) s =
      match run service p s with
      | (.ok a, s') => run service (f a) s'
      | (.error e, s') => (.error e, s') := by
  induction p generalizing s with
  | done a => rfl
  | threw e => rfl
  | ask op next ih => exact ih _ _

theorem run_bind_of_ok {p : Script Op Ans χ α} {f : α → Script Op Ans χ β} {s s' : σ} {a : α}
    (h : run service p s = (.ok a, s')) : run service (p >>= f) s = run service (f a) s' := by
  rw [run_bind, h]

theorem run_tryCatch (handler : χ → Script Op Ans χ α) (p : Script Op Ans χ α) (s : σ) :
    run service (p.tryCatch handler) s =
      match run service p s with
      | (.ok a, s') => (.ok a, s')
      | (.error e, s') => run service (handler e) s' := by
  induction p generalizing s with
  | done a => rfl
  | threw e => rfl
  | ask op next ih => exact ih _ _

@[simp] theorem run_ofExcept (r : Except χ α) (s : σ) : run service (ofExcept r) s = (r, s) := by
  cases r <;> rfl

@[simp] theorem run_perform (op : Op) (s : σ) : run service (perform op) s = service s op := by
  show run service (ofExcept (service s op).1) (service s op).2 = _
  rw [run_ofExcept]

/-! ## Triples -/

/-- `Q` of what was returned, `E` of what was thrown. -/
def Ends (Q : α → σ → Prop) (E : χ → σ → Prop) : Except χ α × σ → Prop
  | (.ok a, s) => Q a s
  | (.error e, s) => E e s

/-- From every state with `P`, the run ends in `Q` when it returns and in `E` when it throws. -/
def Triple (P : σ → Prop) (p : Script Op Ans χ α) (Q : α → σ → Prop) (E : χ → σ → Prop) : Prop :=
  ∀ s, P s → Ends Q E (run service p s)

/-- What holds before the script holds after it, however it ends. -/
def Keeps (I : σ → Prop) (p : Script Op Ans χ α) : Prop :=
  Triple service I p (fun _ => I) fun _ => I

section Rules

variable {service} {P : σ → Prop} {Q Q' : α → σ → Prop} {R : β → σ → Prop} {E E' : χ → σ → Prop}
  {I : σ → Prop} {p : Script Op Ans χ α}

theorem Ends.mono {r : Except χ α × σ} (h : Ends Q E r) (hQ : ∀ a s, Q a s → Q' a s)
    (hE : ∀ e s, E e s → E' e s) : Ends Q' E' r := by
  rcases r with ⟨e | a, s⟩
  · exact hE e s h
  · exact hQ a s h

theorem Triple.mono (h : Triple service P p Q E) (hQ : ∀ a s, Q a s → Q' a s)
    (hE : ∀ e s, E e s → E' e s) : Triple service P p Q' E' := fun s hs => (h s hs).mono hQ hE

theorem triple_pure {a : α} (h : ∀ s, P s → Q a s) :
    Triple service P (pure a : Script Op Ans χ α) Q E := h

theorem triple_threw {e : χ} (h : ∀ s, P s → E e s) :
    Triple service P (threw e : Script Op Ans χ α) Q E := h

theorem triple_ofExcept {r : Except χ α} (hok : ∀ a, r = .ok a → ∀ s, P s → Q a s)
    (herror : ∀ e, r = .error e → ∀ s, P s → E e s) : Triple service P (ofExcept r) Q E := by
  cases r with
  | ok a => exact hok a rfl
  | error e => exact herror e rfl

theorem triple_bind {f : α → Script Op Ans χ β} (hp : Triple service P p Q E)
    (hf : ∀ a, Triple service (Q a) (f a) R E) : Triple service P (p >>= f) R E := by
  intro s hs
  have hends := hp s hs
  rw [run_bind]
  generalize run service p s = r at hends
  rcases r with ⟨e | a, s'⟩
  · exact hends
  · exact hf a s' hends

theorem triple_tryCatch {handler : χ → Script Op Ans χ α} (hp : Triple service P p Q E)
    (hhandler : ∀ e, Triple service (E e) (handler e) Q E') :
    Triple service P (p.tryCatch handler) Q E' := by
  intro s hs
  have hends := hp s hs
  rw [run_tryCatch]
  generalize run service p s = r at hends
  rcases r with ⟨e | a, s'⟩
  · exact hhandler e s' hends
  · exact hends

theorem triple_perform {op : Op} {Q : Ans op → σ → Prop}
    (h : ∀ s, P s → Ends Q E (service s op)) : Triple service P (perform op) Q E := by
  intro s hs
  rw [run_perform]
  exact h s hs

/-- A loop, by what its passes so far have established. -/
theorem triple_forEach {f : β → Script Op Ans χ Unit} {J : List β → σ → Prop} (l : List β)
    (hstep : ∀ before x after, l = before ++ x :: after →
      Triple service (J before) (f x) (fun _ => J (before ++ [x])) E) :
    Triple service (J []) (forEach f l) (fun _ => J l) E := by
  suffices h : ∀ after before, l = before ++ after →
      Triple service (J before) (forEach f after) (fun _ => J l) E from h l [] rfl
  intro after
  induction after with
  | nil =>
      rintro before rfl s hs
      rw [List.append_nil]
      exact hs
  | cons x after ih =>
      intro before hl
      refine triple_bind (hstep before x after hl) fun _ => ih (before ++ [x]) ?_
      rw [hl, List.append_assoc, List.singleton_append]

/-- A loop that accumulates, by what its passes so far have established. -/
theorem triple_foldEach {f : α → β → Script Op Ans χ α} {J : List β → α → σ → Prop} (l : List β) (acc : α)
    (hstep : ∀ before x after, l = before ++ x :: after → ∀ acc,
      Triple service (J before acc) (f acc x) (J (before ++ [x])) E) :
    Triple service (J [] acc) (foldEach f acc l) (J l) E := by
  suffices h : ∀ after before acc, l = before ++ after →
      Triple service (J before acc) (foldEach f acc after) (J l) E from h l [] acc rfl
  intro after
  induction after with
  | nil =>
      rintro before acc rfl s hs
      rw [List.append_nil]
      exact hs
  | cons x after ih =>
      intro before acc hl
      refine triple_bind (hstep before x after hl acc) fun acc => ih (before ++ [x]) acc ?_
      rw [hl, List.append_assoc, List.singleton_append]

theorem keeps_forEach {f : β → Script Op Ans χ Unit} {l : List β} (h : ∀ x ∈ l, Keeps service I (f x)) :
    Keeps service I (forEach f l) := by
  refine triple_forEach (J := fun _ => I) l ?_
  rintro before x after rfl
  exact h x (List.mem_append_right _ (.head _))

theorem Keeps.bind {f : α → Script Op Ans χ β} (hp : Keeps service I p)
    (hf : ∀ a, Keeps service I (f a)) : Keeps service I (p >>= f) := triple_bind hp hf

theorem keeps_pure (a : α) : Keeps service I (pure a : Script Op Ans χ α) := fun _ hs => hs

theorem keeps_ofExcept (r : Except χ α) : Keeps service I (ofExcept r) :=
  triple_ofExcept (fun _ _ _ hs => hs) fun _ _ _ hs => hs

theorem Keeps.tryCatch {handler : χ → Script Op Ans χ α} (hp : Keeps service I p)
    (hhandler : ∀ e, Keeps service I (handler e)) : Keeps service I (p.tryCatch handler) :=
  triple_tryCatch hp hhandler

/-- An operation keeps what the service keeps when it answers it. -/
theorem keeps_perform {op : Op} (h : ∀ s, I s → I (service s op).2) : Keeps service I (perform op) := by
  refine triple_perform fun s hs => ?_
  have hkept := h s hs
  generalize service s op = r at hkept
  rcases r with ⟨e | a, s'⟩ <;> exact hkept

/-- What a kept condition says of the state a run ends in. -/
theorem Keeps.state (h : Keeps service I p) {s : σ} (hs : I s) : I (run service p s).2 := by
  have hends := h s hs
  generalize run service p s = r at hends
  rcases r with ⟨e | a, s'⟩ <;> exact hends

end Rules

end Script

end NestAmqp.Lib
