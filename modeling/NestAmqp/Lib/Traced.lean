/-
# NestAmqp.Lib.Traced — computations that log what they do, and a logic of what they log.

A `Traced` computation models asynchronous code that talks to an environment: it reads the log of
everything that has happened so far, appends the events it causes, and either returns or throws.  An
environment is a function of the log, so quantifying over environments covers every combination of
answers, including answers that depend on what was done before.

`Ensures p Q` says that from every log, `p` only appends, and that its outcome together with the
events it appended satisfies `Q`.  The rules below take a program apart along its own syntax, so a
proof about a program has the program's shape: one rule for `pure`, `throw`, `perform`, `bind` and
`tryCatch`, and a rule of consequence.
-/
import Mathlib.Data.List.Basic

namespace NestAmqp.Lib

/-- A computation over a log of `ε`-events that returns an `α` or throws a `χ`. -/
def Traced (ε χ α : Type) : Type := List ε → Except χ α × List ε

namespace Traced

variable {ε χ α β : Type}

/-- Return without logging anything. -/
protected def pure (a : α) : Traced ε χ α := fun log => (.ok a, log)

/-- Sequencing: a throw skips the continuation. -/
protected def bind (p : Traced ε χ α) (f : α → Traced ε χ β) : Traced ε χ β := fun log =>
  match p log with
  | (.ok a, log') => f a log'
  | (.error e, log') => (.error e, log')

instance : Monad (Traced ε χ) where
  pure := Traced.pure
  bind := Traced.bind

/-- Throw without logging anything. -/
def throw (e : χ) : Traced ε χ α := fun log => (.error e, log)

/-- `try { p } catch (e) { handler(e) }`: what was logged before the throw stays logged. -/
def tryCatch (p : Traced ε χ α) (handler : χ → Traced ε χ α) : Traced ε χ α := fun log =>
  match p log with
  | (.ok a, log') => (.ok a, log')
  | (.error e, log') => handler e log'

/-- Ask the environment, log the question with its answer, then return or throw as it answered. -/
def perform (answer : List ε → Except χ α) (record : Except χ α → ε) : Traced ε χ α := fun log =>
  (answer log, log ++ [record (answer log)])

/-- Lift an outcome that is already known. -/
def ofExcept (r : Except χ α) : Traced ε χ α := fun log => (r, log)

/-- The events a run from `log` appends. -/
def added (p : Traced ε χ α) (log : List ε) : List ε := (p log).2.drop log.length

/-! ## Running a program at a given log -/

section Run

variable {p : Traced ε χ α} {log log' : List ε} {a : α} {e : χ}

theorem bind_of_ok {f : α → Traced ε χ β} (h : p log = (.ok a, log')) : (p >>= f) log = f a log' := by
  show Traced.bind p f log = _
  unfold Traced.bind
  rw [h]

theorem bind_of_error {f : α → Traced ε χ β} (h : p log = (.error e, log')) :
    (p >>= f) log = (.error e, log') := by
  show Traced.bind p f log = _
  unfold Traced.bind
  rw [h]

/-- A sequence returns when both parts do. -/
theorem returns_of_bind {f : α → Traced ε χ β} {b : β} {log'' : List ε}
    (h : (p >>= f) log = (.ok b, log'')) : ∃ a log', p log = (.ok a, log') ∧ f a log' = (.ok b, log'') := by
  rcases hp : p log with ⟨e | a, log'⟩
  · rw [bind_of_error hp] at h
    cases h
  · exact ⟨a, log', rfl, (bind_of_ok hp).symm.trans h⟩

theorem tryCatch_of_ok {handler : χ → Traced ε χ α} (h : p log = (.ok a, log')) :
    tryCatch p handler log = (.ok a, log') := by
  unfold tryCatch
  rw [h]

theorem tryCatch_of_error {handler : χ → Traced ε χ α} (h : p log = (.error e, log')) :
    tryCatch p handler log = handler e log' := by
  unfold tryCatch
  rw [h]

theorem added_of_run {r : Except χ α} {t : List ε} (h : p log = (r, log ++ t)) : p.added log = t := by
  unfold added
  rw [h]
  exact List.drop_left

end Run

/-! ## The logic -/

/-- From every log, `p` only appends, and its outcome and the appended events satisfy `Q`. -/
def Ensures (p : Traced ε χ α) (Q : Except χ α → List ε → Prop) : Prop :=
  ∀ log, ∃ t, (p log).2 = log ++ t ∧ Q (p log).1 t

theorem Ensures.mono {p : Traced ε χ α} {Q R : Except χ α → List ε → Prop} (hp : Ensures p Q)
    (h : ∀ r t, Q r t → R r t) : Ensures p R := by
  intro log
  obtain ⟨t, hlog, hQ⟩ := hp log
  exact ⟨t, hlog, h _ _ hQ⟩

/-- Two facts about one program hold of the same outcome and the same events. -/
theorem Ensures.and {p : Traced ε χ α} {Q R : Except χ α → List ε → Prop} (hQ : Ensures p Q)
    (hR : Ensures p R) : Ensures p fun r t => Q r t ∧ R r t := by
  intro log
  obtain ⟨t, hlog, ht⟩ := hQ log
  obtain ⟨t', hlog', ht'⟩ := hR log
  have hsame : t = t' := List.append_cancel_left (hlog.symm.trans hlog')
  exact ⟨t, hlog, ht, hsame ▸ ht'⟩

/-- What a program ensures can be read at any single run of it. -/
theorem Ensures.added {p : Traced ε χ α} {Q : Except χ α → List ε → Prop} (hp : Ensures p Q)
    (log : List ε) : (p log).2 = log ++ p.added log ∧ Q (p log).1 (p.added log) := by
  obtain ⟨t, hlog, hQ⟩ := hp log
  have ht : p.added log = t := by simp [Traced.added, hlog]
  rw [ht]
  exact ⟨hlog, hQ⟩

theorem ensures_pure {a : α} {Q : Except χ α → List ε → Prop} (h : Q (.ok a) []) :
    Ensures (pure a : Traced ε χ α) Q :=
  fun log => ⟨[], (List.append_nil log).symm, h⟩

theorem ensures_throw {e : χ} {Q : Except χ α → List ε → Prop} (h : Q (.error e) []) :
    Ensures (throw e : Traced ε χ α) Q :=
  fun log => ⟨[], (List.append_nil log).symm, h⟩

theorem ensures_ofExcept {r : Except χ α} {Q : Except χ α → List ε → Prop} (h : Q r []) :
    Ensures (ofExcept r : Traced ε χ α) Q :=
  fun log => ⟨[], (List.append_nil log).symm, h⟩

/-- A performed step answers as the environment does at some log, and logs exactly that. -/
theorem ensures_perform (answer : List ε → Except χ α) (record : Except χ α → ε) :
    Ensures (perform answer record) fun r t => (∃ log, r = answer log) ∧ t = [record r] :=
  fun log => ⟨[record (answer log)], rfl, ⟨log, rfl⟩, rfl⟩

/-- What `Ensures` says, at one log. -/
def EnsuresAt (p : Traced ε χ α) (log : List ε) (Q : Except χ α → List ε → Prop) : Prop :=
  ∃ t, (p log).2 = log ++ t ∧ Q (p log).1 t

theorem Ensures.at_log {p : Traced ε χ α} {Q : Except χ α → List ε → Prop} (h : Ensures p Q)
    (log : List ε) : EnsuresAt p log Q := h log

theorem EnsuresAt.added {p : Traced ε χ α} {log : List ε} {Q : Except χ α → List ε → Prop}
    (h : EnsuresAt p log Q) : (p log).2 = log ++ p.added log ∧ Q (p log).1 (p.added log) := by
  obtain ⟨t, hlog, hQ⟩ := h
  have ht : p.added log = t := by simp [Traced.added, hlog]
  rw [ht]
  exact ⟨hlog, hQ⟩

theorem EnsuresAt.of_run {p : Traced ε χ α} {log t : List ε} {r : Except χ α}
    {Q : Except χ α → List ε → Prop} (h : EnsuresAt p log Q) (hrun : p log = (r, log ++ t)) :
    Q r t := by
  obtain ⟨t', hlog, hQ⟩ := h
  rw [hrun] at hlog hQ
  rwa [List.append_cancel_left hlog]

/-- The sequence rule at one log: the continuation may use how the first half ran. -/
theorem ensuresAt_bind {p : Traced ε χ α} {f : α → Traced ε χ β} {log : List ε}
    {P : Except χ α → List ε → Prop} {Q : Except χ β → List ε → Prop} (hp : EnsuresAt p log P)
    (hok : ∀ a t, p log = (.ok a, log ++ t) → P (.ok a) t →
      EnsuresAt (f a) (log ++ t) fun r t' => Q r (t ++ t'))
    (herror : ∀ e t, P (.error e) t → Q (.error e) t) : EnsuresAt (p >>= f) log Q := by
  obtain ⟨t, hlog, hP⟩ := hp
  show ∃ t, (Traced.bind p f log).2 = log ++ t ∧ Q (Traced.bind p f log).1 t
  unfold Traced.bind
  rcases hrun : p log with ⟨r, log'⟩
  rw [hrun] at hlog hP
  simp only at hlog
  subst hlog
  cases r with
  | ok a =>
      obtain ⟨t', hlog', hQ'⟩ := hok a t hrun hP
      exact ⟨t ++ t', by rw [hlog', List.append_assoc], hQ'⟩
  | error e => exact ⟨t, rfl, herror e t hP⟩

/-- **Sequence rule.**  After a return of the first half the continuation must establish `Q` for the
two traces together; after a throw `Q` must hold at once. -/
theorem ensures_bind {p : Traced ε χ α} {f : α → Traced ε χ β} {P : Except χ α → List ε → Prop}
    {Q : Except χ β → List ε → Prop} (hp : Ensures p P)
    (hok : ∀ a t, P (.ok a) t → Ensures (f a) fun r t' => Q r (t ++ t'))
    (herror : ∀ e t, P (.error e) t → Q (.error e) t) : Ensures (p >>= f) Q :=
  fun log => ensuresAt_bind (hp log) (fun a t _ ht => hok a t ht _) herror

/-- **Catch rule.**  A return of the body is the result; a throw hands its trace to the handler. -/
theorem ensures_tryCatch {p : Traced ε χ α} {handler : χ → Traced ε χ α}
    {P Q : Except χ α → List ε → Prop} (hp : Ensures p P) (hok : ∀ a t, P (.ok a) t → Q (.ok a) t)
    (herror : ∀ e t, P (.error e) t → Ensures (handler e) fun r t' => Q r (t ++ t')) :
    Ensures (tryCatch p handler) Q := by
  intro log
  obtain ⟨t, hlog, hP⟩ := hp log
  unfold tryCatch
  rcases hrun : p log with ⟨r, log'⟩
  rw [hrun] at hlog hP
  cases r with
  | ok a => exact ⟨t, hlog, hok a t hP⟩
  | error e =>
      obtain ⟨t', hlog', hQ'⟩ := herror e t hP log'
      simp only at hlog ⊢
      exact ⟨t ++ t', by rw [hlog', hlog, List.append_assoc], hQ'⟩

/-! ## Programs whose every event is of one kind -/

/-- Every event `p` logs, from whatever log, satisfies `P`. -/
def Emits (p : Traced ε χ α) (P : ε → Prop) : Prop := Ensures p fun _ t => ∀ e ∈ t, P e

theorem Emits.of_added {p : Traced ε χ α} {P : ε → Prop} (hp : Emits p P) {log : List ε} {e : ε}
    (he : e ∈ p.added log) : P e := (Ensures.added hp log).2 e he

theorem emits_pure (a : α) (P : ε → Prop) : Emits (pure a : Traced ε χ α) P :=
  ensures_pure (by simp)

theorem emits_throw (e : χ) (P : ε → Prop) : Emits (throw e : Traced ε χ α) P :=
  ensures_throw (by simp)

theorem emits_ofExcept (r : Except χ α) (P : ε → Prop) : Emits (ofExcept r) P :=
  ensures_ofExcept (by simp)

theorem emits_perform {answer : List ε → Except χ α} {record : Except χ α → ε} {P : ε → Prop}
    (h : ∀ r, P (record r)) : Emits (perform answer record) P := by
  refine (ensures_perform answer record).mono ?_
  rintro r t ⟨-, rfl⟩ e he
  rw [List.mem_singleton] at he
  rw [he]
  exact h r

theorem Emits.bind {p : Traced ε χ α} {f : α → Traced ε χ β} {P : ε → Prop} (hp : Emits p P)
    (hf : ∀ a, Emits (f a) P) : Emits (p >>= f) P := by
  refine ensures_bind hp (fun a t ht => (hf a).mono ?_) fun _ _ ht => ht
  intro r t' ht' e he
  rcases List.mem_append.mp he with h | h
  · exact ht e h
  · exact ht' e h

/-- Binding an outcome that is already known: the continuation only runs on the known value. -/
theorem emits_bind_ofExcept {r : Except χ α} {f : α → Traced ε χ β} {P : ε → Prop}
    (h : ∀ a, r = .ok a → Emits (f a) P) : Emits (ofExcept r >>= f) P := by
  cases r with
  | ok a => exact h a rfl
  | error e => exact emits_throw e P

theorem Emits.tryCatch {p : Traced ε χ α} {handler : χ → Traced ε χ α} {P : ε → Prop}
    (hp : Emits p P) (hh : ∀ e, Emits (handler e) P) : Emits (tryCatch p handler) P := by
  refine ensures_tryCatch hp (fun _ _ ht => ht) fun e t ht => (hh e).mono ?_
  intro r t' ht' e' he'
  rcases List.mem_append.mp he' with h | h
  · exact ht e' h
  · exact ht' e' h

/-! ## Programs that cause an event of a kind -/

/-- Every run of `p`, from whatever log, logs an event that satisfies `P`. -/
def Performs (p : Traced ε χ α) (P : ε → Prop) : Prop := Ensures p fun _ t => ∃ e ∈ t, P e

theorem performs_perform {answer : List ε → Except χ α} {record : Except χ α → ε} {P : ε → Prop}
    (h : ∀ r, P (record r)) : Performs (perform answer record) P := by
  refine (ensures_perform answer record).mono ?_
  rintro r t ⟨-, rfl⟩
  exact ⟨record r, .head _, h r⟩

/-- What the first half has done stays done, whatever follows. -/
theorem Performs.bind {p : Traced ε χ α} {f : α → Traced ε χ β} {P R : ε → Prop}
    (hp : Performs p P) (hf : ∀ a, Emits (f a) R) : Performs (p >>= f) P := by
  refine ensures_bind hp (fun a t ht => (hf a).mono ?_) fun _ _ ht => ht
  intro r t' _
  obtain ⟨e, he, hP⟩ := ht
  exact ⟨e, List.mem_append_left _ he, hP⟩

theorem Performs.tryCatch {p : Traced ε χ α} {handler : χ → Traced ε χ α} {P R : ε → Prop}
    (hp : Performs p P) (hh : ∀ e, Emits (handler e) R) : Performs (tryCatch p handler) P := by
  refine ensures_tryCatch hp (fun _ _ ht => ht) fun e t ht => (hh e).mono ?_
  intro r t' _
  obtain ⟨e', he', hP⟩ := ht
  exact ⟨e', List.mem_append_left _ he', hP⟩

end Traced

end NestAmqp.Lib
