/-
# NestAmqp.Amqp.SubscriptionOutcome — when a subscription reports how it ended.

`consumerFactory` makes a promise with a resolver and no rejecter: the setup function resolves it when it
has its consumer, and leaves it alone when it fails or finds the latch set.  This module says which steps
lose an outcome, and that a run without them, and no other, settles every promise whose setup has ended.
-/
import NestAmqp.Amqp.Subscriptions

namespace NestAmqp.Amqp.Connection

open NestAmqp.Js
open NestAmqp.Lib.Machine

variable {H : Type}

/-! ## The property and the steps that break it -/

/-- Some run of the subscription's setup has ended with a consumer of this tag. -/
def Created (s : Connection H) (i : Nat) (tag : ConsumerTag) : Prop :=
  ∃ run ∈ s.setups, run.subscription = i ∧ run.phase = .ended (.created tag)

/-- Where a setup run has ended the promise is settled: it is resolved with the tag of a consumer the
setup created, or it is rejected and the setup created none. -/
def Reports (s : Connection H) : Prop :=
  ∀ run ∈ s.setups, ∀ result, run.phase = .ended result →
    ∃ sub, s.subscriptions[run.subscription]? = some sub ∧
      ((∃ tag, sub.promise = .resolved tag ∧ s.Created run.subscription tag) ∨
        (sub.promise = .rejected ∧ ∀ tag, ¬ s.Created run.subscription tag))

/-- What the run waits for fails, and the setup with it: the declaration without a handler for its
failure, that handler, a binding, or the `consume` call, which a tag in use also fails. -/
def Fails (config : ConsumersConfig) (s : Connection H) (run : SetupRun) (sub : Subscription H)
    (answer : Except Thrown String) : Prop :=
  match run.phase with
  | .declaring => (s.answered run.channel answer).isOk = false ∧
      (sub.options.createQueueIfNotExists && sub.options.recovers) = false
  | .recovering | .binding _ => (s.answered run.channel answer).isOk = false
  | .consuming _ => (s.answered run.channel answer).isOk = false ∨
      ∃ c ∈ s.live, c.channel = run.channel ∧ c.tag = s.tagOf config sub
  | .registering _ | .resolving _ | .ended _ => False

/-- The step ends a setup run of a pending subscription without a consumer: the setup fails, or it starts
after the latch is set. -/
def LosesOutcome (config : ConsumersConfig) (s : Connection H) : ConnectionInput H → Prop
  | .advance i answer => ∃ run sub, s.setups[i]? = some run ∧
      s.subscriptions[run.subscription]? = some sub ∧ sub.promise = .pending ∧
      Fails config s run sub answer
  | .attach i => s.consumersCanceled = true ∧ ∃ sub, s.subscriptions[i]? = some sub ∧
      sub.promise = .pending ∧ sub.attached = false ∧
      (s.currentChannel (selectManagedChannel config sub.options.channel)).isSome
  | .connect wrapper => s.consumersCanceled = true ∧ s.currentChannel wrapper = none ∧
      ∃ i ∈ s.setupsOf config wrapper, ∃ sub, s.subscriptions[i]? = some sub ∧ sub.promise = .pending
  | .subscribe .. | .disconnect _ | .cancelAll | .canceled .. => False

/-! ## What a step does to runs and promises -/

/-- Subscriptions stay where they are, and settled promises as they are. -/
def Keeps (s s' : Connection H) : Prop :=
  ∀ (j : Nat) (sub : Subscription H), s.subscriptions[j]? = some sub →
    ∃ sub' : Subscription H, s'.subscriptions[j]? = some sub' ∧
    (sub.promise ≠ .pending → sub'.promise = sub.promise) ∧
    (sub'.promise = .rejected → sub.promise = .rejected)

theorem Keeps.of_eq {s s' : Connection H} (h : s'.subscriptions = s.subscriptions) : Keeps s s' :=
  fun _ sub hsub => ⟨sub, h ▸ hsub, fun _ => rfl, fun hr => hr⟩

/-- The subscription of the run is accepted, and settled if the run has ended. -/
def Told (s : Connection H) (run : SetupRun) : Prop :=
  ∃ sub, s.subscriptions[run.subscription]? = some sub ∧ sub.promise ≠ .rejected ∧
    ∀ result, run.phase = .ended result → sub.promise ≠ .pending

theorem Told.keeps {s s' : Connection H} {run : SetupRun} (h : Told s run) (hkeeps : Keeps s s') :
    Told s' run := by
  obtain ⟨sub, hsub, hrejected, hsettled⟩ := h
  obtain ⟨sub', hsub', hsame, hrejected'⟩ := hkeeps _ sub hsub
  refine ⟨sub', hsub', fun hr => hrejected (hrejected' hr), fun result hended => ?_⟩
  have hpending := hsettled result hended
  rw [hsame hpending]
  exact hpending

/-- Every run is told, no refused subscription was handed to a wrapper, and a promise is resolved with the
tag of a consumer that was created. -/
structure Accounted (s : Connection H) : Prop where
  told : ∀ run ∈ s.setups, Told s run
  accepted : ∀ sub ∈ s.subscriptions, sub.attached = true → sub.promise ≠ .rejected
  genuine : ∀ (j : Nat) (sub : Subscription H) (tag : ConsumerTag), s.subscriptions[j]? = some sub →
    sub.promise = .resolved tag → s.Created j tag

theorem Accounted.start : Accounted ({} : Connection H) := ⟨by simp, by simp, by simp⟩

theorem Accounted.reports {s : Connection H} (h : Accounted s) : Reports s := by
  intro run hrun result hended
  obtain ⟨sub, hsub, hrejected, hsettled⟩ := h.told run hrun
  refine ⟨sub, hsub, .inl ?_⟩
  cases hpromise : sub.promise with
  | pending => exact absurd hpromise (hsettled result hended)
  | resolved tag => exact ⟨tag, rfl, h.genuine _ sub tag hsub hpromise⟩
  | rejected => exact absurd hpromise hrejected

/-- An ended run of a pending subscription is not reported. -/
theorem not_reports {s : Connection H} {run : SetupRun} {result : SetupResult} {sub : Subscription H}
    (hrun : run ∈ s.setups) (hended : run.phase = .ended result)
    (hsub : s.subscriptions[run.subscription]? = some sub) (hpending : sub.promise = .pending) :
    ¬ Reports s := by
  intro h
  obtain ⟨sub', hsub', hsettled⟩ := h run hrun result hended
  obtain rfl : sub = sub' := Option.some.inj (hsub.symm.trans hsub')
  rw [hpending] at hsettled
  rcases hsettled with ⟨_, hresolved, -⟩ | ⟨hrejected, -⟩
  · cases hresolved
  · cases hrejected

theorem mem_modify {α : Type} {l : List α} {i : Nat} {f : α → α} {x : α} (h : x ∈ l.modify i f) :
    x ∈ l ∨ ∃ y, l[i]? = some y ∧ x = f y := by
  obtain ⟨j, hj, rfl⟩ := List.mem_iff_getElem.mp h
  rw [List.length_modify] at hj
  rw [List.getElem_modify]
  split
  next heq =>
    subst heq
    exact .inr ⟨l[i], List.getElem?_eq_getElem hj, rfl⟩
  next => exact .inl (List.getElem_mem hj)

/-- What resolving a promise leaves at each place. -/
theorem getElem?_resolve {s : Connection H} {i j : Nat} {tag : ConsumerTag} {sub' : Subscription H}
    (h : (s.resolve i tag).subscriptions[j]? = some sub') :
    ∃ sub, s.subscriptions[j]? = some sub ∧ sub'.attached = sub.attached ∧
      sub'.promise = if j = i ∧ sub.promise = .pending then .resolved tag else sub.promise := by
  have hmodify : (s.subscriptions.modify i fun sub =>
      if sub.promise == .pending then { sub with promise := .resolved tag } else sub)[j]? = some sub' := h
  rw [List.getElem?_modify] at hmodify
  obtain ⟨sub, hsub, rfl⟩ := Option.map_eq_some_iff.mp hmodify
  refine ⟨sub, hsub, ?_, ?_⟩
  · split
    · split <;> rfl
    · rfl
  · by_cases hij : i = j
    · by_cases hpending : sub.promise = .pending <;> simp [hij, hpending]
    · simp [hij, Ne.symm hij]

theorem exists_resolve {s : Connection H} {j : Nat} {sub : Subscription H}
    (h : s.subscriptions[j]? = some sub) (i : Nat) (tag : ConsumerTag) :
    ∃ sub', (s.resolve i tag).subscriptions[j]? = some sub' ∧
      sub'.promise = if j = i ∧ sub.promise = .pending then .resolved tag else sub.promise := by
  have hlength : j < (s.resolve i tag).subscriptions.length := by
    unfold resolve
    rw [List.length_modify]
    exact (List.getElem?_eq_some_iff.mp h).1
  have hat := List.getElem?_eq_getElem hlength
  obtain ⟨sub₀, hsub₀, -, hpromise⟩ := getElem?_resolve hat
  obtain rfl : sub = sub₀ := Option.some.inj (h.symm.trans hsub₀)
  exact ⟨_, hat, hpromise⟩

theorem keeps_resolve (s : Connection H) (i : Nat) (tag : ConsumerTag) : Keeps s (s.resolve i tag) := by
  intro j sub hsub
  obtain ⟨sub', hsub', hpromise⟩ := exists_resolve hsub i tag
  refine ⟨sub', hsub', fun hsettled => ?_, fun hrejected => ?_⟩
  · rw [hpromise, if_neg fun h => hsettled h.2]
  · rw [hpromise] at hrejected
    split at hrejected
    · cases hrejected
    · exact hrejected

theorem accepted_resolve {s : Connection H} (h : Accounted s) (i : Nat) (tag : ConsumerTag) :
    ∀ sub ∈ (s.resolve i tag).subscriptions, sub.attached = true → sub.promise ≠ .rejected := by
  intro sub hsub hattached
  obtain ⟨j, hj⟩ := List.getElem?_of_mem hsub
  obtain ⟨sub₀, hsub₀, hsame, hpromise⟩ := getElem?_resolve hj
  rw [hpromise]
  split
  · exact fun h => by cases h
  · exact h.accepted sub₀ (List.mem_of_getElem? hsub₀) (hsame ▸ hattached)

/-! ## One step of a run -/

section Advance

variable (config : ConsumersConfig) {s : Connection H} {i : Nat} {run : SetupRun}
  {sub : Subscription H} (answer : Except Thrown String)

/-- A run moves on, and either it resolves its promise, or it ends because it fails, or it does not end. -/
theorem advance_run (hrun : s.setups[i]? = some run)
    (hsub : s.subscriptions[run.subscription]? = some sub) :
    ∃ phase, (s.advance config i answer).setups = s.setups.modify i (fun run => { run with phase }) ∧
      (∀ result, run.phase = .ended result → phase = run.phase) ∧
      ((∃ tag, ¬ Fails config s run sub answer ∧ phase = .ended (.created tag) ∧
      (s.advance config i answer).subscriptions =
          (s.resolve run.subscription tag).subscriptions) ∨
        (s.advance config i answer).subscriptions = s.subscriptions ∧
          ((Fails config s run sub answer ∧ phase = .ended .failed) ∨
            (¬ Fails config s run sub answer ∧ ((∀ result, phase ≠ .ended result) ∨ phase = run.phase)))) := by
  unfold advance Fails
  rw [hrun]
  simp only [hsub]
  cases hphase : run.phase with
  -- a queue that cannot be declared fails the run, unless it may be recovered
  | declaring =>
      refine ⟨_, rfl, fun _ h => (by cases h), .inr ⟨rfl, ?_⟩⟩
      cases s.answered run.channel answer with
      | ok queue =>
          refine .inr ⟨fun h => (by cases h.1), .inl fun result => ?_⟩
          unfold Phase.next afterQueue
          dsimp only
          split <;> exact fun h => by cases h
      | error e =>
          unfold Phase.next
          cases sub.options.createQueueIfNotExists && sub.options.recovers with
          | false => exact .inl ⟨⟨rfl, rfl⟩, rfl⟩
          | true => exact .inr ⟨fun h => (by cases h.2), .inl fun result h => by cases h⟩
  | recovering =>
      refine ⟨_, rfl, fun _ h => (by cases h), .inr ⟨rfl, ?_⟩⟩
      cases s.answered run.channel answer with
      | ok queue =>
          refine .inr ⟨fun h => (by cases h), .inl fun result => ?_⟩
          unfold Phase.next afterQueue
          dsimp only
          split <;> exact fun h => by cases h
      | error e => exact .inl ⟨rfl, rfl⟩
  | binding queue =>
      refine ⟨_, rfl, fun _ h => (by cases h), .inr ⟨rfl, ?_⟩⟩
      cases s.answered run.channel answer with
      | ok _ => exact .inr ⟨fun h => (by cases h), .inl fun result h => by cases h⟩
      | error e => exact .inl ⟨rfl, rfl⟩
  -- a consumer is refused by the broker, or its tag is taken on the channel
  | consuming queue =>
      simp only
      cases s.answered run.channel answer with
      | error e => exact ⟨_, rfl, fun _ h => (by cases h), .inr ⟨rfl, .inl ⟨.inl rfl, rfl⟩⟩⟩
      | ok _ =>
          unfold consume
          dsimp only
          split
          next htaken =>
            refine ⟨_, rfl, fun _ h => (by cases h), .inr ⟨rfl, .inl ⟨.inr ?_, rfl⟩⟩⟩
            simpa using htaken
          next hfree =>
            refine ⟨_, rfl, fun _ h => (by cases h), .inr ⟨rfl, .inr ⟨?_, .inl fun result h => by cases h⟩⟩⟩
            rintro (h | ⟨c, hc, hchannel, htag⟩)
            · cases h
            · refine hfree (List.any_eq_true.mpr ⟨c, hc, ?_⟩)
              simp [hchannel, htag]
  | registering tag =>
      exact ⟨_, rfl, fun _ h => (by cases h), .inr ⟨rfl, .inr ⟨fun h => h, .inl fun result h => by cases h⟩⟩⟩
  | resolving tag => exact ⟨_, rfl, fun _ h => (by cases h), .inl ⟨tag, fun h => h, rfl, rfl⟩⟩
  | ended result => exact ⟨_, rfl, fun _ _ => rfl, .inr ⟨rfl, .inr ⟨fun h => h, .inr rfl⟩⟩⟩

theorem advance_idle (h : s.setups[i]? = none ∨ ∃ run, s.setups[i]? = some run ∧
    s.subscriptions[run.subscription]? = none) : s.advance config i answer = s := by
  unfold advance
  rcases h with h | ⟨run, hrun, hsub⟩
  · rw [h]
  · rw [hrun]
    simp only [hsub]

end Advance

/-! ## Whole runs -/

section Step

variable {config : ConsumersConfig} {s s' : Connection H}

/-- A step that keeps the promises and the consumers created, and whose new runs are told. -/
theorem Accounted.of_keeps (h : Accounted s) (hkeeps : Keeps s s')
    (haccepted : ∀ sub ∈ s'.subscriptions, sub.attached = true → sub.promise ≠ .rejected)
    (hgenuine : ∀ (j : Nat) (sub : Subscription H) (tag : ConsumerTag), s'.subscriptions[j]? = some sub →
      sub.promise = .resolved tag → s.Created j tag ∨ s'.Created j tag)
    (hcreated : ∀ j tag, s.Created j tag → s'.Created j tag)
    (hruns : ∀ run ∈ s'.setups, run ∈ s.setups ∨ Told s' run) : Accounted s' := by
  refine ⟨fun run hrun => ?_, haccepted, fun j sub tag hsub hresolved => ?_⟩
  · rcases hruns run hrun with hold | hnew
    · exact (h.told run hold).keeps hkeeps
    · exact hnew
  · exact (hgenuine j sub tag hsub hresolved).elim (hcreated j tag) id

/-- A step that only starts runs. -/
theorem Created.of_append {j : Nat} {tag : ConsumerTag} {runs : List SetupRun} (h : s.Created j tag)
    (hsetups : s'.setups = s.setups ++ runs) : s'.Created j tag := by
  obtain ⟨run, hrun, hj⟩ := h
  exact ⟨run, hsetups ▸ List.mem_append_left _ hrun, hj⟩

theorem Accounted.advance (h : Accounted s) {i : Nat} {answer : Except Thrown String}
    (hkept : ¬ LosesOutcome config s (.advance i answer)) : Accounted (s.advance config i answer) := by
  cases hrun : s.setups[i]? with
  | none => exact (advance_idle config answer (.inl hrun)).symm ▸ h
  | some run =>
  obtain ⟨sub, hsub, hrejected, hsettled⟩ := h.told run (List.mem_of_getElem? hrun)
  obtain ⟨phase, hsetups, hstays, hcases⟩ := advance_run config answer hrun hsub
  have hmember (run' : SetupRun) (hrun' : run' ∈ (s.advance config i answer).setups) :
      run' ∈ s.setups ∨ run' = { run with phase } := by
    rw [hsetups] at hrun'
    rcases mem_modify hrun' with hold | ⟨run₀, hrun₀, rfl⟩
    · exact .inl hold
    · obtain rfl : run = run₀ := Option.some.inj (hrun.symm.trans hrun₀)
      exact .inr rfl
  have hmoved : { run with phase } ∈ (s.advance config i answer).setups := by
    apply List.mem_of_getElem? (i := i)
    rw [hsetups, List.getElem?_modify, hrun]
    simp
  -- a run that has ended stays where it is, so no consumer is forgotten
  have hcreated (j : Nat) (tag : ConsumerTag) (hc : s.Created j tag) :
      (s.advance config i answer).Created j tag := by
    obtain ⟨run', hrun', hj, hended⟩ := hc
    obtain ⟨k, hk⟩ := List.getElem?_of_mem hrun'
    by_cases hik : i = k
    · subst hik
      obtain rfl : run = run' := Option.some.inj (hrun.symm.trans hk)
      exact ⟨_, hmoved, hj, (hstays _ hended).trans hended⟩
    · refine ⟨run', List.mem_of_getElem? (i := k) ?_, hj, hended⟩
      rw [hsetups, List.getElem?_modify, hk]
      simp [hik]
  rcases hcases with ⟨tag, -, rfl, hsubs⟩ | ⟨hsubs, hphase⟩
  · -- the promise is resolved in the step that ends the run
    have hkeeps : Keeps s (s.advance config i answer) := by
      unfold Keeps
      rw [hsubs]
      exact keeps_resolve s run.subscription tag
    refine h.of_keeps hkeeps (hsubs ▸ accepted_resolve h run.subscription tag)
      (fun j sub' tag' hsub' hresolved => ?_) hcreated fun run' hrun' => ?_
    · rw [hsubs] at hsub'
      obtain ⟨sub₀, hsub₀, -, hpromise⟩ := getElem?_resolve hsub'
      rw [hresolved] at hpromise
      split at hpromise
      next hnew =>
        cases hpromise
        exact .inr ⟨_, hmoved, hnew.1.symm, rfl⟩
      next => exact .inl (h.genuine j sub₀ tag' hsub₀ hpromise.symm)
    · refine (hmember run' hrun').imp_right fun heq => ?_
      subst heq
      obtain ⟨sub', hsub', hpromise⟩ := exists_resolve hsub run.subscription tag
      refine ⟨sub', hsubs ▸ hsub', ?_, fun _ _ => ?_⟩ <;> rw [hpromise] <;> split
      · exact fun h => by cases h
      · exact hrejected
      · exact fun h => by cases h
      next hno => exact fun hpending => hno ⟨rfl, hpending⟩
  · refine h.of_keeps (.of_eq hsubs) (hsubs ▸ h.accepted)
      (fun j sub' tag' hsub' => .inl ∘ h.genuine j sub' tag' (hsubs ▸ hsub')) hcreated
      fun run' hrun' => ?_
    refine (hmember run' hrun').imp_right fun heq => ?_
    subst heq
    refine ⟨sub, hsubs ▸ hsub, hrejected, fun result hended => ?_⟩
    rcases hphase with ⟨hfails, -⟩ | ⟨-, hnot | hsame⟩
    · exact fun hpending => hkept ⟨run, sub, hrun, hsub, hpending, hfails⟩
    · exact absurd hended (hnot result)
    · exact hsettled result (hsame ▸ hended)

/-- A setup run that starts is told, unless it is skipped while its promise is pending. -/
theorem told_startRun {channel j : Nat} {sub : Subscription H} (hsub : s'.subscriptions[j]? = some sub)
    (hrejected : sub.promise ≠ .rejected)
    (hsettled : s.consumersCanceled = true → sub.promise ≠ .pending) : Told s' (s.startRun channel j) := by
  refine ⟨sub, hsub, hrejected, fun result hended => ?_⟩
  unfold startRun at hended
  dsimp only at hended
  split at hended
  next hlatch => exact hsettled hlatch
  next => cases hended

/-- A step that leaves the subscriptions alone, and starts only runs that are told. -/
theorem Accounted.of_append (h : Accounted s) {runs : List SetupRun}
    (hsubs : s'.subscriptions = s.subscriptions) (hsetups : s'.setups = s.setups ++ runs)
    (hruns : ∀ run ∈ runs, Told s' run) : Accounted s' := by
  refine h.of_keeps (.of_eq hsubs) (hsubs ▸ h.accepted)
    (fun j sub tag hsub => .inl ∘ h.genuine j sub tag (hsubs ▸ hsub))
    (fun _ _ hc => hc.of_append hsetups) fun run hrun => ?_
  rw [hsetups] at hrun
  exact (List.mem_append.mp hrun).imp_right (hruns run)

theorem Accounted.of_eq (h : Accounted s) (hsubs : s'.subscriptions = s.subscriptions)
    (hsetups : s'.setups = s.setups) : Accounted s' :=
  h.of_append hsubs (hsetups.trans (List.append_nil _).symm) (by simp)

theorem Accounted.connect (h : Accounted s) {wrapper : String}
    (hkept : ¬ LosesOutcome config s (.connect wrapper)) : Accounted (s.connect config wrapper) := by
  unfold Connection.connect
  split
  next => exact h
  next hclosed =>
  refine h.of_append rfl rfl fun run hrun => ?_
  obtain ⟨i, hi, rfl⟩ := List.mem_map.mp hrun
  have hsetup := hi
  unfold setupsOf at hsetup
  obtain ⟨⟨sub, i'⟩, hfilter, rfl⟩ := List.mem_map.mp hsetup
  obtain ⟨hzip, hattached⟩ := List.mem_filter.mp hfilter
  have hsub : s.subscriptions[i']? = some sub := List.mem_zipIdx_iff_getElem?.mp hzip
  have hat : sub.attached = true := (Bool.and_eq_true_iff.mp hattached).1
  refine told_startRun hsub (h.accepted sub (List.mem_of_getElem? hsub) hat) fun hlatch hpending => ?_
  exact hkept ⟨hlatch, by simpa using hclosed, i', hi, sub, hsub, hpending⟩

theorem Accounted.attach (h : Accounted s) {i : Nat}
    (hkept : ¬ LosesOutcome config s (.attach i)) : Accounted (s.attach config i) := by
  unfold Connection.attach
  split
  next => exact h
  next sub hsub =>
  split
  next => exact h
  next hfree =>
  obtain ⟨hunattached, hrejected⟩ : sub.attached = false ∧ sub.promise ≠ .rejected := by
    simpa using hfree
  -- at the place of the subscription is the attached one, elsewhere what was there
  have hplace (j : Nat) (sub' : Subscription H)
      (hsub' : (s.subscriptions.set i { sub with attached := true })[j]? = some sub') :
      (j = i ∧ sub' = { sub with attached := true }) ∨ s.subscriptions[j]? = some sub' := by
    rw [List.getElem?_set] at hsub'
    split at hsub'
    next heq =>
      split at hsub'
      · exact .inl ⟨heq.symm, (Option.some.inj hsub').symm⟩
      · cases hsub'
    next => exact .inr hsub'
  have hself : (s.subscriptions.set i { sub with attached := true })[i]? =
      some { sub with attached := true } :=
    List.getElem?_set_self (List.getElem?_eq_some_iff.mp hsub).1
  have hheld : Accounted
      { s with subscriptions := s.subscriptions.set i { sub with attached := true } } := by
    refine h.of_keeps (fun j sub₀ hsub₀ => ?_) (fun sub' hsub' hat => ?_)
      (fun j sub' tag hsub' hresolved => ?_) (fun _ _ hc => hc) fun run hrun => .inl hrun
    · by_cases hij : i = j
      · subst hij
        obtain rfl : sub = sub₀ := Option.some.inj (hsub.symm.trans hsub₀)
        exact ⟨_, hself, fun _ => rfl, fun hr => hr⟩
      · exact ⟨sub₀, by simpa [List.getElem?_set, hij] using hsub₀, fun _ => rfl, fun hr => hr⟩
    · obtain ⟨j, hj⟩ := List.getElem?_of_mem hsub'
      rcases hplace j sub' hj with ⟨-, rfl⟩ | hold
      · exact hrejected
      · exact h.accepted sub' (List.mem_of_getElem? hold) hat
    · rcases hplace j sub' hsub' with ⟨rfl, rfl⟩ | hold
      · exact .inl (h.genuine _ sub tag hsub hresolved)
      · exact .inl (h.genuine j sub' tag hold hresolved)
  dsimp only
  split
  next => exact hheld
  next channel hchannel =>
    refine hheld.of_append rfl rfl fun run hrun => ?_
    rw [List.mem_singleton.mp hrun]
    refine told_startRun hself hrejected fun hlatch hpending => hkept ⟨hlatch, sub, hsub, hpending,
      hunattached, ?_⟩
    exact Option.isSome_iff_exists.mpr ⟨channel, hchannel⟩

theorem Accounted.subscribe (h : Accounted s) (kind : ConsumerKind) (handler : H)
    (options : SubscribeOptions) : Accounted (s.step config (.subscribe kind handler options)) := by
  have hplace (j : Nat) (sub : Subscription H)
      (hsub : (s.step config (.subscribe kind handler options)).subscriptions[j]? = some sub) :
      s.subscriptions[j]? = some sub ∨ (sub.attached = false ∧ ∀ tag, sub.promise ≠ .resolved tag) := by
    have happend : (s.subscriptions ++ [_])[j]? = some sub := hsub
    rw [List.getElem?_append] at happend
    split at happend
    next => exact .inl happend
    next =>
      have hnew := List.mem_singleton.mp (List.mem_of_getElem? happend)
      subst hnew
      refine .inr ⟨rfl, fun tag => ?_⟩
      dsimp only
      split <;> exact fun h => by cases h
  refine h.of_keeps (fun j sub hsub => ⟨sub, ?_, fun _ => rfl, fun hr => hr⟩)
    (fun sub hsub hattached => ?_) (fun j sub tag hsub hresolved => ?_) (fun _ _ hc => hc)
    fun run hrun => .inl hrun
  · show (s.subscriptions ++ [_])[j]? = some sub
    rw [List.getElem?_append_left (List.getElem?_eq_some_iff.mp hsub).1]
    exact hsub
  · obtain ⟨j, hj⟩ := List.getElem?_of_mem hsub
    rcases hplace j sub hj with hold | ⟨hfree, -⟩
    · exact h.accepted sub (List.mem_of_getElem? hold) hattached
    · rw [hfree] at hattached
      cases hattached
  · rcases hplace j sub hsub with hold | ⟨-, hunresolved⟩
    · exact .inl (h.genuine j sub tag hold hresolved)
    · exact absurd hresolved (hunresolved tag)

/-- **A step that loses no outcome keeps every run told.** -/
theorem Accounted.step (h : Accounted s) {i : ConnectionInput H} (hkept : ¬ LosesOutcome config s i) :
    Accounted (s.step config i) := by
  cases i with
  | subscribe kind handler options => exact h.subscribe kind handler options
  | attach i => exact h.attach hkept
  | connect wrapper => exact h.connect hkept
  | disconnect channel => exact h.of_eq rfl rfl
  | advance i answer => exact h.advance hkept
  | cancelAll => exact h.of_eq rfl rfl
  | canceled drain tag answer =>
      show Accounted (s.cancelConsumer drain tag answer)
      unfold cancelConsumer
      split
      next => exact h
      next => exact h.of_eq rfl rfl

/-- **A step that loses an outcome leaves an ended run beside a pending promise.** -/
theorem LosesOutcome.not_reports {i : ConnectionInput H} (h : LosesOutcome config s i) :
    ¬ Reports (s.step config i) := by
  cases i with
  | subscribe kind handler options => exact h.elim
  | disconnect channel => exact h.elim
  | cancelAll => exact h.elim
  | canceled drain tag answer => exact h.elim
  | advance i answer =>
      obtain ⟨run, sub, hrun, hsub, hpending, hfails⟩ := h
      obtain ⟨phase, hsetups, -, ⟨tag, hno, -⟩ | ⟨hsubs, ⟨-, rfl⟩ | ⟨hno, -⟩⟩⟩ :=
        advance_run config answer hrun hsub
      · exact absurd hfails hno
      · have hended : { run with phase := .ended .failed } ∈ (s.advance config i answer).setups := by
          apply List.mem_of_getElem? (i := i)
          rw [hsetups, List.getElem?_modify, hrun]
          simp
        exact Connection.not_reports hended rfl (hsubs ▸ hsub) hpending
      · exact absurd hfails hno
  | attach i =>
      obtain ⟨hlatch, sub, hsub, hpending, hunattached, hchannel⟩ := h
      obtain ⟨channel, hchannel⟩ := Option.isSome_iff_exists.mp hchannel
      have heq : s.attach config i = { s with
          subscriptions := s.subscriptions.set i { sub with attached := true }
          setups := s.setups ++ [s.startRun channel i] } := by
        unfold Connection.attach
        simp only [hsub]
        rw [if_neg (by simp [hunattached, hpending])]
        split
        next hnone => exact absurd (hnone.symm.trans hchannel) (by simp)
        next channel' hsome =>
          obtain rfl : channel' = channel := Option.some.inj (hsome.symm.trans hchannel)
          rfl
      show ¬ Reports (s.attach config i)
      rw [heq]
      exact Connection.not_reports (List.mem_append_right _ (.head _))
        (startRun_skipped hlatch channel i)
        (List.getElem?_set_self (List.getElem?_eq_some_iff.mp hsub).1) hpending
  | connect wrapper =>
      obtain ⟨hlatch, hclosed, i, hi, sub, hsub, hpending⟩ := h
      show ¬ Reports (s.connect config wrapper)
      unfold Connection.connect
      rw [hclosed]
      exact Connection.not_reports (List.mem_append_right _ (List.mem_map_of_mem hi))
        (startRun_skipped hlatch _ i) hsub hpending

end Step

/-- **Exactly the runs that lose no outcome report every outcome.**  In every state a run reaches each
ended setup has settled its promise if and only if no step of the run fails the setup of a pending
subscription or skips it. -/
theorem reports_iff (config : ConsumersConfig) (inputs : List (ConnectionInput H)) :
    (∀ s', Reaches (step config) ({} : Connection H) inputs s' → Reports s') ↔
      Along (step config) (fun s i => ¬ LosesOutcome config s i) ({} : Connection H) inputs :=
  Along.iff_forall_reaches (P := Reports) (fun (s : Connection H) (h : Accounted s) => h.reports)
    (fun _ _ h hkept => Accounted.step h hkept)
    (fun _ _ _ hlost => LosesOutcome.not_reports (not_not.mp hlost)) Accounted.start inputs

/-- The queue of a subscription cannot be declared. -/
def queueRefused : List (ConnectionInput Unit) :=
  [.connect "default", .subscribe .subscribe () { queue := some "q" }, .attach 0,
    .advance 0 (.error (.error { name := "Error", message := "PRECONDITION_FAILED" }))]

/-- The setup has failed, and nobody hears of it. -/
theorem not_reports_queueRefused : ¬ ∀ (config : ConsumersConfig) (inputs : List (ConnectionInput Unit))
    (s' : Connection Unit), Reaches (step config) {} inputs s' → Reports s' := by
  intro h
  obtain ⟨sub, hsub, hsettled⟩ := h {} queueRefused _ (reaches_run _ _ _) ⟨0, 0, .ended .failed⟩
    (by decide) .failed rfl
  obtain rfl := Option.some.inj hsub
  rcases hsettled with ⟨_, hresolved, -⟩ | ⟨hrejected, -⟩
  · cases hresolved
  · cases hrejected

end NestAmqp.Amqp.Connection
