/-
# NestAmqp.Amqp.Drain — when a graceful drain is final.

`cancelAllConsumers` sets the latch and cancels what stands in the consumer table.  A consumer escapes it
in three ways: its setup passed the latch test before the drain and consumes after it, its entry is not
in the table yet, or another consumer of the same tag on another channel has taken the entry.  This
module shows that these, and a cancel that fails while its consumer lives on, are all: a run that avoids
them has no consumer once the drain has resolved, and never gets one again.

Two facts carry this.  A setup that starts under the latch is skipped, so only one that was in flight when
the drain began can still consume (`inFlight_caught`).  And before the drain every live consumer whose setup
has gone on has an entry for its tag (`Tabled`), so that only the second and the third way keep one out.
-/
import NestAmqp.Amqp.Subscriptions

namespace NestAmqp.Amqp

open NestAmqp.Js
open NestAmqp.Lib.Machine

variable {H : Type}

/-- A run in this phase has passed the latch test, and its consumer is still to come. -/
def Phase.starting : Phase → Bool
  | .declaring | .recovering | .binding _ | .consuming _ => true
  | .registering _ | .resolving _ | .ended _ => false

/-- `cancelAllConsumers` is called. -/
def ConnectionInput.isCancelAll : ConnectionInput H → Bool
  | .cancelAll => true
  | _ => false

namespace Connection

/-! ## What escapes a drain -/

/-- The setup run at this place has passed the latch test, and its consumer is still to come. -/
def InFlight (s : Connection H) (i : Nat) : Prop :=
  ∃ run, s.setups[i]? = some run ∧ run.phase.starting = true

/-- The setup run was in flight when the consumers were first canceled. -/
def Caught (config : ConsumersConfig) (inputs : List (ConnectionInput H)) (i : Nat) : Prop :=
  (run (step config) {} (inputs.takeWhile fun input => !input.isCancelAll)).InFlight i

/-- The consumer lives, and its setup has not gone on to register it. -/
def Registering (s : Connection H) (c : LiveConsumer) : Prop :=
  ∃ run ∈ s.setups, run.channel = c.channel ∧ run.phase = .registering c.tag

/-- The entry of the consumer's tag is that of another channel. -/
def Replaced (s : Connection H) (c : LiveConsumer) : Prop :=
  ∃ channel, channel ≠ c.channel ∧ (c.tag, channel) ∈ s.consumers

/-- A consumer without an entry of its own: not registered yet, or replaced, or an earlier drain has dropped
the entry. -/
def Escapes (s : Connection H) (c : LiveConsumer) : Prop :=
  (c.tag, c.channel) ∉ s.consumers ∧ (s.Registering c ∨ s.Replaced c ∨ s.consumersCanceled = true)

/-- The entry the answer to a cancel is about. -/
def waitingFor (s : Connection H) (drain : Nat) (tag : ConsumerTag) : Option (ConsumerTag × Nat) :=
  (s.drains[drain]?.getD []).find? fun e => e.1 == tag

/-- The steps that leave no consumer behind a drain.  No run that the first drain caught in flight gets its
consumer after it; when `cancelAllConsumers` is called no live consumer escapes it; and a cancel that fails
is about a consumer that has ended. -/
def DrainsCleanly (config : ConsumersConfig) (caught : Nat → Prop) (s : Connection H) :
    ConnectionInput H → Prop
  | .advance i answer => s.consumersCanceled = true → caught i → ∀ c, ¬ StartsConsumer config s i answer c
  | .cancelAll => ∀ c ∈ s.live, ¬ s.Escapes c
  | .canceled drain tag answer => answer.isOk = true ∨
      ∀ e, s.waitingFor drain tag = some e → ∀ c ∈ s.live, (c.tag, c.channel) ≠ e
  | .subscribe .. | .attach _ | .connect _ | .disconnect _ => True

/-! ## The latch -/

section Latch

variable {config : ConsumersConfig} {s s' : Connection H} {i : Nat}

/-- The latch is set by `cancelAllConsumers`, and never taken back. -/
theorem consumersCanceled_step (config : ConsumersConfig) (s : Connection H) (input : ConnectionInput H) :
    (s.step config input).consumersCanceled = (s.consumersCanceled || input.isCancelAll) := by
  have hkept {b : Bool} (h : b = s.consumersCanceled) : b = (s.consumersCanceled || false) := by
    rw [h, Bool.or_false]
  cases input with
  | subscribe kind handler options => exact hkept rfl
  | attach i => exact hkept (attach_spec config s i).1
  | connect wrapper => exact hkept (connect_spec config s wrapper).1
  | disconnect channel => exact hkept rfl
  | advance i answer => exact hkept (advance_spec config s i answer).1
  | cancelAll => exact (Bool.or_true _).symm
  | canceled drain tag answer =>
      refine hkept ?_
      show (s.cancelConsumer drain tag answer).consumersCanceled = s.consumersCanceled
      unfold cancelConsumer
      split <;> rfl

theorem consumersCanceled_run (config : ConsumersConfig) (s : Connection H)
    (inputs : List (ConnectionInput H)) : (run (step config) s inputs).consumersCanceled =
      (s.consumersCanceled || inputs.any ConnectionInput.isCancelAll) := by
  induction inputs generalizing s with
  | nil => exact (Bool.or_false _).symm
  | cons input inputs ih =>
      rw [run_cons, ih, consumersCanceled_step, List.any_cons, Bool.or_assoc]

/-- A step that only starts runs, under the latch. -/
theorem inFlight_of_append {runs : List SetupRun} (hsetups : s'.setups = s.setups ++ runs)
    (hskipped : ∀ run ∈ runs, run.phase = .ended .skipped) (h : s'.InFlight i) : s.InFlight i := by
  obtain ⟨run, hrun, hstarting⟩ := h
  rw [hsetups] at hrun
  rcases Nat.lt_or_ge i s.setups.length with hlt | hge
  · exact ⟨run, (List.getElem?_append_left hlt).symm.trans hrun, hstarting⟩
  · rw [List.getElem?_append_right hge] at hrun
    rw [hskipped run (List.mem_of_getElem? hrun)] at hstarting
    cases hstarting

theorem starting_of_next {options : SubscribeOptions} {phase : Phase} {answer : Except Thrown String}
    (h : (phase.next options answer).starting = true) : phase.starting = true := by
  cases phase with
  | registering tag => cases h
  | resolving tag => cases h
  | ended result => cases h
  | _ => rfl

/-- A run moves on, and does not come back to its start. -/
theorem inFlight_setPhase {j : Nat} {moved : SetupRun} (hmoved : s.setups[j]? = some moved) {phase : Phase}
    (hphase : phase.starting = true → moved.phase.starting = true) (h : (s.setPhase j phase).InFlight i) :
    s.InFlight i := by
  obtain ⟨run, hrun, hstarting⟩ := h
  have hmodify : (s.setups.modify j fun run => { run with phase })[i]? = some run := hrun
  rw [List.getElem?_modify] at hmodify
  obtain ⟨run', hrun', rfl⟩ := Option.map_eq_some_iff.mp hmodify
  by_cases hij : j = i
  · subst hij
    rw [if_pos rfl] at hstarting
    exact ⟨moved, hmoved, hphase hstarting⟩
  · rw [if_neg hij] at hstarting
    exact ⟨run', hrun', hstarting⟩

theorem inFlight_advance {j : Nat} {answer : Except Thrown String}
    (h : (s.advance config j answer).InFlight i) : s.InFlight i := by
  unfold advance at h
  split at h
  next => exact h
  next moved hmoved =>
  split at h
  next => exact h
  next sub hsub =>
  split at h
  next queue hphase =>
    unfold consume at h
    split at h
    next => exact inFlight_setPhase hmoved (fun hno => by cases hno) h
    next =>
      dsimp only at h
      split at h
      next => exact inFlight_setPhase hmoved (fun hno => by cases hno) h
      next =>
        change (s.setPhase j (.registering (s.tagOf config sub))).InFlight i at h
        exact inFlight_setPhase hmoved (fun hno => by cases hno) h
  next tag hphase => exact inFlight_setPhase hmoved (fun hno => by cases hno) h
  next tag hphase => exact inFlight_setPhase hmoved (fun hno => by cases hno) h
  next => exact inFlight_setPhase hmoved starting_of_next h

/-- **Under the latch no run takes off.** -/
theorem inFlight_step (hlatch : s.consumersCanceled = true) {input : ConnectionInput H}
    (h : (s.step config input).InFlight i) : s.InFlight i := by
  cases input with
  | subscribe kind handler options => exact h
  | attach j =>
      change (s.attach config j).InFlight i at h
      unfold attach at h
      split at h
      next => exact h
      next =>
      split at h
      next => exact h
      next =>
        dsimp only at h
        split at h
        next => exact h
        next => exact inFlight_of_append rfl (List.forall_mem_singleton.mpr (startRun_skipped hlatch _ _)) h
  | connect wrapper =>
      change (s.connect config wrapper).InFlight i at h
      unfold connect at h
      split at h
      next => exact h
      next =>
        refine inFlight_of_append rfl (fun run hrun => ?_) h
        obtain ⟨subscription, -, rfl⟩ := List.mem_map.mp hrun
        exact startRun_skipped hlatch _ _
  | disconnect channel => exact h
  | advance j answer => exact inFlight_advance h
  | cancelAll => exact h
  | canceled drain tag answer =>
      change (s.cancelConsumer drain tag answer).InFlight i at h
      unfold cancelConsumer at h
      split at h
      next => exact h
      next => exact h

/-- **What is in flight under the latch was in flight when the drain began.** -/
theorem inFlight_caught {inputs l r : List (ConnectionInput H)} (hsplit : inputs = l ++ r)
    (hlatch : (run (step config) {} l).consumersCanceled = true) (h : (run (step config) {} l).InFlight i) :
    Caught config inputs i := by
  induction l using List.reverseRecOn generalizing r with
  | nil => cases hlatch
  | append_singleton l input ih =>
      rw [run_append, run_cons, run_nil] at hlatch h
      rw [List.append_assoc] at hsplit
      cases hbefore : (run (step config) {} l).consumersCanceled with
      | true => exact ih hsplit hbefore (inFlight_step hbefore h)
      | false =>
          -- the step is the call itself, and the first one
          rw [consumersCanceled_step, hbefore, Bool.false_or] at hlatch
          rw [consumersCanceled_run, Bool.or_eq_false_iff, List.any_eq_false] at hbefore
          have htaken : inputs.takeWhile (fun input => !input.isCancelAll) = l := by
            rw [hsplit, List.takeWhile_append_of_pos fun input hinput => by simpa using hbefore.2 input hinput]
            simp [hlatch]
          unfold Caught
          rw [htaken]
          cases input with
          | cancelAll => exact h
          | _ => cases hlatch

theorem StartsConsumer.inFlight {answer : Except Thrown String} {c : LiveConsumer}
    (h : StartsConsumer config s i answer c) : s.InFlight i := by
  obtain ⟨run, sub, queue, hrun, -, hphase, -⟩ := h.run
  exact ⟨run, hrun, by rw [hphase]; rfl⟩

end Latch

/-! ## The table -/

/-- Before a drain, every live consumer whose setup has gone on has an entry for its tag. -/
def Tabled (s : Connection H) : Prop :=
  s.consumersCanceled = false → ∀ c ∈ s.live, s.Registering c ∨ ∃ channel, (c.tag, channel) ∈ s.consumers

section Table

variable {config : ConsumersConfig} {s s' : Connection H} {c : LiveConsumer} {i : Nat} {moved : SetupRun}

theorem Tabled.start : Tabled ({} : Connection H) := fun _ _ hc => absurd hc List.not_mem_nil

/-- A consumer that escapes no drain has an entry of its own. -/
theorem Tabled.mem_consumers (h : s.Tabled) (hc : c ∈ s.live) (hnot : ¬ s.Escapes c) :
    (c.tag, c.channel) ∈ s.consumers := by
  by_contra hmem
  refine hnot ⟨hmem, ?_⟩
  cases hlatch : s.consumersCanceled with
  | true => exact .inr (.inr rfl)
  | false =>
      rcases h hlatch c hc with hregistering | ⟨channel, hentry⟩
      · exact .inl hregistering
      · exact .inr (.inl ⟨channel, fun heq => hmem (heq ▸ hentry), hentry⟩)

/-- A step that keeps the latch, the table and the runs, and adds no consumer. -/
theorem Tabled.of_subset (h : s.Tabled) (hlatch : s'.consumersCanceled = s.consumersCanceled)
    (hconsumers : s'.consumers = s.consumers) (hlive : ∀ c ∈ s'.live, c ∈ s.live)
    (hsetups : ∀ run ∈ s.setups, run ∈ s'.setups) : s'.Tabled := by
  intro hidle c hc
  rcases h (hlatch.symm.trans hidle) c (hlive c hc) with ⟨run, hrun, hregistering⟩ | hentry
  · exact .inl ⟨run, hsetups run hrun, hregistering⟩
  · rw [hconsumers]
    exact .inr hentry

/-- A run moves on: it was the one that registers the consumer, or another still is. -/
theorem Registering.setPhase (h : s.Registering c) (hmoved : s.setups[i]? = some moved) (phase : Phase) :
    moved.phase = .registering c.tag ∨ (s.setPhase i phase).Registering c := by
  obtain ⟨run, hrun, hchannel, hphase⟩ := h
  obtain ⟨k, hk⟩ := List.getElem?_of_mem hrun
  by_cases hik : i = k
  · subst hik
    obtain rfl : moved = run := Option.some.inj (hmoved.symm.trans hk)
    exact .inl hphase
  · refine .inr ⟨run, List.mem_of_getElem? (i := k) ?_, hchannel, hphase⟩
    show (s.setups.modify i fun run => { run with phase })[k]? = some run
    rw [List.getElem?_modify, hk]
    simp [hik]

/-- A run that registers nothing moves on. -/
theorem Tabled.setPhase (h : s.Tabled) (hmoved : s.setups[i]? = some moved)
    (hother : ∀ tag, moved.phase ≠ .registering tag) (phase : Phase) : (s.setPhase i phase).Tabled := by
  intro hidle c hc
  refine (h hidle c hc).imp_left fun hregistering => ?_
  exact (hregistering.setPhase hmoved phase).resolve_left (hother c.tag)

/-- A consumer is created: its run is about to register it. -/
theorem Tabled.consume (h : s.Tabled) (hmoved : s.setups[i]? = some moved) {queue : String}
    (hphase : moved.phase = .consuming queue) (sub : Subscription H) (answer : Except Thrown String) :
    (s.consume config i moved sub answer).Tabled := by
  have hother (tag : ConsumerTag) : moved.phase ≠ .registering tag := by
    rw [hphase]
    exact fun heq => by cases heq
  unfold Connection.consume
  split
  next => exact h.setPhase hmoved hother _
  next =>
  dsimp only
  split
  next => exact h.setPhase hmoved hother _
  next =>
    intro hidle c hc
    rcases List.mem_append.mp hc with hold | hnew
    · exact h.setPhase hmoved hother (.registering (s.tagOf config sub)) hidle c hold
    · rw [List.mem_singleton.mp hnew]
      refine .inl ⟨{ moved with phase := .registering (s.tagOf config sub) }, ?_, rfl, rfl⟩
      refine List.mem_of_getElem? (i := i) ?_
      show (s.setups.modify i fun run => { run with phase := .registering _ })[i]? = _
      rw [List.getElem?_modify, hmoved]
      simp

/-- A run registers its consumer: one entry a tag, and this one is its own. -/
theorem Tabled.register (h : s.Tabled) (hmoved : s.setups[i]? = some moved) {tag : ConsumerTag}
    (hphase : moved.phase = .registering tag) (phase : Phase) :
    ((s.registerConsumerForQueue tag moved.channel).setPhase i phase).Tabled := by
  intro hidle c hc
  have hentered : (tag, moved.channel) ∈ s.consumers.filter (fun e => e.1 != tag) ++ [(tag, moved.channel)] :=
    List.mem_append_right _ (.head _)
  by_cases htag : c.tag = tag
  · rw [htag]
    exact .inr ⟨moved.channel, hentered⟩
  · rcases h hidle c hc with hregistering | ⟨channel, hentry⟩
    · rcases hregistering.setPhase hmoved phase with hmine | hother
      · exact absurd (Phase.registering.inj (hmine.symm.trans hphase)) htag
      · exact .inl hother
    · refine .inr ⟨channel, List.mem_append_left _ (List.mem_filter.mpr ⟨hentry, ?_⟩)⟩
      simpa using htag

theorem Tabled.advance (h : s.Tabled) (i : Nat) (answer : Except Thrown String) :
    (s.advance config i answer).Tabled := by
  unfold Connection.advance
  split
  next => exact h
  next moved hmoved =>
  split
  next => exact h
  next sub hsub =>
  split
  next queue hphase => exact h.consume hmoved hphase sub _
  next tag hphase => exact h.register hmoved hphase _
  next tag hphase =>
    refine Tabled.setPhase (s := s.resolve moved.subscription tag) h hmoved (fun tag' heq => ?_) _
    rw [hphase] at heq
    cases heq
  next hconsuming hregistering hresolving => exact h.setPhase hmoved hregistering _

/-- **The table keeps up with the consumers** until the first drain. -/
theorem Tabled.step (h : s.Tabled) (hidle : s.consumersCanceled = false → s.drains = [])
    (input : ConnectionInput H) : (s.step config input).Tabled := by
  cases input with
  | subscribe kind handler options => exact h.of_subset rfl rfl (fun _ hc => hc) fun _ hrun => hrun
  | attach i =>
      show (s.attach config i).Tabled
      unfold Connection.attach
      split
      next => exact h
      next =>
      split
      next => exact h
      next =>
        dsimp only
        split
        next => exact h.of_subset rfl rfl (fun _ hc => hc) fun _ hrun => hrun
        next => exact h.of_subset rfl rfl (fun _ hc => hc) fun _ hrun => List.mem_append_left _ hrun
  | connect wrapper =>
      show (s.connect config wrapper).Tabled
      unfold Connection.connect
      split
      next => exact h
      next => exact h.of_subset rfl rfl (fun _ hc => hc) fun _ hrun => List.mem_append_left _ hrun
  | disconnect channel => exact h.of_subset rfl rfl (fun _ hc => (List.mem_filter.mp hc).1) fun _ hrun => hrun
  | advance i answer => exact h.advance i answer
  -- under the latch nothing is said of the table any more
  | cancelAll => exact fun hno => by cases hno
  | canceled drain tag answer =>
      show (s.cancelConsumer drain tag answer).Tabled
      intro hno
      -- before the latch no drain is waiting for an answer
      have hnone : s.cancelConsumer drain tag answer = s := by
        have hlatch : s.consumersCanceled = false := by
          rwa [show (s.cancelConsumer drain tag answer).consumersCanceled = s.consumersCanceled from
            (consumersCanceled_step {} s (.canceled drain tag answer)).trans (Bool.or_false _)] at hno
        unfold Connection.cancelConsumer
        rw [hidle hlatch]
        rfl
      rw [hnone] at hno ⊢
      exact h hno

end Table

/-! ## The drain -/

/-- Every consumer that lives is one that every drain so far still waits to cancel. -/
structure Draining (s : Connection H) : Prop where
  idle : s.consumersCanceled = false → s.drains = []
  waiting : ∀ d ∈ s.drains, ∀ c ∈ s.live, (c.tag, c.channel) ∈ d

instance (s : Connection H) : Decidable s.Drained := inferInstanceAs (Decidable ([] ∈ s.drains))

theorem Draining.start : Draining ({} : Connection H) := ⟨fun _ => rfl, by simp⟩

theorem Draining.live_eq_nil {s : Connection H} (h : Draining s) (hdrained : s.Drained) :
    s.live = [] := by
  apply List.eq_nil_iff_forall_not_mem.mpr
  intro c hc
  exact absurd (h.waiting [] hdrained c hc) (by simp)

/-- A step that keeps the latch and the drains and adds no consumer. -/
theorem Draining.of_subset {s s' : Connection H} (h : Draining s)
    (hlatch : s'.consumersCanceled = s.consumersCanceled) (hdrains : s'.drains = s.drains)
    (hlive : ∀ c ∈ s'.live, c ∈ s.live) : Draining s' := by
  refine ⟨fun hidle => ?_, fun d hd c hc => ?_⟩
  · rw [hdrains]
    exact h.idle (hlatch.symm.trans hidle)
  · rw [hdrains] at hd
    exact h.waiting d hd c (hlive c hc)

theorem Draining.cancelConsumer {s : Connection H} (h : Draining s) {drain : Nat} {tag : ConsumerTag}
    {answer : Except Thrown Unit} (hclean : answer.isOk = true ∨
      ∀ e, s.waitingFor drain tag = some e → ∀ c ∈ s.live, (c.tag, c.channel) ≠ e) :
    Draining (s.cancelConsumer drain tag answer) := by
  unfold Connection.cancelConsumer
  split
  next => exact h
  next tag' channel hfound =>
  have htag : tag' = tag := by simpa using List.find?_some hfound
  subst htag
  refine ⟨fun hidle => ?_, fun d hd c hc => ?_⟩
  · have hnone := h.idle hidle
    simp [hnone]
  · -- what is left of the consumers is not the one that was canceled
    have hkept : c ∈ s.live ∧ (c.tag, c.channel) ≠ (tag', channel) := by
      cases answer with
      | ok u =>
          obtain ⟨hmem, hother⟩ := List.mem_filter.mp hc
          refine ⟨hmem, fun heq => ?_⟩
          obtain ⟨htag, hchannel⟩ := Prod.mk.inj heq
          simp [htag, hchannel] at hother
      | error e =>
          refine ⟨hc, fun heq => ?_⟩
          rcases hclean with hok | hended
          · cases hok
          · exact hended _ hfound c hc heq
    obtain ⟨j, hj, rfl⟩ := List.mem_iff_getElem.mp hd
    simp only [List.getElem_modify]
    rw [List.length_modify] at hj
    have hwaiting := h.waiting _ (List.getElem_mem hj) c hkept.1
    split
    · exact (List.mem_erase_of_ne hkept.2).mpr hwaiting
    · exact hwaiting

/-- **A clean step keeps every live consumer waited for.** -/
theorem Draining.step {config : ConsumersConfig} {caught : Nat → Prop} {s : Connection H}
    {input : ConnectionInput H} (h : Draining s) (htabled : s.Tabled)
    (hcaught : s.consumersCanceled = true → ∀ i, s.InFlight i → caught i)
    (hclean : s.DrainsCleanly config caught input) : Draining (s.step config input) := by
  cases input with
  | subscribe kind handler options => exact h.of_subset rfl rfl fun c hc => hc
  | attach i =>
      obtain ⟨hlatch, hdrains, hlive⟩ := attach_spec config s i
      exact h.of_subset hlatch hdrains fun c hc => hlive ▸ hc
  | connect wrapper =>
      obtain ⟨hlatch, hdrains, hlive⟩ := connect_spec config s wrapper
      exact h.of_subset hlatch hdrains fun c hc => hlive ▸ hc
  | disconnect channel => exact h.of_subset rfl rfl fun c hc => (List.mem_filter.mp hc).1
  | advance i answer =>
      obtain ⟨hlatch, hdrains, hlive⟩ := advance_spec config s i answer
      rcases hlive with hlive | ⟨c, hstarts, hlive⟩
      · exact h.of_subset hlatch hdrains fun c hc => hlive ▸ hc
      · have hidle : s.consumersCanceled = false := by
          by_contra hlatch
          rw [Bool.not_eq_false] at hlatch
          exact hclean hlatch (hcaught hlatch i hstarts.inFlight) c hstarts
        have hnone : (s.advance config i answer).drains = [] := hdrains.trans (h.idle hidle)
        refine ⟨fun _ => hnone, fun d hd => ?_⟩
        rw [show (s.step config (.advance i answer)).drains = [] from hnone] at hd
        cases hd
  | cancelAll =>
      refine ⟨fun hidle => (by cases hidle), fun d hd c hc => ?_⟩
      rcases List.mem_append.mp hd with hd | hd
      · exact h.waiting d hd c hc
      · rw [List.mem_singleton.mp hd]
        exact htabled.mem_consumers hc (hclean c hc)
  | canceled drain tag answer => exact h.cancelConsumer hclean

/-- What a run of clean steps keeps. -/
structure Drainable (s : Connection H) : Prop extends Draining s where
  tabled : s.Tabled

theorem Drainable.start : Drainable ({} : Connection H) := ⟨.start, .start⟩

theorem Drainable.step {config : ConsumersConfig} {caught : Nat → Prop} {s : Connection H}
    {input : ConnectionInput H} (h : Drainable s)
    (hcaught : s.consumersCanceled = true → ∀ i, s.InFlight i → caught i)
    (hclean : s.DrainsCleanly config caught input) : Drainable (s.step config input) :=
  ⟨h.toDraining.step h.tabled hcaught hclean, h.tabled.step h.idle input⟩

/-- A resolved drain stays resolved. -/
theorem Drained.step {config : ConsumersConfig} {s : Connection H} (h : s.Drained)
    (i : ConnectionInput H) : (s.step config i).Drained := by
  unfold Drained
  cases i with
  | subscribe kind handler options => exact h
  | attach i => exact (attach_spec config s i).2.1 ▸ h
  | connect wrapper => exact (connect_spec config s wrapper).2.1 ▸ h
  | disconnect channel => exact h
  | advance i answer => exact (advance_spec config s i answer).2.1 ▸ h
  | cancelAll => exact List.mem_append_left _ h
  | canceled drain tag answer =>
      show [] ∈ (s.cancelConsumer drain tag answer).drains
      unfold Connection.cancelConsumer
      split
      next => exact h
      next =>
        obtain ⟨j, hj, hnil⟩ := List.mem_iff_getElem.mp h
        refine List.mem_iff_getElem.mpr ⟨j, by simpa using hj, ?_⟩
        rw [List.getElem_modify, hnil]
        split <;> rfl

/-- An rpc consumer on the queue `q` of a connected channel settles, and a drain cancels it. -/
def drainedAfter : List (ConnectionInput Unit) :=
  [.connect "default", .subscribe .rpc () { queue := some "q" }, .attach 0, .advance 0 (.ok "q"),
    .advance 0 (.ok "q"), .advance 0 (.ok ""), .advance 0 (.ok ""), .cancelAll,
    .canceled 0 (.generated 0) (.ok ())]

/-- The drain falls between the queue's declaration and the `consume` call. -/
def drainedBefore : List (ConnectionInput Unit) :=
  [.connect "default", .subscribe .rpc () { queue := some "q" }, .attach 0, .advance 0 (.ok "q"),
    .cancelAll]

end Connection

end NestAmqp.Amqp
