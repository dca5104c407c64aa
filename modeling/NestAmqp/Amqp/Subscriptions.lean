/-
# NestAmqp.Amqp.Subscriptions — the consumers of a connection and the setups that create them.

`createSubscriber` and `createRpc` hand a setup function to a channel wrapper and return a promise that
the setup function settles.  The wrapper runs the setup on its channel, and runs it again on every
channel a reconnection brings.  A setup is asynchronous: between any two of its steps other calls, other
setups, a lost channel or `cancelAllConsumers` can fall.  The model is a machine whose inputs are those
steps, one broker answer or one continuation at a time; `H` is the handler a consumer delivers to.

The consumers of the reply queues are not subscriptions and are left out.
-/
import NestAmqp.Amqp.Consumer
import NestAmqp.Lib.Machine

namespace NestAmqp.Amqp

open NestAmqp.Js

/-! ## Subscriptions -/

/-- A consumer tag: one the options name, or one the broker makes up. -/
inductive ConsumerTag where
  | configured (tag : String)
  | generated (n : Nat)
  deriving DecidableEq, Repr

/-- What the setup of a consumer reads of its `MessageHandlerOptions`. -/
structure SubscribeOptions where
  queue : Option String := none
  exchange : Option String := none
  /-- `Array.isArray(routingKey) ? routingKey : [routingKey]`. -/
  routingKeys : List (Option String) := []
  createQueueIfNotExists : Bool := true
  /-- An `assertQueueErrorHandler` is given; the default one rethrows. -/
  recovers : Bool := false
  /-- `queueOptions.channel`. -/
  channel : Option String := none
  /-- `queueOptions.consumerOptions.consumerTag`. -/
  consumerTag : Option String := none
  /-- The tag in the `consumeOptions` that `createSubscriber` takes beside the options. -/
  consumeOptions : Option String := none
  deriving Repr

/-- What the connection's configuration says about channels and consumer tags. -/
structure ConsumersConfig where
  /-- The managed channels by name. -/
  channels : List String := []
  defaultChannel : String := "default"
  /-- `queues.find(q => q.name === name)?.consumerTag`. -/
  queueTag : String → Option String := fun _ => none

/-- `selectManagedChannel`: an unknown name is the default channel. -/
def selectManagedChannel (config : ConsumersConfig) (name : Option String) : String :=
  match name with
  | some n => if n != "" && config.channels.contains n then n else config.defaultChannel
  | none => config.defaultChannel

/-- The promise of `createSubscriber` and `createRpc`. -/
inductive SubscriptionPromise where
  | pending
  | resolved (tag : ConsumerTag)
  | rejected
  deriving DecidableEq, Repr

/-- A call of `consumerFactory`. -/
structure Subscription (H : Type) where
  handler : H
  kind : ConsumerKind
  options : SubscribeOptions
  /-- `addSetup` has handed the setup to the wrapper, which waits for a running setup first. -/
  attached : Bool := false
  promise : SubscriptionPromise := .pending

/-- The tag a consumer asks for.  An rpc consumes with the merged `queueOptions.consumerOptions`, where
the call's own tag goes before the queue's; a subscriber consumes with its `consumeOptions` alone. -/
def Subscription.askedTag {H : Type} (config : ConsumersConfig) (sub : Subscription H) :
    Option String :=
  match sub.kind with
  | .rpc => sub.options.consumerTag.or (config.queueTag (template sub.options.queue))
  | .subscribe => sub.options.consumeOptions

/-! ## Setups -/

/-- How a setup function ended. -/
inductive SetupResult where
  | skipped
  | failed
  | created (tag : ConsumerTag)
  deriving DecidableEq, Repr

/-- Where a setup function waits. -/
inductive Phase where
  /-- For `assertQueue`, or `checkQueue`. -/
  | declaring
  /-- For a given `assertQueueErrorHandler`. -/
  | recovering
  | binding (queue : String)
  | consuming (queue : String)
  /-- The consumer lives, the `await` of `channel.consume` has not gone on. -/
  | registering (tag : ConsumerTag)
  /-- The consumer is in the table, the `await` of the setup function has not gone on. -/
  | resolving (tag : ConsumerTag)
  | ended (result : SetupResult)
  deriving DecidableEq, Repr

/-- After the queue is known: the bindings, when there is anything to bind, and then the consumer. -/
def afterQueue (options : SubscribeOptions) (queue : String) : Phase :=
  if truthyText options.exchange && options.routingKeys.any Option.isSome then .binding queue
  else .consuming queue

/-- `setupQueue` and its failures, up to the `consume` call. -/
def Phase.next (options : SubscribeOptions) (phase : Phase) (answer : Except Thrown String) : Phase :=
  match phase, answer with
  | .declaring, .ok queue => afterQueue options queue
  | .declaring, .error _ =>
      if options.createQueueIfNotExists && options.recovers then .recovering else .ended .failed
  | .recovering, .ok queue => afterQueue options queue
  | .recovering, .error _ => .ended .failed
  | .binding queue, .ok _ => .consuming queue
  | .binding _, .error _ => .ended .failed
  | phase, _ => phase

/-- One run of a setup function, on one channel. -/
structure SetupRun where
  subscription : Nat
  channel : Nat
  phase : Phase
  deriving DecidableEq, Repr

/-- A consumer the broker delivers to. -/
structure LiveConsumer where
  channel : Nat
  tag : ConsumerTag
  subscription : Nat
  deriving DecidableEq, Repr

/-! ## The connection -/

/-- The consumer side of `AmqpConnection`, and of the broker behind it. -/
structure Connection (H : Type) where
  consumersCanceled : Bool := false
  /-- `_consumers`: the channel a tag was registered with. -/
  consumers : List (ConsumerTag × Nat) := []
  subscriptions : List (Subscription H) := []
  setups : List SetupRun := []
  /-- The raw channels there have been: the wrapper each belongs to, and whether it is open. -/
  channels : List (String × Bool) := []
  live : List LiveConsumer := []
  /-- The calls of `cancelAllConsumers`, each with the cancels it still waits for. -/
  drains : List (List (ConsumerTag × Nat)) := []
  nextTag : Nat := 0

/-- One step of a call, a setup, a channel or a cancel. -/
inductive ConnectionInput (H : Type) where
  /-- `createSubscriber` or `createRpc` is called. -/
  | subscribe (kind : ConsumerKind) (handler : H) (options : SubscribeOptions)
  /-- `addSetup` registers the setup function of a subscription. -/
  | attach (subscription : Nat)
  /-- A wrapper gets a new channel and runs its setups on it. -/
  | connect (wrapper : String)
  /-- A channel closes; its consumers end with it. -/
  | disconnect (channel : Nat)
  /-- What a setup run waits for has come. -/
  | advance (run : Nat) (answer : Except Thrown String)
  /-- `cancelAllConsumers` is called. -/
  | cancelAll
  /-- A cancel of a `cancelAllConsumers` call has been answered. -/
  | canceled (drain : Nat) (tag : ConsumerTag) (answer : Except Thrown Unit)

namespace Connection

variable {H : Type}

/-- The channel is open. -/
def isOpen (s : Connection H) (channel : Nat) : Bool :=
  match s.channels[channel]? with
  | some (_, isOpen) => isOpen
  | none => false

/-- The open channel of a wrapper. -/
def currentChannel (s : Connection H) (wrapper : String) : Option Nat :=
  s.channels.findIdx? fun c => c == (wrapper, true)

/-- The subscriptions whose setups a wrapper runs. -/
def setupsOf (config : ConsumersConfig) (s : Connection H) (wrapper : String) : List Nat :=
  (s.subscriptions.zipIdx.filter fun si =>
    si.1.attached && selectManagedChannel config si.1.options.channel == wrapper).map Prod.snd

/-- A setup function starts: the latch is tested before anything else. -/
def startRun (s : Connection H) (channel subscription : Nat) : SetupRun :=
  { subscription, channel,
    phase := if s.consumersCanceled then .ended .skipped else .declaring }

/-- `addSetup`. -/
def attach (config : ConsumersConfig) (s : Connection H) (i : Nat) : Connection H :=
  match s.subscriptions[i]? with
  | none => s
  | some sub =>
      if sub.attached || sub.promise == .rejected then s
      else
        let s := { s with subscriptions := s.subscriptions.set i { sub with attached := true } }
        match s.currentChannel (selectManagedChannel config sub.options.channel) with
        | none => s
        | some channel => { s with setups := s.setups ++ [s.startRun channel i] }

/-- A reconnection. -/
def connect (config : ConsumersConfig) (s : Connection H) (wrapper : String) : Connection H :=
  if (s.currentChannel wrapper).isSome then s
  else { s with
    channels := s.channels ++ [(wrapper, true)]
    setups := s.setups ++ (s.setupsOf config wrapper).map (s.startRun s.channels.length) }

/-- A lost channel. -/
def disconnect (s : Connection H) (channel : Nat) : Connection H :=
  { s with
    channels := s.channels.modify channel fun c => (c.1, false)
    live := s.live.filter fun c => c.channel != channel }

def setPhase (s : Connection H) (i : Nat) (phase : Phase) : Connection H :=
  { s with setups := s.setups.modify i fun run => { run with phase } }

/-- What a setup run on a closed channel is answered: every operation on it fails. -/
def answered (s : Connection H) (channel : Nat) (answer : Except Thrown String) :
    Except Thrown String :=
  if s.isOpen channel then answer
  else .error (.error { name := "IllegalOperationError", message := "Channel closed" })

/-- The tag of the consumer a run is about to create. -/
def tagOf (config : ConsumersConfig) (s : Connection H) (sub : Subscription H) : ConsumerTag :=
  match sub.askedTag config with
  | some tag => .configured tag
  | none => .generated s.nextTag

/-- `channel.consume` is answered.  The broker refuses a tag that is in use on the channel. -/
def consume (config : ConsumersConfig) (s : Connection H) (i : Nat) (run : SetupRun)
    (sub : Subscription H) (answer : Except Thrown String) : Connection H :=
  match answer with
  | .error _ => s.setPhase i (.ended .failed)
  | .ok _ =>
      let tag := s.tagOf config sub
      if s.live.any fun c => c.channel == run.channel && c.tag == tag then
        s.setPhase i (.ended .failed)
      else { s.setPhase i (.registering tag) with
        live := s.live ++ [{ channel := run.channel, tag, subscription := run.subscription }]
        nextTag := s.nextTag + 1 }

/-- `registerConsumerForQueue`: one entry a tag. -/
def registerConsumerForQueue (s : Connection H) (tag : ConsumerTag) (channel : Nat) : Connection H :=
  { s with consumers := s.consumers.filter (fun e => e.1 != tag) ++ [(tag, channel)] }

/-- `res({ consumerTag })`: a promise settles once. -/
def resolve (s : Connection H) (i : Nat) (tag : ConsumerTag) : Connection H :=
  { s with subscriptions := s.subscriptions.modify i fun sub =>
      if sub.promise == .pending then { sub with promise := .resolved tag } else sub }

/-- One step of a setup run. -/
def advance (config : ConsumersConfig) (s : Connection H) (i : Nat) (answer : Except Thrown String) :
    Connection H :=
  match s.setups[i]? with
  | none => s
  | some run =>
      match s.subscriptions[run.subscription]? with
      | none => s
      | some sub =>
          match run.phase with
          | .consuming _ => s.consume config i run sub (s.answered run.channel answer)
          -- the entry is made behind the answer, whatever has happened in between
          | .registering tag =>
              (s.registerConsumerForQueue tag run.channel).setPhase i (.resolving tag)
          | .resolving tag => (s.resolve run.subscription tag).setPhase i (.ended (.created tag))
          | phase => s.setPhase i (phase.next sub.options (s.answered run.channel answer))

/-- `cancelAllConsumers`, up to its first `await`: the latch, and one cancel for every entry. -/
def cancelAllConsumers (s : Connection H) : Connection H :=
  { s with consumersCanceled := true, drains := s.drains ++ [s.consumers] }

/-- The end of one `cancelConsumer`: what failed is logged, and the entry is dropped either way. -/
def cancelConsumer (s : Connection H) (drain : Nat) (tag : ConsumerTag)
    (answer : Except Thrown Unit) : Connection H :=
  match (s.drains[drain]?.getD []).find? fun e => e.1 == tag with
  | none => s
  | some (_, channel) =>
      { s with
        drains := s.drains.modify drain fun waiting => waiting.erase (tag, channel)
        consumers := s.consumers.filter fun e => e.1 != tag
        live := match answer with
          | .ok _ => s.live.filter fun c => !(c.channel == channel && c.tag == tag)
          | .error _ => s.live }

/-- One step. -/
def step (config : ConsumersConfig) (s : Connection H) : ConnectionInput H → Connection H
  | .subscribe kind handler options =>
      { s with subscriptions := s.subscriptions ++
          [{ handler, kind, options,
             promise := if s.consumersCanceled then .rejected else .pending }] }
  | .attach i => s.attach config i
  | .connect wrapper => s.connect config wrapper
  | .disconnect channel => s.disconnect channel
  | .advance i answer => s.advance config i answer
  | .cancelAll => s.cancelAllConsumers
  | .canceled drain tag answer => s.cancelConsumer drain tag answer

/-- Some call of `cancelAllConsumers` has resolved. -/
def Drained (s : Connection H) : Prop := [] ∈ s.drains

/-! ## What one step does -/

@[simp] theorem live_setPhase (s : Connection H) (i : Nat) (phase : Phase) :
    (s.setPhase i phase).live = s.live := rfl

@[simp] theorem subscriptions_setPhase (s : Connection H) (i : Nat) (phase : Phase) :
    (s.setPhase i phase).subscriptions = s.subscriptions := rfl

/-- The answer gives the run its consumer `c`: it waits for one on an open channel, and no other
consumer of that channel has the tag. -/
structure StartsConsumer (config : ConsumersConfig) (s : Connection H) (i : Nat)
    (answer : Except Thrown String) (c : LiveConsumer) : Prop where
  run : ∃ run sub queue, s.setups[i]? = some run ∧ s.subscriptions[run.subscription]? = some sub ∧
    run.phase = .consuming queue ∧ c = ⟨run.channel, s.tagOf config sub, run.subscription⟩
  isOpen : s.isOpen c.channel = true
  answered : answer.isOk = true
  free : ∀ c' ∈ s.live, ¬ (c'.channel = c.channel ∧ c'.tag = c.tag)

/-- A step of a setup run changes the latch and the drains never, and adds at most one consumer. -/
theorem advance_spec (config : ConsumersConfig) (s : Connection H) (i : Nat)
    (answer : Except Thrown String) :
    (s.advance config i answer).consumersCanceled = s.consumersCanceled ∧
      (s.advance config i answer).drains = s.drains ∧
      ((s.advance config i answer).live = s.live ∨
        ∃ c, StartsConsumer config s i answer c ∧ (s.advance config i answer).live = s.live ++ [c]) := by
  unfold advance
  split
  next => exact ⟨rfl, rfl, .inl rfl⟩
  next run hrun =>
  split
  next => exact ⟨rfl, rfl, .inl rfl⟩
  next sub hsub =>
  split
  next queue hphase =>
    unfold consume
    split
    next => exact ⟨rfl, rfl, .inl rfl⟩
    next v hanswered =>
    dsimp only
    split
    next => exact ⟨rfl, rfl, .inl rfl⟩
    next hfree =>
      have hopen : s.isOpen run.channel = true ∧ answer = .ok v := by
        unfold answered at hanswered
        split at hanswered
        · exact ⟨‹_›, hanswered⟩
        · cases hanswered
      refine ⟨rfl, rfl, .inr ⟨_, ⟨⟨run, sub, queue, hrun, hsub, hphase, rfl⟩, hopen.1, ?_, ?_⟩, rfl⟩⟩
      · rw [hopen.2]
        rfl
      · simpa using hfree
  next => exact ⟨rfl, rfl, .inl rfl⟩
  next => exact ⟨rfl, rfl, .inl rfl⟩
  next => exact ⟨rfl, rfl, .inl rfl⟩

/-- **A run that starts under the latch is skipped.** -/
theorem startRun_skipped {s : Connection H} (h : s.consumersCanceled = true) (channel subscription : Nat) :
    (s.startRun channel subscription).phase = .ended .skipped := if_pos h

/-- Registering a setup, and a reconnection, only start runs. -/
theorem attach_spec (config : ConsumersConfig) (s : Connection H) (i : Nat) :
    (s.attach config i).consumersCanceled = s.consumersCanceled ∧
      (s.attach config i).drains = s.drains ∧ (s.attach config i).live = s.live := by
  unfold attach
  split
  next => exact ⟨rfl, rfl, rfl⟩
  next =>
  split
  next => exact ⟨rfl, rfl, rfl⟩
  next =>
  dsimp only
  split
  · exact ⟨rfl, rfl, rfl⟩
  · exact ⟨rfl, rfl, rfl⟩

theorem connect_spec (config : ConsumersConfig) (s : Connection H) (wrapper : String) :
    (s.connect config wrapper).consumersCanceled = s.consumersCanceled ∧
      (s.connect config wrapper).drains = s.drains ∧ (s.connect config wrapper).live = s.live := by
  unfold connect
  split
  · exact ⟨rfl, rfl, rfl⟩
  · exact ⟨rfl, rfl, rfl⟩

/-- Only a setup run adds a consumer, the one it starts. -/
theorem live_step {config : ConsumersConfig} {s : Connection H} {input : ConnectionInput H}
    {c : LiveConsumer} (h : c ∈ (s.step config input).live) :
    c ∈ s.live ∨ ∃ i answer, input = .advance i answer ∧ StartsConsumer config s i answer c := by
  cases input with
  | subscribe kind handler options => exact .inl h
  | attach i => exact .inl ((attach_spec config s i).2.2 ▸ h)
  | connect wrapper => exact .inl ((connect_spec config s wrapper).2.2 ▸ h)
  | disconnect channel => exact .inl (List.mem_filter.mp h).1
  | advance i answer =>
      rcases (advance_spec config s i answer).2.2 with hsame | ⟨c', hstarts, hlive⟩
      · exact .inl (hsame ▸ h)
      · rw [show (s.step config (.advance i answer)).live = s.live ++ [c'] from hlive] at h
        refine (List.mem_append.mp h).imp_right fun hnew => ⟨i, answer, rfl, ?_⟩
        rw [List.mem_singleton.mp hnew]
        exact hstarts
  | cancelAll => exact .inl h
  | canceled drain tag answer =>
      change c ∈ (s.cancelConsumer drain tag answer).live at h
      unfold cancelConsumer at h
      split at h
      next => exact .inl h
      next =>
        cases answer with
        | ok u => exact .inl (List.mem_filter.mp h).1
        | error e => exact .inl h

theorem StartsConsumer.live {config : ConsumersConfig} {s : Connection H} {i : Nat}
    {answer : Except Thrown String} {c : LiveConsumer} (h : StartsConsumer config s i answer c) :
    c ∈ (s.advance config i answer).live := by
  obtain ⟨run, sub, queue, hrun, hsub, hphase, hc⟩ := h.run
  have hanswered : ∃ v, s.answered run.channel answer = .ok v := by
    have hopen : s.isOpen run.channel = true := by
      rw [← h.isOpen, hc]
    unfold Connection.answered
    rw [if_pos hopen]
    have hok := h.answered
    match answer, hok with
    | .ok v, _ => exact ⟨v, rfl⟩
  obtain ⟨v, hv⟩ := hanswered
  have hfree : ¬ (s.live.any fun c' => c'.channel == run.channel && c'.tag == s.tagOf config sub) = true := by
    intro htaken
    obtain ⟨c', hc', hboth⟩ := List.any_eq_true.mp htaken
    refine h.free c' hc' ?_
    simpa [hc] using hboth
  unfold advance
  simp only [hrun, hsub, hphase, hv]
  unfold consume
  dsimp only
  rw [if_neg hfree]
  exact hc ▸ List.mem_append_right _ (.head _)

/-- The subscriptions keep their places, kinds and handlers. -/
def KeepsOwners (s s' : Connection H) : Prop :=
  ∀ (j : Nat) (sub : Subscription H), s.subscriptions[j]? = some sub →
    ∃ sub' : Subscription H, s'.subscriptions[j]? = some sub' ∧ sub'.kind = sub.kind ∧
      sub'.handler = sub.handler

theorem KeepsOwners.of_eq {s s' : Connection H} (h : s'.subscriptions = s.subscriptions) :
    KeepsOwners s s' := fun _ sub hsub => ⟨sub, h ▸ hsub, rfl, rfl⟩

theorem keepsOwners_resolve (s : Connection H) (i : Nat) (tag : ConsumerTag) :
    KeepsOwners s (s.resolve i tag) := by
  intro j sub hsub
  unfold resolve
  rw [List.getElem?_modify, hsub]
  refine ⟨_, rfl, ?_, ?_⟩
  · dsimp only
    split
    · split <;> rfl
    · rfl
  · dsimp only
    split
    · split <;> rfl
    · rfl

theorem keepsOwners_advance (config : ConsumersConfig) (s : Connection H) (i : Nat)
    (answer : Except Thrown String) : KeepsOwners s (s.advance config i answer) := by
  unfold advance
  split
  next => exact .of_eq rfl
  next run hrun =>
  split
  next => exact .of_eq rfl
  next sub hsub =>
  split
  next =>
    unfold consume
    split
    next => exact .of_eq rfl
    next =>
      dsimp only
      split
      · exact .of_eq rfl
      · exact .of_eq rfl
  next => exact .of_eq rfl
  next tag hphase => exact keepsOwners_resolve s run.subscription tag
  next => exact .of_eq rfl

theorem keepsOwners_attach (config : ConsumersConfig) (s : Connection H) (i : Nat) :
    KeepsOwners s (s.attach config i) := by
  unfold attach
  split
  next => exact .of_eq rfl
  next sub hsub =>
  split
  next => exact .of_eq rfl
  next =>
  have hset : KeepsOwners s
      { s with subscriptions := s.subscriptions.set i { sub with attached := true } } := by
    intro j sub' hsub'
    by_cases hij : i = j
    · subst hij
      obtain rfl : sub = sub' := Option.some.inj (hsub.symm.trans hsub')
      exact ⟨_, List.getElem?_set_self (List.getElem?_eq_some_iff.mp hsub).1, rfl, rfl⟩
    · exact ⟨sub', (List.getElem?_set_ne hij).trans hsub', rfl, rfl⟩
  dsimp only
  split
  · exact hset
  · exact hset

theorem keepsOwners_step (config : ConsumersConfig) (s : Connection H) (input : ConnectionInput H) :
    KeepsOwners s (s.step config input) := by
  cases input with
  | subscribe kind handler options =>
      intro j sub hsub
      exact ⟨sub, (List.getElem?_append_left (List.getElem?_eq_some_iff.mp hsub).1).trans hsub, rfl, rfl⟩
  | attach i => exact keepsOwners_attach config s i
  | connect wrapper =>
      show KeepsOwners s (s.connect config wrapper)
      unfold connect
      split
      · exact .of_eq rfl
      · exact .of_eq rfl
  | disconnect channel => exact .of_eq rfl
  | advance i answer => exact keepsOwners_advance config s i answer
  | cancelAll => exact .of_eq rfl
  | canceled drain tag answer =>
      show KeepsOwners s (s.cancelConsumer drain tag answer)
      unfold cancelConsumer
      split
      · exact .of_eq rfl
      · exact .of_eq rfl

end Connection

end NestAmqp.Amqp
