/-
# NestAmqp.Broker.Topology — declaring exchanges, queues and bindings on a fresh channel.

`setupInitChannel` declares what the configuration names: the alternate exchanges one after the other,
then all exchanges at once, then the bindings between exchanges, then all queues at once, each with its own
bindings behind it, and last the reply queues are consumed.  The broker is a parameter: of it only the
documented rules are used, that an equivalent declaration, a check of what is there and a binding between what
is there succeed.
-/
import NestAmqp.Broker.Bindings
import NestAmqp.Lib.Plans

namespace NestAmqp.Broker.Topology

open NestAmqp.Js NestAmqp.Lib

/-! ## The configuration -/

/-- `unroutableQueue`. -/
structure UnroutableQueue where
  name : String
  options : Obj := []
  bindingKey : String := ""
  bindingArgs : Value := .undefined

/-- `RabbitMQAlternateExchangeConfig`. -/
structure RabbitMQAlternateExchangeConfig where
  name : String
  type : Option String := none
  options : Obj := []
  unroutableQueue : Option UnroutableQueue := none

/-- `string | RabbitMQAlternateExchangeConfig`. -/
inductive AlternateExchange
  | name (text : String)
  | config (aeConfig : RabbitMQAlternateExchangeConfig)

/-- `RabbitMQExchangeConfig`, with its options and its alternate exchange. -/
structure ExchangeConfig extends RabbitMQExchangeConfig where
  options : Obj := []
  alternateExchange : Option AlternateExchange := none

/-- `RabbitMQExchangeBindingConfig`. -/
structure ExchangeBindingConfig where
  destination : String
  source : String
  pattern : String
  args : Value := .undefined

/-- `RabbitMQQueueConfig`, with its options. -/
structure QueueConfig extends RabbitMQQueueConfig where
  createQueueIfNotExists : Bool := true
  options : Obj := []
  bindQueueArguments : Value := .undefined

/-- What `setupInitChannel` reads of `RabbitMQConfig`. -/
structure TopologyConfig where
  exchanges : List ExchangeConfig := []
  exchangeBindings : List ExchangeBindingConfig := []
  queues : List QueueConfig := []
  defaultExchangeType : String := "topic"
  defaultAlternateExchange : Option AlternateExchange := none
  enableDirectReplyTo : Bool := true
  replyQueues : List String := []

/-! ## The calls -/

/-- A queue the calls name, or the one that the broker names for the `i`-th configured queue. -/
inductive QueueRef
  | named (name : String)
  | generated (i : Nat)
  deriving DecidableEq, Repr

/-- A call on the channel. -/
inductive TopologyCall
  | assertExchange (name type : String) (options : Obj)
  | checkExchange (name : String)
  | assertQueue (queue : QueueRef) (options : Obj)
  | checkQueue (name : String)
  | bindExchange (destination source pattern : String) (args : Value)
  | bindQueue (queue : QueueRef) (source pattern : String) (args : Value)
  | consume (queue : String)

/-- `DIRECT_REPLY_QUEUE`. -/
def directReplyQueue : String := "amq.rabbitmq.reply-to"

/-- `normalizeAlternateExchange(raw)`. -/
def normalizeAlternateExchange : Option AlternateExchange → Option RabbitMQAlternateExchangeConfig
  | none => none
  | some (.name text) => if text = "" then none else some { name := text }
  | some (.config aeConfig) => some aeConfig

/-- `setupAlternateExchange(channel, aeConfig)`. -/
def setupAlternateExchange (aeConfig : RabbitMQAlternateExchangeConfig) : Plan TopologyCall :=
  .seq
    (.call (.assertExchange aeConfig.name ((textOr aeConfig.type (some "fanout")).getD "")
      (Obj.assign [("durable", .bool true)] aeConfig.options)))
    -- what no queue takes lands here
    (match aeConfig.unroutableQueue with
      | none => .done
      | some q => .seq
          (.call (.assertQueue (.named q.name) (Obj.assign [("durable", .bool true)] q.options)))
          (.call (.bindQueue (.named q.name) aeConfig.name q.bindingKey q.bindingArgs)))

/-- `if (!aeRegistry.has(ae.name)) aeRegistry.set(ae.name, ae)`. -/
def register (aeRegistry : List RabbitMQAlternateExchangeConfig) (ae : RabbitMQAlternateExchangeConfig) :
    List RabbitMQAlternateExchangeConfig :=
  if aeRegistry.any fun other => other.name == ae.name then aeRegistry else aeRegistry ++ [ae]

namespace TopologyConfig

variable (config : TopologyConfig)

/-- `globalAe`. -/
def globalAe : Option RabbitMQAlternateExchangeConfig :=
  normalizeAlternateExchange config.defaultAlternateExchange

/-- `aeRegistry`. -/
def aeRegistry : List RabbitMQAlternateExchangeConfig :=
  (config.exchanges.filterMap fun x => normalizeAlternateExchange x.alternateExchange).foldl register
    config.globalAe.toList

/-- The options an exchange is declared with. -/
def exchangeOptions (x : ExchangeConfig) : Obj :=
  if (Obj.get x.options "alternateExchange").truthy then x.options
  else
    match normalizeAlternateExchange x.alternateExchange <|> config.globalAe with
    | none => x.options
    | some effectiveAe => Obj.assign x.options [("alternateExchange", .str effectiveAe.name)]

/-- The call for an exchange. -/
def setupExchange (x : ExchangeConfig) : TopologyCall :=
  if x.createExchangeIfNotExists then
    .assertExchange x.name ((textOr x.type (some config.defaultExchangeType)).getD "")
      (config.exchangeOptions x)
  else .checkExchange x.name

end TopologyConfig

/-- `queueOptions`. -/
def QueueConfig.queueOptions (q : QueueConfig) : Obj :=
  Obj.assign q.options
    (match q.bindQueueArguments with
      | .undefined => []
      | given => [("bindQueueArguments", given)])

/-- `setupQueue(subscriptionOptions, channel)` of the `i`-th configured queue. -/
def setupQueue (q : QueueConfig) (i : Nat) : Plan TopologyCall :=
  let actualQueue : QueueRef :=
    if q.createQueueIfNotExists && q.name == "" then .generated i else .named q.name
  .seq
    (.call (if q.createQueueIfNotExists then .assertQueue actualQueue q.queueOptions else .checkQueue q.name))
    (.all ((Broker.setupQueue q.toRabbitMQQueueConfig).map fun b =>
      .call (.bindQueue actualQueue b.exchange b.routingKey (Obj.get q.queueOptions "bindQueueArguments"))))

/-- `setupInitChannel(channel, name, config)` of the default channel, up to `initialized.next()`. -/
def setupInitChannel (config : TopologyConfig) : Plan TopologyCall :=
  .series [
    -- each stage is awaited before the next; within one, `Promise.all` leaves the order open
    .series (config.aeRegistry.map setupAlternateExchange),
    .all (config.exchanges.map fun x => .call (config.setupExchange x)),
    .all (config.exchangeBindings.map fun b =>
      .call (.bindExchange b.destination b.source b.pattern b.args)),
    .all (config.queues.zipIdx.map fun (q, i) => setupQueue q i),
    if config.enableDirectReplyTo then
      .series ((directReplyQueue :: config.replyQueues).map fun queue => .call (.consume queue))
    else .done]

/-! ## The broker -/

/-- What calls declare and need. -/
inductive EntityName
  | exchange (name : String)
  | queue (queue : QueueRef)
  deriving DecidableEq, Repr

/-- A binding, as the broker keeps it. -/
structure Binding where
  destination : EntityName
  source : String
  pattern : String
  args : Value

/-- What the broker makes of a declaration.  Two are equivalent when it makes the same of them. -/
structure Reading (D : Type) where
  exchange : String → Obj → D
  queue : Obj → D

namespace TopologyCall

/-- What must be there. -/
def needs : TopologyCall → List EntityName
  | .checkExchange name => [.exchange name]
  | .checkQueue name => [.queue (.named name)]
  | .bindExchange destination source _ _ => [.exchange destination, .exchange source]
  | .bindQueue queue source _ _ => [.queue queue, .exchange source]
  | .consume queue => if queue = directReplyQueue then [] else [.queue (.named queue)]
  | _ => []

/-- What is there afterwards. -/
def gives : TopologyCall → Option EntityName
  | .assertExchange name _ _ => some (.exchange name)
  | .assertQueue queue _ => some (.queue queue)
  | _ => none

/-- The declaration of what is there afterwards. -/
def declares {D : Type} (r : Reading D) : TopologyCall → Option (EntityName × D)
  | .assertExchange name type options => some (.exchange name, r.exchange type options)
  | .assertQueue queue options => some (.queue queue, r.queue options)
  | _ => none

/-- The binding that is made. -/
def binding : TopologyCall → Option Binding
  | .bindExchange destination source pattern args => some ⟨.exchange destination, source, pattern, args⟩
  | .bindQueue queue source pattern args => some ⟨.queue queue, source, pattern, args⟩
  | _ => none

theorem gives_eq {D : Type} (r : Reading D) (call : TopologyCall) :
    call.gives = (call.declares r).map Prod.fst := by
  cases call <;> rfl

end TopologyCall

/-- The topology of a broker: what is declared, and the bindings. -/
structure BrokerState (D : Type) where
  declared : EntityName → Option D := fun _ => none
  bindings : Set Binding := ∅

namespace BrokerState

variable {D : Type} [DecidableEq D] (r : Reading D)

/-- What the call needs is there, and what it declares is not declared otherwise. -/
def admits (s : BrokerState D) (call : TopologyCall) : Bool :=
  call.needs.all (fun n => (s.declared n).isSome) &&
    (call.declares r).all fun (n, d) => (s.declared n).all fun d' => d' == d

/-- The topology behind the call. -/
def after (s : BrokerState D) (call : TopologyCall) : BrokerState D where
  declared :=
    match call.declares r with
    | none => s.declared
    | some (n, d) => Function.update s.declared n (some d)
  bindings := s.bindings ∪ {b | call.binding = some b}

/-- The names that are declared. -/
def names (s : BrokerState D) : Set EntityName := {n | (s.declared n).isSome}

end BrokerState

/-- `needs`, as a set. -/
def needed (call : TopologyCall) : Set EntityName := {n | n ∈ call.needs}

/-- `gives`, as a set. -/
def given (call : TopologyCall) : Set EntityName := {n | call.gives = some n}

section Perform

variable {D : Type} [DecidableEq D] {r : Reading D} {s s' : BrokerState D} {call : TopologyCall}
  {calls : List TopologyCall}

/-- All declarations that are made. -/
def declarations (r : Reading D) (calls : List TopologyCall) : List (EntityName × D) :=
  calls.filterMap (TopologyCall.declares r)

/-- No name is declared twice in ways that are not equivalent. -/
def Agree (r : Reading D) (s : BrokerState D) (calls : List TopologyCall) : Prop :=
  ∀ n d d', (n, d) ∈ declarations r calls → (s.declared n = some d' ∨ (n, d') ∈ declarations r calls) → d' = d

theorem admits_iff : s.admits r call = true ↔ needed call ⊆ s.names ∧
    ∀ n d d', call.declares r = some (n, d) → s.declared n = some d' → d' = d := by
  unfold BrokerState.admits
  rw [Bool.and_eq_true, List.all_eq_true]
  refine and_congr Iff.rfl ?_
  cases hdeclares : call.declares r with
  | none => exact iff_of_true rfl fun n d d' h => nomatch h
  | some entry =>
      obtain ⟨n, d⟩ := entry
      rw [Option.all_some, Option.all_eq_true]
      constructor
      · rintro h n' d₁ d' heq hd'
        cases heq
        exact eq_of_beq (h d' hd')
      · exact fun h d' hd' => beq_iff_eq.mpr (h n d d' rfl hd')

theorem declared_after {n : EntityName} {d : D} (hadmits : s.admits r call = true) :
    (s.after r call).declared n = some d ↔ s.declared n = some d ∨ call.declares r = some (n, d) := by
  unfold BrokerState.after
  cases hdeclares : call.declares r with
  | none => simp
  | some entry =>
      obtain ⟨n', d'⟩ := entry
      dsimp only
      by_cases hn : n = n'
      · subst hn
        rw [Function.update_self]
        constructor
        · exact fun h => .inr (by rw [Option.some.inj h])
        · rintro (hold | hnew)
          · rw [(admits_iff.mp hadmits).2 n d' d hdeclares hold]
          · exact congrArg (fun e => some (Prod.snd e)) (Option.some.inj hnew)
      · rw [Function.update_of_ne hn]
        refine ⟨.inl, fun h => h.resolve_right fun heq => hn ?_⟩
        exact (congrArg Prod.fst (Option.some.inj heq)).symm

theorem names_after (hadmits : s.admits r call = true) : (s.after r call).names = s.names ∪ given call := by
  ext n
  show ((s.after r call).declared n).isSome = true ↔ (s.declared n).isSome = true ∨ call.gives = some n
  rw [TopologyCall.gives_eq r, Option.isSome_iff_exists, Option.isSome_iff_exists, Option.map_eq_some_iff]
  simp only [declared_after hadmits, exists_or]
  refine or_congr_right ⟨?_, ?_⟩
  · rintro ⟨d, hd⟩
    exact ⟨_, hd, rfl⟩
  · rintro ⟨⟨_, d⟩, hd, rfl⟩
    exact ⟨d, hd⟩

omit [DecidableEq D] in
theorem mem_declarations_cons {n : EntityName} {d : D} :
    (n, d) ∈ declarations r (call :: calls) ↔ call.declares r = some (n, d) ∨ (n, d) ∈ declarations r calls := by
  unfold declarations
  rw [List.filterMap_cons]
  cases call.declares r with
  | none => simp
  | some entry => simp [eq_comm]

theorem agree_cons (hadmits : s.admits r call = true) :
    Agree r s (call :: calls) ↔ Agree r (s.after r call) calls := by
  unfold Agree
  simp only [mem_declarations_cons, declared_after hadmits]
  constructor
  · intro h n d d' hd hd'
    refine h n d d' (.inr hd) ?_
    rcases hd' with (hold | hcall) | hrest
    · exact .inl hold
    · exact .inr (.inl hcall)
    · exact .inr (.inr hrest)
  · rintro h n d d' (hcall | hrest) (hold | hcall' | hrest')
    · exact (admits_iff.mp hadmits).2 n d d' hcall hold
    · exact (congrArg Prod.snd (Option.some.inj (hcall.symm.trans hcall'))).symm
    · exact (h n d' d hrest' (.inl (.inr hcall))).symm
    · exact h n d d' hrest (.inl (.inl hold))
    · exact h n d d' hrest (.inl (.inr hcall'))
    · exact h n d d' hrest (.inr hrest')

/-- A broker as the documentation of declarations, checks and bindings has it.  It may refuse a call for a reason
of its own: a reserved name, a missing permission. -/
structure TopologyBroker (r : Reading D) where
  State : Type
  topology : State → BrokerState D
  permits : TopologyCall → Prop
  /-- What the broker makes of a call; `none` closes the channel. -/
  perform : State → TopologyCall → Option State
  accepts : ∀ b call, permits call → (topology b).admits r call = true →
    ∃ b', perform b call = some b' ∧ topology b' = (topology b).after r call

/-- Calls, one after the other. -/
def TopologyBroker.performAll (broker : TopologyBroker r) (b : broker.State) (calls : List TopologyCall) :
    Option broker.State := calls.foldlM broker.perform b

/-- The calls' own bindings. -/
def bindingsOf (calls : List TopologyCall) : Set Binding := {b | ∃ call ∈ calls, call.binding = some b}

/-- The topology behind calls that succeed. -/
structure Declared (r : Reading D) (s : BrokerState D) (calls : List TopologyCall) (s' : BrokerState D) : Prop where
  declared : ∀ n d, s'.declared n = some d ↔ s.declared n = some d ∨ (n, d) ∈ declarations r calls
  bindings : s'.bindings = s.bindings ∪ bindingsOf calls

omit [DecidableEq D] in
/-- It does not turn on the order of the calls. -/
theorem Declared.unique {calls' : List TopologyCall} {s₁ s₂ : BrokerState D} (h₁ : Declared r s calls s₁)
    (h₂ : Declared r s calls' s₂) (hperm : calls.Perm calls') : s₁ = s₂ := by
  have hdeclared : s₁.declared = s₂.declared := by
    refine funext fun n => Option.ext fun d => ?_
    have hmem : (n, d) ∈ declarations r calls ↔ (n, d) ∈ declarations r calls' :=
      (hperm.filterMap (TopologyCall.declares r)).mem_iff
    rw [h₁.declared, h₂.declared, hmem]
  have hbindings : s₁.bindings = s₂.bindings := by
    have hmem : bindingsOf calls = bindingsOf calls' :=
      Set.ext fun b => exists_congr fun call => and_congr_left fun _ => hperm.mem_iff
    rw [h₁.bindings, h₂.bindings, hmem]
  cases s₁
  cases s₂
  cases hdeclared
  cases hbindings
  rfl

/-- **Calls succeed** when each finds what it needs and nothing is declared twice differently. -/
theorem TopologyBroker.performAll_of_met (broker : TopologyBroker r) {b : broker.State}
    (hpermits : ∀ call ∈ calls, broker.permits call)
    (hmet : Plan.MetBy needed given (broker.topology b).names calls) (hagree : Agree r (broker.topology b) calls) :
    ∃ b', broker.performAll b calls = some b' ∧ Declared r (broker.topology b) calls (broker.topology b') := by
  induction calls generalizing b with
  | nil =>
      refine ⟨b, rfl, fun n d => (or_iff_left List.not_mem_nil).symm, ?_⟩
      have hnone : bindingsOf [] = ∅ := Set.eq_empty_of_forall_notMem fun _ ⟨_, h, _⟩ => List.not_mem_nil h
      rw [hnone, Set.union_empty]
  | cons call calls ih =>
      obtain ⟨hcall, hcalls⟩ := List.forall_mem_cons.mp hpermits
      have hadmits : (broker.topology b).admits r call = true := by
        refine admits_iff.mpr ⟨hmet.1, fun n d d' hdeclares hold => ?_⟩
        exact hagree n d d' (mem_declarations_cons.mpr (.inl hdeclares)) (.inl hold)
      obtain ⟨b₁, hperform, htopology⟩ := broker.accepts b call hcall hadmits
      obtain ⟨b', hrest, hdeclared⟩ := @ih b₁ hcalls (by rw [htopology, names_after hadmits]; exact hmet.2)
        (by rw [htopology]; exact (agree_cons hadmits).mp hagree)
      rw [htopology] at hdeclared
      refine ⟨b', ?_, fun n d => ?_, ?_⟩
      · unfold TopologyBroker.performAll at hrest ⊢
        rw [List.foldlM_cons, hperform]
        exact hrest
      · rw [hdeclared.declared, declared_after hadmits, mem_declarations_cons, or_assoc]
      · rw [hdeclared.bindings]
        show _ ∪ {b | call.binding = some b} ∪ _ = _
        rw [Set.union_assoc]
        congr 1
        ext binding
        simp only [bindingsOf, Set.mem_union, Set.mem_ofPred_eq, List.mem_cons, exists_eq_or_imp]

end Perform

/-! ## When the setup succeeds -/

namespace TopologyConfig

variable {D : Type} (config : TopologyConfig) (s : BrokerState D)

/-- The exchange is there before the exchanges are set up: on the broker, or as an alternate exchange. -/
def HasExchange (name : String) : Prop :=
  .exchange name ∈ s.names ∨ ∃ ae ∈ config.aeRegistry, ae.name = name

/-- The exchange is there once they are. -/
def KnowsExchange (name : String) : Prop :=
  config.HasExchange s name ∨ ∃ x ∈ config.exchanges, x.createExchangeIfNotExists = true ∧ x.name = name

/-- The queue is there before the queues are set up: on the broker, or behind an alternate exchange. -/
def HasQueue (name : String) : Prop :=
  .queue (.named name) ∈ s.names ∨
    ∃ ae ∈ config.aeRegistry, ∃ q, ae.unroutableQueue = some q ∧ q.name = name

/-- The queue is there once they are. -/
def KnowsQueue (name : String) : Prop :=
  config.HasQueue s name ∨
    ∃ q ∈ config.queues, q.createQueueIfNotExists = true ∧ q.name ≠ "" ∧ q.name = name

/-- The broker is ready for the configuration: nothing is declared twice differently, what is only checked
is there, and so is what bindings and reply queues name. -/
structure Ready [DecidableEq D] (r : Reading D) : Prop where
  agree : Agree r s (setupInitChannel config).calls
  checked : ∀ x ∈ config.exchanges, x.createExchangeIfNotExists = false → config.HasExchange s x.name
  bound : ∀ b ∈ config.exchangeBindings,
    config.KnowsExchange s b.destination ∧ config.KnowsExchange s b.source
  queues : ∀ q ∈ config.queues, (q.createQueueIfNotExists = false → config.HasQueue s q.name) ∧
    ∀ b ∈ Broker.setupQueue q.toRabbitMQQueueConfig, config.KnowsExchange s b.exchange
  replies : config.enableDirectReplyTo = true → ∀ name ∈ config.replyQueues, name ≠ directReplyQueue →
    config.KnowsQueue s name

end TopologyConfig

section Stages

variable {config : TopologyConfig} {there : Set EntityName}

theorem subset_pair {a b : EntityName} : {n | n ∈ [a, b]} ⊆ there ↔ a ∈ there ∧ b ∈ there := by
  constructor
  · exact fun h => ⟨h (.head _), h (.tail _ (.head _))⟩
  · rintro ⟨ha, hb⟩ n hn
    rcases List.mem_pair.mp hn with rfl | rfl
    · exact ha
    · exact hb

theorem subset_single {a : EntityName} : {n | n ∈ [a]} ⊆ there ↔ a ∈ there := by
  constructor
  · exact fun h => h (.head _)
  · rintro ha n hn
    obtain rfl := List.mem_singleton.mp hn
    exact ha

theorem mem_given {calls : List TopologyCall} {n : EntityName} :
    n ∈ Plan.given given calls ↔ ∃ call ∈ calls, call.gives = some n := Iff.rfl

/-- The alternate exchanges are set up wherever. -/
theorem met_setupAlternateExchange (ae : RabbitMQAlternateExchangeConfig) :
    (setupAlternateExchange ae).Met needed given there := by
  unfold setupAlternateExchange
  refine ⟨fun n hn => absurd hn List.not_mem_nil, ?_⟩
  cases ae.unroutableQueue with
  | none => trivial
  | some q =>
      refine ⟨fun n hn => absurd hn List.not_mem_nil, subset_pair.mpr ⟨.inr ?_, .inl (.inr ?_)⟩⟩
      · exact ⟨_, List.mem_singleton_self _, rfl⟩
      · exact ⟨_, List.mem_singleton_self _, rfl⟩

theorem met_alternateExchanges (aes : List RabbitMQAlternateExchangeConfig) :
    (Plan.series (aes.map setupAlternateExchange)).Met needed given there := by
  induction aes generalizing there with
  | nil => trivial
  | cons ae aes ih => exact ⟨met_setupAlternateExchange ae, ih⟩

/-- What the alternate exchanges bring. -/
theorem given_alternateExchanges {aes : List RabbitMQAlternateExchangeConfig} {n : EntityName} :
    n ∈ Plan.given given (Plan.series (aes.map setupAlternateExchange)).calls ↔
      ∃ ae ∈ aes, n = .exchange ae.name ∨
        ∃ q, ae.unroutableQueue = some q ∧ n = .queue (.named q.name) := by
  rw [Plan.calls_series, mem_given]
  simp only [List.mem_flatMap, List.mem_map, exists_exists_and_eq_and]
  constructor
  · rintro ⟨call, ⟨ae, hae, hcall⟩, hgives⟩
    refine ⟨ae, hae, ?_⟩
    unfold setupAlternateExchange at hcall
    rcases List.mem_append.mp hcall with hfirst | hrest
    · obtain rfl := List.mem_singleton.mp hfirst
      exact .inl (Option.some.inj hgives).symm
    · cases hq : ae.unroutableQueue with
      | none =>
          rw [hq] at hrest
          cases hrest
      | some q =>
          rw [hq] at hrest
          rcases List.mem_append.mp hrest with hqueue | hbind
          · obtain rfl := List.mem_singleton.mp hqueue
            exact .inr ⟨q, rfl, (Option.some.inj hgives).symm⟩
          · obtain rfl := List.mem_singleton.mp hbind
            cases hgives
  · rintro ⟨ae, hae, rfl | ⟨q, hq, rfl⟩⟩
    · exact ⟨_, ⟨ae, hae, List.mem_append_left _ List.mem_cons_self⟩, rfl⟩
    · refine ⟨.assertQueue (.named q.name) (Obj.assign [("durable", .bool true)] q.options),
        ⟨ae, hae, List.mem_append_right _ ?_⟩, rfl⟩
      rw [hq]
      exact List.mem_append_left _ List.mem_cons_self

theorem met_setupExchange (x : ExchangeConfig) : needed (config.setupExchange x) ⊆ there ↔
    (x.createExchangeIfNotExists = false → .exchange x.name ∈ there) := by
  unfold TopologyConfig.setupExchange
  cases x.createExchangeIfNotExists with
  | true => exact iff_of_true (fun n hn => absurd hn List.not_mem_nil) fun h => nomatch h
  | false => exact subset_single.trans ⟨fun h _ => h, fun h => h rfl⟩

theorem given_exchanges {n : EntityName} :
    n ∈ Plan.given given (Plan.all (config.exchanges.map fun x => .call (config.setupExchange x))).calls ↔
      ∃ x ∈ config.exchanges, x.createExchangeIfNotExists = true ∧ n = .exchange x.name := by
  rw [Plan.calls_all, mem_given]
  simp only [List.mem_flatMap, List.mem_map, exists_exists_and_eq_and, Plan.calls, List.mem_singleton]
  constructor
  · rintro ⟨_, ⟨x, hx, rfl⟩, hgives⟩
    unfold TopologyConfig.setupExchange at hgives
    split at hgives
    next hcreate => exact ⟨x, hx, hcreate, (Option.some.inj hgives).symm⟩
    next => cases hgives
  · rintro ⟨x, hx, hcreate, rfl⟩
    refine ⟨_, ⟨x, hx, rfl⟩, ?_⟩
    unfold TopologyConfig.setupExchange
    rw [if_pos hcreate]
    rfl

theorem queue_not_mem_exchanges {ref : QueueRef} : .queue ref ∉
    Plan.given given (Plan.all (config.exchanges.map fun x => .call (config.setupExchange x))).calls := by
  rw [given_exchanges]
  rintro ⟨x, -, -, heq⟩
  cases heq

theorem given_exchangeBindings {bindings : List ExchangeBindingConfig} :
    Plan.given given (Plan.all (bindings.map fun b =>
      .call (.bindExchange b.destination b.source b.pattern b.args))).calls = ∅ := by
  ext n
  refine iff_of_false ?_ (Set.notMem_empty n)
  rw [Plan.calls_all, mem_given]
  simp only [List.mem_flatMap, List.mem_map, exists_exists_and_eq_and, Plan.calls, List.mem_singleton]
  rintro ⟨_, ⟨b, -, rfl⟩, hgives⟩
  cases hgives

/-- A queue: when it is only checked it must be there, and the exchange of its bindings must be. -/
theorem met_setupQueue (q : QueueConfig) (i : Nat) : (setupQueue q i).Met needed given there ↔
    (q.createQueueIfNotExists = false → .queue (.named q.name) ∈ there) ∧
      ∀ b ∈ Broker.setupQueue q.toRabbitMQQueueConfig, .exchange b.exchange ∈ there := by
  unfold setupQueue
  dsimp only
  cases hcreate : q.createQueueIfNotExists with
  | true =>
      refine and_congr (iff_of_true (fun n hn => absurd hn List.not_mem_nil) fun h => nomatch h) ?_
      rw [Plan.met_all, List.forall_mem_map]
      refine forall₂_congr fun b _ => subset_pair.trans (and_iff_right ?_ |>.trans ?_)
      · exact .inr ⟨_, List.mem_singleton_self _, rfl⟩
      · refine or_iff_left ?_
        rintro ⟨call, hcall, hgives⟩
        obtain rfl := List.mem_singleton.mp hcall
        cases hgives
  | false =>
      have hcheck : Plan.given given (Plan.call (.checkQueue q.name)).calls = ∅ := by
        ext n
        refine iff_of_false ?_ (Set.notMem_empty n)
        rintro ⟨call, hcall, hgives⟩
        obtain rfl := List.mem_singleton.mp hcall
        cases hgives
      show needed (.checkQueue q.name) ⊆ there ∧ Plan.Met needed given (there ∪ Plan.given given
        (Plan.call (.checkQueue q.name)).calls) _ ↔ _
      rw [hcheck, Set.union_empty, Plan.met_all, List.forall_mem_map]
      have hname : .queue (.named q.name) ∈ there ↔ needed (.checkQueue q.name) ⊆ there := subset_single.symm
      rw [← hname, imp_iff_right rfl]
      refine and_congr_right fun hthere => forall₂_congr fun b _ => ?_
      exact subset_pair.trans (and_iff_right hthere)

/-- What a queue brings. -/
theorem given_setupQueue {q : QueueConfig} {i : Nat} {n : EntityName} :
    n ∈ Plan.given given (setupQueue q i).calls ↔ q.createQueueIfNotExists = true ∧
      n = .queue (if q.name = "" then .generated i else .named q.name) := by
  have hbinds : ∀ (ref : QueueRef) (args : Value), n ∉ Plan.given given (Plan.all
      ((Broker.setupQueue q.toRabbitMQQueueConfig).map fun b =>
        .call (.bindQueue ref b.exchange b.routingKey args))).calls := by
    rintro ref args ⟨call, hcall, hgives⟩
    rw [Plan.calls_all, List.mem_flatMap] at hcall
    obtain ⟨_, hb, hcall⟩ := hcall
    obtain ⟨b, -, rfl⟩ := List.mem_map.mp hb
    obtain rfl := List.mem_singleton.mp hcall
    cases hgives
  show n ∈ Plan.given given (_ ++ _) ↔ _
  rw [Plan.given_append, Set.mem_union, or_iff_left (hbinds _ _)]
  cases hcreate : q.createQueueIfNotExists with
  | true =>
      rw [and_iff_right rfl]
      simp only [Bool.true_and, beq_iff_eq, if_true]
      constructor
      · rintro ⟨call, hcall, hgives⟩
        obtain rfl := List.mem_singleton.mp hcall
        exact (Option.some.inj hgives).symm
      · rintro rfl
        exact ⟨_, List.mem_singleton_self _, rfl⟩
  | false =>
      refine iff_of_false ?_ fun h => nomatch h.1
      rintro ⟨call, hcall, hgives⟩
      obtain rfl := List.mem_singleton.mp hcall
      cases hgives

theorem given_queues {n : EntityName} :
    n ∈ Plan.given given (Plan.all (config.queues.zipIdx.map fun (q, i) => setupQueue q i)).calls ↔
      ∃ q i, (q, i) ∈ config.queues.zipIdx ∧ q.createQueueIfNotExists = true ∧
        n = .queue (if q.name = "" then .generated i else .named q.name) := by
  rw [Plan.calls_all]
  constructor
  · rintro ⟨call, hcall, hgives⟩
    obtain ⟨_, hp, hcall⟩ := List.mem_flatMap.mp hcall
    obtain ⟨⟨q, i⟩, hq, rfl⟩ := List.mem_map.mp hp
    exact ⟨q, i, hq, given_setupQueue.mp ⟨call, hcall, hgives⟩⟩
  · rintro ⟨q, i, hq, h⟩
    obtain ⟨call, hcall, hgives⟩ := given_setupQueue.mpr h
    exact ⟨call, List.mem_flatMap.mpr ⟨_, List.mem_map_of_mem hq, hcall⟩, hgives⟩

theorem given_queues_named {name : String} :
    .queue (.named name) ∈
        Plan.given given (Plan.all (config.queues.zipIdx.map fun (q, i) => setupQueue q i)).calls ↔
      ∃ q ∈ config.queues, q.createQueueIfNotExists = true ∧ q.name ≠ "" ∧ q.name = name := by
  rw [given_queues]
  constructor
  · rintro ⟨q, i, hq, hcreate, heq⟩
    refine ⟨q, List.fst_mem_of_mem_zipIdx hq, hcreate, ?_⟩
    split at heq
    next => cases heq
    next hname =>
      cases heq
      exact ⟨hname, rfl⟩
  · rintro ⟨q, hq, hcreate, hname, rfl⟩
    obtain ⟨i, hi⟩ := List.mem_iff_getElem?.mp hq
    refine ⟨q, i, List.mk_mem_zipIdx_iff_getElem?.mpr hi, hcreate, ?_⟩
    rw [if_neg hname]

theorem met_consumes {queues : List String} :
    (Plan.series (queues.map fun queue => .call (.consume queue))).Met needed given there ↔
      ∀ queue ∈ queues, queue ≠ directReplyQueue → .queue (.named queue) ∈ there := by
  induction queues with
  | nil => exact iff_of_true trivial (List.forall_mem_nil _)
  | cons queue queues ih =>
      have hnone : Plan.given given (Plan.call (TopologyCall.consume queue)).calls = ∅ := by
        ext n
        refine iff_of_false ?_ (Set.notMem_empty n)
        rintro ⟨call, hcall, hgives⟩
        obtain rfl := List.mem_singleton.mp hcall
        cases hgives
      have hneeds : needed (.consume queue) ⊆ there ↔
          (queue ≠ directReplyQueue → .queue (.named queue) ∈ there) := by
        show {n | n ∈ if queue = directReplyQueue then [] else [EntityName.queue (.named queue)]} ⊆ there ↔ _
        by_cases hqueue : queue = directReplyQueue
        · rw [if_pos hqueue]
          exact iff_of_true (fun n hn => absurd hn List.not_mem_nil) fun h => absurd hqueue h
        · rw [if_neg hqueue]
          exact subset_single.trans ⟨fun h _ => h, fun h => h hqueue⟩
      rw [List.map_cons, Plan.met_series_cons, hnone, Set.union_empty, ih, List.forall_mem_cons]
      exact and_congr_left fun _ => hneeds

end Stages

section Setup

variable {D : Type} {r : Reading D} {config : TopologyConfig} {s : BrokerState D}

theorem hasExchange_iff {name : String} : config.HasExchange s name ↔ .exchange name ∈ s.names ∪
    Plan.given given (Plan.series (config.aeRegistry.map setupAlternateExchange)).calls := by
  rw [Set.mem_union, given_alternateExchanges]
  refine or_congr_right (exists_congr fun ae => and_congr_right fun _ => ?_)
  simp [eq_comm]

theorem hasQueue_iff {name : String} : config.HasQueue s name ↔ .queue (.named name) ∈ s.names ∪
    Plan.given given (Plan.series (config.aeRegistry.map setupAlternateExchange)).calls := by
  rw [Set.mem_union, given_alternateExchanges]
  refine or_congr_right (exists_congr fun ae => and_congr_right fun _ => ?_)
  simp [eq_comm]

theorem knowsExchange_iff {name : String} : config.KnowsExchange s name ↔ .exchange name ∈ s.names ∪
    Plan.given given (Plan.series (config.aeRegistry.map setupAlternateExchange)).calls ∪
    Plan.given given (Plan.all (config.exchanges.map fun x => .call (config.setupExchange x))).calls := by
  rw [Set.mem_union _ (_ ∪ _), ← hasExchange_iff, given_exchanges]
  refine or_congr_right (exists_congr fun x => and_congr_right fun _ => and_congr_right fun _ => ?_)
  simp [eq_comm]

/-- **Which configurations are met** in every order of the calls. -/
theorem met_setupInitChannel : (setupInitChannel config).Met needed given s.names ↔
    (∀ x ∈ config.exchanges, x.createExchangeIfNotExists = false → config.HasExchange s x.name) ∧
    (∀ b ∈ config.exchangeBindings, config.KnowsExchange s b.destination ∧ config.KnowsExchange s b.source) ∧
    (∀ q ∈ config.queues, (q.createQueueIfNotExists = false → config.HasQueue s q.name) ∧
      ∀ b ∈ Broker.setupQueue q.toRabbitMQQueueConfig, config.KnowsExchange s b.exchange) ∧
    (config.enableDirectReplyTo = true → ∀ name ∈ config.replyQueues, name ≠ directReplyQueue →
      config.KnowsQueue s name) := by
  unfold setupInitChannel
  rw [Plan.met_series_cons, and_iff_right (met_alternateExchanges _)]
  rw [Plan.met_series_cons, Plan.met_series_cons, Plan.met_series_cons]
  rw [given_exchangeBindings, Set.union_empty]
  -- one part for each stage; that of the alternate exchanges asks for nothing
  refine and_congr ?_ (and_congr ?_ (and_congr ?_ ?_))
  · rw [Plan.met_all, List.forall_mem_map]
    exact forall₂_congr fun x _ => (met_setupExchange x).trans (imp_congr_right fun _ => hasExchange_iff.symm)
  · rw [Plan.met_all, List.forall_mem_map]
    refine forall₂_congr fun b _ => subset_pair.trans ?_
    rw [knowsExchange_iff, knowsExchange_iff]
  · rw [Plan.met_all, List.forall_mem_map]
    have hqueue : ∀ q i, (setupQueue q i).Met needed given (s.names ∪
        Plan.given given (Plan.series (config.aeRegistry.map setupAlternateExchange)).calls ∪
        Plan.given given (Plan.all (config.exchanges.map fun x => .call (config.setupExchange x))).calls) ↔
        (q.createQueueIfNotExists = false → config.HasQueue s q.name) ∧
          ∀ b ∈ Broker.setupQueue q.toRabbitMQQueueConfig, config.KnowsExchange s b.exchange := by
      intro q i
      refine (met_setupQueue q i).trans (and_congr (imp_congr_right fun _ => ?_) ?_)
      · rw [hasQueue_iff, Set.mem_union, or_iff_left queue_not_mem_exchanges]
      · exact forall₂_congr fun b _ => knowsExchange_iff.symm
    constructor
    · intro h q hq
      obtain ⟨i, hi⟩ := List.mem_iff_getElem?.mp hq
      exact (hqueue q i).mp (h (q, i) (List.mk_mem_zipIdx_iff_getElem?.mpr hi))
    · rintro h ⟨q, i⟩ hq
      exact (hqueue q i).mpr (h q (List.fst_mem_of_mem_zipIdx hq))
  · cases config.enableDirectReplyTo with
    | false => exact iff_of_true ⟨trivial, trivial⟩ fun h => nomatch h
    | true =>
        rw [imp_iff_right rfl]
        refine (and_iff_left trivial).trans (met_consumes.trans ?_)
        rw [List.forall_mem_cons, and_iff_right fun h => absurd rfl h]
        refine forall₂_congr fun name _ => imp_congr_right fun _ => ?_
        rw [Set.mem_union, given_queues_named, Set.mem_union, or_iff_left queue_not_mem_exchanges,
          ← hasQueue_iff]
        rfl

theorem agree_perm [DecidableEq D] {calls calls' : List TopologyCall} (h : calls.Perm calls') :
    Agree r s calls ↔ Agree r s calls' := by
  have hmem : ∀ e, e ∈ declarations r calls ↔ e ∈ declarations r calls' := fun e =>
    (h.filterMap (TopologyCall.declares r)).mem_iff
  unfold Agree
  simp only [hmem]

/-- **The topology of a connection.**  When the broker is ready for the configuration, the setup succeeds in every
order of its calls that its awaits allow, and the broker has the same exchanges, queues and bindings behind it
whatever the order was. -/
theorem setup_succeeds [DecidableEq D] (broker : TopologyBroker r) {b : broker.State}
    (hpermits : ∀ call ∈ (setupInitChannel config).calls, broker.permits call)
    (hready : config.Ready (broker.topology b) r) :
    ∃ behind : BrokerState D, ∀ calls, (setupInitChannel config).Runs calls →
      ∃ b', broker.performAll b calls = some b' ∧ broker.topology b' = behind := by
  have hmet : (setupInitChannel config).Met needed given (broker.topology b).names :=
    met_setupInitChannel.mpr ⟨hready.checked, hready.bound, hready.queues, hready.replies⟩
  have hsucceeds : ∀ calls, (setupInitChannel config).Runs calls → ∃ b', broker.performAll b calls = some b' ∧
      Declared r (broker.topology b) calls (broker.topology b') := by
    intro calls hcalls
    refine broker.performAll_of_met ?_ (Plan.met_iff.mp hmet calls hcalls)
      ((agree_perm hcalls.perm).mpr hready.agree)
    exact fun call hcall => hpermits call (hcalls.perm.mem_iff.mp hcall)
  obtain ⟨b₀, -, hdeclared₀⟩ := hsucceeds _ (Plan.runs_calls _)
  refine ⟨broker.topology b₀, fun calls hcalls => ?_⟩
  obtain ⟨b', hperform, hdeclared⟩ := hsucceeds calls hcalls
  exact ⟨b', hperform, hdeclared.unique hdeclared₀ hcalls.perm⟩

end Setup

/-- A broker that takes nothing but what the documented rules take. -/
def plainBroker {D : Type} [DecidableEq D] (r : Reading D) : TopologyBroker r where
  State := BrokerState D
  topology s := s
  permits _ := True
  perform s call := if s.admits r call then some (s.after r call) else none
  accepts s call _ hadmits := ⟨s.after r call, if_pos hadmits, rfl⟩

/-- A queue that is bound to an exchange. -/
def newOrders : TopologyConfig where
  exchanges := [{ name := "orders" }]
  queues := [{ name := "new-orders", exchange := some "orders", routingKey := some (.one "order.created") }]

theorem setup_succeeds_newOrders :
    let r : Reading String := { exchange := fun type _ => type, queue := fun _ => "queue" }
    ∃ behind : BrokerState String, ∀ calls, (setupInitChannel newOrders).Runs calls →
      ∃ b', (plainBroker r).performAll ({} : BrokerState String) calls = some b' ∧ b' = behind := by
  intro r
  have hexchange : newOrders.KnowsExchange ({} : BrokerState String) "orders" :=
    .inr ⟨{ name := "orders" }, .head _, rfl, rfl⟩
  have hcalls : (setupInitChannel newOrders).calls = [.assertExchange "orders" "topic" [],
      .assertQueue (.named "new-orders") [], .bindQueue (.named "new-orders") "orders" "order.created" .undefined,
      .consume directReplyQueue] := rfl
  refine setup_succeeds (plainBroker r) (fun _ _ => trivial) ⟨?_, ?_, nofun, ?_, nofun⟩
  · intro n d d' hd hd'
    rw [hcalls] at hd hd'
    simp only [declarations, TopologyCall.declares, List.filterMap_cons, List.filterMap_nil, List.mem_cons,
      List.not_mem_nil, or_false, Prod.mk.injEq] at hd hd'
    rcases hd with ⟨rfl, rfl⟩ | ⟨rfl, rfl⟩
    · rcases hd' with hnone | ⟨-, h⟩ | ⟨h, -⟩
      · cases hnone
      · exact h
      · cases h
    · rcases hd' with hnone | ⟨h, -⟩ | ⟨-, h⟩
      · cases hnone
      · cases h
      · exact h
  · rintro x hx hcheck
    rw [List.mem_singleton.mp hx] at hcheck
    cases hcheck
  · rintro q hq
    obtain rfl := List.mem_singleton.mp hq
    refine ⟨nofun, fun b hb => ?_⟩
    obtain rfl := List.mem_singleton.mp hb
    exact hexchange

/-! ## Alternate exchanges -/

section Alternates

variable {config : TopologyConfig}

theorem mem_names_register {reg aes : List RabbitMQAlternateExchangeConfig} {name : String} :
    (∃ ae ∈ aes.foldl register reg, ae.name = name) ↔
      (∃ ae ∈ reg, ae.name = name) ∨ ∃ ae ∈ aes, ae.name = name := by
  induction aes generalizing reg with
  | nil => simp
  | cons ae aes ih =>
      rw [List.foldl_cons, ih]
      have hone : (∃ other ∈ register reg ae, other.name = name) ↔
          (∃ other ∈ reg, other.name = name) ∨ ae.name = name := by
        unfold register
        split
        next hthere =>
          obtain ⟨other, hother, hname⟩ := List.any_eq_true.mp hthere
          refine (or_iff_left_of_imp fun h => ⟨other, hother, ?_⟩).symm
          exact (eq_of_beq hname).trans h
        next => simp [or_and_right, exists_or]
      rw [hone, or_assoc]
      simp [or_and_right, exists_or]

theorem nodup_names_register {reg aes : List RabbitMQAlternateExchangeConfig}
    (h : (reg.map (·.name)).Nodup) : ((aes.foldl register reg).map (·.name)).Nodup := by
  induction aes generalizing reg with
  | nil => exact h
  | cons ae aes ih =>
      rw [List.foldl_cons]
      refine ih ?_
      unfold register
      split
      next => exact h
      next hnew =>
        rw [List.map_append, List.nodup_append]
        refine ⟨h, List.nodup_singleton _, ?_⟩
        rintro name hname name' hname' rfl
        obtain ⟨other, hother, rfl⟩ := List.mem_map.mp hname
        exact hnew (List.any_eq_true.mpr ⟨other, hother, beq_iff_eq.mpr (List.mem_singleton.mp hname')⟩)

/-- The alternate exchange the configuration gives an exchange. -/
def TopologyConfig.effectiveAe (config : TopologyConfig) (x : ExchangeConfig) :
    Option RabbitMQAlternateExchangeConfig :=
  normalizeAlternateExchange x.alternateExchange <|> config.globalAe

/-- What is given is registered, under its name. -/
theorem mem_aeRegistry {x : ExchangeConfig} (hx : x ∈ config.exchanges)
    {ae : RabbitMQAlternateExchangeConfig} (hae : config.effectiveAe x = some ae) :
    ∃ ae' ∈ config.aeRegistry, ae'.name = ae.name := by
  refine mem_names_register.mpr ?_
  unfold TopologyConfig.effectiveAe at hae
  cases hown : normalizeAlternateExchange x.alternateExchange with
  | some own =>
      rw [hown] at hae
      obtain rfl := Option.some.inj hae
      exact .inr ⟨own, List.mem_filterMap.mpr ⟨x, hx, hown⟩, rfl⟩
  | none =>
      rw [hown] at hae
      exact .inl ⟨ae, Option.mem_toList.mpr hae, rfl⟩

/-- Set by the user, else by the exchange's own field, else by the broker's default. -/
theorem get_exchangeOptions (x : ExchangeConfig) :
    Obj.get (config.exchangeOptions x) "alternateExchange" =
      if (Obj.get x.options "alternateExchange").truthy then Obj.get x.options "alternateExchange"
      else ((config.effectiveAe x).map fun ae => Value.str ae.name).getD
        (Obj.get x.options "alternateExchange") := by
  unfold TopologyConfig.exchangeOptions
  split
  · rfl
  · show Obj.get (match config.effectiveAe x with | none => _ | some _ => _) _ = _
    cases config.effectiveAe x with
    | none => rfl
    | some ae =>
        rw [Obj.get_assign]
        rfl

/-- The exchange that a call asserts. -/
def TopologyCall.asserted : TopologyCall → Option String
  | .assertExchange name _ _ => some name
  | _ => none

/-- A series of calls, each in its place, has one order. -/
theorem runs_alternateExchanges {aes : List RabbitMQAlternateExchangeConfig} {calls : List TopologyCall}
    (h : (Plan.series (aes.map setupAlternateExchange)).Runs calls) :
    calls = aes.flatMap fun ae => (setupAlternateExchange ae).calls := by
  induction aes generalizing calls with
  | nil =>
      cases h
      rfl
  | cons ae aes ih =>
      cases h with
      | seq hae haes =>
          rw [List.flatMap_cons, ih haes]
          congr 1
          unfold setupAlternateExchange at hae ⊢
          cases hae with
          | seq hassert hqueue =>
              cases hassert
              cases hq : ae.unroutableQueue with
              | none =>
                  rw [hq] at hqueue
                  cases hqueue
                  rfl
              | some q =>
                  rw [hq] at hqueue
                  cases hqueue with
                  | seq hfirst hsecond =>
                      cases hfirst
                      cases hsecond
                      rfl

/-- One exchange is asserted for each alternate exchange. -/
theorem asserted_alternateExchanges (aes : List RabbitMQAlternateExchangeConfig) :
    (aes.flatMap fun ae => (setupAlternateExchange ae).calls).filterMap TopologyCall.asserted =
      aes.map (·.name) := by
  induction aes with
  | nil => rfl
  | cons ae aes ih =>
      rw [List.flatMap_cons, List.filterMap_append, ih, List.map_cons]
      unfold setupAlternateExchange
      cases ae.unroutableQueue <;> rfl

/-- **Alternate exchanges come first.**  In every order of the setup, the calls for the alternate exchanges stand
before those for the configured exchanges; the exchanges that they assert are the registered ones, each once; and
an exchange that does not set one in its options gets its own, else the broker's default, which is registered. -/
theorem alternates_first {calls : List TopologyCall} (h : (setupInitChannel config).Runs calls) :
    (∃ first exchanges later, calls = first ++ (exchanges ++ later) ∧
      first.filterMap TopologyCall.asserted = config.aeRegistry.map (·.name) ∧
      first = (config.aeRegistry.flatMap fun ae => (setupAlternateExchange ae).calls) ∧
      exchanges.Perm (config.exchanges.map config.setupExchange)) ∧
    (config.aeRegistry.map (·.name)).Nodup ∧
    ∀ x ∈ config.exchanges, ∀ ae, config.effectiveAe x = some ae →
      ae.name ∈ config.aeRegistry.map (·.name) ∧
      ((Obj.get x.options "alternateExchange").truthy = false →
        Obj.get (config.exchangeOptions x) "alternateExchange" = .str ae.name) := by
  have hglobal : (config.globalAe.toList.map (·.name)).Nodup := by
    cases config.globalAe with
    | none => exact List.nodup_nil
    | some ae => exact List.nodup_singleton _
  refine ⟨?_, nodup_names_register hglobal, fun x hx ae hae => ⟨?_, fun hunset => ?_⟩⟩
  · unfold setupInitChannel at h
    cases h with
    | seq hfirst hrest =>
        cases hrest with
        | seq hexchanges hlater =>
            have hfirst := runs_alternateExchanges hfirst
            refine ⟨_, _, _, rfl, ?_, hfirst, ?_⟩
            · rw [hfirst, asserted_alternateExchanges]
            · have hperm := hexchanges.perm
              rw [Plan.calls_all, List.flatMap_map] at hperm
              exact hperm.trans (List.Perm.of_eq List.map_eq_flatMap.symm)
  · obtain ⟨ae', hae', hname⟩ := mem_aeRegistry hx hae
    exact List.mem_map.mpr ⟨ae', hae', hname⟩
  · rw [get_exchangeOptions, hunset, hae]
    rfl

/-- An exchange with an alternate exchange of its own, and one that gets the broker's. -/
def twoExchanges : TopologyConfig where
  exchanges := [{ name := "orders", alternateExchange := some (.name "orders-unrouted") }, { name := "events" }]
  defaultAlternateExchange := some (.name "unrouted")

theorem alternates_first_twoExchanges :
    (∃ first exchanges later, (setupInitChannel twoExchanges).calls = first ++ (exchanges ++ later) ∧
      first.filterMap TopologyCall.asserted = twoExchanges.aeRegistry.map (·.name) ∧
      first = (twoExchanges.aeRegistry.flatMap fun ae => (setupAlternateExchange ae).calls) ∧
      exchanges.Perm (twoExchanges.exchanges.map twoExchanges.setupExchange)) ∧
    (twoExchanges.aeRegistry.map (·.name)).Nodup ∧
    ∀ x ∈ twoExchanges.exchanges, ∀ ae, twoExchanges.effectiveAe x = some ae →
      ae.name ∈ twoExchanges.aeRegistry.map (·.name) ∧
      ((Obj.get x.options "alternateExchange").truthy = false →
        Obj.get (twoExchanges.exchangeOptions x) "alternateExchange" = .str ae.name) :=
  alternates_first (Plan.runs_calls _)

end Alternates

end NestAmqp.Broker.Topology
