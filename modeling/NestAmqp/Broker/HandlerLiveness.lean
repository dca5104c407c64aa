/-
# NestAmqp.Broker.HandlerLiveness — when the consumers of the broker service have their handlers.

A missing handler is a success to `executeFunction`, so a consumer without one acknowledges what it is
given.  Handlers leave the registry in one place only, the end of `unregisterAll`, and consumers begin in
one place only, the answer to a `consume` call.  These two steps are all there is to look at: a run
whose consumers start after their handlers and outlive none of them serves every message, and no other
run does.
-/
import NestAmqp.Broker.Registration

namespace NestAmqp.Broker.Service

open NestAmqp.Js
open NestAmqp.Amqp
open NestAmqp.Lib.Machine

variable {F : Type} (config : ServiceConfig F)

/-! ## The property -/

/-- The consumer was created by the service for a topic that goes to a handler. -/
def Serves (s : Service F) (c : LiveConsumer) (kind : ConsumerKind) (topic : String) : Prop :=
  ∃ sub, s.connection.subscriptions[c.subscription]? = some sub ∧ sub.kind = kind ∧
    sub.handler = some topic ∧ observable config topic = false

def Registered (s : Service F) (kind : ConsumerKind) (topic : String) : Prop :=
  (s.getHandlers kind topic).isSome = true

/-- Every live consumer of the service for a non-observable topic has a registered handler. -/
def Attended (s : Service F) : Prop :=
  ∀ c ∈ s.connection.live, ∀ kind topic, Serves config s c kind topic → Registered s kind topic

/-- A message of a non-observable topic that was dispatched with success had a handler run on it. -/
def Handled (s : Service F) : Prop :=
  ∀ d ∈ s.dispatched, observable config d.topic = false → d.result.isOk = true → d.ran = true

/-- The steps that leave a consumer without a handler: a consumer starts before its handler is
registered, or the registry is cleared over a consumer that lives. -/
def OpensWindow (s : Service F) : ServiceInput F → Prop
  | .connection (.advance i answer) => ∃ c kind topic,
      Connection.StartsConsumer config.consumers s.connection i answer c ∧
      Serves config s c kind topic ∧ ¬ Registered s kind topic
  | .unregistered i => s.Drained i ∧ ∃ c ∈ s.connection.live, ∃ kind topic, Serves config s c kind topic
  | .connection _ | .registerHandler .. | .registerRpc .. | .resume _ | .unregisterAll
  | .deliver .. => False

/-! ## What the steps leave alone -/

/-- No step but a clearing takes a handler out of the registry. -/
def KeepsHandlers (s s' : Service F) : Prop :=
  ∀ kind topic, Registered s kind topic → Registered s' kind topic

/-- The property, and that the subscription of every live consumer exists. -/
structure Attending (s : Service F) : Prop where
  attended : Attended config s
  handled : Handled config s
  placed : ∀ c ∈ s.connection.live, ∃ sub, s.connection.subscriptions[c.subscription]? = some sub

variable {config} {s s' : Service F}

/-- Who a consumer serves does not change while its subscription stays. -/
theorem serves_iff {c : LiveConsumer} {sub : Subscription (Option String)} {kind : ConsumerKind}
    {topic : String} (hsub : s.connection.subscriptions[c.subscription]? = some sub)
    (hkeeps : Connection.KeepsOwners s.connection s'.connection) :
    Serves config s' c kind topic ↔ Serves config s c kind topic := by
  obtain ⟨sub', hsub', hkind, hhandler⟩ := hkeeps _ sub hsub
  constructor
  · rintro ⟨sub₀, hsub₀, hk, hh, hobservable⟩
    obtain rfl : sub' = sub₀ := Option.some.inj (hsub'.symm.trans hsub₀)
    exact ⟨sub, hsub, hkind.symm.trans hk, hhandler.symm.trans hh, hobservable⟩
  · rintro ⟨sub₀, hsub₀, hk, hh, hobservable⟩
    obtain rfl : sub = sub₀ := Option.some.inj (hsub.symm.trans hsub₀)
    exact ⟨sub', hsub', hkind.trans hk, hhandler.trans hh, hobservable⟩

/-- A step that starts no consumer, drops no handler and dispatches nothing. -/
theorem Attending.of_keeps (h : Attending config s)
    (howners : Connection.KeepsOwners s.connection s'.connection)
    (hlive : ∀ c ∈ s'.connection.live, c ∈ s.connection.live) (hhandlers : KeepsHandlers s s')
    (hdispatched : s'.dispatched = s.dispatched) : Attending config s' := by
  refine ⟨fun c hc kind topic hserves => ?_, fun d hd => ?_, fun c hc => ?_⟩
  · obtain ⟨sub, hsub⟩ := h.placed c (hlive c hc)
    exact hhandlers kind topic
      (h.attended c (hlive c hc) kind topic ((serves_iff hsub howners).mp hserves))
  · exact h.handled d (hdispatched ▸ hd)
  · obtain ⟨sub, hsub⟩ := h.placed c (hlive c hc)
    obtain ⟨sub', hsub', -⟩ := howners _ sub hsub
    exact ⟨sub', hsub'⟩

theorem KeepsHandlers.of_eq (h : s'.registry = s.registry) : KeepsHandlers s s' := by
  intro kind topic hregistered
  unfold Registered getHandlers
  rw [h]
  exact hregistered

/-! ## Registering -/

/-- What a registration changes: at most the registry, which only grows. -/
structure Registers (s s' : Service F) : Prop where
  connection : s'.connection = s.connection
  dispatched : s'.dispatched = s.dispatched
  handlers : KeepsHandlers s s'

theorem Registers.of_eq (hconnection : s'.connection = s.connection)
    (hdispatched : s'.dispatched = s.dispatched) (hregistry : s'.registry = s.registry) :
    Registers s s' := ⟨hconnection, hdispatched, .of_eq hregistry⟩

theorem Attending.of_registers (h : Attending config s) (hregisters : Registers s s') :
    Attending config s' := by
  refine h.of_keeps ?_ (fun c hc => ?_) hregisters.handlers hregisters.dispatched
  · exact .of_eq (congrArg _ hregisters.connection)
  · rwa [hregisters.connection] at hc

theorem registers_registerInto (s : Service F) (kind : ConsumerKind) (topic : String)
    (handler : Option F) : Registers s (s.registerInto kind topic handler).1 := by
  unfold registerInto
  split
  next => exact .of_eq rfl rfl rfl
  next hfree =>
  refine ⟨rfl, rfl, fun k t hregistered => ?_⟩
  unfold Registered getHandlers at hregistered ⊢
  dsimp only
  split
  next heq =>
    -- the entry is new, so nothing was registered there
    obtain ⟨rfl, rfl⟩ := heq
    rw [Option.not_isSome_iff_eq_none.mp hfree] at hregistered
    cases hregistered
  next => exact hregistered

variable (config)

theorem registers_register (s : Service F) (call : RegisterCall F) :
    Registers s (settle.register config s call).1 := by
  unfold settle.register
  split
  next => exact registers_registerInto s .rpc call.topic call.handler
  next =>
  split
  next => exact .of_eq rfl rfl rfl
  next =>
  split
  next => exact .of_eq rfl rfl rfl
  next f _ => exact registers_registerInto s .subscribe call.topic (some f)

theorem registers_settle (s : Service F) (call : RegisterCall F) (promise : SubscriptionPromise) :
    Registers s (s.settle config call promise).1 := by
  unfold settle
  split
  next => exact .of_eq rfl rfl rfl
  next tag =>
    obtain ⟨hconnection, hdispatched, hhandlers⟩ :=
      registers_register config (s.subscribed call tag) call
    exact ⟨hconnection, hdispatched, fun kind topic h => hhandlers kind topic h⟩
  next =>
    split
    · exact .of_eq rfl rfl rfl
    · exact registers_register config s call

theorem registers_resume (s : Service F) (i : Nat) : Registers s (s.resume config i) := by
  unfold resume
  split
  next => exact .of_eq rfl rfl rfl
  next call hcall =>
  split
  next sub hresult hsub =>
    obtain ⟨hconnection, hdispatched, hhandlers⟩ := registers_settle config s call sub.promise
    exact ⟨hconnection, hdispatched, fun kind topic h => hhandlers kind topic h⟩
  next => exact .of_eq rfl rfl rfl

variable {config}

/-- A subscription adds no consumer yet. -/
theorem Attending.subscribe (h : Attending config s) (kind : ConsumerKind) (topic : String)
    (handler : Option F) (entry : PoolEntry) :
    Attending config (s.subscribe config kind topic handler entry) :=
  h.of_keeps (Connection.keepsOwners_step _ _ _) (fun _ hc => hc) (.of_eq rfl) rfl

theorem Attending.registerHandler (h : Attending config s) (topic : String) (handler : Option F) :
    Attending config (s.registerHandler config topic handler) := by
  unfold Service.registerHandler
  split
  next => exact h
  next entry hentry =>
  split
  next => exact h
  next => exact h.subscribe .subscribe topic handler entry

theorem Attending.registerRpc (h : Attending config s) (topic : String) (handler : Option F) :
    Attending config (s.registerRpc config topic handler) := by
  unfold Service.registerRpc
  split
  next => exact h
  next entry hentry =>
  split
  next => exact h.of_registers (registers_registerInto s .rpc topic handler)
  next =>
  dsimp only
  generalize (if truthyText entry.queue = true then findQueue config.broker entry.queue else none) = queue
  split
  next => exact h
  next => exact h.subscribe .rpc topic handler _

/-! ## Deliveries, consumers and the clearing -/

/-- A delivery to an attended consumer runs a handler, unless the topic is observable. -/
theorem ran_dispatch {kind : ConsumerKind} {topic : String} {message : Value}
    (hregistered : Registered s kind topic) (hobservable : observable config topic = false) :
    (s.dispatch config kind topic message).ran = true := by
  unfold dispatch
  rw [if_neg (by simp [hobservable])]
  exact hregistered

theorem topic_dispatch (s : Service F) (kind : ConsumerKind) (topic : String) (message : Value) :
    (s.dispatch config kind topic message).topic = topic := by
  unfold dispatch
  split <;> rfl

theorem Attending.deliver (h : Attending config s) (c : LiveConsumer) (message : Value) :
    Attending config (s.deliver config c message) := by
  unfold Service.deliver
  split
  next hc =>
    split
    next topic kind _ _ _ hsub =>
      refine ⟨h.attended, fun d hd hobservable hok => ?_, h.placed⟩
      rcases List.mem_append.mp hd with hd | hd
      · exact h.handled d hd hobservable hok
      · rw [List.mem_singleton.mp hd] at hobservable ⊢
        rw [topic_dispatch] at hobservable
        exact ran_dispatch (h.attended c hc kind topic ⟨_, hsub, rfl, rfl, hobservable⟩) hobservable
    next => exact h
  next => exact h

theorem Attending.connection (h : Attending config s) {input : ConnectionInput (Option String)}
    (hclosed : ¬ OpensWindow config s (.connection input)) :
    Attending config (s.step config (.connection input)) := by
  have howners := Connection.keepsOwners_step config.consumers s.connection (foreign input)
  -- a consumer that starts is the one of the run whose `consume` was answered
  have hlive (c : LiveConsumer)
      (hc : c ∈ (s.connection.step config.consumers (foreign input)).live) :
      c ∈ s.connection.live ∨ ∃ i answer, input = .advance i answer ∧
        Connection.StartsConsumer config.consumers s.connection i answer c := by
    refine (Connection.live_step hc).imp_right fun ⟨i, answer, hinput, hstarts⟩ => ?_
    refine ⟨i, answer, ?_, hstarts⟩
    cases input <;> cases hinput
    rfl
  have hplaced (c : LiveConsumer)
      (hc : c ∈ (s.connection.step config.consumers (foreign input)).live) :
      ∃ sub, s.connection.subscriptions[c.subscription]? = some sub := by
    rcases hlive c hc with hold | ⟨i, answer, -, hstarts⟩
    · exact h.placed c hold
    · obtain ⟨run, sub, queue, -, hsub, -, rfl⟩ := hstarts.run
      exact ⟨sub, hsub⟩
  refine ⟨fun c hc kind topic hserves => ?_, h.handled, fun c hc => ?_⟩
  · obtain ⟨sub, hsub⟩ := hplaced c hc
    have hserved : Serves config s c kind topic := (serves_iff hsub howners).mp hserves
    rcases hlive c hc with hold | ⟨i, answer, rfl, hstarts⟩
    · exact h.attended c hold kind topic hserved
    · by_contra hno
      exact hclosed ⟨c, kind, topic, hstarts, hserved, hno⟩
  · obtain ⟨sub, hsub⟩ := hplaced c hc
    obtain ⟨sub', hsub', -⟩ := howners _ sub hsub
    exact ⟨sub', hsub'⟩

theorem Attending.unregistered (h : Attending config s) {i : Nat}
    (hclosed : ¬ OpensWindow config s (.unregistered i)) : Attending config (s.unregistered i) := by
  unfold Service.unregistered
  split
  next hdrained =>
    refine ⟨fun c hc kind topic hserves => ?_, h.handled, h.placed⟩
    exact absurd ⟨hdrained, c, hc, kind, topic, hserves⟩ hclosed
  next => exact h

/-! ## Whole runs -/

/-- **A step that opens no window keeps every consumer attended.** -/
theorem Attending.step (h : Attending config s) {input : ServiceInput F}
    (hclosed : ¬ OpensWindow config s input) : Attending config (s.step config input) := by
  cases input with
  | connection input => exact h.connection hclosed
  | registerHandler topic handler => exact h.registerHandler topic handler
  | registerRpc topic handler => exact h.registerRpc topic handler
  | resume i => exact h.of_registers (registers_resume config s i)
  | unregisterAll => exact h.of_keeps (Connection.keepsOwners_step _ _ _) (fun _ hc => hc) (.of_eq rfl) rfl
  | unregistered i => exact h.unregistered hclosed
  | deliver c message => exact h.deliver c message

/-- **A step that opens a window leaves a consumer without a handler.** -/
theorem OpensWindow.not_attended {input : ServiceInput F} (h : OpensWindow config s input) :
    ¬ Attended config (s.step config input) := by
  intro hattended
  cases input with
  | connection input =>
      cases input with
      | advance i answer =>
          obtain ⟨c, kind, topic, hstarts, hserves, hno⟩ := h
          have hsub : ∃ sub, s.connection.subscriptions[c.subscription]? = some sub := by
            obtain ⟨sub, hsub, -⟩ := hserves
            exact ⟨sub, hsub⟩
          obtain ⟨sub, hsub⟩ := hsub
          have hserves' : Serves config (s.step config (.connection (.advance i answer))) c kind topic :=
            (serves_iff hsub (Connection.keepsOwners_advance _ _ _ _)).mpr hserves
          exact hno (hattended c hstarts.live kind topic hserves')
      | subscribe kind handler options => exact h
      | attach i => exact h
      | connect wrapper => exact h
      | disconnect channel => exact h
      | cancelAll => exact h
      | canceled drain tag answer => exact h
  | unregistered i =>
      obtain ⟨hdrained, c, hc, kind, topic, hserves⟩ := h
      change Attended config (s.unregistered i) at hattended
      unfold Service.unregistered at hattended
      rw [if_pos hdrained] at hattended
      exact Bool.noConfusion (hattended c hc kind topic hserves)
  | registerHandler topic handler => exact h
  | registerRpc topic handler => exact h
  | resume i => exact h
  | unregisterAll => exact h
  | deliver c message => exact h

theorem Attending.start : Attending config (Service.start config) := by
  refine ⟨?_, ?_, ?_⟩ <;> simp [Attended, Handled, Service.start]

variable (config)

/-- **Exactly the runs that open no window attend every consumer.**  In every state of a run each live
consumer of a non-observable topic has its handler, and every message dispatched with success has been
handled, if and only if no consumer starts before its handler and no clearing leaves one behind. -/
theorem attended_iff (inputs : List (ServiceInput F)) :
    (∀ s', Reaches (step config) (start config) inputs s' → Attended config s' ∧ Handled config s') ↔
      Along (step config) (fun s i => ¬ OpensWindow config s i) (start config) inputs :=
  Along.iff_forall_reaches (P := fun s => Attended config s ∧ Handled config s)
    (fun (s : Service F) (h : Attending config s) => ⟨h.attended, h.handled⟩)
    (fun _ _ h hclosed => Attending.step h hclosed)
    (fun _ _ _ hopens h => OpensWindow.not_attended (not_not.mp hopens) h.1) Attending.start inputs

/-! ## A handler that is not given -/

/-- One topic `t`, whose queue is `q`. -/
def oneTopic : ServiceConfig Unit :=
  { broker := { queues := [{ name := "q" }] }
    topics := [{ name := "t", queue := some "q", mode := .handle }]
    call := fun _ message => .returned message }

/-- `registerHandler('t')` subscribes, and then throws; a message comes. -/
def registeredWithout : List (ServiceInput Unit) :=
  [.connection (.connect "default"), .registerHandler "t" none, .connection (.attach 0),
    .connection (.advance 0 (.ok "q")), .connection (.advance 0 (.ok "")),
    .connection (.advance 0 (.ok "")), .connection (.advance 0 (.ok "")), .resume 0,
    .deliver ⟨0, .generated 0, 0⟩ (.str "m")]

/-- The consumer stays, and acknowledges what nothing has handled. -/
theorem not_attended_registeredWithout :
    ¬ ∀ (config : ServiceConfig Unit) (inputs : List (ServiceInput Unit)) (s' : Service Unit),
      Reaches (step config) (start config) inputs s' → Attended config s' ∧ Handled config s' := by
  intro h
  have hhandled := (h oneTopic registeredWithout _ (reaches_run _ _ _)).2
  have hdispatched : (run (step oneTopic) (start oneTopic) registeredWithout).dispatched =
      [{ kind := .subscribe, topic := "t", ran := false, result := .ok .undefined }] := rfl
  unfold Handled at hhandled
  rw [hdispatched] at hhandled
  exact Bool.noConfusion (hhandled _ (List.mem_singleton_self _) (by decide) rfl)

end NestAmqp.Broker.Service
