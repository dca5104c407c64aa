/-
# NestAmqp.Amqp.RpcExchange — requesters, services and the messages between them.

The calls of a connection, the consumers that answer them, and everything that is on its way: requests and
their retry copies to the services, replies and error reports to the connection.  Any message may be taken
by any service, any number of times, late or never, and so may any reply; publishes fail, timers run out,
handlers throw.  Through all of it a call that resolves does so with what a service made of the message
that this call has sent.
-/
import NestAmqp.Amqp.Correlation
import NestAmqp.Amqp.Lineage
import NestAmqp.Lib.Tasks

namespace NestAmqp.Amqp

open NestAmqp.Js
open NestAmqp.Lib
open NestAmqp.Lib.Machine

/-! ## The parties -/

/-- A consumer of a queue, with the error handler that `resolveErrorHandler` chose. -/
structure Service where
  env : ConsumerEnv
  options : MessageHandlerOptions := {}
  kind : ConsumerKind := .rpc
  queue : String
  errorHandler : ErrorHandler
  builtIn : errorHandler.BuiltIn

/-- The callback the consumer is registered with. -/
def Service.callback (service : Service) : Option Delivery → Consuming Unit :=
  consume service.env service.options service.kind (service.errorHandler.handle service.env service.queue)

/-- The calls of the connection, everything that was ever sent to a service or back, and what the services
have done. -/
structure Exchange where
  calls : List RpcCall := []
  requests : List Delivery := []
  replies : List Delivery := []
  log : List Event := []

/-- What happens next: a call, the end of its publish, its timer; a service takes a message, whose retry
copies the broker may stamp; a reply arrives. -/
inductive ExchangeInput (names : List String) where
  | request (options : RequestOptions) (uuid : String)
  | published (call : Nat) (answer : Except Thrown Unit)
  | timeout (call : Nat)
  | take (service message : Nat) (stamps : DeathHeaders names)
  | reply (message : Nat)

/-- A publication on its way: `serializer` prints what is not bytes yet. -/
def inFlight (serializer : Value → Content) (message : Publication) : Delivery where
  routingKey := message.routingKey
  content := match message.body with
    | .raw content => content
    | .json v => serializer v
  properties := message.properties

/-- The publications of a log that were made for one of the purposes, confirmed or not. -/
def sentFor (purposes : List Purpose) (log : List Event) : List Publication := log.filterMap fun
  | .published purpose message _ => if purpose ∈ purposes then some message else none
  | _ => none

section Step

variable {names : List String} (config : RequestConfig) (serializer : Value → Content)
  (services : Nat → Service)

/-- One step. -/
def Exchange.step (s : Exchange) : ExchangeInput names → Exchange
  | .request options uuid =>
      { s with
        calls := rpcStep config s.calls (.request options uuid)
        requests := s.requests ++ [inFlight serializer (RpcCall.request config options uuid).publication] }
  | .published i answer => { s with calls := rpcStep config s.calls (.published i answer) }
  | .timeout i => { s with calls := rpcStep config s.calls (.timeout i) }
  | .take i j stamps => match s.requests[j]? with
      | none => s
      | some msg =>
          let done := ((services i).callback (some msg)).added s.log
          { s with
            requests := s.requests ++ (sentFor [.retry] done).map (arrival stamps done)
            replies := s.replies ++ (sentFor [.reply, .errorReply] done).map (inFlight serializer)
            log := s.log ++ done }
  | .reply j => { s with calls := rpcStep config s.calls (.reply s.replies[j]?) }

end Step

/-! ## What a service sends -/

/-- Where what a service publishes over a message comes from: a reply from its handler, a report of used up
attempts, or a retry copy. -/
def Service.Sends (service : Service) (msg : Delivery) : Event → Prop
  | .published .reply message _ => ∃ v response log,
      tryDeserializeMessage service.env service.options msg = .ok v ∧
        service.env.handler log v msg = .ok (.value response) ∧
          message = rpcReply service.options msg response
  | .published .errorReply message _ => ∃ policy error cause text attempts,
      service.errorHandler = .retry policy ∧ errorToPlain error = .ok cause ∧
        printed cause.message = .ok text ∧ message = exhaustedReply service.queue msg cause text attempts
  | .published .retry message _ => ∃ policy attempts, message = retryCopy service.queue policy msg attempts
  | .published .deadLetter _ _ | .handled _ _ | .asserted _ _ _ _ | .acked _ | .nacked _ _
  | .unconverted _ => True

section Sends

variable {service : Service} {msg : Delivery}

theorem sends_processed {r : Except Thrown Unit} {t : List Event}
    (h : Processed service.env service.options service.kind msg r t) : ∀ e ∈ t, service.Sends msg e := by
  have hanswered {v response : Value} {ok : Bool} {t : List Event}
      (hmsg : tryDeserializeMessage service.env service.options msg = .ok v)
      (hv : ∃ log, service.env.handler log v msg = .ok (.value response))
      (ht : Answered service.options service.kind msg response ok t) : ∀ e ∈ t, service.Sends msg e := by
    cases ht with
    | silent ok hsilent => exact List.forall_mem_nil _
    | replied hkind hreply ok =>
        obtain ⟨log, hlog⟩ := hv
        exact List.forall_mem_singleton.mpr ⟨v, response, log, hmsg, hlog, rfl⟩
  cases h with
  | misrouted hkey hr => exact List.forall_mem_singleton.mpr trivial
  | undecodable hkey hmsg => exact List.forall_mem_nil _
  | threw hkey hmsg he => exact List.forall_mem_singleton.mpr trivial
  | refused hkey hmsg hv hr =>
      exact List.forall_mem_cons.mpr ⟨trivial, List.forall_mem_singleton.mpr trivial⟩
  | unanswered hkey hmsg hv ht e => exact List.forall_mem_cons.mpr ⟨trivial, hanswered hmsg hv ht⟩
  | answered hkey hmsg hv ht hr =>
      refine List.forall_mem_cons.mpr ⟨trivial, List.forall_mem_append.mpr ⟨hanswered hmsg hv ht, ?_⟩⟩
      exact List.forall_mem_singleton.mpr trivial

theorem sends_outcomeLine (error : Thrown) : ∀ e ∈ outcomeLine error, service.Sends msg e := by
  unfold outcomeLine
  split
  · exact List.forall_mem_nil _
  · exact List.forall_mem_singleton.mpr trivial

theorem sends_scheduled {policy : RetryPolicyConfig} {n : JsNumber} {done : Bool} {t : List Event}
    (h : Scheduled service.queue policy msg n done t) : ∀ e ∈ t, service.Sends msg e := by
  have hcopy (ok : Bool) : service.Sends msg
      (.published .retry (retryCopy service.queue policy msg n) ok) := ⟨policy, n, rfl⟩
  cases h with
  | assertFailed hdelay => exact List.forall_mem_singleton.mpr trivial
  | delayed hdelay ok =>
      exact List.forall_mem_cons.mpr ⟨trivial, List.forall_mem_singleton.mpr (hcopy _)⟩
  | immediate hdelay ok => exact List.forall_mem_singleton.mpr (hcopy _)

theorem sends_errorReplied {policy : RetryPolicyConfig} (hpolicy : service.errorHandler = .retry policy)
    {error : Thrown} {n : JsNumber} {done : Bool} {t : List Event}
    (h : ErrorReplied service.env service.queue msg error n done t) : ∀ e ∈ t, service.Sends msg e := by
  cases h with
  | unasked hawaits => exact List.forall_mem_nil _
  | undescribed hawaits hcause => exact List.forall_mem_singleton.mpr trivial
  | untold hawaits hcause htext => exact List.forall_mem_nil _
  | sent hawaits hcause htext hserialized ok =>
      exact List.forall_mem_singleton.mpr ⟨policy, error, _, _, n, hpolicy, hcause, htext, rfl⟩
  | lineThrew hawaits hcause htext hserialized hline =>
      exact List.forall_mem_cons.mpr ⟨⟨policy, error, _, _, n, hpolicy, hcause, htext, rfl⟩,
        List.forall_mem_singleton.mpr trivial⟩

theorem sends_exhausted {policy : RetryPolicyConfig} {error : Thrown} {n : JsNumber} {done : Bool}
    {t : List Event} (h : Exhausted service.queue policy msg error n done t) :
    ∀ e ∈ t, service.Sends msg e := by
  cases h with
  | undescribed hdest hcause => exact List.forall_mem_singleton.mpr trivial
  | refused hdest hcause => exact List.forall_mem_singleton.mpr trivial
  | deadLettered hdest hcause => exact List.forall_mem_cons.mpr ⟨trivial, sends_outcomeLine error⟩
  | dropped hdest => exact sends_outcomeLine error

theorem sends_handedOver {policy : RetryPolicyConfig} (hpolicy : service.errorHandler = .retry policy)
    {error : Thrown} {safe : Bool} {t : List Event}
    (h : HandedOver service.env service.queue policy msg error safe t) : ∀ e ∈ t, service.Sends msg e := by
  cases h with
  | uncounted hcount => exact List.forall_mem_singleton.mpr trivial
  | rescheduleFailed hcount hretry h => exact sends_scheduled h
  | rescheduled hcount hretry h =>
      exact List.forall_mem_append.mpr ⟨sends_scheduled h, sends_outcomeLine error⟩
  | replyFailed hcount hretry hreply => exact sends_errorReplied hpolicy hreply
  | exhausted hcount hretry hreply h =>
      exact List.forall_mem_append.mpr ⟨sends_errorReplied hpolicy hreply, sends_exhausted h⟩

/-- **What the error handler sends.** -/
theorem emits_errorHandler (service : Service) (msg : Delivery) (error : Thrown) :
    (service.errorHandler.handle service.env service.queue msg error).Emits (service.Sends msg) := by
  have hbuiltIn := service.builtIn
  cases hhandler : service.errorHandler with
  | custom handler =>
      rw [hhandler] at hbuiltIn
      exact hbuiltIn.elim
  | retry policy =>
      refine (ensures_retryErrorHandler service.env service.queue policy msg error).mono ?_
      rintro r t ⟨-, safe, a, settled, ha, hsettled, rfl⟩
      refine List.forall_mem_append.mpr ⟨sends_handedOver hhandler ha, ?_⟩
      cases hsettled with
      | acked => exact List.forall_mem_singleton.mpr trivial
      | ackThrew hthrows ok =>
          exact List.forall_mem_cons.mpr ⟨trivial, List.forall_mem_singleton.mpr trivial⟩
      | requeued ok hok => exact List.forall_mem_singleton.mpr trivial
  | legacy behavior =>
      have hnack (requeue : Bool) : (service.env.nackMessage requeue).Emits (service.Sends msg) :=
        Traced.emits_perform fun _ => trivial
      show (getHandlerForLegacyBehavior service.env (toUpperCase behavior) msg error).Emits _
      unfold getHandlerForLegacyBehavior
      split
      · exact Traced.emits_perform fun _ => trivial
      · split
        · exact hnack true
        · exact hnack false

/-- **What a service sends** over a message. -/
theorem emits_callback (service : Service) (msg : Delivery) :
    (service.callback (some msg)).Emits (service.Sends msg) := by
  refine (ensures_consume service.env service.options service.kind msg _ fun error =>
    ((ErrorHandler.ensures_once service.env service.queue service.builtIn msg error).and
      (emits_errorHandler service msg error)).mono fun _ _ h => ⟨h.1.1, h.2⟩).mono ?_
  rintro r t ⟨-, hconsumed⟩
  cases hconsumed with
  | returned h => exact sends_processed h
  | failed h h' => exact List.forall_mem_append.mpr ⟨sends_processed h, h'⟩

theorem mem_sentFor {purposes : List Purpose} {log : List Event} {message : Publication}
    (h : message ∈ sentFor purposes log) :
    ∃ purpose ok, purpose ∈ purposes ∧ .published purpose message ok ∈ log := by
  obtain ⟨e, he, hsent⟩ := List.mem_filterMap.mp h
  cases e with
  | published purpose sent ok =>
      dsimp only at hsent
      split at hsent
      next hpurpose =>
        obtain rfl := Option.some.inj hsent
        exact ⟨purpose, ok, hpurpose, he⟩
      next => cases hsent
  | handled msg failure => cases hsent
  | asserted waitQueue delayMs target ok => cases hsent
  | acked ok => cases hsent
  | nacked requeue ok => cases hsent
  | unconverted what => cases hsent

end Sends

/-! ## Where messages come from -/

section Origins

variable {names : List String} {config : RequestConfig} {serializer : Value → Content}
  {services : Nat → Service}

/-- The delivery is what the call has sent, or a retry copy of it: the same content and correlation id, and
the same headers but for the counter and what the broker adds. -/
structure Carries (names : List String) (serializer : Value → Content) (call : RpcCall) (msg : Delivery) :
    Prop where
  content : msg.content = (inFlight serializer call.publication).content
  correlationId : msg.properties.correlationId = some call.correlationId
  headers : ∀ name, name ≠ RETRY_COUNT_HEADER → name ∉ names →
    Obj.own (msg.properties.headers.getD []) name = Obj.own (call.publication.properties.headers.getD []) name

/-- The delivery is what a service has made of the message: what its handler returned, or that its attempts
are used up. -/
inductive MadeOf (serializer : Value → Content) (services : Nat → Service) (msg : Delivery) :
    Delivery → Prop
  | response (i : Nat) {v response : Value} {log : List Event}
      (hmsg : tryDeserializeMessage (services i).env (services i).options msg = .ok v)
      (hresponse : (services i).env.handler log v msg = .ok (.value response)) :
      MadeOf serializer services msg
        (inFlight serializer (rpcReply (services i).options msg response))
  | report (i : Nat) {policy : RetryPolicyConfig} (hpolicy : (services i).errorHandler = .retry policy)
      {error : Thrown} {cause : PlainError} (hcause : errorToPlain error = .ok cause) {text : String}
      (htext : printed cause.message = .ok text) (attempts : JsNumber) :
      MadeOf serializer services msg
        (inFlight serializer (exhaustedReply (services i).queue msg cause text attempts))

/-- What a service makes of a message has the message's correlation id. -/
theorem MadeOf.correlationId {msg reply : Delivery} (h : MadeOf serializer services msg reply) :
    reply.properties.correlationId = msg.properties.correlationId := by
  cases h with
  | response i hmsg hresponse => rfl
  | report i hpolicy hcause htext attempts => rfl

/-- What the reaction of a call leaves alone. -/
theorem publication_react (config : RequestConfig) (i : Nat) (call : RpcCall) (input : RpcInput) :
    (call.react config i input).publication = call.publication := by
  have hsettle (call : RpcCall) : call.settle.publication = call.publication := by
    unfold RpcCall.settle
    split <;> rfl
  have hrace (result : Except Thrown Value) : (call.finishRace result).publication = call.publication := by
    unfold RpcCall.finishRace
    split
    · exact hsettle _
    · rfl
  have hpublish (answer : Except Thrown Unit) :
      (call.finishPublish answer).publication = call.publication := by
    unfold RpcCall.finishPublish
    split
    · exact hsettle _
    · rfl
  rcases RpcCall.react_cases config i call input with h | ⟨_, v, -, -, -, h⟩ | ⟨-, h⟩ | ⟨answer, -, h⟩
  · rw [h]
  · rw [h]
    exact hrace _
  · rw [h]
    exact hrace _
  · rw [h]
    exact hpublish _

/-- A message of a call is one of the later call. -/
theorem Carries.react {call : RpcCall} {msg : Delivery} (h : Carries names serializer call msg)
    (config : RequestConfig) (i : Nat) (input : RpcInput) :
    Carries names serializer (call.react config i input) msg := by
  have hpublication := publication_react config i call input
  refine ⟨?_, ?_, ?_⟩
  · rw [hpublication]
    exact h.content
  · rw [(RpcCall.continues_react config i call input).correlationId]
    exact h.correlationId
  · rw [hpublication]
    exact h.headers

/-- What a request publishes carries it. -/
theorem carries_request (config : RequestConfig) (options : RequestOptions) (uuid : String) :
    Carries names serializer (RpcCall.request config options uuid)
      (inFlight serializer (RpcCall.request config options uuid).publication) :=
  ⟨rfl, rfl, fun _ _ _ => rfl⟩

/-- A retry copy carries what the copied message carries. -/
theorem Carries.retryCopy {call : RpcCall} {msg : Delivery} (h : Carries names serializer call msg)
    (queue : String) (policy : RetryPolicyConfig) (attempts : JsNumber) (stamps : DeathHeaders names)
    (log : List Event) :
    Carries names serializer call (arrival stamps log (retryCopy queue policy msg attempts)) := by
  have hown {name : String} (hcount : name ≠ RETRY_COUNT_HEADER) :
      Obj.own ((retryProperties policy msg attempts []).headers.getD []) name =
        Obj.own (msg.properties.headers.getD []) name := by
    rw [own_retryProperties, Obj.own_nil, Option.none_or, if_neg hcount]
  unfold arrival
  split
  · refine ⟨h.content, h.correlationId, fun name hcount hname => ?_⟩
    rw [← h.headers name hcount hname, ← hown hcount]
    show Obj.own (Obj.assign _ stamps.fields) name = _
    rw [Obj.own_assign, stamps.own_eq_none hname, Option.none_or]
    rfl
  · refine ⟨h.content, h.correlationId, fun name hcount hname => ?_⟩
    rw [← h.headers name hcount hname, ← hown hcount]
    rfl

/-- A result of the race that is new is a reply's, of its own. -/
theorem race_of_react {call : RpcCall} {i : Nat} {input : RpcInput} {v : Value}
    (h : (call.react config i input).race = some (.ok v)) :
    call.race = some (.ok v) ∨
      ∃ reply, input = .reply (some reply) ∧ call.Answers reply ∧ replyBody config reply = .ok v := by
  have hopen {result : Except Thrown Value} (hrace : (call.finishRace result).race = some (.ok v)) :
      call.race = some (.ok v) ∨ result = .ok v := by
    cases hnone : call.race with
    | none =>
        rw [RpcCall.race_finishRace hnone] at hrace
        exact .inr (Option.some.inj hrace)
    | some r =>
        have hkept := (RpcCall.continues_finishRace call result).race r hnone
        rw [hrace] at hkept
        exact .inl hkept.symm
  rcases RpcCall.react_cases config i call input with
    hsame | ⟨reply, v', hinput, hanswers, hbody, hnext⟩ | ⟨-, hnext⟩ | ⟨answer, -, hnext⟩
  · rw [hsame] at h
    exact .inl h
  · rw [hnext] at h
    rcases hopen h with hold | hnew
    · exact .inl hold
    · rw [Except.ok.inj hnew] at hbody
      exact .inr ⟨reply, hinput, hanswers, hbody⟩
  · rw [hnext] at h
    rcases hopen h with hold | hnew
    · exact .inl hold
    · cases hnew
  · rw [hnext, RpcCall.race_finishPublish] at h
    exact .inl h

end Origins

/-! ## The invariant -/

/-- The message is one of a call. -/
def Exchange.Sent (names : List String) (serializer : Value → Content) (s : Exchange) (msg : Delivery) :
    Prop := ∃ (i : Nat) (call : RpcCall), s.calls[i]? = some call ∧ Carries names serializer call msg

/-- Every message to a service is one of a call, every message back is made of one, and what a call has got
was in a message back. -/
structure Exchange.Sound (names : List String) (config : RequestConfig) (serializer : Value → Content)
    (services : Nat → Service) (s : Exchange) : Prop where
  requests : ∀ msg ∈ s.requests, s.Sent names serializer msg
  replies : ∀ reply ∈ s.replies, ∃ msg, s.Sent names serializer msg ∧ MadeOf serializer services msg reply
  got : ∀ call ∈ s.calls, ∀ v, call.race = some (.ok v) →
    ∃ reply ∈ s.replies, call.Answers reply ∧ replyBody config reply = .ok v
  consistent : ∀ call ∈ s.calls, call.Consistent

section Invariant

variable {names : List String} {config : RequestConfig} {serializer : Value → Content}
  {services : Nat → Service} {s : Exchange}

/-- The calls there are react to an input. -/
theorem Exchange.Sent.calls {msg : Delivery} (h : s.Sent names serializer msg) (input : RpcInput)
    (requests : List Delivery) :
    Exchange.Sent names serializer { s with calls := rpcStep config s.calls input, requests } msg := by
  obtain ⟨i, call, hcall, hcarries⟩ := h
  exact ⟨i, _, Components.getElem?_step hcall input, hcarries.react config i input⟩

theorem Exchange.Sound.calls (h : s.Sound names config serializer services) (input : RpcInput)
    (hreply : ∀ reply, input = .reply (some reply) → reply ∈ s.replies) :
    Exchange.Sound names config serializer services
      { s with calls := rpcStep config s.calls input } where
  requests msg hmsg := (h.requests msg hmsg).calls input s.requests
  replies := by
    intro reply hmem
    obtain ⟨msg, hsent, hmade⟩ := h.replies reply hmem
    exact ⟨msg, hsent.calls input s.requests, hmade⟩
  got := by
    intro call hcall v hrace
    obtain ⟨i, hi⟩ := List.mem_iff_getElem?.mp hcall
    rcases Components.getElem?_step_cases hi with ⟨old, hold, rfl⟩ | ⟨-, hborn⟩
    · have hanswers (reply : Delivery) : (old.react config i input).Answers reply ↔ old.Answers reply :=
        (RpcCall.continues_react config i old input).answers_congr reply
      rcases race_of_react hrace with hbefore | ⟨reply, hinput, hown, hbody⟩
      · obtain ⟨reply, hmem, hown, hbody⟩ := h.got old (List.mem_of_getElem? hold) v hbefore
        exact ⟨reply, hmem, (hanswers reply).mpr hown, hbody⟩
      · exact ⟨reply, hreply reply hinput, (hanswers reply).mpr hown, hbody⟩
    · -- a call that is made now has got nothing
      cases input with
      | request options uuid =>
          obtain rfl := Option.some.inj hborn
          cases hrace
      | published i answer => cases hborn
      | timeout i => cases hborn
      | reply msg => cases hborn
  consistent := by
    intro call hcall
    obtain ⟨i, hi⟩ := List.mem_iff_getElem?.mp hcall
    rcases Components.getElem?_step_cases hi with ⟨old, hold, rfl⟩ | ⟨-, hborn⟩
    · exact (h.consistent old (List.mem_of_getElem? hold)).react input
    · cases input with
      | request options uuid =>
          obtain rfl := Option.some.inj hborn
          exact consistent_request config options uuid
      | published i answer => cases hborn
      | timeout i => cases hborn
      | reply msg => cases hborn

/-- **One step.** -/
theorem Exchange.Sound.step (h : s.Sound names config serializer services) (input : ExchangeInput names) :
    (s.step config serializer services input).Sound names config serializer services := by
  cases input with
  | request options uuid =>
      obtain ⟨hrequests, hreplies, hgot, hconsistent⟩ :=
        h.calls (.request options uuid) nofun
      refine ⟨Tasks.forall_concat hrequests ?_, hreplies, hgot, hconsistent⟩
      exact ⟨s.calls.length, _, Components.getElem?_born rfl, carries_request config options uuid⟩
  | published i answer => exact h.calls _ nofun
  | timeout i => exact h.calls _ nofun
  | take i j stamps =>
      unfold Exchange.step
      dsimp only
      cases hmsg : s.requests[j]? with
      | none => exact h
      | some msg =>
          have hsent := h.requests msg (List.mem_of_getElem? hmsg)
          have hsends : ∀ e ∈ ((services i).callback (some msg)).added s.log, (services i).Sends msg e :=
            fun e he => (emits_callback (services i) msg).of_added he
          refine ⟨List.forall_mem_append.mpr ⟨h.requests, fun copy hcopy => ?_⟩,
            List.forall_mem_append.mpr ⟨h.replies, fun reply hreply => ?_⟩, fun call hcall v hrace => ?_,
            h.consistent⟩
          · -- a retry copy is one of the same call
            obtain ⟨message, hmessage, rfl⟩ := List.mem_map.mp hcopy
            obtain ⟨purpose, ok, hpurpose, hpublished⟩ := mem_sentFor hmessage
            obtain rfl := List.mem_singleton.mp hpurpose
            obtain ⟨policy, attempts, rfl⟩ := hsends _ hpublished
            obtain ⟨k, call, hcall, hcarries⟩ := hsent
            exact ⟨k, call, hcall, hcarries.retryCopy _ policy attempts stamps _⟩
          · obtain ⟨message, hmessage, rfl⟩ := List.mem_map.mp hreply
            obtain ⟨purpose, ok, hpurpose, hpublished⟩ := mem_sentFor hmessage
            refine ⟨msg, hsent, ?_⟩
            rcases List.mem_cons.mp hpurpose with rfl | hpurpose
            · obtain ⟨v, response, log, hmsg, hresponse, rfl⟩ := hsends _ hpublished
              exact .response i hmsg hresponse
            · obtain rfl := List.mem_singleton.mp hpurpose
              obtain ⟨policy, error, cause, text, attempts, hpolicy, hcause, htext, rfl⟩ :=
                hsends _ hpublished
              exact .report i hpolicy hcause htext attempts
          · obtain ⟨reply, hreply, hrest⟩ := h.got call hcall v hrace
            exact ⟨reply, List.mem_append_left _ hreply, hrest⟩
  | reply j =>
      refine h.calls _ fun reply hreply => ?_
      exact List.mem_of_getElem? (RpcInput.reply.inj hreply)

/-- **Every run** from nothing. -/
theorem sound_run (names : List String) (config : RequestConfig) (serializer : Value → Content)
    (services : Nat → Service) (inputs : List (ExchangeInput names)) :
    (run (Exchange.step config serializer services) {} inputs).Sound names config serializer services := by
  refine run_invariant (fun s input (h : s.Sound names config serializer services) => h.step input) ?_ inputs
  exact ⟨List.forall_mem_nil _, List.forall_mem_nil _, List.forall_mem_nil _, List.forall_mem_nil _⟩

/-- A call that has resolved did so with what a service has made of its own message. -/
theorem Exchange.Sound.own_answer (h : s.Sound names config serializer services)
    (hdistinct : (s.calls.map (·.correlationId)).Nodup) {i : Nat} {call : RpcCall}
    (hcall : s.calls[i]? = some call) {v : Value} (hresolved : call.settled = some (.ok v)) :
    ∃ msg reply, Carries names serializer call msg ∧ MadeOf serializer services msg reply ∧
      replyBody config reply = .ok v := by
  have hmem := List.mem_of_getElem? hcall
  have hrace := (h.consistent call hmem).race_of_resolved hresolved
  obtain ⟨reply, hreply, hanswers, hbody⟩ := h.got call hmem v hrace
  obtain ⟨msg, ⟨j, other, hother, hcarries⟩, hmade⟩ := h.replies reply hreply
  -- the reply has the id of the call, and of the call whose message it is made of
  have hid : other.correlationId = call.correlationId := by
    have hsame := hanswers.1
    rw [hmade.correlationId, hcarries.correlationId] at hsame
    exact Option.some.inj hsame
  have heq : other = call :=
    List.inj_on_of_nodup_map hdistinct (List.mem_of_getElem? hother) hmem hid
  rw [heq] at hcarries
  exact ⟨msg, reply, hcarries, hmade, hbody⟩

/-- What a new call sends. -/
theorem Exchange.publication_request (s : Exchange) (options : RequestOptions) (uuid : String) :
    (s.step config serializer services
        (.request options uuid : ExchangeInput names)).calls[s.calls.length]?.map (·.publication) =
      some (RpcCall.request config options uuid).publication := by
  have hborn : (rpcStep config s.calls (.request options uuid))[s.calls.length]? =
      some (RpcCall.request config options uuid) := Components.getElem?_born rfl
  exact congrArg (Option.map (·.publication)) hborn

/-- What a call has sent is not changed by what happens later. -/
theorem Exchange.publication_run {i : Nat} {publication : Publication}
    (h : s.calls[i]?.map (·.publication) = some publication) (inputs : List (ExchangeInput names)) :
    (run (Exchange.step config serializer services) s inputs).calls[i]?.map (·.publication) =
      some publication := by
  refine run_invariant (I := fun s : Exchange => s.calls[i]?.map (·.publication) = some publication)
    (fun s input hs => ?_) h inputs
  have hcalls (rpcInput : RpcInput) :
      (rpcStep config s.calls rpcInput)[i]?.map (·.publication) = some publication := by
    obtain ⟨call, hcall, hpublication⟩ := Option.map_eq_some_iff.mp hs
    have hnext : (rpcStep config s.calls rpcInput)[i]? = some (call.react config i rpcInput) :=
      Components.getElem?_step hcall rpcInput
    rw [hnext]
    exact congrArg some ((publication_react config i call rpcInput).trans hpublication)
  cases input with
  | request options uuid => exact hcalls _
  | published j answer => exact hcalls _
  | timeout j => exact hcalls _
  | take k j stamps =>
      unfold Exchange.step
      dsimp only
      split <;> exact hs
  | reply j => exact hcalls _

/-- A call has, at any time, sent what it was made for. -/
theorem Exchange.publication_later (s : Exchange) (options : RequestOptions) (uuid : String)
    (inputs : List (ExchangeInput names)) :
    (run (Exchange.step config serializer services) s (.request options uuid :: inputs)).calls[
        s.calls.length]?.map (·.publication) = some (RpcCall.request config options uuid).publication :=
  Exchange.publication_run (s.publication_request options uuid) inputs

end Invariant

end NestAmqp.Amqp
