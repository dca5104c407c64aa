/-
# NestAmqp.Broker.RpcAnswers — what `requestData` is told, and by whom.

A gateway calls an action by its topic and its name, and services all over the place run it: the request is
routed, redelivered and retried, replies of other calls come in between, and everything is JSON on its way.
What the promise of `requestData` comes to is what the action has come to on the arguments of this very call,
or that its attempts are used up.
-/
import NestAmqp.Amqp.RpcExchange
import NestAmqp.Broker.ExecuteFunction
import NestAmqp.Broker.RequestData
import NestAmqp.Js.Buffer

namespace NestAmqp.Broker

open NestAmqp.Js
open NestAmqp.Amqp
open NestAmqp.Lib
open NestAmqp.Lib.Machine

/-! ## From the caller to the action -/

/-- What `requestData` sends. -/
def requestMessage (action : String) (payload : Value) : Value :=
  .obj [("action", .str action), ("payload", payload)]

/-- A property, as it is read from what JSON has carried. -/
def jsonField : Value → Value
  | .undefined => .undefined
  | v => jsonCopy v

/-- What running an action comes to: what its method returned, or the description of what the method threw or
of the parameter that could not be resolved.  A name that every object carries finds an action without
parameters to list. -/
inductive ActionRun (consumer : ActionConsumer) (action : String) (payload : Value) (headers : Option Obj) :
    Except Value Value → Prop
  | returned {handler : ActionHandler} {args : List Value} {log : List Event} {v : Value}
      (hhandler : consumer.actions.lookup action = some handler)
      (hargs : resolveParams consumer (.str action) payload headers handler.params = .ok args)
      (hrun : (handler.method log args).awaited = .ok v) :
      ActionRun consumer action payload headers (.ok v)
  | failed {handler : ActionHandler} {args : List Value} {log : List Event} {e : Thrown} {error : Value}
      (hhandler : consumer.actions.lookup action = some handler)
      (hargs : resolveParams consumer (.str action) payload headers handler.params = .ok args)
      (hrun : (handler.method log args).awaited = .error e)
      (herror : error2Object e consumer.devEnv = .ok error) :
      ActionRun consumer action payload headers (.error error)
  | unresolved {handler : ActionHandler} {e : Thrown} {error : Value}
      (hhandler : consumer.actions.lookup action = some handler)
      (hargs : resolveParams consumer (.str action) payload headers handler.params = .error e)
      (herror : error2Object e consumer.devEnv = .ok error) :
      ActionRun consumer action payload headers (.error error)
  | inherited {error : Value} (hnone : consumer.actions.lookup action = none)
      (hname : action ∈ objectPrototype) (herror : error2Object noEntries consumer.devEnv = .ok error) :
      ActionRun consumer action payload headers (.error error)

/-- `MangedFunctionExecutor`. -/
def envelope : Except Value Value → Value
  | .ok v => successResult v
  | .error error => failureResult error

/-- The payload a service reads out of a request. -/
def readPayload (payload : Value) : Value := (jsonField payload).orElse (.obj [])

/-- A service reads the action and the payload that were sent. -/
theorem readAction_requestMessage (action : String) (payload : Value) :
    readAction (jsonCopy (requestMessage action payload)) = .ok (.str action, readPayload payload) := by
  cases payload <;> rfl

/-- What a consumer answers to a request is the envelope of a run of the action. -/
theorem actionRun_of_dispatch {consumer : ActionConsumer} {log : List Event} {action : String}
    {payload : Value} {msg : Delivery} {response : Value}
    (h : dispatch consumer log (jsonCopy (requestMessage action payload)) msg = .ok (.value response)) :
    ∃ r, ActionRun consumer action (readPayload payload) msg.properties.headers r ∧
      response = envelope r := by
  unfold dispatch at h
  have hname : printed (.str action) = .ok action := rfl
  rw [readAction_requestMessage] at h
  dsimp only at h
  rw [hname] at h
  dsimp only at h
  split at h
  next hnone =>
    split at h
    next hinherited =>
      obtain ⟨error, herror, hresponse⟩ := paramFailure_ok h
      exact ⟨_, .inherited hnone (List.contains_iff_mem.mp hinherited) herror, Response.value.inj hresponse⟩
    next => cases h
  next handler hhandler =>
    split at h
    next err hargs =>
      obtain ⟨error, herror, hresponse⟩ := paramFailure_ok h
      exact ⟨_, .unresolved hhandler hargs herror, Response.value.inj hresponse⟩
    next args hargs =>
      unfold executeFunction at h
      cases hrun : (handler.method log args).awaited with
      | ok v =>
          rw [hrun] at h
          cases h
          exact ⟨_, .returned hhandler hargs hrun, rfl⟩
      | error e =>
          rw [hrun] at h
          dsimp only at h
          cases herror : error2Object e consumer.devEnv with
          | error e' =>
              rw [herror] at h
              cases h
          | ok error =>
              rw [herror] at h
              cases h
              exact ⟨_, .failed hhandler hargs hrun herror, rfl⟩

/-! ## And back -/

/-- What the promise of `requestData` comes to when that of its `request` does. -/
def requestDataOutcome (settled : Except Thrown Value) : Except Thrown Value :=
  (settled.bind readResult).mapError loggedError

/-- What the caller is told of a run. -/
def callerOutcome : Except Value Value → Except Thrown Value
  | .ok v => .ok (jsonField v)
  | .error error => .error (loggedError (.value (jsonField error)))

/-- **JSON and the envelope take nothing away** but what JSON cannot carry. -/
theorem requestDataOutcome_envelope (r : Except Value Value) :
    requestDataOutcome (.ok (jsonCopy (envelope r))) = callerOutcome r := by
  cases r with
  | ok v => cases v <;> rfl
  | error error => cases error <;> rfl

/-! ## Through the broker -/

/-- The parties print and read JSON, at least of the values that are sent, and the services run the actions
of their consumers. -/
structure Speaks (sendable : Value → Prop) (rpc : RequestConfig) (serializer : Value → Content)
    (services : Nat → Amqp.Service) (consumers : Nat → ActionConsumer) : Prop where
  request : ∀ (i : Nat) (v : Value) (msg : Delivery), sendable v → msg.content = serializer v →
    (services i).env.deserialize msg = .ok (jsonCopy v)
  reply : ∀ (v : Value) (reply : Delivery), sendable v → reply.content = serializer v →
    0 < reply.content.length ∧ rpc.deserializer reply = .ok (jsonCopy v)
  handler : ∀ (i : Nat) (log : List Event) (v : Value) (msg : Delivery),
    (services i).env.handler log v msg = dispatch (consumers i) log v msg
  response : ∀ (i : Nat) (log : List Event) (action : String) (payload : Value) (msg : Delivery)
    (response : Value), sendable (requestMessage action payload) →
    dispatch (consumers i) log (jsonCopy (requestMessage action payload)) msg = .ok (.value response) →
    sendable response
  report : ∀ (i : Nat) (policy : RetryPolicyConfig) (error : Thrown) (cause : PlainError) (text : String)
    (attempts : JsNumber), (services i).errorHandler = .retry policy → errorToPlain error = .ok cause →
    printed cause.message = .ok text →
    sendable (failureResult (exhaustedError (services i).queue cause text attempts))

/-- The headers a service sees are those of the request, but for the counter of its attempts and what the
broker adds. -/
def HeadersOf (names : List String) (options : RequestOptions) (msg : Delivery) : Prop :=
  ∀ name, name ≠ RETRY_COUNT_HEADER → name ∉ names →
    Obj.own (msg.properties.headers.getD []) name = Obj.own (options.headers.getD []) name

/-- What a call of `requestData` can come to: a run of the action, by some service, on what this call has
sent, or a report that the attempts are used up. -/
inductive Accounted (names : List String) (services : Nat → Amqp.Service) (consumers : Nat → ActionConsumer)
    (action : String) (payload : Value) (options : RequestOptions) : Except Thrown Value → Prop
  | run (i : Nat) {msg : Delivery} {r : Except Value Value} (hheaders : HeadersOf names options msg)
      (hrun : ActionRun (consumers i) action (readPayload payload) msg.properties.headers r) :
      Accounted names services consumers action payload options (callerOutcome r)
  | exhausted (i : Nat) {policy : RetryPolicyConfig} (hpolicy : (services i).errorHandler = .retry policy)
      {error : Thrown} {cause : PlainError} (hcause : errorToPlain error = .ok cause) {text : String}
      (htext : printed cause.message = .ok text) (attempts : JsNumber) :
      Accounted names services consumers action payload options
        (callerOutcome (.error (exhaustedError (services i).queue cause text attempts)))

section Answers

variable {names : List String} {sendable : Value → Prop} {rpc : RequestConfig}
  {serializer : Value → Content} {services : Nat → Amqp.Service} {consumers : Nat → ActionConsumer}
  {config : RequesterConfig} {topic action : String} {payload : Value} {headers : Option Obj}
  {timeout : Option Int} {correlationId requestId : String} {options : RequestOptions}

/-- What `requestData` sends is the action and the payload. -/
theorem payload_requestData
    (h : requestData config topic action payload headers timeout correlationId requestId = .ok options) :
    options.payload = requestMessage action payload := by
  unfold requestData at h
  split at h
  · cases h
  · split at h
    · cases h
    · dsimp only at h
      generalize (if truthyText _ = true then findQueue config.broker _ else none) = queue at h
      split at h
      · cases h
      · obtain rfl := Except.ok.inj h
        rfl

/-- What a service has made of a request, as its caller is told. -/
theorem accounted_of_madeOf (hspeaks : Speaks sendable rpc serializer services consumers)
    (hrequest : options.payload = requestMessage action payload)
    (hsendable : sendable (requestMessage action payload)) {call : RpcCall}
    (hcall : call.publication = (RpcCall.request rpc options correlationId).publication)
    {msg reply : Delivery} (hcarries : Carries names serializer call msg)
    (hmade : MadeOf serializer services msg reply) {v : Value} (hbody : replyBody rpc reply = .ok v) :
    Accounted names services consumers action payload options (requestDataOutcome (.ok v)) := by
  -- the reply is read as a copy of what was sent
  have hread {response : Value} (hresponse : sendable response)
      (hcontent : reply.content = serializer response) : v = jsonCopy response := by
    obtain ⟨hlength, hparsed⟩ := hspeaks.reply response reply hresponse hcontent
    unfold replyBody at hbody
    rw [if_pos hlength, hparsed] at hbody
    exact (Except.ok.inj hbody).symm
  cases hmade with
  | response i hmsg hhandled =>
      rename_i parsed response log
      have hcontent : msg.content = serializer (requestMessage action payload) := by
        rw [hcarries.content, hcall]
        show serializer (options.payload.orElse (.obj [])) = _
        rw [hrequest]
        rfl
      have hparsed : parsed = jsonCopy (requestMessage action payload) := by
        unfold tryDeserializeMessage deserializeMessage at hmsg
        rw [hspeaks.request i _ msg hsendable hcontent] at hmsg
        exact (Except.ok.inj hmsg).symm
      rw [hspeaks.handler, hparsed] at hhandled
      obtain ⟨r, hrun, rfl⟩ := actionRun_of_dispatch hhandled
      rw [hread (hspeaks.response i log action payload msg _ hsendable hhandled) rfl,
        requestDataOutcome_envelope]
      refine .run i (fun name hcount hname => ?_) hrun
      rw [hcarries.headers name hcount hname, hcall]
      rfl
  | report i hpolicy hcause htext attempts =>
      have hcopy := hread (hspeaks.report i _ _ _ _ attempts hpolicy hcause htext) rfl
      rw [hcopy]
      exact .exhausted i hpolicy hcause htext attempts

/-- **Every answer is accounted for.**  In every run of calls, retries, redeliveries, losses and replies, over
any number of services, a call of `requestData` that is answered is told what its action has come to on its
own arguments, or that its attempts are used up: never what another call has asked for. -/
theorem requestData_accounted (before after : List (ExchangeInput names))
    (hspeaks : Speaks sendable rpc serializer services consumers)
    (hoptions : requestData config topic action payload headers timeout correlationId requestId =
      .ok options)
    (hsendable : sendable (requestMessage action payload))
    (hdistinct : ((run (Exchange.step rpc serializer services) {}
      (before ++ .request options correlationId :: after)).calls.map (·.correlationId)).Nodup)
    {v : Value}
    (hresolved : resultOf (run (Exchange.step rpc serializer services) {}
        (before ++ .request options correlationId :: after)).calls
      (run (Exchange.step rpc serializer services) {} before).calls.length = some (.ok v)) :
    Accounted names services consumers action payload options (requestDataOutcome (.ok v)) := by
  have hsound := sound_run names rpc serializer services
    (before ++ .request options correlationId :: after)
  obtain ⟨call, hcall, hsettled⟩ := Option.bind_eq_some_iff.mp hresolved
  obtain ⟨msg, reply, hcarries, hmade, hbody⟩ := hsound.own_answer hdistinct hcall hsettled
  -- the call still has what it has sent when it was made
  have hpublication : call.publication = (RpcCall.request rpc options correlationId).publication := by
    rw [run_append] at hcall
    have hsent := (congrArg (Option.map (·.publication)) hcall).symm.trans
      (Exchange.publication_later _ options correlationId after)
    exact Option.some.inj hsent
  exact accounted_of_madeOf hspeaks (payload_requestData hoptions) hsendable hpublication hcarries hmade hbody

end Answers

/-! ## A request that is delivered twice -/

/-- The JSON text of the request for `act`. -/
def requestText : Content := Buffer.utf8 "\x7b\"action\":\"act\",\"payload\":1\x7d"

/-- The JSON text of the answer to it. -/
def answerText : Content := Buffer.utf8 "\x7b\"success\":true,\"payload\":2\x7d"

/-- `JSON.stringify` of the two. -/
def printTwo : Value → Content
  | .obj (("action", _) :: _) => requestText
  | _ => answerText

/-- `JSON.parse` of the two. -/
def parseTwo (content : Content) : Except Thrown Value :=
  if content = requestText then .ok (requestMessage "act" (.num 1))
  else if content = answerText then .ok (successResult (.num 2))
  else .error (.error { name := "SyntaxError", message := "Unexpected token" })

/-- One action, that returns 2. -/
def actConsumer : ActionConsumer where
  topic := "t"
  actions := [("act", { params := [], method := fun _ _ => .returned (.num 2) })]

/-- The consumer of the queue `q` that runs it. -/
def actService : Amqp.Service where
  env :=
    { publish := fun _ _ _ => .ok ()
      assertRetryWaitQueue := fun _ _ => .ok ()
      ack := fun _ => .ok ()
      nack := fun _ => .ok ()
      deserialize := fun msg => parseTwo msg.content
      contentText := fun _ => ""
      serialize := fun _ => .ok ()
      handler := dispatch actConsumer }
  options := { routingKey := some (.one "q") }
  queue := "q"
  errorHandler := .legacy "ACK"
  builtIn := trivial

/-- The connection of the caller. -/
def actRpc : RequestConfig := { deserializer := fun msg => parseTwo msg.content }

/-- The request is taken twice, and the later reply comes first. -/
def actInputs : List (ExchangeInput []) :=
  [.take 0 0 noHeaders, .published 0 (.ok ()), .take 0 0 noHeaders, .reply 1, .reply 0]

theorem parseTwo_printTwo {v : Value} (hv : v = requestMessage "act" (.num 1) ∨ v = successResult (.num 2)) :
    0 < (printTwo v).length ∧ parseTwo (printTwo v) = .ok (jsonCopy v) := by
  rcases hv with rfl | rfl
  · exact ⟨by decide +kernel, rfl⟩
  · exact ⟨by decide +kernel, rfl⟩

theorem speaks_act : Speaks
    (fun v => v = requestMessage "act" (.num 1) ∨ v = successResult (.num 2)) actRpc printTwo
    (fun _ => actService) fun _ => actConsumer where
  request i v msg hv hcontent := by
    show parseTwo msg.content = _
    rw [hcontent]
    exact (parseTwo_printTwo hv).2
  reply v reply hv hcontent := by
    show 0 < reply.content.length ∧ parseTwo reply.content = _
    rw [hcontent]
    exact parseTwo_printTwo hv
  handler i log v msg := rfl
  response i log action payload msg response hv h := by
    have hrequest : requestMessage action payload = requestMessage "act" (.num 1) :=
      hv.resolve_right fun h => by simp [requestMessage, successResult] at h
    rw [hrequest] at h
    exact .inr (Response.value.inj (Except.ok.inj h)).symm
  report i policy error cause text attempts hpolicy := by cases hpolicy

theorem requestData_accounted_act :
    Accounted [] (fun _ => actService) (fun _ => actConsumer) "act" (.num 1) requestOfT
      (requestDataOutcome (.ok (successResult (.num 2)))) :=
  requestData_accounted [] actInputs speaks_act requestData_t (.inl rfl) (by decide +kernel) rfl

end NestAmqp.Broker
