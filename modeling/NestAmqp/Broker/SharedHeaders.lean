/-
# NestAmqp.Broker.SharedHeaders — requests that are given one headers object.

`requestData` writes its `X-Request-ID` into the headers object of its caller, and `request` reads from it the
id it waits for, at once.  The channel wrapper holds the message with a reference to the object and encodes it
when there is a channel, so that a message carries what the object says by then.  Here the objects are cells of
a store, the messages refer to them, and the calls of `requestData` and the encodings come in any order.
-/
import NestAmqp.Broker.PublishMessage
import NestAmqp.Lib.Tasks

namespace NestAmqp.Broker

open NestAmqp.Js
open NestAmqp.Amqp
open NestAmqp.Lib.Machine

/-! ## The calls and the objects -/

/-- A call of `requestData`.  `headers` refers to the object it is given; the two ids are the ones
`randomUUID` makes up. -/
structure RequestCall where
  topic : String
  action : String := ""
  payload : Value := .undefined
  headers : Option Nat := none
  timeout : Option Int := none
  correlationId : String
  requestId : String

/-- The call gets as far as its headers: neither of the two errors above them is thrown. -/
def reachesHeaders (config : RequesterConfig) (topic : String) : Bool :=
  !config.detached && (config.topics.find? fun t => t.name == topic).isSome

/-- The topic says where a request goes. -/
def sendsRequest (config : RequesterConfig) (topic : String) : Bool :=
  !config.detached && (config.topics.find? fun t => t.name == topic).any fun msTopic =>
    truthyText (textOr ((requestQueue config msTopic).bind (·.exchange)) msTopic.exchange) &&
      truthyText (textOr msTopic.routingKey (firstKey ((requestQueue config msTopic).bind (·.routingKey))))

/-- `headers['X-Request-ID'] = randomUUID()`, on an object of the caller. -/
def RequestCall.writeHeaders (config : RequesterConfig) (call : RequestCall) (objects : Nat → Obj) :
    Nat → Obj :=
  match call.headers with
  | none => objects
  | some ref =>
      if reachesHeaders config call.topic then
        Function.update objects ref (Obj.set (objects ref) "X-Request-ID" (.str call.requestId))
      else objects

/-! ## The channel wrapper -/

/-- A message as the channel wrapper holds it, with the call that waits for its reply. -/
structure HeldMessage where
  call : RpcCall
  /-- The object its headers are, unless `requestData` made a new one. -/
  headers : Option Nat

/-- The message, encoded with its headers as they are now. -/
def HeldMessage.encode (objects : Nat → Obj) (message : HeldMessage) : Publication :=
  match message.headers with
  | none => message.call.publication
  | some ref =>
      { message.call.publication with
        properties := { message.call.publication.properties with headers := some (objects ref) } }

/-- The objects of the callers, and the messages in the order of their `publish`. -/
structure ManagedChannel where
  objects : Nat → Obj
  messages : List HeldMessage := []

/-- What can happen: a call, or the encoding of a message, once there is a channel and again after a
reconnect. -/
inductive ChannelInput where
  | requestData (call : RequestCall)
  | encode (message : Nat)

namespace ManagedChannel

/-- One input.  The objects are written before exchange and routing key are checked. -/
def step (config : RequesterConfig) (rpc : RequestConfig) (s : ManagedChannel) : ChannelInput → ManagedChannel
  | .requestData call =>
      let objects := call.writeHeaders config s.objects
      match Broker.requestData config call.topic call.action call.payload
        (call.headers.map s.objects) call.timeout
        call.correlationId call.requestId with
      | .error _ => { s with objects }
      | .ok options =>
          { objects
            messages := s.messages ++
            [{ call := .request rpc options call.correlationId, headers := call.headers }] }
  | .encode _ => s

/-- What goes to the broker, with the call it belongs to. -/
def encoded (s : ManagedChannel) : ChannelInput → Option (RpcCall × Publication)
  | .requestData _ => none
  | .encode i => s.messages[i]?.map fun message => (message.call, message.encode s.objects)

end ManagedChannel

/-! ## The property -/

/-- The message carries the id its call waits for, and a reply with its correlation id and its headers is one
the call takes for its own. -/
structure Identified (call : RpcCall) (publication : Publication) : Prop where
  carries : Obj.get (publication.properties.headers.getD []) "X-Request-ID" = call.requestId
  matched : ∀ (rpc : RequestConfig) (reply : Delivery) (x : CorrelationMessage),
    reply.properties.correlationId = publication.properties.correlationId →
    reply.properties.headers = publication.properties.headers →
    processDirectReplyToMessage rpc (some reply) = .ok (some x) → call.accepts x = true

section Run

variable (config : RequesterConfig) (rpc : RequestConfig) (objects : Nat → Obj) (inputs : List ChannelInput)

/-- Every message that is encoded in the run belongs to its call. -/
def AllIdentified : Prop :=
  Along (ManagedChannel.step config rpc)
    (fun s input => ∀ sent, s.encoded input = some sent → Identified sent.1 sent.2) { objects } inputs

/-- No step of the run changes an object of a caller. -/
def HeadersUnchanged : Prop :=
  Along (ManagedChannel.step config rpc)
    (fun s input => (ManagedChannel.step config rpc s input).objects = s.objects) { objects } inputs

end Run

/-! ## What it depends on -/

/-- The calls so far. -/
def recordCall (calls : List RequestCall) : ChannelInput → List RequestCall
  | .requestData call => calls ++ [call]
  | .encode _ => calls

/-- `randomUUID` makes up an id that no call has had, and that is in no object. -/
def FreshId (objects : Nat → Obj) (calls : List RequestCall) : ChannelInput → Prop
  | .requestData call => (∀ earlier ∈ calls, earlier.requestId ≠ call.requestId) ∧
      ∀ ref, Obj.get (objects ref) "X-Request-ID" ≠ .str call.requestId
  | .encode _ => True

/-- The call that has written on the object last. -/
def lastWriter (config : RequesterConfig) (calls : List RequestCall) (ref : Nat) : Option RequestCall :=
  (calls.filter fun call => call.headers == some ref && reachesHeaders config call.topic).getLast?

/-- The calls whose request is published, in the order of the messages. -/
def sentCalls (config : RequesterConfig) (calls : List RequestCall) : List RequestCall :=
  calls.filter fun call => sendsRequest config call.topic

/-- A message is encoded before another call has written on the object its headers are. -/
def EncodesInTime (config : RequesterConfig) (calls : List RequestCall) : ChannelInput → Prop
  | .requestData _ => True
  | .encode i => ∀ call, (sentCalls config calls)[i]? = some call → ∀ ref, call.headers = some ref →
      lastWriter config calls ref = some call

/-- The call is given no object, or fails before it writes on it. -/
def SparesHeaders (config : RequesterConfig) : ChannelInput → Prop
  | .requestData call => call.headers.isSome = true → reachesHeaders config call.topic = false
  | .encode _ => True

/-! ## One call -/

section Call

variable {config : RequesterConfig} {rpc : RequestConfig} {call : RequestCall} {objects : Nat → Obj}

/-- A call that is sent has come past its headers. -/
theorem reachesHeaders_of_sendsRequest {topic : String} (h : sendsRequest config topic = true) :
    reachesHeaders config topic = true := by
  unfold sendsRequest at h
  unfold reachesHeaders
  obtain ⟨hattached, hroute⟩ := Bool.and_eq_true_iff.mp h
  rw [hattached, Bool.true_and]
  cases hfind : config.topics.find? fun t => t.name == topic with
  | none =>
      rw [hfind] at hroute
      cases hroute
  | some msTopic => rfl

/-- A request is sent or not by its topic alone; it has its own ids, on a copy of the headers. -/
theorem requestData_sends (config : RequesterConfig) (topic action : String) (payload : Value)
    (headers : Option Obj) (timeout : Option Int) (correlationId requestId : String) :
    (sendsRequest config topic = true ∧ ∃ options,
        requestData config topic action payload headers timeout correlationId requestId = .ok options ∧
        options.correlationId = some correlationId ∧
        options.headers = some (Obj.set (headers.getD []) "X-Request-ID" (.str requestId))) ∨
      sendsRequest config topic = false ∧
        ∃ e, requestData config topic action payload headers timeout correlationId requestId = .error e := by
  unfold sendsRequest requestData requestQueue
  cases config.detached with
  | true => exact .inr ⟨rfl, _, rfl⟩
  | false =>
      cases config.topics.find? fun t => t.name == topic with
      | none => exact .inr ⟨rfl, _, rfl⟩
      | some msTopic =>
          dsimp only [Option.any]
          generalize (if truthyText _ = true then findQueue config.broker _ else none) = queue
          generalize textOr (queue.bind _) msTopic.exchange = exchange
          generalize textOr msTopic.routingKey _ = routingKey
          cases truthyText exchange with
          | false => exact .inr ⟨rfl, _, rfl⟩
          | true =>
              cases truthyText routingKey with
              | false => exact .inr ⟨rfl, _, rfl⟩
              | true => exact .inl ⟨rfl, _, rfl, rfl, rfl⟩

theorem get_set_requestId (o : Obj) (requestId : String) :
    Obj.get (Obj.set o "X-Request-ID" (.str requestId)) "X-Request-ID" = .str requestId := by
  simp [Obj.get]

/-- What a call makes of an object. -/
theorem get_writeHeaders (config : RequesterConfig) (call : RequestCall) (objects : Nat → Obj) (ref : Nat) :
    Obj.get (call.writeHeaders config objects ref) "X-Request-ID" =
      if call.headers = some ref ∧ reachesHeaders config call.topic = true then .str call.requestId
      else Obj.get (objects ref) "X-Request-ID" := by
  unfold RequestCall.writeHeaders
  cases hheaders : call.headers with
  | none => simp
  | some other =>
      cases hreaches : reachesHeaders config call.topic with
      | false => simp
      | true =>
          by_cases hsame : other = ref
          · subst hsame
            simp [get_set_requestId]
          · simp [hsame, Function.update_of_ne (Ne.symm hsame)]

end Call

/-! ## One message -/

section Message

variable {config : RequesterConfig} {rpc : RequestConfig} {call : RequestCall} {message : HeldMessage}
  {objects : Nat → Obj} {waiting : RpcCall} {publication : Publication}

/-- The message of a call: it waits for the id of the call, on the headers of the call. -/
structure MessageOf (message : HeldMessage) (call : RequestCall) : Prop where
  headers : message.headers = call.headers
  requestId : message.call.requestId = .str call.requestId
  correlationId : message.call.publication.properties.correlationId = some message.call.correlationId
  own : Obj.get (message.call.publication.properties.headers.getD []) "X-Request-ID" = .str call.requestId

theorem messageOf_request {options : RequestOptions} {headers : Option Obj}
    (h : options.headers = some (Obj.set (headers.getD []) "X-Request-ID" (.str call.requestId)))
    (uuid : String) : MessageOf { call := .request rpc options uuid, headers := call.headers } call where
  headers := rfl
  requestId := by
    show Obj.get (options.headers.getD []) "X-Request-ID" = _
    rw [h]
    exact get_set_requestId _ _
  correlationId := rfl
  own := by
    show Obj.get (options.headers.getD []) "X-Request-ID" = _
    rw [h]
    exact get_set_requestId _ _

/-- With the id of its call, a message gets the reply of its call back to it. -/
theorem identified_iff {requestId : String} (hrequest : waiting.requestId = .str requestId)
    (hcorrelation : publication.properties.correlationId = some waiting.correlationId) :
    Identified waiting publication ↔
      Obj.get (publication.properties.headers.getD []) "X-Request-ID" = .str requestId := by
  refine ⟨fun h => h.carries.trans hrequest, fun hcarries => ⟨hcarries.trans hrequest.symm, ?_⟩⟩
  intro rpc reply x hid hheaders hx
  have hheader : reply.header "X-Request-ID" = .str requestId := by
    unfold Delivery.header
    rw [hheaders]
    exact hcarries
  have hreplyId : replyRequestId reply = some requestId := by
    unfold replyRequestId
    rw [hheader]
    rfl
  have hanswers : waiting.Answers reply := by
    refine ⟨hid.trans hcorrelation, fun rid hrid _ => ?_⟩
    rw [hrequest] at hrid
    rw [hreplyId, Value.str.inj hrid]
  have hown := hid.trans hcorrelation
  unfold processDirectReplyToMessage at hx
  dsimp only at hx
  rw [hown] at hx
  dsimp only at hx
  cases hbody : replyBody rpc reply with
  | error e =>
      rw [hbody] at hx
      cases hx
  | ok v =>
      rw [hbody] at hx
      obtain rfl := Option.some.inj (Except.ok.inj hx)
      exact RpcCall.accepts_of_answers (.inr ⟨requestId, hrequest⟩) hown hanswers

/-- A message on a new object belongs to its call whenever it is encoded. -/
theorem MessageOf.identified_of_none (h : MessageOf message call) (hnone : call.headers = none) :
    Identified message.call (message.encode objects) := by
  unfold HeldMessage.encode
  rw [h.headers, hnone]
  exact (identified_iff h.requestId h.correlationId).mpr h.own

/-- A message on an object of the caller belongs to its call as long as the object has its id. -/
theorem MessageOf.identified_iff_of_some (h : MessageOf message call) {ref : Nat}
    (hsome : call.headers = some ref) :
    Identified message.call (message.encode objects) ↔
      Obj.get (objects ref) "X-Request-ID" = .str call.requestId := by
  unfold HeldMessage.encode
  rw [h.headers, hsome]
  exact identified_iff h.requestId h.correlationId

end Message

/-! ## All of them -/

section Run

variable {config : RequesterConfig} {rpc : RequestConfig} {objects : Nat → Obj} {inputs : List ChannelInput}
  {s : ManagedChannel} {calls : List RequestCall} {call : RequestCall} {input : ChannelInput}

/-- The channel after these calls: an object has the id of the call that has written on it last, and the
messages are those of the calls that were sent. -/
structure Reflects (config : RequesterConfig) (objects : Nat → Obj) (s : ManagedChannel)
    (calls : List RequestCall) : Prop where
  header : ∀ ref, Obj.get (s.objects ref) "X-Request-ID" =
    ((lastWriter config calls ref).map fun call => .str call.requestId).getD
      (Obj.get (objects ref) "X-Request-ID")
  messages : List.Forall₂ MessageOf s.messages (sentCalls config calls)
  distinct : (calls.map (·.requestId)).Nodup

theorem reflects_start : Reflects config objects { objects } [] :=
  ⟨fun _ => rfl, .nil, List.nodup_nil⟩

theorem lastWriter_concat (config : RequesterConfig) (calls : List RequestCall) (call : RequestCall)
    (ref : Nat) :
    lastWriter config (calls ++ [call]) ref =
      if call.headers = some ref ∧ reachesHeaders config call.topic = true then some call
      else lastWriter config calls ref := by
  unfold lastWriter
  rw [List.filter_append, List.getLast?_append]
  split
  next h => simp [h]
  next h =>
    have hother : ([call].filter fun call =>
      call.headers == some ref && reachesHeaders config call.topic) = [] := by
      simpa using h
    rw [hother]
    rfl

theorem sentCalls_concat (config : RequesterConfig) (calls : List RequestCall) (call : RequestCall) :
    sentCalls config (calls ++ [call]) =
      sentCalls config calls ++ if sendsRequest config call.topic then [call] else [] := by
  unfold sentCalls
  rw [List.filter_append, List.filter_singleton, cond_eq_ite]

/-- **One call**: it writes on its object, whether it is sent or not. -/
theorem step_requestData (config : RequesterConfig) (rpc : RequestConfig) (s : ManagedChannel)
    (call : RequestCall) :
    (s.step config rpc (.requestData call)).objects = call.writeHeaders config s.objects ∧
      ∃ new, List.Forall₂ MessageOf new (if sendsRequest config call.topic then [call] else []) ∧
        (s.step config rpc (.requestData call)).messages = s.messages ++ new := by
  unfold ManagedChannel.step
  dsimp only
  rcases requestData_sends config call.topic call.action call.payload (call.headers.map s.objects) call.timeout
    call.correlationId call.requestId with ⟨hsends, options, hoptions, -, hheaders⟩ | ⟨hsends, e, herror⟩
  · rw [hoptions, hsends]
    exact ⟨rfl, _, .cons (messageOf_request hheaders _) .nil, rfl⟩
  · rw [herror, hsends]
    exact ⟨rfl, [], .nil, (List.append_nil _).symm⟩

theorem Reflects.step (h : Reflects config objects s calls) (hfresh : FreshId objects calls input) :
    Reflects config objects (s.step config rpc input) (recordCall calls input) := by
  cases input with
  | encode i => exact h
  | requestData call =>
      obtain ⟨hobjects, new, hnew, hmessages⟩ := step_requestData config rpc s call
      refine ⟨fun ref => ?_, ?_, ?_⟩
      · show Obj.get (_ : Obj) _ = ((lastWriter config (calls ++ [call]) ref).map _).getD _
        rw [hobjects, get_writeHeaders, lastWriter_concat]
        split
        next => rfl
        next => exact h.header ref
      · show List.Forall₂ MessageOf _ (sentCalls config (calls ++ [call]))
        rw [hmessages, sentCalls_concat]
        exact List.rel_append h.messages hnew
      · show ((calls ++ [call]).map (·.requestId)).Nodup
        rw [List.map_append, List.map_singleton, ← List.concat_eq_append]
        refine h.distinct.concat fun hmem => ?_
        obtain ⟨earlier, hearlier, hsame⟩ := List.mem_map.mp hmem
        exact hfresh.1 earlier hearlier hsame

theorem mem_of_lastWriter {ref : Nat} (h : lastWriter config calls ref = some call) : call ∈ calls :=
  List.mem_of_mem_filter (List.mem_of_getLast? h)

/-- A call that was sent has written on its object, so that the object has had a writer. -/
theorem exists_lastWriter {ref : Nat} (hsent : call ∈ sentCalls config calls)
    (hsome : call.headers = some ref) :
    ∃ writer, lastWriter config calls ref = some writer := by
  obtain ⟨hmem, hsends⟩ := List.mem_filter.mp hsent
  have hwrites : call ∈ calls.filter fun call => call.headers == some ref && reachesHeaders config call.topic :=
    List.mem_filter.mpr ⟨hmem, by simp [hsome, reachesHeaders_of_sendsRequest hsends]⟩
  exact Option.isSome_iff_exists.mp (List.getLast?_isSome.mpr (List.ne_nil_of_mem hwrites))

/-- No two calls have one id. -/
theorem Reflects.eq_of_requestId (h : Reflects config objects s calls) {other : RequestCall}
    (hcall : call ∈ calls)
    (hother : other ∈ calls) (hsame : other.requestId = call.requestId) : other = call :=
  List.inj_on_of_nodup_map h.distinct hother hcall hsame

/-- **One message**: it belongs to its call exactly when this call is the last to have written on its
headers. -/
theorem Reflects.identified_iff (h : Reflects config objects s calls) {message : HeldMessage}
    (hmessage : MessageOf message call) (hsent : call ∈ sentCalls config calls) :
    Identified message.call (message.encode s.objects) ↔
      ∀ ref, call.headers = some ref → lastWriter config calls ref = some call := by
  cases hheaders : call.headers with
  | none => exact iff_of_true (hmessage.identified_of_none hheaders) nofun
  | some ref =>
      obtain ⟨writer, hwriter⟩ := exists_lastWriter hsent hheaders
      rw [hmessage.identified_iff_of_some hheaders, h.header ref, hwriter]
      constructor
      · rintro hsame other hother
        obtain rfl := Option.some.inj hother
        rw [hwriter, h.eq_of_requestId (List.mem_of_mem_filter hsent) (mem_of_lastWriter hwriter)
          (Value.str.inj hsame)]
      · intro hlast
        obtain rfl := Option.some.inj (hwriter.symm.trans (hlast ref rfl))
        rfl

/-- An encoding sends a message that belongs to its call exactly when it comes in time. -/
theorem Reflects.encoded_iff (h : Reflects config objects s calls) (input : ChannelInput) :
    (∀ sent, s.encoded input = some sent → Identified sent.1 sent.2) ↔ EncodesInTime config calls input := by
  cases input with
  | requestData call => exact iff_of_true (fun sent hsent => by cases hsent) trivial
  | encode i =>
      rcases Lib.Tasks.forall₂_getElem? h.messages i with ⟨hmessage, hcall⟩ |
        ⟨message, call, hmessage, hcall, hof⟩
      · refine iff_of_true (fun sent hsent => ?_) fun call hsome => ?_
        · unfold ManagedChannel.encoded at hsent
          simp [hmessage] at hsent
        · simp [hcall] at hsome
      · have hiff := h.identified_iff hof (List.mem_of_getElem? hcall)
        have hencoded : s.encoded (.encode i) = some (message.call, message.encode s.objects) :=
          congrArg (Option.map _) hmessage
        constructor
        · intro hall other hother
          obtain rfl := Option.some.inj (hcall.symm.trans hother)
          exact hiff.mp (hall _ hencoded)
        · intro hintime sent hsent
          obtain rfl := Option.some.inj (hencoded.symm.trans hsent)
          exact hiff.mpr (hintime call hcall)

/-- A call leaves the objects alone exactly when it is given none, or fails before it writes. -/
theorem Reflects.unchanged_iff (h : Reflects config objects s calls) (hfresh : FreshId objects calls input) :
    (s.step config rpc input).objects = s.objects ↔ SparesHeaders config input := by
  cases input with
  | encode i => exact iff_of_true rfl trivial
  | requestData call =>
      rw [(step_requestData config rpc s call).1]
      constructor
      · intro hsame hsome
        obtain ⟨ref, href⟩ := Option.isSome_iff_exists.mp hsome
        by_contra hreaches
        have hwritten := get_writeHeaders config call s.objects ref
        rw [if_pos ⟨href, by simpa using hreaches⟩, hsame, h.header ref] at hwritten
        -- the object has had neither this id, nor that of an earlier call
        cases hwriter : lastWriter config calls ref with
        | none =>
            rw [hwriter] at hwritten
            exact hfresh.2 ref hwritten
        | some writer =>
            rw [hwriter] at hwritten
            exact hfresh.1 writer (mem_of_lastWriter hwriter) (Value.str.inj hwritten)
      · intro hspares
        unfold RequestCall.writeHeaders
        cases hheaders : call.headers with
        | none => rfl
        | some ref =>
            have hno : reachesHeaders config call.topic = false := hspares (by rw [hheaders]; rfl)
            simp [hno]

/-- Where no call writes on an object of its caller, no message is encoded too late. -/
theorem encodesInTime_of_spares (h : ∀ input ∈ inputs, SparesHeaders config input) :
    Along recordCall (EncodesInTime config) [] inputs := by
  have hstep (calls : List RequestCall) (input : ChannelInput)
      (hcalls : ∀ call ∈ calls, SparesHeaders config (.requestData call))
      (hspares : SparesHeaders config input) :
      ∀ call ∈ recordCall calls input, SparesHeaders config (.requestData call) := by
    cases input with
    | encode i => exact hcalls
    | requestData call => exact List.forall_mem_append.mpr ⟨hcalls, List.forall_mem_singleton.mpr hspares⟩
  have hintime (calls : List RequestCall) (input : ChannelInput)
      (hcalls : ∀ call ∈ calls, SparesHeaders config (.requestData call)) (_ : SparesHeaders config input) :
      EncodesInTime config calls input := by
    cases input with
    | requestData call => trivial
    | encode i =>
        -- a message on an object of the caller is one of a call that has written on it
        intro call hcall ref href
        obtain ⟨hmem, hsends⟩ := List.mem_filter.mp (List.mem_of_getElem? hcall)
        have hno : reachesHeaders config call.topic = false := hcalls call hmem (by rw [href]; rfl)
        exact absurd (hno.symm.trans (reachesHeaders_of_sendsRequest hsends)) Bool.false_ne_true
  exact Along.of_invariant hstep hintime nofun (along_of_forall h)

theorem allIdentified_iff (hfresh : Along recordCall (FreshId objects) [] inputs) :
    AllIdentified config rpc objects inputs ↔ Along recordCall (EncodesInTime config) [] inputs := by
  have hstep (s : ManagedChannel) (calls : List RequestCall) (input : ChannelInput)
      (h : Reflects config objects s calls) (hfresh : FreshId objects calls input) :
      Reflects config objects (s.step config rpc input) (recordCall calls input) ∧
        ((∀ sent, s.encoded input = some sent → Identified sent.1 sent.2) ↔ EncodesInTime config calls input) :=
    ⟨h.step hfresh, h.encoded_iff input⟩
  exact Along.iff_of_related hstep reflects_start hfresh

theorem headersUnchanged_iff (hfresh : Along recordCall (FreshId objects) [] inputs) :
    HeadersUnchanged config rpc objects inputs ↔ ∀ input ∈ inputs, SparesHeaders config input := by
  have hstep (s : ManagedChannel) (calls : List RequestCall) (input : ChannelInput)
      (h : Reflects config objects s calls) (hfresh : FreshId objects calls input) :
      Reflects config objects (s.step config rpc input) (recordCall calls input) ∧
        ((s.step config rpc input).objects = s.objects ↔ SparesHeaders config input) :=
    ⟨h.step hfresh, h.unchanged_iff hfresh⟩
  exact (Along.iff_of_related hstep reflects_start hfresh).trans along_iff_forall

/-- **Requests are independent of each other** exactly when no call writes on an object of its caller.  Their
messages are, in every order of calls and encodings, exactly when each one is encoded before another call has
written on its headers. -/
theorem sharedHeaders_iff (config : RequesterConfig) (rpc : RequestConfig)
    (hfresh : Along recordCall (FreshId objects) [] inputs) :
    (HeadersUnchanged config rpc objects inputs ∧ AllIdentified config rpc objects inputs ↔
        ∀ input ∈ inputs, SparesHeaders config input) ∧
      (AllIdentified config rpc objects inputs ↔ Along recordCall (EncodesInTime config) [] inputs) := by
  refine ⟨?_, allIdentified_iff hfresh⟩
  rw [headersUnchanged_iff hfresh, allIdentified_iff hfresh]
  exact and_iff_left_of_imp encodesInTime_of_spares

end Run

/-! ## Two requests on one object -/

/-- Two calls on the object `0`, and the message of the first one, encoded after them. -/
def twoRequests : List ChannelInput :=
  [.requestData { topic := "t", headers := some 0, correlationId := "c", requestId := "r" },
    .requestData { topic := "t", headers := some 0, correlationId := "d", requestId := "s" },
    .encode 0]

theorem freshIds_twoRequests : Along recordCall (FreshId fun _ => []) [] twoRequests :=
  ⟨⟨nofun, nofun⟩, ⟨by simp [recordCall], nofun⟩, trivial, trivial⟩

theorem sharedHeaders_iff_twoRequests :
    (HeadersUnchanged requester { deserializer := fun _ => .ok .null } (fun _ => []) twoRequests ∧
        AllIdentified requester { deserializer := fun _ => .ok .null } (fun _ => []) twoRequests ↔
        ∀ input ∈ twoRequests, SparesHeaders requester input) ∧
      (AllIdentified requester { deserializer := fun _ => .ok .null } (fun _ => []) twoRequests ↔
        Along recordCall (EncodesInTime requester) [] twoRequests) :=
  sharedHeaders_iff requester { deserializer := fun _ => .ok .null } freshIds_twoRequests

/-- The first message goes out with the id of the second call. -/
theorem not_sharedHeaders : ¬ ∀ (config : RequesterConfig) (rpc : RequestConfig) (objects : Nat → Obj)
    (inputs : List ChannelInput), Along recordCall (FreshId objects) [] inputs →
    HeadersUnchanged config rpc objects inputs ∧ AllIdentified config rpc objects inputs := by
  intro h
  obtain ⟨-, -, -, hidentified, -⟩ := h requester { deserializer := fun _ => .ok .null }
    (fun _ => []) twoRequests
    freshIds_twoRequests
  have hcarries : Value.str "s" = .str "r" := (hidentified _ rfl).carries
  exact absurd (Value.str.inj hcarries) (by decide)

end NestAmqp.Broker
