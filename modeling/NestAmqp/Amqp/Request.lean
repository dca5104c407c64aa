/-
# NestAmqp.Amqp.Request — the `request` calls of a connection and its one reply stream.

Every call subscribes to `messageSubject`, starts its timer and publishes; every reply the connection
receives is shown to all of them.  What a call comes to depends on the replies its filter accepts, its own
timer and its own publish, in the order they come.  The machine has these events as inputs and the calls as
components, so that the proofs are about one call by itself.
-/
import NestAmqp.Amqp.Message
import NestAmqp.Lib.Components

namespace NestAmqp.Amqp

open NestAmqp.Js
open NestAmqp.Lib
open NestAmqp.Lib.Machine

/-! ## Requests and replies -/

/-- `RequestOptions`. -/
structure RequestOptions where
  exchange : String
  routingKey : String
  correlationId : Option String := none
  timeout : Option Int := none
  payload : Value := .undefined
  headers : Option Obj := none
  expiration : Option Int := none
  replyTo : Option String := none
  /-- `publishOptions.persistent`. -/
  persistent : Option Bool := none

/-- What the connection's configuration says about requests and replies. -/
structure RequestConfig where
  defaultRpcTimeout : Option Int := some 10000
  /-- `config.deserializer`. -/
  deserializer : Delivery → Except Thrown Value

/-- `amq.rabbitmq.reply-to`. -/
def DIRECT_REPLY_QUEUE : String := "amq.rabbitmq.reply-to"

/-- `requestOptions.correlationId || randomUUID()`. -/
def RequestOptions.idOr (options : RequestOptions) (uuid : String) : String :=
  if truthyText options.correlationId then options.correlationId.getD "" else uuid

/-- `requestOptions?.headers?.['X-Request-ID']`. -/
def RequestOptions.requestId (options : RequestOptions) : Value :=
  Obj.get (options.headers.getD []) "X-Request-ID"

/-- `requestOptions.timeout || this.config.defaultRpcTimeout`. -/
def RequestOptions.timeoutOr (options : RequestOptions) (config : RequestConfig) : Option Int :=
  match options.timeout with
  | some t => if t = 0 then config.defaultRpcTimeout else some t
  | none => config.defaultRpcTimeout

/-- `CorrelationMessage`. -/
structure CorrelationMessage where
  correlationId : String
  requestId : Option String
  message : Value

/-- The `X-Request-ID` of a reply: `headers?.['X-Request-ID']?.toString()`. -/
def replyRequestId (msg : Delivery) : Option String :=
  if (msg.header "X-Request-ID").nullish then none else some (msg.header "X-Request-ID").toStr

/-- The body of a reply: an empty one is not parsed. -/
def replyBody (config : RequestConfig) (msg : Delivery) : Except Thrown Value :=
  if msg.content.length > 0 then config.deserializer msg else .ok .undefined

/-- `processDirectReplyToMessage`, up to `messageSubject.next`: what it passes on, if anything. -/
def processDirectReplyToMessage (config : RequestConfig) (msg : Option Delivery) :
    Except Thrown (Option CorrelationMessage) :=
  match msg with
  | none => .ok none
  | some msg =>
      -- a reply without a correlation id belongs to no call
      match msg.properties.correlationId with
      | none => .ok none
      | some correlationId => (replyBody config msg).map fun message =>
          some { correlationId, requestId := replyRequestId msg, message }

/-! ## One call -/

/-- A call of `request`: what its closures read, what it publishes, and what it waits for. -/
structure RpcCall where
  correlationId : String
  requestId : Value
  timeout : Option Int
  publication : Publication
  /-- `race(response$, timeout$)`. -/
  race : Option (Except Thrown Value) := none
  published : Option (Except Thrown Unit) := none
  /-- `Promise.all` over the two, and the promise of the call with it. -/
  settled : Option (Except Thrown Value) := none

/-- `request`, up to its `await`. -/
def RpcCall.request (config : RequestConfig) (options : RequestOptions) (uuid : String) : RpcCall where
  correlationId := options.idOr uuid
  requestId := options.requestId
  timeout := options.timeoutOr config
  publication :=
    { exchange := options.exchange
      routingKey := options.routingKey
      -- `payload || {}`
      body := .json (options.payload.orElse (.obj []))
      properties :=
        { headers := options.headers
          replyTo := some (if truthyText options.replyTo then options.replyTo.getD ""
            else DIRECT_REPLY_QUEUE)
          correlationId := some (options.idOr uuid)
          expiration := options.expiration.map toString }
      persistent := options.persistent }

namespace RpcCall

/-- The `filter` of `response$`. -/
def accepts (call : RpcCall) (x : CorrelationMessage) : Bool :=
  if call.requestId.truthy then
    x.correlationId == call.correlationId && x.requestId.any call.requestId.isText
  else x.correlationId == call.correlationId

/-- `Promise.all`: it rejects with the first failure, and resolves when both parts have. -/
def settle (call : RpcCall) : RpcCall :=
  match call.settled, call.race, call.published with
  | none, some (.error e), _ => { call with settled := some (.error e) }
  | none, _, some (.error e) => { call with settled := some (.error e) }
  | none, some (.ok v), some (.ok _) => { call with settled := some (.ok v) }
  | _, _, _ => call

/-- The first of the two sides of the race wins. -/
def finishRace (call : RpcCall) (result : Except Thrown Value) : RpcCall :=
  match call.race with
  | none => { call with race := some result }.settle
  | some _ => call

/-- The publish is confirmed, or fails; once. -/
def finishPublish (call : RpcCall) (answer : Except Thrown Unit) : RpcCall :=
  match call.published with
  | none => { call with published := some answer }.settle
  | some _ => call

/-- `messageSubject.next(x)`, as the call sees it. -/
def next (call : RpcCall) (x : CorrelationMessage) : RpcCall :=
  if call.accepts x then call.finishRace (.ok x.message) else call

/-- `new RpcTimeoutError(timeout, exchange, routingKey)`. -/
def timeoutError (call : RpcCall) : Thrown :=
  .error
    { name := "RpcTimeoutError"
      message := "Failed to receive response within timeout of " ++
        template (call.timeout.map toString) ++ "ms for exchange \"" ++ call.publication.exchange ++
        "\" and routing key \"" ++ call.publication.routingKey ++ "\"" }

end RpcCall

/-! ## All calls -/

/-- What can happen to the calls of a connection. -/
inductive RpcInput where
  | request (options : RequestOptions) (uuid : String)
  | published (call : Nat) (answer : Except Thrown Unit)
  | timeout (call : Nat)
  | reply (msg : Option Delivery)

/-- What one call makes of it. -/
def RpcCall.react (config : RequestConfig) (i : Nat) (call : RpcCall) : RpcInput → RpcCall
  | .request .. => call
  | .published j answer => if j = i then call.finishPublish answer else call
  | .timeout j => if j = i then call.finishRace (.error call.timeoutError) else call
  | .reply msg =>
      match processDirectReplyToMessage config msg with
      | .ok (some x) => call.next x
      | _ => call

/-- The call an input begins. -/
def RpcInput.begins (config : RequestConfig) : RpcInput → Option RpcCall
  | .request options uuid => some (.request config options uuid)
  | _ => none

/-- The calls of a connection, one input later. -/
def rpcStep (config : RequestConfig) : List RpcCall → RpcInput → List RpcCall :=
  Components.step (RpcInput.begins config) (RpcCall.react config)

/-- What call `i` has come to. -/
def resultOf (calls : List RpcCall) (i : Nat) : Option (Except Thrown Value) :=
  calls[i]?.bind (·.settled)

/-! ## One call by itself -/

namespace RpcCall

variable {config : RequestConfig} {call call' : RpcCall} {i : Nat}

/-- The reply is the call's: it has the correlation id of the call, and its request id where the call has
set one that is not empty. -/
def Answers (call : RpcCall) (msg : Delivery) : Prop :=
  msg.properties.correlationId = some call.correlationId ∧
    ∀ rid, call.requestId = .str rid → rid ≠ "" → replyRequestId msg = some rid

/-- The call has no `X-Request-ID`, or one that is a text. -/
def TextHeader (call : RpcCall) : Prop := call.requestId = .undefined ∨ ∃ rid, call.requestId = .str rid

/-- The filter lets through what answers the call. -/
theorem accepts_of_answers {msg : Delivery} {id : String} {v : Value} (htext : call.TextHeader)
    (hid : msg.properties.correlationId = some id) (h : call.Answers msg) :
    call.accepts { correlationId := id, requestId := replyRequestId msg, message := v } = true := by
  obtain ⟨hcorrelation, hrequest⟩ := h
  obtain rfl : id = call.correlationId := Option.some.inj (hid.symm.trans hcorrelation)
  unfold accepts
  rcases htext with hnone | ⟨rid, hrid⟩
  · simp [hnone, Value.truthy]
  · by_cases hempty : rid = ""
    · simp [hrid, hempty, Value.truthy]
    · simp [hrid, hempty, Value.truthy, hrequest rid hrid hempty]

/-- And nothing else. -/
theorem answers_of_accepts {msg : Delivery} {id : String} {v : Value}
    (hid : msg.properties.correlationId = some id)
    (h : call.accepts { correlationId := id, requestId := replyRequestId msg, message := v } = true) :
    call.Answers msg := by
  unfold accepts at h
  split at h
  next =>
    obtain ⟨hcorrelation, hrequest⟩ := Bool.and_eq_true_iff.mp h
    refine ⟨hid.trans (congrArg some (eq_of_beq hcorrelation)), fun rid hrid _ => ?_⟩
    cases ht : replyRequestId msg with
    | none => simp [ht] at hrequest
    | some t =>
        rw [hrid, ht] at hrequest
        simpa using (Eq.symm (by simpa using hrequest) : t = rid)
  next huntruthy =>
    refine ⟨hid.trans (congrArg some (eq_of_beq h)), fun rid hrid hempty => ?_⟩
    simp [hrid, Value.truthy, hempty] at huntruthy

/-- **What an input is to a call**: nothing, a reply of its own, its timer, or its publish. -/
theorem react_cases (config : RequestConfig) (i : Nat) (call : RpcCall) (input : RpcInput) :
    call.react config i input = call ∨
    (∃ msg v, input = .reply (some msg) ∧ call.Answers msg ∧ replyBody config msg = .ok v ∧
      call.react config i input = call.finishRace (.ok v)) ∨
    (input = .timeout i ∧ call.react config i input = call.finishRace (.error call.timeoutError)) ∨
    ∃ answer, input = .published i answer ∧ call.react config i input = call.finishPublish answer := by
  cases input with
  | request options uuid => exact .inl rfl
  | published j answer =>
      by_cases hj : j = i
      · exact .inr (.inr (.inr ⟨answer, by rw [hj], if_pos hj⟩))
      · exact .inl (if_neg hj)
  | timeout j =>
      by_cases hj : j = i
      · exact .inr (.inr (.inl ⟨by rw [hj], if_pos hj⟩))
      · exact .inl (if_neg hj)
  | reply msg =>
      cases msg with
      | none => exact .inl rfl
      | some msg =>
      cases hid : msg.properties.correlationId with
      | none =>
          left
          simp only [react, processDirectReplyToMessage, hid]
      | some id =>
      cases hbody : replyBody config msg with
      | error e =>
          left
          simp only [react, processDirectReplyToMessage, hid, hbody, Except.map]
      | ok v =>
      have hreact : call.react config i (.reply (some msg)) = call.next
          { correlationId := id, requestId := replyRequestId msg, message := v } := by
        simp only [react, processDirectReplyToMessage, hid, hbody, Except.map]
      unfold next at hreact
      split at hreact
      next haccepts => exact .inr (.inl ⟨msg, v, rfl, answers_of_accepts hid haccepts, hbody, hreact⟩)
      next => exact .inl hreact

/-- A reply of its own ends the call's race. -/
theorem react_reply {msg : Delivery} {v : Value} (htext : call.TextHeader) (h : call.Answers msg)
    (hbody : replyBody config msg = .ok v) :
    call.react config i (.reply (some msg)) = call.finishRace (.ok v) := by
  have haccepts := accepts_of_answers (v := v) htext h.1 h
  simp only [react, processDirectReplyToMessage, h.1, hbody, Except.map, next, haccepts, if_true]

/-! ### What stays -/

/-- The later state of a call: the request is the same, and what has been decided stays decided. -/
structure Continues (call call' : RpcCall) : Prop where
  correlationId : call'.correlationId = call.correlationId
  requestId : call'.requestId = call.requestId
  race : ∀ r, call.race = some r → call'.race = some r
  published : ∀ r, call.published = some r → call'.published = some r
  settled : ∀ r, call.settled = some r → call'.settled = some r

theorem Continues.refl (call : RpcCall) : Continues call call :=
  ⟨rfl, rfl, fun _ h => h, fun _ h => h, fun _ h => h⟩

theorem Continues.trans {call'' : RpcCall} (h : Continues call call') (h' : Continues call' call'') :
    Continues call call'' where
  correlationId := h'.correlationId.trans h.correlationId
  requestId := h'.requestId.trans h.requestId
  race r hr := h'.race r (h.race r hr)
  published r hr := h'.published r (h.published r hr)
  settled r hr := h'.settled r (h.settled r hr)

theorem continues_settle (call : RpcCall) : Continues call call.settle := by
  have hnew (r : Except Thrown Value) (hnone : call.settled = none) :
      Continues call { call with settled := some r } :=
    ⟨rfl, rfl, fun _ h => h, fun _ h => h, fun _ h => by simp [hnone] at h⟩
  unfold settle
  split
  · exact hnew _ ‹_›
  · exact hnew _ ‹_›
  · exact hnew _ ‹_›
  · exact .refl call

theorem continues_finishRace (call : RpcCall) (result : Except Thrown Value) :
    Continues call (call.finishRace result) := by
  unfold finishRace
  split
  next hnone =>
    refine Continues.trans ?_ (continues_settle _)
    exact ⟨rfl, rfl, fun _ h => by simp [hnone] at h, fun _ h => h, fun _ h => h⟩
  next => exact .refl call

theorem continues_finishPublish (call : RpcCall) (answer : Except Thrown Unit) :
    Continues call (call.finishPublish answer) := by
  unfold finishPublish
  split
  next hnone =>
    refine Continues.trans ?_ (continues_settle _)
    exact ⟨rfl, rfl, fun _ h => h, fun _ h => by simp [hnone] at h, fun _ h => h⟩
  next => exact .refl call

theorem continues_react (config : RequestConfig) (i : Nat) (call : RpcCall) (input : RpcInput) :
    Continues call (call.react config i input) := by
  rcases react_cases config i call input with h | ⟨_, v, -, -, -, h⟩ | ⟨-, h⟩ | ⟨answer, -, h⟩
  · rw [h]
    exact .refl call
  · rw [h]
    exact continues_finishRace call (.ok v)
  · rw [h]
    exact continues_finishRace call _
  · rw [h]
    exact continues_finishPublish call answer

theorem continues_run (config : RequestConfig) (i : Nat) (call : RpcCall) (inputs : List RpcInput) :
    Continues call (run (react config i) call inputs) :=
  run_invariant (I := Continues call)
    (fun call' input h => h.trans (continues_react config i call' input)) (.refl call) inputs

theorem Continues.answers_congr (h : Continues call call') (msg : Delivery) :
    call'.Answers msg ↔ call.Answers msg := by
  unfold Answers
  rw [h.correlationId, h.requestId]

theorem Continues.textHeader (h : Continues call call') (htext : call.TextHeader) :
    call'.TextHeader := by
  unfold TextHeader
  rw [h.requestId]
  exact htext

/-! ### What a promise says about its parts -/

/-- A pending call waits for one of the two parts, a resolved one has the value of its race, and a
rejected one the error of either part. -/
def Consistent (call : RpcCall) : Prop :=
  match call.settled with
  | none => (∀ e, call.race ≠ some (.error e)) ∧ (∀ e, call.published ≠ some (.error e)) ∧
      (call.race = none ∨ call.published = none)
  | some (.ok v) => call.race = some (.ok v)
  | some (.error e) => call.race = some (.error e) ∨ call.published = some (.error e)

theorem settle_of_settled {r : Except Thrown Value} (h : call.settled = some r) :
    call.settle = call := by
  simp [settle, h]

/-- Settling makes a pending call consistent, and leaves a settled one as it is. -/
theorem consistent_settle (h : ∀ r, call.settled = some r → call.Consistent) :
    call.settle.Consistent := by
  cases hsettled : call.settled with
  | some r =>
      rw [settle_of_settled hsettled]
      exact h r hsettled
  | none =>
      unfold settle
      rw [hsettled]
      cases hrace : call.race with
      | none =>
          cases hpublished : call.published with
          | none => simp [Consistent, hsettled, hrace, hpublished]
          | some answer =>
              cases answer with
              | ok u => simp [Consistent, hsettled, hrace, hpublished]
              | error e => simp [Consistent]
      | some result =>
          cases result with
          | error e => simp [Consistent]
          | ok v =>
              cases hpublished : call.published with
              | none => simp [Consistent, hsettled, hrace, hpublished]
              | some answer =>
                  cases answer with
                  | ok u => simp [Consistent]
                  | error e => simp [Consistent]

theorem Consistent.finishRace (h : call.Consistent) (result : Except Thrown Value) :
    (call.finishRace result).Consistent := by
  unfold RpcCall.finishRace
  split
  next hrace =>
    refine consistent_settle fun r hr => ?_
    have hsettled : call.settled = some r := hr
    unfold Consistent at h ⊢
    cases r with
    | ok v => simp [hsettled, hrace] at h
    | error e =>
        -- the race is open, so it is the publish that has failed
        have hfailed : call.published = some (.error e) := by simpa [hsettled, hrace] using h
        simp [hsettled, hfailed]
  next => exact h

theorem Consistent.finishPublish (h : call.Consistent) (answer : Except Thrown Unit) :
    (call.finishPublish answer).Consistent := by
  unfold RpcCall.finishPublish
  split
  next hpublished =>
    refine consistent_settle fun r hr => ?_
    have hsettled : call.settled = some r := hr
    unfold Consistent at h ⊢
    cases r with
    | ok v => simpa [hsettled] using h
    | error e =>
        have hfailed : call.race = some (.error e) := by simpa [hsettled, hpublished] using h
        simp [hsettled, hfailed]
  next => exact h

theorem Consistent.react (h : call.Consistent) (input : RpcInput) :
    (call.react config i input).Consistent := by
  rcases react_cases config i call input with hsame | ⟨_, v, -, -, -, hrace⟩ | ⟨-, hrace⟩ | ⟨answer, -, hpub⟩
  · rwa [hsame]
  · rw [hrace]
    exact h.finishRace _
  · rw [hrace]
    exact h.finishRace _
  · rw [hpub]
    exact h.finishPublish _

theorem Consistent.run (h : call.Consistent) (inputs : List RpcInput) :
    (run (RpcCall.react config i) call inputs).Consistent :=
  run_invariant (I := Consistent) (fun _ input h => h.react input) h inputs

/-- Both parts have succeeded. -/
theorem Consistent.resolved (h : call.Consistent) {v : Value} (hrace : call.race = some (.ok v))
    (hpublished : call.published = some (.ok ())) : call.settled = some (.ok v) := by
  unfold Consistent at h
  cases hsettled : call.settled with
  | none => simp [hsettled, hrace, hpublished] at h
  | some r =>
      cases r with
      | ok v' =>
          have hsame : call.race = some (.ok v') := by simpa [hsettled] using h
          rw [hrace] at hsame
          exact hsame.symm
      | error e => simp [hsettled, hrace, hpublished] at h

theorem Consistent.race_of_resolved (h : call.Consistent) {v : Value}
    (hsettled : call.settled = some (.ok v)) : call.race = some (.ok v) := by
  simpa [Consistent, hsettled] using h

/-! ### Whole histories of a call -/

theorem race_settle (call : RpcCall) : call.settle.race = call.race := by
  unfold settle
  split <;> rfl

theorem published_settle (call : RpcCall) : call.settle.published = call.published := by
  unfold settle
  split <;> rfl

theorem race_finishPublish (call : RpcCall) (answer : Except Thrown Unit) :
    (call.finishPublish answer).race = call.race := by
  unfold finishPublish
  split
  · exact race_settle _
  · rfl

theorem race_finishRace (h : call.race = none) (result : Except Thrown Value) :
    (call.finishRace result).race = some result := by
  unfold finishRace
  rw [h]
  exact race_settle _

theorem published_finishRace (call : RpcCall) (result : Except Thrown Value) :
    (call.finishRace result).published = call.published := by
  unfold finishRace
  split
  · exact published_settle _
  · rfl

theorem published_finishPublish (h : call.published = none) (answer : Except Thrown Unit) :
    (call.finishPublish answer).published = some answer := by
  unfold finishPublish
  rw [h]
  exact published_settle _

/-- **A value comes from a reply of the call.** -/
theorem race_run {v : Value} {inputs : List RpcInput} (hnone : call.race = none)
    (h : (run (react config i) call inputs).race = some (.ok v)) :
    ∃ msg, .reply (some msg) ∈ inputs ∧ call.Answers msg ∧ replyBody config msg = .ok v := by
  induction inputs generalizing call with
  | nil =>
      rw [run_nil, hnone] at h
      cases h
  | cons input inputs ih =>
      have hlater (hnone' : (call.react config i input).race = none) :
          ∃ msg, .reply (some msg) ∈ input :: inputs ∧ call.Answers msg ∧ replyBody config msg = .ok v := by
        obtain ⟨msg, hmem, hanswers, hbody⟩ := ih hnone' h
        exact ⟨msg, .tail _ hmem, ((continues_react config i call input).answers_congr msg).mp hanswers, hbody⟩
      have hdecided (r : Except Thrown Value) (hr : (call.react config i input).race = some r) :
          r = .ok v :=
        Option.some.inj (((continues_run config i _ inputs).race r hr).symm.trans h)
      rcases react_cases config i call input with hsame | ⟨msg, v', rfl, hanswers, hbody, hrace⟩ |
        ⟨-, hrace⟩ | ⟨answer, -, hpub⟩
      · exact hlater (by rwa [hsame])
      · obtain rfl := Except.ok.inj (hdecided (.ok v') (hrace ▸ race_finishRace hnone _))
        exact ⟨msg, .head _, hanswers, hbody⟩
      · have htimeout := hdecided (.error call.timeoutError) (by rw [hrace, race_finishRace hnone])
        cases htimeout
      · exact hlater (hpub ▸ (race_finishPublish call answer).trans hnone)

/-- Until a reply of its own or its timer, a call waits. -/
theorem race_quiet {inputs : List RpcInput} (hnone : call.race = none)
    (hreply : ∀ msg, .reply (some msg) ∈ inputs → call.Answers msg → ∀ v, replyBody config msg ≠ .ok v)
    (htimeout : .timeout i ∉ inputs) : (run (react config i) call inputs).race = none := by
  induction inputs generalizing call with
  | nil => exact hnone
  | cons input inputs ih =>
      have hcontinues := continues_react config i call input
      refine ih ?_ (fun msg hmem hanswers => ?_) (fun hmem => htimeout (.tail _ hmem))
      · rcases react_cases config i call input with hsame | ⟨msg, v', rfl, hanswers, hbody, -⟩ |
          ⟨rfl, -⟩ | ⟨answer, -, hpub⟩
        · rwa [hsame]
        · exact absurd hbody (hreply msg (.head _) hanswers v')
        · exact absurd (.head _) htimeout
        · rw [hpub, race_finishPublish]
          exact hnone
      · exact hreply msg (.tail _ hmem) ((hcontinues.answers_congr msg).mp hanswers)

/-- A publish that is confirmed, and does not fail, has succeeded. -/
theorem published_run {inputs : List RpcInput} (hok : .published i (.ok ()) ∈ inputs)
    (herror : ∀ e, .published i (.error e) ∉ inputs) (hnone : call.published = none) :
    (run (react config i) call inputs).published = some (.ok ()) := by
  induction inputs generalizing call with
  | nil => cases hok
  | cons input inputs ih =>
      have hlater (hnone' : (call.react config i input).published = none)
          (hother : input ≠ .published i (.ok ())) :
          (run (react config i) (call.react config i input) inputs).published = some (.ok ()) :=
        ih ((List.mem_cons.mp hok).resolve_left fun h => hother h.symm)
          (fun e hmem => herror e (.tail _ hmem)) hnone'
      rcases react_cases config i call input with hsame | ⟨msg, v', rfl, -, -, hrace⟩ |
        ⟨rfl, hrace⟩ | ⟨answer, rfl, hpub⟩
      · by_cases hother : input = .published i (.ok ())
        · subst hother
          have hreact : call.react config i (.published i (.ok ())) = call.finishPublish (.ok ()) := if_pos rfl
          apply (continues_run config i _ inputs).published
          rw [hreact]
          exact published_finishPublish hnone _
        · exact hlater (by rwa [hsame]) hother
      · exact hlater (hrace ▸ (published_finishRace call _).trans hnone) (fun h => by cases h)
      · exact hlater (hrace ▸ (published_finishRace call _).trans hnone) (fun h => by cases h)
      · cases answer with
        | error e => exact absurd (.head _) (herror e)
        | ok u =>
            apply (continues_run config i _ inputs).published
            rw [hpub]
            exact published_finishPublish hnone _

end RpcCall

end NestAmqp.Amqp
