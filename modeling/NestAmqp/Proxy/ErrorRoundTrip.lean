/-
# NestAmqp.Proxy.ErrorRoundTrip — an error on its way from a handler to an HTTP client.

A handler's `Error` becomes an object, travels as JSON in the reply, is thrown again by `requestData`, and
ends in the gateway's error envelope.  The two halves meet at the object: it carries the error, and whatever
carries an error is answered as that error.  Both read plain objects by names that come from the error, and
that is where they fail.
-/
import NestAmqp.Broker.ExecuteFunction
import NestAmqp.Proxy.Responses

namespace NestAmqp.Proxy.ErrorRoundTrip

open NestAmqp.Js
open NestAmqp.Lib
open NestAmqp.Broker
open HttpHandler
open Responses

/-! ## The error -/

/-- An `Error` as handlers throw it: a name, a message, a stack that is not enumerable, and own fields that JSON
carries.  A name or a message of its own is among the fields, and is the one that is read. -/
structure HandlerError (e : ErrorObject) : Prop where
  named : e.name ≠ ""
  ownName : ∀ v, Obj.own e.fields "name" = some v → v = .str e.name
  ownMessage : ∀ v, Obj.own e.fields "message" = some v → v = .str e.message
  hiddenStack : Obj.own e.fields "stack" = none
  serialisable : ∀ entry ∈ e.fields, Serialisable entry.2

/-- Name, message and own fields of the error. -/
def parts (e : ErrorObject) (k : String) : Option Value :=
  (Obj.own e.fields k).or
    (if k = "name" then some (.str e.name) else if k = "message" then some (.str e.message) else none)

/-- The object has the name, the message and the own fields of the error; of its own it may have a stack. -/
def Carries (fields : Obj) (e : ErrorObject) : Prop := ∀ k, k ≠ "stack" → Obj.own fields k = parts e k

section Error

variable {e : ErrorObject}

theorem parts_name (h : HandlerError e) : parts e "name" = some (.str e.name) := by
  unfold parts
  cases hown : Obj.own e.fields "name" with
  | none => rfl
  | some v => rw [h.ownName v hown]; rfl

theorem parts_message (h : HandlerError e) : parts e "message" = some (.str e.message) := by
  unfold parts
  cases hown : Obj.own e.fields "message" with
  | none => rfl
  | some v => rw [h.ownMessage v hown]; rfl

theorem parts_of_ne {k : String} (hname : k ≠ "name") (hmessage : k ≠ "message") :
    parts e k = Obj.own e.fields k := by
  unfold parts
  rw [if_neg hname, if_neg hmessage, Option.or_none]

end Error

/-! ## The service -/

section Service

variable {e : ErrorObject} {t : Thrown} {devEnv : Bool}

/-- What `error2Object` writes before it copies the fields. -/
def described (e : ErrorObject) (devEnv : Bool) : Obj :=
  let retErr : Obj := [("message", .str e.message), ("name", .str e.name)]
  if devEnv then Obj.set retErr "stack" (.str e.stack) else retErr

/-- The object of an error. -/
def errorFields (e : ErrorObject) (devEnv : Bool) : Obj :=
  Obj.assign (described e devEnv) (Obj.delete e.fields "__proto__")

theorem prop_of_parts (ht : t = .error e ∨ t = .deserialization e) {k : String} {v : Value}
    (hk : parts e k = some v) :
    t.prop k = v := by
  unfold parts at hk
  have hprop : t.prop k = (Obj.own e.fields k).getD
      (if k = "name" then .str e.name else if k = "message" then .str e.message
        else if k = "stack" then .str e.stack else .undefined) := by
    rcases ht with rfl | rfl <;> rfl
  rw [hprop]
  cases hown : Obj.own e.fields k with
  | some w =>
      rw [hown] at hk
      exact Option.some.inj hk
  | none =>
      rw [hown, Option.none_or] at hk
      split at hk
      next hname =>
        rw [if_pos hname]
        exact Option.some.inj hk
      next hname =>
        split at hk
        next hmessage =>
          rw [if_neg hname, if_pos hmessage]
          exact Option.some.inj hk
        next => cases hk

theorem prop_stack (h : HandlerError e) (ht : t = .error e ∨ t = .deserialization e) :
    t.prop "stack" = .str e.stack := by
  rcases ht with rfl | rfl <;> (unfold Thrown.prop; dsimp only; rw [h.hiddenStack]; rfl)

theorem error2Object_eq (h : HandlerError e) (ht : t = .error e ∨ t = .deserialization e) :
    error2Object t devEnv = .ok (.obj (errorFields e devEnv)) := by
  have hown : t.ownEntries = e.fields := by rcases ht with rfl | rfl <;> rfl
  have hnullish : t.nullish = false := by rcases ht with rfl | rfl <;> rfl
  unfold error2Object
  rw [if_neg (by simp [hnullish]), prop_of_parts ht (parts_message h), prop_of_parts ht (parts_name h),
    prop_stack h ht, hown]
  rfl

theorem own_described {k : String} (hk : k ≠ "stack") : Obj.own (described e devEnv) k =
    if k = "name" then some (.str e.name) else if k = "message" then some (.str e.message) else none := by
  have hbase : Obj.own [("message", Value.str e.message), ("name", .str e.name)] k =
      if k = "name" then some (.str e.name) else if k = "message" then some (.str e.message) else none := by
    rw [Obj.own_cons, Obj.own_cons, Obj.own_nil, Option.none_or]
    split <;> rfl
  unfold described
  dsimp only
  split
  · rw [Obj.own_set, if_neg hk, hbase]
  · exact hbase

/-- The properties of the object, other than a stack: the error's, but for `__proto__`. -/
theorem own_errorFields {k : String} (hk : k ≠ "stack") :
    Obj.own (errorFields e devEnv) k = if k = "__proto__" then none else parts e k := by
  unfold errorFields parts
  rw [Obj.own_assign, Obj.own_delete, own_described hk]
  split
  next hproto =>
    subst hproto
    rfl
  next => rfl

theorem own_stack_errorFields (h : HandlerError e) : Obj.own (errorFields e false) "stack" = none := by
  unfold errorFields
  rw [Obj.own_assign, Obj.own_delete, h.hiddenStack]
  rfl

/-- **The service half.**  The object carries the error if and only if no own field is called `__proto__`. -/
theorem carries_errorFields_iff : Carries (errorFields e devEnv) e ↔ Obj.own e.fields "__proto__" = none := by
  constructor
  · intro h
    have hproto := h "__proto__" (by decide)
    rw [own_errorFields (by decide), if_pos rfl, parts_of_ne (by decide) (by decide)] at hproto
    exact hproto.symm
  · intro h k hk
    rw [own_errorFields hk]
    split
    next hproto => rw [hproto, parts_of_ne (by decide) (by decide), h]
    next => rfl

/-- JSON carries the object. -/
theorem serialisable_errorFields (h : HandlerError e) : Serialisable (.obj (errorFields e devEnv)) := by
  refine serialisable_obj (Obj.forall_mem_assign ?_ ?_)
  · have hbase : ∀ entry ∈ ([("message", .str e.message), ("name", .str e.name)] : Obj),
      Serialisable entry.2 := by
      intro entry hentry
      simp only [List.mem_cons, List.not_mem_nil, or_false] at hentry
      rcases hentry with rfl | rfl
      · exact serialisable_str _
      · exact serialisable_str _
    unfold described
    dsimp only
    split
    · have hstack : ∀ entry ∈ ([("stack", .str e.stack)] : Obj), Serialisable entry.2 :=
        List.forall_mem_singleton.mpr (serialisable_str e.stack)
      exact Obj.forall_mem_assign hbase hstack
    · exact hbase
  · exact fun entry hentry => h.serialisable entry (List.mem_filter.mp hentry).1

/-- **What the gateway's `requestData` rejects with.** -/
theorem requestOutcome_failure (h : HandlerError e) :
    requestOutcome (failureResult (.obj (errorFields e devEnv))) =
      .error (.value (.obj (errorFields e devEnv))) := by
  have hcopy : Serialisable (failureResult (.obj (errorFields e devEnv))) := by
    refine serialisable_obj (List.forall_mem_cons.mpr ⟨serialisable_bool false, ?_⟩)
    exact List.forall_mem_singleton.mpr (serialisable_errorFields h)
  unfold requestOutcome
  rw [show jsonCopy _ = _ from hcopy]
  have hmessage : Thrown.prop (.value (.obj (errorFields e devEnv))) "message" = .str e.message := by
    show Obj.get (errorFields e devEnv) "message" = _
    unfold Obj.get
    rw [own_errorFields (by decide), if_neg (by decide), parts_message h]
    rfl
  show Except.error (loggedError (.value (.obj (errorFields e devEnv)))) = _
  unfold loggedError
  rw [if_neg (by simp [Thrown.nullish, Value.nullish]), hmessage]
  rfl

end Service

/-! ## The gateway -/

/-- The error envelope of an error, answered under its status.  Between two environments that are `production`
there is no stack in it, nor in what it was made from. -/
structure EnvelopeOf (e : ErrorObject) (serviceDev gatewayDev : Bool) (fields : Obj) (status : Nat)
    (body : Obj) :
    Prop where
  answer : status = (errorStatus.lookup e.name).getD 500
  statusCode : Obj.own body "statusCode" = some (.num status)
  code : Obj.own body "code" = some (.str e.name)
  message : Obj.own body "message" = some (.str e.message)
  details : ∀ v, Obj.own e.fields "details" = some v → Obj.own body "details" = some v
  others : ∀ k v, Obj.own body k = some v → k ∈ ["statusCode", "code", "message", "details"]
  noStack : serviceDev = false → gatewayDev = false → Obj.own fields "stack" = none ∧
    ∀ v, Obj.own body "details" = some v → Obj.own e.fields "details" = some v

section Gateway

variable {e : ErrorObject} {fields : Obj} {gatewayDev : Bool}

/-- What stands under `details`: the error's own, or else a stack for debugging. -/
def envelopeDetails (gatewayDev : Bool) (fields : Obj) : Option Value :=
  match Obj.get fields "details" with
  | .undefined =>
      if gatewayDev && (Obj.get fields "stack").truthy then some (Obj.get fields "stack") else none
  | d => some d

/-- The body around these details. -/
def envelopeBody (e : ErrorObject) (details : Option Value) : Obj :=
  let body : Obj := [("statusCode", .num ((errorStatus.lookup e.name).getD 500 : Nat)), ("code", .str e.name),
    ("message", .str e.message)]
  details.elim body (Obj.set body "details")

/-- The code of an object is its name. -/
theorem plainName_of_name {fields : Obj} {name : String} (hname : Obj.get fields "name" = .str name)
    (hnamed : name ≠ "") : plainName (.value (.obj fields)) = .ok name := by
  have htruthy : (Value.str name).truthy = true := bne_iff_ne.mpr hnamed
  unfold plainName
  simp only [Thrown.prop, hname, htruthy, Thrown.isObject, Bool.and_self, if_true]
  rfl

theorem Carries.get_name (h : HandlerError e) (hcarries : Carries fields e) :
    Obj.get fields "name" = .str e.name := by
  unfold Obj.get
  rw [hcarries "name" (by decide), parts_name h]
  rfl

theorem Carries.get_message (h : HandlerError e) (hcarries : Carries fields e) :
    Obj.get fields "message" = .str e.message := by
  unfold Obj.get
  rw [hcarries "message" (by decide), parts_message h]
  rfl

/-- An object that carries an error can be logged. -/
theorem Carries.logs (h : HandlerError e) (hcarries : Carries fields e) : Logs (.value (.obj fields)) := by
  refine ⟨rfl, ?_, ?_⟩
  · rw [show (Thrown.value (.obj fields)).prop "name" = .str e.name from hcarries.get_name h]
    rfl
  · rw [Thrown.reads, show (Thrown.value (.obj fields)).prop "message" = .str e.message from hcarries.get_message h]
    rfl

/-- **The gateway half.**  An object that carries an error is answered as the error. -/
theorem errorEnvelope_of_carries (h : HandlerError e) (hcarries : Carries fields e) :
    errorEnvelope gatewayDev (.value (.obj fields)) none =
      .ok ((errorStatus.lookup e.name).getD 500, e.name,
      .obj (envelopeBody e (envelopeDetails gatewayDev fields))) := by
  have hmessage : Obj.get fields "message" = .str e.message := hcarries.get_message h
  have htext : (Value.str e.message).coalesce (.str "Internal server error") = .str e.message := rfl
  unfold errorEnvelope envelopeBody envelopeDetails
  rw [plainName_of_name (hcarries.get_name h) h.named]
  simp only [bind, Except.bind, Thrown.prop, hmessage, htext, Option.none_or]
  cases Obj.get fields "details" with
  | undefined =>
      dsimp only
      by_cases hstack : (gatewayDev && (Obj.get fields "stack").truthy) = true
      · have hpresent := (Bool.and_eq_true_iff.mp hstack).2
        simp only [hstack, if_true]
        cases hvalue : Obj.get fields "stack" with
        | undefined =>
            rw [hvalue] at hpresent
            cases hpresent
        | _ => rfl
      · simp only [hstack, Bool.false_eq_true, if_false]
        rfl
  | _ => rfl

theorem own_envelopeBody (details : Option Value) (k : String) : Obj.own (envelopeBody e details) k =
    if k = "details" then details else if k = "message" then some (.str e.message)
    else if k = "code" then some (.str e.name)
    else if k = "statusCode" then some (.num ((errorStatus.lookup e.name).getD 500 : Nat)) else none := by
  have hbase : Obj.own [("statusCode", .num ((errorStatus.lookup e.name).getD 500 : Nat)),
    ("code", .str e.name),
      ("message", .str e.message)] k = if k = "message" then some (.str e.message)
      else if k = "code" then some (.str e.name)
      else if k = "statusCode" then some (.num ((errorStatus.lookup e.name).getD 500 : Nat)) else none := by
    rw [Obj.own_cons, Obj.own_cons, Obj.own_cons, Obj.own_nil, Option.none_or]
    split <;> split <;> rfl
  unfold envelopeBody
  dsimp only
  cases details with
  | none =>
      rw [Option.elim_none, hbase]
      by_cases hk : k = "details"
      · subst hk
        rfl
      · rw [if_neg hk]
  | some d =>
      rw [Option.elim_some, Obj.own_set, hbase]

/-- The details of an object that carries an error. -/
theorem envelopeDetails_eq (h : HandlerError e) (hcarries : Carries fields e) :
    envelopeDetails gatewayDev fields = (Obj.own e.fields "details").or
      (if gatewayDev && (Obj.get fields "stack").truthy then some (Obj.get fields "stack") else none) := by
  have hdetails : Obj.get fields "details" = (Obj.own e.fields "details").getD .undefined := by
    unfold Obj.get
    rw [hcarries "details" (by decide), parts_of_ne (by decide) (by decide)]
  unfold envelopeDetails
  rw [hdetails]
  cases hown : Obj.own e.fields "details" with
  | none => rfl
  | some v =>
      have hserialisable := h.serialisable _ (Obj.mem_of_own hown)
      cases v with
      | undefined => cases hserialisable
      | _ => rfl

/-- **The envelope** of an object that carries an error. -/
theorem envelopeOf_carries (h : HandlerError e) {serviceDev : Bool} (hcarries : Carries fields e)
    (hstack : serviceDev = false → Obj.own fields "stack" = none) :
    EnvelopeOf e serviceDev gatewayDev fields ((errorStatus.lookup e.name).getD 500)
      (envelopeBody e (envelopeDetails gatewayDev fields)) where
  answer := rfl
  statusCode := by rw [own_envelopeBody]; rfl
  code := by rw [own_envelopeBody]; rfl
  message := by rw [own_envelopeBody]; rfl
  details v hv := by
    rw [own_envelopeBody, if_pos rfl, envelopeDetails_eq h hcarries, hv, Option.some_or]
  others k v hk := by
    rw [own_envelopeBody] at hk
    split at hk
    next hkey => simp [hkey]
    next =>
      split at hk
      next hkey => simp [hkey]
      next =>
        split at hk
        next hkey => simp [hkey]
        next =>
          split at hk
          next hkey => simp [hkey]
          next => cases hk
  noStack hservice hgateway := by
    refine ⟨hstack hservice, fun v hv => ?_⟩
    rw [own_envelopeBody, if_pos rfl, envelopeDetails_eq h hcarries, hgateway, Bool.false_and,
      if_neg Bool.false_ne_true, Option.or_none] at hv
    exact hv

end Gateway

/-! ## The whole way -/

section Dispatch

variable {env : GatewayEnv} {path : PathDefinition} {data headers : Obj} {log : List GatewayEvent} {error : Thrown}

/-- A rejected request whose rejection can be answered and logged is answered with its envelope. -/
theorem dispatch_rejected (hres : ExpressResponse env) (hlog : Unanswered log) (hmode : path.mode = .rpc)
    (hrequest : env.requestData log = .error error) (hlogs : Logs error) {envelope : Nat × String × Value}
    (henvelope : HasEnvelope env error none envelope) : dispatch env path data headers log = (.ok (), log ++
      [.requested path.topic path.action data headers path.timeout (.error error), envelopeSent envelope]) := by
  have hrun : Traced.perform env.requestData (.requested path.topic path.action data headers path.timeout) log =
      (.error error, log ++ [.requested path.topic path.action data headers path.timeout (.error error)]) := by
    simp [Traced.perform, hrequest]
  rw [dispatch_of_rpc hmode, guarded_of_hasEnvelope hres (Traced.bind_of_error hrun)
    (.concat hlog.unsent rfl rfl) hlogs henvelope, List.append_assoc]
  rfl

/-- Without an envelope it is answered with what is thrown instead. -/
theorem dispatch_refused (hres : ExpressResponse env) (hlog : Unanswered log) (hmode : path.mode = .rpc)
    (hrequest : env.requestData log = .error error) (henvelope : ¬ ∃ envelope, HasEnvelope env error none envelope) :
    ∃ message envelope, HasEnvelope env (.typeError message) none envelope ∧
      dispatch env path data headers log = (.ok (), log ++
        [.requested path.topic path.action data headers path.timeout (.error error), envelopeSent envelope]) := by
  rw [dispatch_of_rpc hmode]
  have hrun : Traced.perform env.requestData (.requested path.topic path.action data headers path.timeout) log =
      (.error error, log ++ [.requested path.topic path.action data headers path.timeout (.error error)]) := by
    simp [Traced.perform, hrequest]
  obtain ⟨message, envelope, hmade, hguarded⟩ := guarded_of_not_hasEnvelope hres (Traced.bind_of_error hrun)
    (.concat hlog.unsent rfl rfl) henvelope
  refine ⟨message, envelope, hmade, hguarded.trans ?_⟩
  rw [List.append_assoc]
  rfl

theorem hasEnvelope_iff {fields : Obj} {name : String} (hname : Obj.get fields "name" = .str name)
    (hnamed : name ≠ "") :
    (∃ envelope, HasEnvelope env (.value (.obj fields)) none envelope) ↔ name ∉ objectPrototype := by
  have hplain := plainName_of_name hname hnamed
  rw [← List.contains_iff_mem, Bool.not_eq_true]
  constructor
  · rintro ⟨envelope, henvelope⟩
    rw [← henvelope.code hplain]
    exact (Bool.true_and _).symm.trans henvelope.2
  · exact fun h => hasEnvelope_of_code hplain h none

end Dispatch

/-- The handler's error arrives: `requestData` rejects with it, and the client is answered as it. -/
def RoundTrip (env : GatewayEnv) (path : PathDefinition) (data headers : Obj) (log : List GatewayEvent)
    (serviceDev : Bool) (e : ErrorObject) : Prop :=
  ∃ fields status body,
    env.requestData log = .error (.value (.obj fields)) ∧ Carries fields e ∧
    dispatch env path data headers log = (.ok (), log ++
      [.requested path.topic path.action data headers path.timeout (.error (.value (.obj fields))),
        .responded status (some e.name) (.obj body) (.ok ())]) ∧
    EnvelopeOf e serviceDev env.devEnv fields status body

section RoundTrip

variable {consumer : ActionConsumer} {events : List Amqp.Event} {message : Value} {msg : Amqp.Delivery}
  {response : Value} {t : Thrown} {e : ErrorObject}
  {env : GatewayEnv} {path : PathDefinition} {data headers : Obj} {log : List GatewayEvent}

/-- The response of a handler that fails with an error. -/
theorem response_of_failure (h : HandlerError e) (ht : t = .error e ∨ t = .deserialization e)
    (hthrown : methodRun consumer events message msg = some (.error t))
    (hresponse : Broker.dispatch consumer events message msg = .ok (.value response)) :
    response = failureResult (.obj (errorFields e consumer.devEnv)) := by
  rw [dispatch_of_failure consumer hthrown, error2Object_eq h ht] at hresponse
  exact (Amqp.Response.value.inj (Except.ok.inj hresponse)).symm

/-- What the gateway's request rejects with. -/
theorem requestData_failure (h : HandlerError e) (ht : t = .error e ∨ t = .deserialization e)
    (hthrown : methodRun consumer events message msg = some (.error t))
    (hresponse : Broker.dispatch consumer events message msg = .ok (.value response))
    (hrequest : env.requestData log = requestOutcome response) :
    env.requestData log = .error (.value (.obj (errorFields e consumer.devEnv))) := by
  rw [hrequest, response_of_failure h ht hthrown hresponse, requestOutcome_failure h]

theorem get_name_errorFields (h : HandlerError e) (devEnv : Bool) :
    Obj.get (errorFields e devEnv) "name" = .str e.name := by
  unfold Obj.get
  rw [own_errorFields (by decide), if_neg (by decide), parts_name h]
  rfl

/-- An error that arrives has no inherited name: of such a one, a `TypeError` arrives. -/
theorem RoundTrip.not_inherited (h : HandlerError e) {serviceDev : Bool}
    (hrequest : env.requestData log = .error (.value (.obj (errorFields e serviceDev))))
    (hmode : path.mode = .rpc)
    (hres : ExpressResponse env) (hlog : Unanswered log)
    (hround : RoundTrip env path data headers log serviceDev e) :
    e.name ∉ objectPrototype := by
  obtain ⟨fields, status, body, hrejects, -, hrun, -⟩ := hround
  obtain rfl : errorFields e serviceDev = fields := by
    rw [hrequest] at hrejects
    exact Value.obj.inj (Thrown.value.inj (Except.error.inj hrejects))
  have hiff : (∃ envelope, HasEnvelope env (.value (.obj (errorFields e serviceDev))) none envelope) ↔
      e.name ∉ objectPrototype :=
    hasEnvelope_iff (get_name_errorFields h serviceDev) h.named
  refine hiff.mp ?_
  by_contra henvelope
  obtain ⟨message, envelope, hmade, hrefused⟩ : ∃ message envelope, HasEnvelope env (.typeError message) none
      envelope ∧ dispatch env path data headers log = _ := dispatch_refused hres hlog hmode hrequest henvelope
  rw [hrun] at hrefused
  have hlast := List.append_cancel_left (Prod.mk.inj hrefused).2
  have hcode : e.name = envelope.2.1 := by
    have hevent := (List.cons.inj (List.cons.inj hlast).2).1
    unfold envelopeSent at hevent
    exact Option.some.inj (GatewayEvent.responded.inj hevent).2.1
  refine henvelope (hiff.mpr ?_)
  rw [hcode, hmade.code (show plainName _ = .ok "TypeError" from rfl)]
  decide +kernel

/-- **An error arrives as it was thrown**, in status, code, message and fields, if and only if its name is
not one that every object inherits, and none of its fields is called `__proto__`. -/
theorem errorRoundTrip_iff (h : HandlerError e) (ht : t = .error e ∨ t = .deserialization e)
    (hthrown : methodRun consumer events message msg = some (.error t))
    (hresponse : Broker.dispatch consumer events message msg = .ok (.value response))
    (hmode : path.mode = .rpc) (hrequest : env.requestData log = requestOutcome response)
    (hres : ExpressResponse env) (hlog : Unanswered log) :
    RoundTrip env path data headers log consumer.devEnv e ↔
      e.name ∉ objectPrototype ∧ Obj.own e.fields "__proto__" = none := by
  have hrejects := requestData_failure h ht hthrown hresponse hrequest
  constructor
  · intro hround
    refine ⟨hround.not_inherited h hrejects hmode hres hlog, ?_⟩
    obtain ⟨fields, status, body, hfields, hcarries, -⟩ := hround
    rw [hrejects] at hfields
    obtain rfl := Value.obj.inj (Thrown.value.inj (Except.error.inj hfields))
    exact carries_errorFields_iff.mp hcarries
  · rintro ⟨hinherited, hproto⟩
    have hcarries : Carries (errorFields e consumer.devEnv) e := carries_errorFields_iff.mpr hproto
    have hplain : objectPrototype.contains e.name = false :=
      Bool.eq_false_iff.mpr fun h => hinherited (List.contains_iff_mem.mp h)
    have henvelope : HasEnvelope env (.value (.obj (errorFields e consumer.devEnv))) none _ :=
      ⟨errorEnvelope_of_carries h hcarries, (Bool.true_and _).trans hplain⟩
    refine ⟨errorFields e consumer.devEnv, _, _, hrejects, hcarries, ?_, envelopeOf_carries h hcarries ?_⟩
    · exact dispatch_rejected hres hlog hmode hrejects (hcarries.logs h) henvelope
    · intro hservice
      rw [hservice]
      exact own_stack_errorFields h

end RoundTrip

/-! ## A handler that throws -/

/-- An action that throws the error, with both environments `production`. -/
def thrower (e : ErrorObject) : ActionConsumer where
  topic := "users"
  actions := [("find", { params := [], method := fun _ _ => .threw (.error e) })]
  devEnv := false

/-- A request for the action. -/
def findMessage : Value := .obj [("action", .str "find"), ("payload", .obj [])]

/-- The gateway, when the request is answered so. -/
def answeredGateway (response : Value) : GatewayEnv :=
  { webGateway with devEnv := false, requestData := fun _ => requestOutcome response }

theorem expressResponse_answeredGateway (response : Value) : ExpressResponse (answeredGateway response) :=
  ⟨expressResponse_webGateway.once, expressResponse_webGateway.envelope⟩

/-- The error of a name, with details. -/
def namedError (name : String) : ErrorObject where
  name := name
  message := "no such user"
  fields := [("details", .obj [("id", .num 7)])]

theorem handlerError_namedError {name : String} (hname : name ≠ "") : HandlerError (namedError name) where
  named := hname
  ownName v hv := by cases hv
  ownMessage v hv := by cases hv
  hiddenStack := rfl
  serialisable := List.forall_mem_singleton.mpr rfl

theorem unanswered_nil : Unanswered [] := ⟨rfl, rfl⟩

theorem errorRoundTrip_iff_notFound : RoundTrip
    (answeredGateway (failureResult (.obj (errorFields (namedError "NotFoundError") false))))
    { topic := "users", action := "find", mode := .rpc } [] [] [] false (namedError "NotFoundError") ↔
      (namedError "NotFoundError").name ∉ objectPrototype ∧
        Obj.own (namedError "NotFoundError").fields "__proto__" = none := by
  have hthrown : methodRun (thrower (namedError "NotFoundError")) [] findMessage
      { routingKey := "users", content := [] } = some (.error (.error (namedError "NotFoundError"))) := rfl
  have hresponse : Broker.dispatch (thrower (namedError "NotFoundError")) [] findMessage
      { routingKey := "users", content := [] } =
        .ok (.value (failureResult (.obj (errorFields (namedError "NotFoundError") false)))) := rfl
  exact errorRoundTrip_iff (handlerError_namedError (by decide)) (.inl rfl) hthrown hresponse rfl rfl
    (expressResponse_answeredGateway _) unanswered_nil

/-- An error called `constructor` is not answered as such. -/
theorem not_errorRoundTrip_constructor : ¬ RoundTrip
    (answeredGateway (failureResult (.obj (errorFields (namedError "constructor") false))))
    { topic := "users", action := "find", mode := .rpc } [] [] [] false (namedError "constructor") := by
  intro h
  have herror : HandlerError (namedError "constructor") := handlerError_namedError (by decide)
  exact h.not_inherited herror (requestOutcome_failure herror) rfl (expressResponse_answeredGateway _)
    unanswered_nil (.head _)

end NestAmqp.Proxy.ErrorRoundTrip
