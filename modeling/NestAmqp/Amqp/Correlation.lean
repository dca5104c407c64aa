/-
# NestAmqp.Amqp.Correlation — every call gets its own reply.

The calls of a connection share one stream of replies, and each races its replies against its timer and
its publish.  This module puts what one call does by itself together for all of them: in every order of the
events a call settles once, with a reply of its own, with the first one where that comes in time, and no
reply of one call is felt by another.
-/
import NestAmqp.Amqp.Consumer
import NestAmqp.Amqp.Request

namespace NestAmqp.Amqp

open NestAmqp.Js
open NestAmqp.Lib
open NestAmqp.Lib.Machine

/-! ## The property -/

/-- The reply has the call's correlation id, and its request id where the call has set one at all. -/
def RpcCall.AnswersExactly (call : RpcCall) (msg : Delivery) : Prop :=
  msg.properties.correlationId = some call.correlationId ∧
    ∀ rid, call.requestId = .str rid → replyRequestId msg = some rid

/-- The correlation ids of the calls that are made. -/
def correlationIds (config : RequestConfig) (inputs : List RpcInput) : List String :=
  inputs.filterMap fun input => (input.begins config).map (·.correlationId)

/-- Correlation along a sequence of events, for a notion of the replies that are a call's own. -/
structure Correlates (config : RequestConfig) (Own : RpcCall → Delivery → Prop)
    (inputs : List RpcInput) : Prop where
  /-- What a call has come to stays. -/
  settlesOnce : ∀ (l m r : List RpcInput) (i : Nat) (result : Except Thrown Value),
    inputs = l ++ m ++ r → resultOf (run (rpcStep config) [] l) i = some result →
    resultOf (run (rpcStep config) [] (l ++ m)) i = some result
  /-- A call resolves with a reply of its own that came after it was made. -/
  ownReply : ∀ (l r : List RpcInput) (options : RequestOptions) (uuid : String) (v : Value),
    inputs = l ++ .request options uuid :: r →
    resultOf (run (rpcStep config) [] inputs) (run (rpcStep config) [] l).length = some (.ok v) →
    ∃ msg, .reply (some msg) ∈ r ∧ Own (.request config options uuid) msg ∧
      replyBody config msg = .ok v
  /-- The first of its replies, before its timer, and a publish that succeeds, before or after. -/
  firstReply : ∀ (l m r : List RpcInput) (options : RequestOptions) (uuid : String) (msg : Delivery)
      (v : Value) (i : Nat),
    inputs = l ++ .request options uuid :: (m ++ .reply (some msg) :: r) →
    i = (run (rpcStep config) [] l).length → Own (.request config options uuid) msg →
    replyBody config msg = .ok v →
    (∀ msg', .reply (some msg') ∈ m → Own (.request config options uuid) msg' →
      ∀ v', replyBody config msg' ≠ .ok v') →
    .timeout i ∉ m → .published i (.ok ()) ∈ m ++ r → (∀ e, .published i (.error e) ∉ m ++ r) →
    resultOf (run (rpcStep config) [] inputs) i = some (.ok v)
  /-- A reply of one call changes no other call. -/
  apart : ∀ (l r : List RpcInput) (msg : Delivery) (i : Nat) (call : RpcCall),
    inputs = l ++ .reply (some msg) :: r → (run (rpcStep config) [] l)[i]? = some call → Own call msg →
    ∀ j, j ≠ i → (run (rpcStep config) [] inputs)[j]? = (run (rpcStep config) [] (l ++ r))[j]?

/-! ## All calls together -/

section Calls

variable {config : RequestConfig}

/-- The call a request begins, after the events that follow it. -/
theorem getElem?_request (l r : List RpcInput) (options : RequestOptions) (uuid : String) :
    (run (rpcStep config) [] (l ++ .request options uuid :: r))[(run (rpcStep config) [] l).length]? =
      some (run (RpcCall.react config (run (rpcStep config) [] l).length)
        (.request config options uuid) r) := by
  have hbegins : RpcInput.begins config (.request options uuid) = some (.request config options uuid) := rfl
  exact Components.getElem?_run_born hbegins l r

theorem consistent_request (config : RequestConfig) (options : RequestOptions) (uuid : String) :
    (RpcCall.request config options uuid).Consistent := by
  simp [RpcCall.Consistent, RpcCall.request]

theorem resultOf_mono {calls : List RpcCall} {i : Nat} {result : Except Thrown Value}
    (h : resultOf calls i = some result) (inputs : List RpcInput) :
    resultOf (run (rpcStep config) calls inputs) i = some result := by
  obtain ⟨call, hcall, hsettled⟩ := Option.bind_eq_some_iff.mp h
  apply Option.bind_eq_some_iff.mpr
  exact ⟨_, Components.getElem?_run hcall inputs,
    (RpcCall.continues_run config i call inputs).settled result hsettled⟩

/-- A call that resolves has had a reply of its own. -/
theorem own_reply (l r : List RpcInput) (options : RequestOptions) (uuid : String) {v : Value}
    (h : resultOf (run (rpcStep config) [] (l ++ .request options uuid :: r))
      (run (rpcStep config) [] l).length = some (.ok v)) :
    ∃ msg, .reply (some msg) ∈ r ∧ (RpcCall.request config options uuid).Answers msg ∧
      replyBody config msg = .ok v := by
  unfold resultOf at h
  rw [getElem?_request] at h
  exact RpcCall.race_run rfl (((consistent_request config options uuid).run r).race_of_resolved h)

/-- The first reply of its own, in time, is what a published call resolves with. -/
theorem first_reply (l m r : List RpcInput) (options : RequestOptions) (uuid : String) {msg : Delivery}
    {v : Value} {i : Nat} (htext : (RpcCall.request config options uuid).TextHeader)
    (hi : i = (run (rpcStep config) [] l).length)
    (hanswers : (RpcCall.request config options uuid).Answers msg) (hbody : replyBody config msg = .ok v)
    (hfirst : ∀ msg', .reply (some msg') ∈ m → (RpcCall.request config options uuid).Answers msg' →
      ∀ v', replyBody config msg' ≠ .ok v')
    (htimeout : .timeout i ∉ m) (hok : .published i (.ok ()) ∈ m ++ r)
    (herror : ∀ e, .published i (.error e) ∉ m ++ r) :
    resultOf (run (rpcStep config) [] (l ++ .request options uuid :: (m ++ .reply (some msg) :: r))) i =
      some (.ok v) := by
  subst hi
  unfold resultOf
  rw [getElem?_request]
  set i := (run (rpcStep config) [] l).length
  set call := RpcCall.request config options uuid
  have hsame := RpcCall.continues_run config i call m
  -- the race is open until the reply, which ends it for good
  have hopen : (run (RpcCall.react config i) call m).race = none :=
    RpcCall.race_quiet rfl hfirst htimeout
  have hrace : (run (RpcCall.react config i) call (m ++ .reply (some msg) :: r)).race = some (.ok v) := by
    rw [run_append, run_cons,
      RpcCall.react_reply (hsame.textHeader htext) ((hsame.answers_congr msg).mpr hanswers) hbody]
    apply (RpcCall.continues_run config i _ r).race
    exact RpcCall.race_finishRace hopen (.ok v)
  have hpublished : (run (RpcCall.react config i) call (m ++ .reply (some msg) :: r)).published =
      some (.ok ()) := by
    refine RpcCall.published_run ?_ (fun e hmem => herror e ?_) rfl
    · rcases List.mem_append.mp hok with h | h
      · exact List.mem_append_left _ h
      · exact List.mem_append_right _ (.tail _ h)
    · rcases List.mem_append.mp hmem with h | h
      · exact List.mem_append_left _ h
      · rcases List.mem_cons.mp h with h | h
        · cases h
        · exact List.mem_append_right _ h
  exact ((consistent_request config options uuid).run _).resolved hrace hpublished

/-- A reply is ignored by a call with another correlation id. -/
theorem react_foreign {call : RpcCall} {msg : Delivery} {id : String} (i : Nat)
    (hid : msg.properties.correlationId = some id) (hother : call.correlationId ≠ id) :
    call.react config i (.reply (some msg)) = call := by
  rcases RpcCall.react_cases config i call (.reply (some msg)) with
    hsame | ⟨msg', v, hreply, hanswers, -⟩ | ⟨htimeout, -⟩ | ⟨answer, hpublished, -⟩
  · exact hsame
  · obtain rfl := Option.some.inj (RpcInput.reply.inj hreply)
    exact absurd (Option.some.inj (hanswers.1.symm.trans hid)) hother
  · cases htimeout
  · cases hpublished

/-- The calls there are have the ids they were made with. -/
theorem map_correlationId (inputs : List RpcInput) :
    (run (rpcStep config) [] inputs).map (·.correlationId) = correlationIds config inputs := by
  rw [rpcStep, Components.map_run (·.correlationId)
    (fun n call input => (RpcCall.continues_react config n call input).correlationId)]
  rfl

/-- Another call does not feel a reply. -/
theorem unaffected (l r : List RpcInput) {msg : Delivery} {i j : Nat} {call : RpcCall}
    (hdistinct : (correlationIds config l).Nodup)
    (hcall : (run (rpcStep config) [] l)[i]? = some call)
    (hid : msg.properties.correlationId = some call.correlationId) (hj : j ≠ i) :
    (run (rpcStep config) [] (l ++ .reply (some msg) :: r))[j]? =
      (run (rpcStep config) [] (l ++ r))[j]? := by
  rw [run_append, run_cons, run_append]
  cases hother : (run (rpcStep config) [] l)[j]? with
  | some other =>
      have hdiffer : other.correlationId ≠ call.correlationId := by
        intro heq
        rw [← map_correlationId] at hdistinct
        apply hj
        have hlt : j < ((run (rpcStep config) [] l).map (·.correlationId)).length := by
          rw [List.length_map]
          exact (List.getElem?_eq_some_iff.mp hother).1
        apply (List.getElem?_inj hlt hdistinct).mp
        rw [List.getElem?_map, List.getElem?_map, hother, hcall, Option.map_some, Option.map_some, heq]
      have hkept : (rpcStep config (run (rpcStep config) [] l) (.reply (some msg)))[j]? =
          some (other.react config j (.reply (some msg))) := Components.getElem?_step hother _
      rw [react_foreign j hid hdiffer] at hkept
      exact (Components.getElem?_run hkept r).trans (Components.getElem?_run hother r).symm
  | none =>
      -- the call is not made yet, and a reply makes none
      have hlength : (rpcStep config (run (rpcStep config) [] l) (.reply (some msg))).length =
          (run (rpcStep config) [] l).length := Components.length_step _ _
      exact Components.getElem?_run_congr hlength (hlength ▸ List.getElem?_eq_none_iff.mp hother) r

end Calls

/-! ## Where the replies come from -/

/-- A reply that echoes the id and the headers of a request answers it. -/
theorem answers_of_echo {config : RequestConfig} {options : RequestOptions} {uuid : String}
    {reply : Delivery} (hid : reply.properties.correlationId = some (options.idOr uuid))
    (hheaders : reply.properties.headers = options.headers) :
    (RpcCall.request config options uuid).Answers reply := by
  refine ⟨hid, fun rid hrid _ => ?_⟩
  have hheader : reply.header "X-Request-ID" = .str rid := by
    unfold Delivery.header
    rw [hheaders]
    exact hrid
  simp [replyRequestId, hheader, Value.nullish, Value.toStr]

/-- What an rpc consumer answers, and what it reports when its retries are exhausted, both echo the
message they are about. -/
theorem answers_consumer {config : RequestConfig} {options : RequestOptions} {uuid : String}
    {msg : Delivery} (hid : msg.properties.correlationId = some (options.idOr uuid))
    (hheaders : msg.properties.headers = options.headers) (consumer : MessageHandlerOptions)
    (response : Value) (queue : String) (cause : PlainError) (text : String) (attempts : JsNumber)
    (routingKey : String) (content : Content) :
    (RpcCall.request config options uuid).Answers
        { routingKey, content, properties := (rpcReply consumer msg response).properties } ∧
      (RpcCall.request config options uuid).Answers
        { routingKey, content, properties := (exhaustedReply queue msg cause text attempts).properties } :=
  ⟨answers_of_echo hid hheaders, answers_of_echo hid hheaders⟩

/-! ## Correlation -/

/-- **Every call gets its own reply.**  For calls with distinct correlation ids, each with a text as its
`X-Request-ID` or without one, in every order of publishes, timers and replies. -/
theorem correlates (config : RequestConfig) (inputs : List RpcInput)
    (hdistinct : (correlationIds config inputs).Nodup)
    (htext : ∀ options uuid, .request options uuid ∈ inputs →
      (RpcCall.request config options uuid).TextHeader) :
    Correlates config RpcCall.Answers inputs where
  settlesOnce l m r i result _ h := by
    rw [run_append]
    exact resultOf_mono h m
  ownReply l r options uuid v hsplit h := by
    subst hsplit
    exact own_reply l r options uuid h
  firstReply l m r options uuid msg v i hsplit hi hanswers hbody hfirst htimeout hok herror := by
    subst hsplit
    have hmem : .request options uuid ∈ l ++ .request options uuid :: (m ++ .reply (some msg) :: r) :=
      List.mem_append_right _ (.head _)
    exact first_reply l m r options uuid (htext options uuid hmem) hi hanswers hbody hfirst htimeout
      hok herror
  apart l r msg i call hsplit hcall hanswers j hj := by
    subst hsplit
    have hprefix : (correlationIds config l).Nodup := by
      unfold correlationIds at hdistinct ⊢
      rw [List.filterMap_append] at hdistinct
      exact (List.nodup_append.mp hdistinct).1
    exact unaffected l r hprefix hcall hanswers.1 hj

/-- Every body is read as `null`. -/
def nullBodies : RequestConfig := { deserializer := fun _ => .ok .null }

/-- Two calls; the reply of the second overtakes its confirm, and comes twice. -/
def twoCalls : List RpcInput :=
  [.request { exchange := "e", routingKey := "k", correlationId := some "a" } "u",
    .request { exchange := "e", routingKey := "k", correlationId := some "b",
               headers := some [("X-Request-ID", .str "r")] } "v",
    .reply (some { routingKey := "", content := [], properties :=
      { correlationId := some "b", headers := some [("X-Request-ID", .str "r")] } }),
    .published 0 (.ok ()), .published 1 (.ok ()),
    .reply (some { routingKey := "", content := [], properties :=
      { correlationId := some "b", headers := some [("X-Request-ID", .str "r")] } }),
    .timeout 0]

theorem correlates_twoCalls : Correlates nullBodies RpcCall.Answers twoCalls := by
  refine correlates nullBodies twoCalls (by decide) fun options uuid hmem => ?_
  simp only [twoCalls, List.mem_cons, List.not_mem_nil, reduceCtorEq, or_false,
    RpcInput.request.injEq] at hmem
  rcases hmem with ⟨rfl, -⟩ | ⟨rfl, -⟩
  · exact .inl rfl
  · exact .inr ⟨"r", rfl⟩

/-- A call with an empty `X-Request-ID`, and a reply that has none. -/
def emptyRequestId : List RpcInput :=
  [.request { exchange := "e", routingKey := "k", correlationId := some "a",
              headers := some [("X-Request-ID", .str "")] } "u",
    .published 0 (.ok ()),
    .reply (some { routingKey := "", content := [], properties := { correlationId := some "a" } })]

/-- An empty `X-Request-ID` counts as none: the call resolves with a reply that has another. -/
theorem not_correlates_emptyRequestId :
    ¬ ∀ (config : RequestConfig) (inputs : List RpcInput), (correlationIds config inputs).Nodup →
      (∀ options uuid, .request options uuid ∈ inputs →
        (RpcCall.request config options uuid).TextHeader) →
      Correlates config RpcCall.AnswersExactly inputs := by
  intro h
  have hcorrelates := h nullBodies emptyRequestId (by decide) fun options uuid hmem => by
    simp only [emptyRequestId, List.mem_cons, List.not_mem_nil, reduceCtorEq, or_false,
      RpcInput.request.injEq] at hmem
    obtain ⟨rfl, -⟩ := hmem
    exact .inr ⟨"", rfl⟩
  obtain ⟨msg, hmem, hanswers, -⟩ := hcorrelates.ownReply [] _ _ _ .undefined rfl rfl
  simp only [List.mem_cons, List.not_mem_nil, reduceCtorEq, or_false, false_or, RpcInput.reply.injEq,
    Option.some.injEq] at hmem
  subst hmem
  have hnone := hanswers.2 "" rfl
  simp [replyRequestId, Delivery.header, Obj.get, Obj.own, Value.nullish] at hnone

end NestAmqp.Amqp
