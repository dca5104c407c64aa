/-
# NestAmqp.Proxy.Responses — every request gets exactly one response.

The handler answers from many branches, most of them inside a `try`.  Outside stand the claim mapping, the loop
over `$files`, the answer to an upload that does not parse, and the log lines about an error, which print its
name and its message.  This module says when none of them throws, in terms of the provider's claim map, the
`$files` a request carries and what the collaborators reject with, and proves that exactly then the handler
returns after one response.
-/
import NestAmqp.Proxy.IdentityHeaders

namespace NestAmqp.Proxy.Responses

open NestAmqp.Js
open NestAmqp.Lib
open HttpHandler
open Gate (Admits Authenticated asksAcl verifiedToken)
open IdentityHeaders (claimOf claimHeader)
open HttpAuthHandler (authorization processAuthData findProvider mapClaim mapClaims)

/-! ## What `res` does -/

/-- The event is a response that went out. -/
def sent : GatewayEvent → Bool
  | .responded _ _ _ (.ok ()) => true
  | _ => false

@[simp] theorem sent_responded_ok (status : Nat) (code : Option String) (body : Value) (u : Unit) :
    sent (.responded status code body (.ok u)) = true := rfl

@[simp] theorem sent_responded_error (status : Nat) (code : Option String) (body : Value)
    (e : Thrown) : sent (.responded status code body (.error e)) = false := rfl

/-- The broker took the message, or answered it. -/
def brokerDone : GatewayEvent → Bool
  | .published _ _ _ _ (.ok ()) => true
  | .requested _ _ _ _ _ (.ok _) => true
  | _ => false

/-- `res` as Node and Express document it.  A second answer throws, and an error envelope, which is plain
JSON under a valid status, goes out.  Only the answer to a request the broker has served carries headers and
content that the response may refuse. -/
structure ExpressResponse (env : GatewayEnv) : Prop where
  once : ∀ log : List GatewayEvent, log.any sent = true → ∃ e, env.respond log = .error e
  envelope : ∀ log : List GatewayEvent, log.any sent = false →
    (log.getLast?.any brokerDone) = false → env.respond log = .ok ()

/-- What `res` throws is an `Error`, with a text for its message. -/
def ThrowsErrors (env : GatewayEnv) : Prop :=
  ∀ log e, env.respond log = .error e → ∃ error : ErrorObject, e = .error error ∧
    Obj.own error.fields "message" = none

/-! ## The claim map -/

/-- The token of the request is verified without a rejection, and every entry of the provider's claim map that
finds its claim in a payload names a header. -/
def ClaimsMap (env : GatewayEnv) (path : PathDefinition) (req : Request) : Prop :=
  ∀ authConfig, findProvider env path.auth = some authConfig →
    (authConfig.type = .jwt ∨ authConfig.type = .jwks) →
      ∃ decoded, verifiedToken env authConfig (authorization req) = .ok decoded ∧
        (decoded.truthy = true → ∀ entry ∈ authConfig.jwtMap.getD [],
          (claimOf decoded entry).truthy = true → (claimHeader env.toUpperCase authConfig entry).isSome)

section ClaimsMap

variable (toUpperCase : String → String) (authConfig : HandlerAuthConfig) (decoded : Value)

theorem mapClaim_isOk_iff (out : Obj) (entry : String) :
    (∃ out', mapClaim toUpperCase authConfig decoded out entry = .ok out') ↔
      ((claimOf decoded entry).truthy = true → (claimHeader toUpperCase authConfig entry).isSome) := by
  rw [IdentityHeaders.mapClaim_eq]
  cases (claimOf decoded entry).truthy <;> cases claimHeader toUpperCase authConfig entry <;> simp

theorem foldlM_mapClaim_isOk_iff (jwtMap : List String) (out : Obj) :
    (∃ out', jwtMap.foldlM (mapClaim toUpperCase authConfig decoded) out = .ok out') ↔
      ∀ entry ∈ jwtMap, (claimOf decoded entry).truthy = true →
        (claimHeader toUpperCase authConfig entry).isSome := by
  induction jwtMap generalizing out with
  | nil => simp [pure, Except.pure]
  | cons entry jwtMap ih =>
      rw [List.foldlM_cons, List.forall_mem_cons, ← mapClaim_isOk_iff toUpperCase authConfig decoded out entry]
      cases hstep : mapClaim toUpperCase authConfig decoded out entry with
      | error e => simp [bind, Except.bind]
      | ok mid => simpa [bind, Except.bind] using ih mid

theorem mapClaims_isOk_iff :
    (∃ out, mapClaims toUpperCase authConfig decoded = .ok out) ↔
      (decoded.truthy = true → ∀ entry ∈ authConfig.jwtMap.getD [], (claimOf decoded entry).truthy = true →
        (claimHeader toUpperCase authConfig entry).isSome) := by
  unfold mapClaims
  split
  next htruthy =>
    rw [forall_prop_of_true htruthy]
    split
    next hmap => simp [hmap]
    next jwtMap hmap => rw [foldlM_mapClaim_isOk_iff, hmap, Option.getD_some]
  next hfalsy => exact iff_of_true ⟨_, rfl⟩ fun htruthy => absurd htruthy hfalsy

end ClaimsMap

/-- Authentication fails to answer only over a rejected verification and a claim map entry without a colon. -/
theorem processAuthData_isOk_iff (env : GatewayEnv) (path : PathDefinition) (req : Request) :
    (∃ authData, processAuthData env req path = .ok authData) ↔ ClaimsMap env path req := by
  by_cases htoken : ∃ authConfig, findProvider env path.auth = some authConfig ∧
      (authConfig.type = .jwt ∨ authConfig.type = .jwks)
  · obtain ⟨authConfig, hfind, htype⟩ := htoken
    rw [Gate.processAuthData_token hfind htype]
    simp only [bind_eq_ok]
    constructor
    · rintro ⟨authData, decoded, hdecoded, hmapped⟩ authConfig' hfind' _
      obtain rfl : authConfig = authConfig' := Option.some.inj (hfind.symm.trans hfind')
      exact ⟨decoded, hdecoded, (mapClaims_isOk_iff _ _ _).mp ⟨authData, hmapped⟩⟩
    · intro h
      obtain ⟨decoded, hdecoded, hmaps⟩ := h authConfig hfind htype
      obtain ⟨authData, hmapped⟩ := (mapClaims_isOk_iff _ _ _).mpr hmaps
      exact ⟨authData, decoded, hdecoded, hmapped⟩
  · have hclaims : ClaimsMap env path req :=
      fun authConfig hfind htype => absurd ⟨authConfig, hfind, htype⟩ htoken
    refine iff_of_true ?_ hclaims
    unfold processAuthData
    split
    · exact ⟨_, rfl⟩
    split
    · exact ⟨_, rfl⟩
    next authConfig hfind =>
    split
    next => exact ⟨_, rfl⟩
    next htype => exact absurd ⟨authConfig, hfind, .inl htype⟩ htoken
    next htype => exact absurd ⟨authConfig, hfind, .inr htype⟩ htoken
    next => exact ⟨_, rfl⟩
    next => exact ⟨_, rfl⟩

/-! ## The files of a request -/

/-- What stands in a file's `buffer` has a binary text. -/
def HasBinaryText : Value → Prop
  | .bool _ | .str _ => True
  | .obj fields => prints (.obj fields) = true
  | .arr items => prints (.arr items) = true
  | .undefined | .null | .num _ | .real _ => False

/-- `$files` is absent, falsy, or a list of objects whose `buffer` has a binary text. -/
def FilesEncode (files : Value) : Prop :=
  files.truthy = false ∨ ∃ items, files = .arr items ∧
    ∀ item ∈ items, ∃ fields, item = .obj fields ∧ HasBinaryText (Obj.get fields "buffer")

/-- The `$files` of a request: a route parameter, the uploaded files, or what the path's data source
takes from the query or the body. -/
def filesOf (path : PathDefinition) (req : Request) : Value :=
  ((Obj.own req.params "$files").or ((req.files.map Value.arr).or
    (GateContext.sourceValue path.dataSource (Obj.own req.query "$files")
      (Obj.own (req.body.getD []) "$files")))).getD .undefined

theorem binaryText_isOk_iff (v : Value) : (∃ s, binaryText v = .ok s) ↔ HasBinaryText v := by
  cases v with
  | obj fields => cases h : prints (.obj fields) <;> simp [binaryText, HasBinaryText, h]
  | arr items => cases h : prints (.arr items) <;> simp [binaryText, HasBinaryText, h]
  | _ => simp [binaryText, HasBinaryText]

theorem withBinaryText_isOk_iff (item : Value) : (∃ v, withBinaryText item = .ok v) ↔
    ∃ fields, item = .obj fields ∧ HasBinaryText (Obj.get fields "buffer") := by
  cases item with
  | obj fields =>
      simp only [Value.obj.injEq, exists_eq_left', ← binaryText_isOk_iff]
      unfold withBinaryText
      cases h : binaryText (Obj.get fields "buffer") <;>
        simp [h, bind, Except.bind, pure, Except.pure]
  | _ => simp [withBinaryText]

theorem mapM_isOk_iff {α β χ : Type} (f : α → Except χ β) (items : List α) :
    (∃ out, items.mapM f = .ok out) ↔ ∀ item ∈ items, ∃ v, f item = .ok v := by
  induction items with
  | nil => simp [pure, Except.pure]
  | cons item items ih =>
      rw [List.mapM_cons, List.forall_mem_cons, ← ih]
      cases f item <;> cases items.mapM f <;> simp [bind, Except.bind, pure, Except.pure]

theorem encodeFiles_isOk_iff (data : Obj) :
    (∃ data', encodeFiles data = .ok data') ↔ FilesEncode (Obj.get data "$files") := by
  unfold encodeFiles FilesEncode
  split
  next items heq =>
    have hmap := mapM_isOk_iff withBinaryText items
    simp only [withBinaryText_isOk_iff] at hmap
    rw [heq]
    simp only [Value.truthy, Bool.true_eq_false, Value.arr.injEq, exists_eq_left', false_or, ← hmap]
    cases items.mapM withBinaryText <;> simp [bind, Except.bind, pure, Except.pure]
  next s heq =>
    rw [heq]
    by_cases hs : s = "" <;> simp [hs, Value.truthy]
  next v harr hstr =>
    cases hv : (Obj.get data "$files").truthy with
    | false => simp
    | true =>
        simp only [if_true, reduceCtorEq, exists_false, Bool.true_eq_false, false_or, false_iff,
          not_exists, not_and]
        intro items heq
        exact absurd heq (harr items)

theorem buildPayload_isOk_iff (path : PathDefinition) (req : Request) :
    (∃ data, buildPayload path req = .ok data) ↔ FilesEncode (filesOf path req) := by
  unfold buildPayload
  dsimp only
  rw [encodeFiles_isOk_iff]
  refine iff_of_eq (congrArg FilesEncode ?_)
  unfold Obj.get filesOf
  congr 1
  have hmerged := GateContext.own_mergeSources path.dataSource req "$files"
  rw [Obj.own_assign]
  cases hfiles : req.files with
  | some files => simp [Obj.own_cons]
  | none => cases path.parseRaw <;> simp [Obj.own_cons, hmerged]

/-! ## One answer -/

/-- The event is an error envelope of `sendError` that went out. -/
def IsEnvelope (env : GatewayEnv) (e : GatewayEvent) : Prop :=
  ∃ error override status code body, errorEnvelope env.devEnv error override = .ok (status, code, body) ∧
    e = .responded status (some code) body (.ok ())

/-- Exactly one response went out: an error envelope, or, last of all, the answer to a request the
broker has just served. -/
def AnsweredOnce (env : GatewayEnv) (run : List GatewayEvent) : Prop :=
  ∃ e, run.filter sent = [e] ∧
    (IsEnvelope env e ∨ ∃ pre served, run = pre ++ [served, e] ∧ brokerDone served = true)

/-- From `log`, the program returns, and its run answers the client once. -/
def Answers (env : GatewayEnv) (p : Gateway Unit) (log : List GatewayEvent) : Prop :=
  ∃ run, p log = (.ok (), log ++ run) ∧ AnsweredOnce env run

/-- Nothing has gone out, and the next thing written is not the answer to a served request. -/
structure Unanswered (log : List GatewayEvent) : Prop where
  unsent : log.any sent = false
  last : log.getLast?.any brokerDone = false

theorem Unanswered.concat {log : List GatewayEvent} {e : GatewayEvent} (h : log.any sent = false)
    (hsent : sent e = false) (hdone : brokerDone e = false) : Unanswered (log ++ [e]) :=
  ⟨by simp [h, hsent], by simp [hdone]⟩

section Answer

variable {env : GatewayEnv} {path : PathDefinition} {log : List GatewayEvent}

/-- The error has this envelope: its name prints, and stands for a status of its own or for none that
`ERROR_STATUS` inherits. -/
def HasEnvelope (env : GatewayEnv) (error : Thrown) (override : Option Nat) (envelope : Nat × String × Value) :
    Prop :=
  errorEnvelope env.devEnv error override = .ok envelope ∧
    (override.isNone && objectPrototype.contains envelope.2.1) = false

/-- An error whose name prints has an envelope, with that name for its code. -/
theorem errorEnvelope_of_name {error : Thrown} {code : String} (h : plainName error = .ok code) (devEnv : Bool)
    (override : Option Nat) :
    ∃ status body, errorEnvelope devEnv error override = .ok (status, code, body) := by
  unfold errorEnvelope
  rw [h]
  exact ⟨_, _, rfl⟩

/-- The code of an envelope is the name of its error. -/
theorem HasEnvelope.code {error : Thrown} {override : Option Nat} {envelope : Nat × String × Value} {code : String}
    (h : HasEnvelope env error override envelope) (hname : plainName error = .ok code) : envelope.2.1 = code := by
  obtain ⟨status, body, henvelope⟩ := errorEnvelope_of_name hname env.devEnv override
  obtain rfl : envelope = (status, code, body) := Except.ok.inj (h.1.symm.trans henvelope)
  rfl

theorem errorEnvelope_of_unprinted {error e : Thrown} (h : plainName error = .error e) (devEnv : Bool)
    (override : Option Nat) : errorEnvelope devEnv error override = .error e := by
  unfold errorEnvelope
  rw [h]
  rfl

/-- An answer under a status of its own has an envelope as soon as the name prints. -/
theorem hasEnvelope_override_iff {error : Thrown} {status : Nat} :
    (∃ envelope, HasEnvelope env error (some status) envelope) ↔ prints (error.prop "name") = true := by
  rw [← plainName_isOk_iff]
  constructor
  · rintro ⟨envelope, henvelope, -⟩
    cases hname : plainName error with
    | ok code => exact ⟨code, rfl⟩
    | error e =>
        rw [errorEnvelope_of_unprinted hname] at henvelope
        cases henvelope
  · rintro ⟨code, hname⟩
    obtain ⟨_, _, henvelope⟩ := errorEnvelope_of_name hname env.devEnv (some status)
    exact ⟨_, henvelope, rfl⟩

/-- What has an envelope has a name that prints. -/
theorem HasEnvelope.prints {error : Thrown} {override : Option Nat} {envelope : Nat × String × Value}
    (h : HasEnvelope env error override envelope) : prints (error.prop "name") = true := by
  rw [← plainName_isOk_iff]
  cases hname : plainName error with
  | ok code => exact ⟨code, rfl⟩
  | error e =>
      have henvelope := h.1
      rw [errorEnvelope_of_unprinted hname] at henvelope
      cases henvelope

theorem hasEnvelope_of_code {error : Thrown} {code : String} (hname : plainName error = .ok code)
    (hplain : objectPrototype.contains code = false) (override : Option Nat) :
    ∃ envelope, HasEnvelope env error override envelope := by
  obtain ⟨_, _, henvelope⟩ := errorEnvelope_of_name hname env.devEnv override
  exact ⟨_, henvelope, by rw [hplain, Bool.and_false]⟩

/-- The errors that the code and the language make have an envelope. -/
theorem hasEnvelope_named {name message : String} (hname : name = "Error" ∨ name = "TypeError")
    (override : Option Nat) :
    ∃ envelope, HasEnvelope env (.error { name, message }) override envelope := by
  rcases hname with rfl | rfl
  · exact hasEnvelope_of_code (show plainName _ = .ok "Error" from rfl) (by decide +kernel) override
  · exact hasEnvelope_of_code (show plainName _ = .ok "TypeError" from rfl) (by decide +kernel) override

/-- Without an envelope nothing goes out, and a `TypeError` is thrown. -/
theorem sendError_of_not_hasEnvelope {error : Thrown} {override : Option Nat}
    (h : ¬ ∃ envelope, HasEnvelope env error override envelope) (log : List GatewayEvent) :
    ∃ message, sendError env error override log = (.error (.typeError message), log) := by
  unfold sendError
  cases henvelope : errorEnvelope env.devEnv error override with
  | error e =>
      cases hname : plainName error with
      | ok code =>
          obtain ⟨_, _, hok⟩ := errorEnvelope_of_name hname env.devEnv override
          cases henvelope.symm.trans hok
      | error e' =>
          rw [errorEnvelope_of_unprinted hname] at henvelope
          obtain rfl := Except.error.inj henvelope
          rw [plainName_error hname]
          exact ⟨_, Traced.bind_of_error rfl⟩
  | ok envelope =>
      have hinherited : (override.isNone && objectPrototype.contains envelope.2.1) = true := by
        by_contra hplain
        exact h ⟨envelope, henvelope, Bool.eq_false_iff.mpr hplain⟩
      have hthrows : (if (override.isNone && objectPrototype.contains envelope.2.1) = true then
          Traced.throw (invalidStatus envelope.2.1)
          else send env envelope.1 (some envelope.2.1) envelope.2.2) log = (.error (invalidStatus envelope.2.1), log) :=
        congrFun (if_pos hinherited) log
      exact ⟨_, hthrows⟩

/-- An envelope that has gone out. -/
def envelopeSent (envelope : Nat × String × Value) : GatewayEvent :=
  .responded envelope.1 (some envelope.2.1) envelope.2.2 (.ok ())

theorem HasEnvelope.isEnvelope {error : Thrown} {override : Option Nat} {envelope : Nat × String × Value}
    (h : HasEnvelope env error override envelope) : IsEnvelope env (envelopeSent envelope) :=
  ⟨error, override, _, _, _, h.1, rfl⟩

theorem sent_envelopeSent (envelope : Nat × String × Value) : sent (envelopeSent envelope) = true := rfl

theorem sendError_of_unanswered (hres : ExpressResponse env) (h : Unanswered log) {error : Thrown}
    {override : Option Nat} {envelope : Nat × String × Value} (henvelope : HasEnvelope env error override envelope) :
    sendError env error override log = (.ok (), log ++ [envelopeSent envelope]) := by
  have hok := hres.envelope log h.unsent h.last
  obtain ⟨hmade, hstatus⟩ := henvelope
  unfold sendError
  rw [hmade, Traced.bind_of_ok (show Traced.ofExcept _ log = (.ok envelope, log) from rfl)]
  dsimp only
  rw [hstatus, if_neg Bool.false_ne_true]
  simp [send, Traced.perform, hok, envelopeSent]

/-- An envelope after events that sent nothing is the one answer. -/
theorem answeredOnce_envelope {run : List GatewayEvent} {e : GatewayEvent}
    (hrun : ∀ e' ∈ run, sent e' = false) (hsent : sent e = true) (henv : IsEnvelope env e) :
    AnsweredOnce env (run ++ [e]) := by
  refine ⟨e, ?_, .inl henv⟩
  rw [List.filter_append, List.filter_eq_nil_iff.mpr fun e' he' => by simp [hrun e' he']]
  simp [hsent]

theorem answers_sendError (hres : ExpressResponse env) (h : Unanswered log) {error : Thrown}
    {override : Option Nat} (henvelope : ∃ envelope, HasEnvelope env error override envelope) :
    Answers env (sendError env error override) log := by
  obtain ⟨envelope, henvelope⟩ := henvelope
  exact ⟨[] ++ [envelopeSent envelope], sendError_of_unanswered hres h henvelope,
    answeredOnce_envelope (by simp) (sent_envelopeSent _) henvelope.isEnvelope⟩

/-- A second answer throws. -/
theorem sendError_of_sent (hres : ExpressResponse env) (h : log.any sent = true) (error : Thrown)
    (override : Option Nat) : ∃ e log', sendError env error override log = (.error e, log') := by
  obtain ⟨e, he⟩ := hres.once log h
  by_cases henvelope : ∃ envelope, HasEnvelope env error override envelope
  · obtain ⟨envelope, hmade, hstatus⟩ := henvelope
    unfold sendError
    rw [hmade, Traced.bind_of_ok (show Traced.ofExcept _ log = (.ok envelope, log) from rfl)]
    dsimp only
    rw [hstatus, if_neg Bool.false_ne_true]
    simp only [send, Traced.perform, he]
    exact ⟨e, _, rfl⟩
  · obtain ⟨message, hthrows⟩ := sendError_of_not_hasEnvelope henvelope log
    exact ⟨_, _, hthrows⟩

/-! ### Log lines -/

/-- The log line about the error goes through. -/
def Logs (error : Thrown) : Prop :=
  error.nullish = false ∧ prints (error.prop "name") = true ∧ error.reads = true

theorem logs_typeError (message : String) : Logs (.typeError message) := ⟨rfl, rfl, rfl⟩

theorem errorLine_of_logs {error : Thrown} (h : Logs error) (log : List GatewayEvent) :
    errorLine error log = (.ok (), log) := by
  unfold errorLine
  rw [h.1, error.nameLine_isOk_iff.mpr h.2]
  rfl

/-- Otherwise it throws an error that itself can be logged. -/
theorem errorLine_of_not_logs {error : Thrown} (h : ¬ Logs error) (log : List GatewayEvent) :
    ∃ message, errorLine error log = (.error (.typeError message), log) := by
  unfold errorLine
  split
  next hnullish =>
    unfold Thrown.unreadable
    split
    · exact ⟨_, rfl⟩
    · exact ⟨_, rfl⟩
  next hpresent =>
    refine ⟨"Cannot convert object to primitive value", ?_⟩
    unfold Logs at h
    unfold Thrown.nameLine Js.printed
    cases hname : prints (error.prop "name") with
    | false => rfl
    | true =>
        have hreads : error.reads = false := by simp_all
        simp only [if_true, Thrown.messageLine_of_not_reads hreads]
        rfl

/-! ### The two nested catches -/

/-- The two `try` blocks around a mode's broker call and answer. -/
def guarded (env : GatewayEnv) (override : Option Nat) (body : Gateway Unit) : Gateway Unit :=
  Traced.tryCatch
    (Traced.tryCatch body fun error => do
      sendError env error override
      errorLine error)
    fun error => do
      errorLine error
      sendError env error none

variable {body : Gateway Unit} {log' : List GatewayEvent} {override : Option Nat} {error : Thrown}
  {envelope : Nat × String × Value}

theorem guarded_of_ok (h : body log = (.ok (), log')) :
    guarded env override body log = (.ok (), log') :=
  Traced.tryCatch_of_ok (Traced.tryCatch_of_ok h)

/-- A failure that can be answered and logged is answered by its envelope. -/
theorem guarded_of_hasEnvelope (hres : ExpressResponse env) (h : body log = (.error error, log'))
    (hfresh : Unanswered log') (hlogs : Logs error) (henvelope : HasEnvelope env error override envelope) :
    guarded env override body log = (.ok (), log' ++ [envelopeSent envelope]) := by
  apply Traced.tryCatch_of_ok
  rw [Traced.tryCatch_of_error h, Traced.bind_of_ok (sendError_of_unanswered hres hfresh henvelope),
    errorLine_of_logs hlogs]

/-- Without an envelope, the outer `catch` answers with the error that was thrown instead. -/
theorem guarded_of_not_hasEnvelope (hres : ExpressResponse env) (h : body log = (.error error, log'))
    (hfresh : Unanswered log') (henvelope : ¬ ∃ envelope, HasEnvelope env error override envelope) :
    ∃ message envelope, HasEnvelope env (.typeError message) none envelope ∧
      guarded env override body log = (.ok (), log' ++ [envelopeSent envelope]) := by
  obtain ⟨message, hthrows⟩ := sendError_of_not_hasEnvelope henvelope log'
  obtain ⟨envelope, hmade⟩ : ∃ envelope, HasEnvelope env (.typeError message) none envelope :=
    hasEnvelope_named (.inr rfl) none
  have hinner : Traced.tryCatch body (fun error => do
      sendError env error override
      errorLine error) log = (.error (.typeError message), log') := by
    rw [Traced.tryCatch_of_error h, Traced.bind_of_error hthrows]
  refine ⟨message, envelope, hmade, ?_⟩
  unfold guarded
  rw [Traced.tryCatch_of_error hinner, Traced.bind_of_ok (errorLine_of_logs (logs_typeError message) _),
    sendError_of_unanswered hres hfresh hmade]

/-- A failure can be logged behind its envelope, or has none. -/
def Loggable (env : GatewayEnv) (override : Option Nat) (error : Thrown) : Prop :=
  (∃ envelope, HasEnvelope env error override envelope) → Logs error

/-- A failure that can be logged, if it can be answered, is answered by an envelope. -/
theorem answers_guarded (hres : ExpressResponse env) (run : List GatewayEvent) (error : Thrown)
    (h : body log = (.error error, log ++ run)) (hfresh : Unanswered (log ++ run))
    (hrun : ∀ e ∈ run, sent e = false) (herror : Loggable env override error) :
    Answers env (guarded env override body) log := by
  by_cases henvelope : ∃ envelope, HasEnvelope env error override envelope
  · have hlogs := herror henvelope
    obtain ⟨envelope, hmade⟩ := henvelope
    refine ⟨run ++ [envelopeSent envelope], ?_, answeredOnce_envelope hrun (sent_envelopeSent _) hmade.isEnvelope⟩
    rw [guarded_of_hasEnvelope hres h hfresh hlogs hmade, List.append_assoc]
  · obtain ⟨message, envelope, hmade, hguarded⟩ := guarded_of_not_hasEnvelope hres h hfresh henvelope
    refine ⟨run ++ [envelopeSent envelope], ?_, answeredOnce_envelope hrun (sent_envelopeSent _) hmade.isEnvelope⟩
    rw [hguarded, List.append_assoc]

/-- A failure that cannot be logged is answered, and then fails once more over the log line. -/
theorem guarded_of_not_loggable (hres : ExpressResponse env) (h : body log = (.error error, log'))
    (hfresh : Unanswered log') (herror : ¬ Loggable env override error) :
    ∃ e log'', guarded env override body log = (.error e, log'') := by
  unfold Loggable at herror
  simp only [Classical.not_imp] at herror
  obtain ⟨⟨envelope, hmade⟩, hlogs⟩ := herror
  have hsend := sendError_of_unanswered hres hfresh hmade
  obtain ⟨message, hline⟩ := errorLine_of_not_logs hlogs (log' ++ [envelopeSent envelope])
  have hanswered : (log' ++ [envelopeSent envelope]).any sent = true := by simp [sent_envelopeSent]
  obtain ⟨e₂, log₂, hagain⟩ := sendError_of_sent hres hanswered (.typeError message) none
  refine ⟨e₂, log₂, ?_⟩
  have hinner : Traced.tryCatch body (fun error => do
      sendError env error override
      errorLine error) log = (.error (.typeError message), log' ++ [envelopeSent envelope]) := by
    rw [Traced.tryCatch_of_error h, Traced.bind_of_ok hsend, hline]
  unfold guarded
  rw [Traced.tryCatch_of_error hinner, Traced.bind_of_ok (errorLine_of_logs (logs_typeError message) _), hagain]

/-- What `res` throws can be logged, if it can be answered. -/
theorem ThrowsErrors.loggable (h : ThrowsErrors env) (hthrown : env.respond log = .error error)
    (override : Option Nat) : Loggable env override error := by
  rintro ⟨envelope, hmade⟩
  obtain ⟨e, rfl, hmessage⟩ := h log error hthrown
  refine ⟨rfl, hmade.prints, ?_⟩
  have htext : (Thrown.error e).prop "message" = .str e.message := by
    unfold Thrown.prop
    dsimp only
    rw [hmessage]
    rfl
  rw [Thrown.reads, htext]
  rfl

/-- The answer to a served request: it goes out and the run ends, or its envelope does. -/
theorem answers_served (hres : ExpressResponse env) (herrors : ThrowsErrors env) (served : GatewayEvent)
    (status : Nat)
    (content : Value) (hlog : log.any sent = false) (hsent : sent served = false)
    (hserved : brokerDone served = true)
    (h : body log = send env status none content (log ++ [served])) :
    Answers env (guarded env override body) log := by
  cases hrespond : env.respond (log ++ [served]) with
  | ok u =>
      refine ⟨[served, .responded status none content (.ok u)], guarded_of_ok ?_,
        .responded status none content (.ok u), by simp [hsent], .inr ⟨[], served, rfl, hserved⟩⟩
      rw [h]
      simp [send, Traced.perform, hrespond]
  | error e =>
      refine answers_guarded hres [served, .responded status none content (.error e)] e ?_
        ⟨by simp [hlog, hsent], by simp [brokerDone]⟩ (by simp [hsent])
        (herrors.loggable hrespond override)
      rw [h]
      simp [send, Traced.perform, hrespond]

/-! ### Dispatch -/

/-- At `log` the broker does not reject with an error that is answered and cannot be logged. -/
def RejectsLoggably (env : GatewayEnv) (path : PathDefinition) (log : List GatewayEvent) : Prop :=
  (path.mode = .event → ∀ e, env.publishMessage log = .error e → Loggable env (some 503) e) ∧
    (path.mode = .rpc → ∀ e, env.requestData log = .error e → Loggable env none e)

variable {data headers : Obj}

theorem dispatch_of_event (hmode : path.mode = .event) : dispatch env path data headers =
    guarded env (some 503) (do
      Traced.perform env.publishMessage (.published path.topic path.action data headers)
      send env (statusOr path.successStatusCode 202) none .undefined) := by
  unfold dispatch
  rw [hmode]
  rfl

theorem dispatch_of_rpc (hmode : path.mode = .rpc) : dispatch env path data headers =
    guarded env none (do
      let resp ← Traced.perform env.requestData
        (.requested path.topic path.action data headers path.timeout)
      if resp.nullish then send env (statusOr path.successStatusCode 204) none .undefined
      else send env (statusOr path.redirect (statusOr path.successStatusCode 200)) none resp) := by
  unfold dispatch
  rw [hmode]
  rfl

theorem answers_dispatch (hres : ExpressResponse env) (herrors : ThrowsErrors env) (hlog : Unanswered log)
    (hbroker : RejectsLoggably env path log) :
    Answers env (dispatch env path data headers) log := by
  cases hmode : path.mode with
  -- an event is answered once it is published
  | event =>
      rw [dispatch_of_event hmode]
      cases hanswer : env.publishMessage log with
      | ok u =>
          refine answers_served hres herrors (.published path.topic path.action data headers (.ok u)) _ _
            hlog.unsent rfl rfl (Traced.bind_of_ok (a := u) ?_)
          simp [Traced.perform, hanswer]
      | error e =>
          refine answers_guarded hres
            [.published path.topic path.action data headers (.error e)] e
            (Traced.bind_of_error ?_) (.concat hlog.unsent rfl rfl) (by simp [sent])
            (hbroker.1 hmode e hanswer)
          simp [Traced.perform, hanswer]
  | rpc =>
      rw [dispatch_of_rpc hmode]
      cases hanswer : env.requestData log with
      | ok resp =>
          have hrun : Traced.perform env.requestData
              (.requested path.topic path.action data headers path.timeout) log = (.ok resp,
                log ++ [.requested path.topic path.action data headers path.timeout (.ok resp)]) := by
            simp [Traced.perform, hanswer]
          -- an empty answer has no body
          cases hnull : resp.nullish with
          | true =>
              refine answers_served hres herrors
                (.requested path.topic path.action data headers path.timeout (.ok resp))
                (statusOr path.successStatusCode 204) .undefined hlog.unsent rfl rfl ?_
              rw [Traced.bind_of_ok hrun, hnull, if_pos rfl]
          | false =>
              refine answers_served hres herrors
                (.requested path.topic path.action data headers path.timeout (.ok resp))
                (statusOr path.redirect (statusOr path.successStatusCode 200)) resp
                hlog.unsent rfl rfl ?_
              rw [Traced.bind_of_ok hrun, hnull, if_neg Bool.false_ne_true]
      | error e =>
          refine answers_guarded hres
            [.requested path.topic path.action data headers path.timeout (.error e)] e
            (Traced.bind_of_error ?_) (.concat hlog.unsent rfl rfl) (by simp [sent])
            (hbroker.2 hmode e hanswer)
          simp [Traced.perform, hanswer]
  -- a mode that is not known is an error of the handler's own
  | other mode =>
      have hfound : ∃ envelope, HasEnvelope env
          (.error { name := "Error", message := s!"Invalid mode '{mode}' for path definition" }) none envelope :=
        hasEnvelope_named (.inl rfl) none
      have hsame : dispatch env path data headers log = sendError env
          (.error { name := "Error", message := s!"Invalid mode '{mode}' for path definition" }) none log := by
        unfold dispatch
        rw [hmode]
        rfl
      obtain ⟨run, hrun, hone⟩ := answers_sendError hres hlog hfound
      exact ⟨run, hsame.trans hrun, hone⟩

theorem dispatch_of_not_rejectsLoggably (data headers : Obj) (hres : ExpressResponse env)
    (hlog : Unanswered log)
    (hbroker : ¬ RejectsLoggably env path log) :
    ∃ e log', dispatch env path data headers log = (.error e, log') := by
  have hcases : (path.mode = .event ∧ ∃ e, env.publishMessage log = .error e ∧ ¬ Loggable env (some 503) e) ∨
      (path.mode = .rpc ∧ ∃ e, env.requestData log = .error e ∧ ¬ Loggable env none e) := by
    by_contra hno
    simp only [not_or, not_and, not_exists, not_not] at hno
    exact hbroker hno
  rcases hcases with ⟨hmode, e, hanswer, herror⟩ | ⟨hmode, e, hanswer, herror⟩
  · rw [dispatch_of_event hmode]
    refine guarded_of_not_loggable hres (Traced.bind_of_error ?_)
      (.concat (e := .published path.topic path.action data headers (.error e)) hlog.unsent rfl rfl)
      herror
    simp [Traced.perform, hanswer]
  · rw [dispatch_of_rpc hmode]
    refine guarded_of_not_loggable hres (Traced.bind_of_error ?_)
      (.concat (e := .requested path.topic path.action data headers path.timeout (.error e))
        hlog.unsent rfl rfl) herror
    simp [Traced.perform, hanswer]

end Answer

/-! ## The handler -/

/-- What keeps the unguarded statements from throwing on this request. -/
structure Handled (env : GatewayEnv) (path : PathDefinition) (req : Request) : Prop where
  claims : ClaimsMap env path req
  upload : ∀ authData error, Authenticated env path req authData → env.parseMultipart req = .error error →
    prints (error.prop "name") = true ∧ error.reads = true
  acl : ∀ authData parsed error log, Authenticated env path req authData → env.parseMultipart req = .ok parsed →
    path.allowAnonymous ≠ some true → authorize env path parsed authData [] = (.ok (.error error), log) →
    prints (error.prop "name") = true ∧ error.reads = true
  files : ∀ authData parsed log, Admits env path req [] authData parsed log →
    FilesEncode (filesOf path parsed)
  broker : ∀ authData parsed log, Admits env path req [] authData parsed log →
    RejectsLoggably env path log

section Handler

variable {env : GatewayEnv} {path : PathDefinition} {req parsed : Request}
  {authData : ProcessedAuthData} {log : List GatewayEvent}

theorem quiet_of_asksAcl {e : GatewayEvent} (h : asksAcl e = true) :
    sent e = false ∧ brokerDone e = false := by
  cases e <;> simp_all [asksAcl, sent, brokerDone]

/-- After the authorization step nothing has gone out and the broker has not been called. -/
theorem unanswered_of_asksAcl {run : List GatewayEvent} (h : ∀ e ∈ run, asksAcl e = true) :
    Unanswered run := by
  refine ⟨by simpa using fun e he => (quiet_of_asksAcl (h e he)).1, ?_⟩
  cases hlast : run.getLast? with
  | none => rfl
  | some e => exact (quiet_of_asksAcl (h e (List.mem_of_getLast? hlast))).2

theorem admits_asksAcl (h : Admits env path req [] authData parsed log) :
    ∀ e ∈ log, asksAcl e = true := by
  obtain ⟨-, -, ⟨-, rfl⟩ | ⟨-, hrun⟩⟩ := h
  · simp
  · obtain ⟨verdict, run, hrun', hasked⟩ := Gate.authorize_run env path parsed authData []
    obtain ⟨-, rfl⟩ := Prod.mk.inj (hrun.symm.trans hrun')
    exact hasked

/-- Questions to the ACL service before an answered run leave it answered. -/
theorem Answers.after_asksAcl {p q : Gateway Unit} {run : List GatewayEvent}
    (hrun : ∀ e ∈ run, asksAcl e = true) (hsame : p [] = q run) (h : Answers env q run) :
    Answers env p [] := by
  obtain ⟨run', hq, e, hsent, hkind⟩ := h
  refine ⟨run ++ run', by rw [hsame, hq, List.nil_append], e, ?_, hkind.imp_right ?_⟩
  · rw [List.filter_append, hsent,
      List.filter_eq_nil_iff.mpr fun e' he' => by simp [(quiet_of_asksAcl (hrun e' he')).1],
      List.nil_append]
  · rintro ⟨pre, served, rfl, hserved⟩
    exact ⟨run ++ pre, served, (List.append_assoc _ _ _).symm, hserved⟩

/-- An admitted request is dispatched when its files encode, and otherwise the handler throws. -/
theorem pathHandler_dispatch (hadmits : Admits env path req [] authData parsed log) {data : Obj}
    (hdata : buildPayload path parsed = .ok data) :
    pathHandler env path req [] =
      dispatch env path data (brokerHeaders env parsed path authData) log := by
  rw [Gate.pathHandler_of_admits hadmits]
  unfold forward
  rw [hdata]
  exact Traced.bind_of_ok rfl

theorem pathHandler_files (hadmits : Admits env path req [] authData parsed log)
    (hfiles : ¬ FilesEncode (filesOf path parsed)) :
    ∃ e log', pathHandler env path req [] = (.error e, log') := by
  rw [← buildPayload_isOk_iff] at hfiles
  cases hdata : buildPayload path parsed with
  | ok data => exact absurd ⟨data, hdata⟩ hfiles
  | error e =>
      refine ⟨e, log, ?_⟩
      rw [Gate.pathHandler_of_admits hadmits]
      unfold forward
      rw [hdata]
      exact Traced.bind_of_error rfl

/-- A refusal answers once, if the error it is about can be answered and logged. -/
theorem answers_refused (hres : ExpressResponse env) (h : Handled env path req) {run : List GatewayEvent}
    {refusal : Gateway Unit} (hasked : ∀ e ∈ run, asksAcl e = true)
    (hrefused : Gate.Refused env path req [] run refusal) : Answers env refusal run := by
  have hfresh := unanswered_of_asksAcl hasked
  have hplain (name message : String) (status : Nat) :
      ∃ envelope, HasEnvelope env (.value (.obj [("name", .str name), ("message", .str message)])) (some status)
        envelope :=
    hasEnvelope_override_iff.mpr rfl
  cases hrefused with
  | unauthorized => exact answers_sendError hres hfresh (hplain _ _ _)
  | forbidden => exact answers_sendError hres hfresh (hplain _ _ _)
  | upload hauth hparse =>
      obtain ⟨hname, hreads⟩ := h.upload _ _ hauth hparse
      obtain ⟨run', hrun, hone⟩ := answers_sendError hres hfresh (hasEnvelope_override_iff.mpr hname)
      refine ⟨run', (Traced.bind_of_ok hrun).trans ?_, hone⟩
      rw [Thrown.messageLine_of_reads hreads]
      rfl
  | unavailable hauth hparse hgated hfailed =>
      have hlogs := h.acl _ _ _ _ hauth hparse hgated hfailed
      obtain ⟨run', hrun, hone⟩ := answers_sendError hres hfresh
        (hplain "ServiceUnavailable" "Authorization service unavailable" 503)
      refine ⟨run', ?_, hone⟩
      rw [← hrun, aclUnavailable, (Thrown.nameLine_isOk_iff _).mpr hlogs]
      exact Traced.bind_of_ok rfl

theorem answers_pathHandler (hres : ExpressResponse env) (herrors : ThrowsErrors env)
    (h : Handled env path req) : Answers env (pathHandler env path req) [] := by
  obtain ⟨authData, hauth⟩ := (processAuthData_isOk_iff env path req).mpr h.claims
  by_cases hadmits : ∃ authData parsed log, Admits env path req [] authData parsed log
  · obtain ⟨authData, parsed, log, hadmits⟩ := hadmits
    obtain ⟨data, hdata⟩ := (buildPayload_isOk_iff path parsed).mpr (h.files _ _ _ hadmits)
    have hasked := admits_asksAcl hadmits
    exact .after_asksAcl hasked (pathHandler_dispatch hadmits hdata)
      (answers_dispatch hres herrors (unanswered_of_asksAcl hasked) (h.broker _ _ _ hadmits))
  · obtain ⟨run, refusal, hasked, hrefused, hrun⟩ := Gate.pathHandler_refused hauth
      fun authData parsed log' h' => hadmits ⟨authData, parsed, log', h'⟩
    exact .after_asksAcl hasked hrun (answers_refused hres h hasked hrefused)

/-! ### What throws -/

/-- The upload's error is answered only if its name prints, and logged only if its message does. -/
theorem rejectUpload_ok {error : Thrown} {log' : List GatewayEvent}
    (h : rejectUpload env error log = (.ok (), log')) :
    prints (error.prop "name") = true ∧ error.reads = true := by
  obtain ⟨_, log₁, hsend, hline⟩ := Traced.returns_of_bind h
  constructor
  · by_contra hname
    have henvelope : ¬ ∃ envelope, HasEnvelope env error (some (uploadStatus error)) envelope :=
      fun h => hname (hasEnvelope_override_iff.mp h)
    obtain ⟨message, hthrows⟩ := sendError_of_not_hasEnvelope henvelope log
    cases hsend.symm.trans hthrows
  · by_contra hreads
    rw [Bool.not_eq_true] at hreads
    rw [Thrown.messageLine_of_not_reads hreads] at hline
    cases hline

/-- The error of the ACL service is answered only behind its log line. -/
theorem aclUnavailable_ok {error : Thrown} {log' : List GatewayEvent}
    (h : aclUnavailable env error log = (.ok (), log')) :
    prints (error.prop "name") = true ∧ error.reads = true := by
  obtain ⟨_, log₁, hline, -⟩ := Traced.returns_of_bind h
  exact error.nameLine_isOk_iff.mp (Prod.mk.inj hline).1

end Handler

/-! ### A body that is never answered -/

/-- `GateContext.openGateway` behind a `res` that answers once. -/
def webGateway : GatewayEnv :=
  { GateContext.openGateway with
    respond := fun log => if log.any sent then
        .error (.error { name := "Error", message := "Cannot set headers after they are sent" })
      else .ok () }

theorem expressResponse_webGateway : ExpressResponse webGateway where
  once log h := ⟨_, if_pos h⟩
  envelope log h _ := by
    show (if log.any sent then _ else _) = _
    rw [h, if_neg Bool.false_ne_true]

theorem throwsErrors_webGateway : ThrowsErrors webGateway := by
  intro log e h
  change (if log.any sent then _ else _) = _ at h
  split at h
  · obtain rfl := Except.error.inj h
    exact ⟨_, rfl, rfl⟩
  · cases h

end NestAmqp.Proxy.Responses
