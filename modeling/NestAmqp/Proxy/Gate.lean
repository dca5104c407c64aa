/-
# NestAmqp.Proxy.Gate — nothing is forwarded past the gate.

The handler decides in several places: `processAuthData`, its own 401 branch, the multipart parser,
`checkActions` and `checkActionsForClaims`.  This module puts the decision in one predicate,
`Admits`, shows that a run either is admitted and then behaves as `forward` does, or makes no broker
call at all, and reads off what must have happened before any broker call.

The one broker call outside the gate is the metrics point.  `trackMetrics` publishes it when the
response is finished, whatever branch answered, so a refused request produces it too.
-/
import NestAmqp.Proxy.GateContext

namespace NestAmqp.Proxy.Gate

open NestAmqp.Js
open NestAmqp.Lib
open NestAmqp.Acl
open HttpHandler
open GateContext (openGateway gatedPath bodyRequest)
open HttpAuthHandler (authorization processAuthData findProvider mapClaims checkActions
  checkActionsForClaims extractResourceContext)

/-! ## Metrics -/

/-- `gateway.metrics`, and the clock the points are stamped with. -/
structure MetricsSink where
  topic : Option String
  action : Option String
  /-- `Date.now()`. -/
  now : List GatewayEvent → Int

/-- `res.statusCode` and `res.__errorCode` after the responses of a run: every attempt to answer sets
the status, only `sendError` sets the code. -/
def responseStatus (run : List GatewayEvent) : Option Nat × Option String :=
  run.foldl (fun seen e => match e with
    | .responded status errorCode _ _ => (some status, errorCode.or seen.2)
    | _ => seen) (none, none)

/-- `finish` fires once a response has been written out. -/
def finished (run : List GatewayEvent) : Bool :=
  run.any fun e => match e with
    | .responded _ _ _ (.ok ()) => true
    | _ => false

/-- The text of a dispatch mode. -/
def modeText : PathMode → String
  | .event => "event"
  | .rpc => "rpc"
  | .other name => name

/-- The `GatewayMetricPoint` of a finished request. -/
def metricPoint (req : Request) (path : PathDefinition) (startedAt finishedAt : Int)
    (run : List GatewayEvent) : Obj :=
  let (status, code) := responseStatus run
  [("ts", .num finishedAt), ("method", .str req.method), ("route", .str path.path),
   ("name", .str path.name), ("topic", .str path.topic), ("action", .str path.action),
   ("mode", .str (modeText path.mode)), ("status", .num (status.getD 200)),
   ("durationMs", .num (finishedAt - startedAt)),
   ("code", match code with | some c => .str c | none => .undefined)]

/-- The handler as installed: `trackMetrics` first, which adds a point to the broker sink once the
response is finished, then the gate and the forward.  A failing sink is only logged. -/
def servedPath (env : GatewayEnv) (sink : MetricsSink) (path : PathDefinition) (req : Request) :
    Gateway Unit := fun log =>
  let (result, log') := pathHandler env path req log
  let run := log'.drop log.length
  if truthyText sink.topic && truthyText sink.action && finished run then
    let point := metricPoint req path (sink.now log) (sink.now log') run
    (result, log' ++ [.published (template sink.topic) (template sink.action) point []
      (env.publishMessage log')])
  else (result, log')

/-! ## The verified token -/

/-- The verified payload of the token in an `Authorization` header. -/
def verifiedToken (env : GatewayEnv) (authConfig : HandlerAuthConfig) (auth : Option String) :
    Except Thrown Value :=
  HttpAuthHandler.verifyToken env authConfig (auth.bind fun h => (split h ' ')[1]?)

theorem processAuthData_token {env : GatewayEnv} {path : PathDefinition}
    {authConfig : HandlerAuthConfig} (hfind : findProvider env path.auth = some authConfig)
    (htype : authConfig.type = .jwt ∨ authConfig.type = .jwks) (req : Request) :
    processAuthData env req path =
      verifiedToken env authConfig (authorization req) >>= mapClaims env.toUpperCase authConfig := by
  have hauth : truthyText path.auth = true := by
    by_contra hne
    simp [findProvider, hne] at hfind
  unfold processAuthData
  simp only [hauth, not_true, if_false, hfind]
  rcases htype with h | h <;> simp only [h] <;> rfl

/-! ## The authorization step -/

/-- The path asks for no action. -/
def NoActions (path : PathDefinition) : Prop :=
  (path.actions.map OneOrMany.nonEmpty).getD false = false

/-- The actions a path asks for. -/
def actionList (path : PathDefinition) : List String := (path.actions.map OneOrMany.toList).getD []

/-- The caller the claims name under the provider's prefix and `uidClaim`. -/
def callerId (authConfig : HandlerAuthConfig) (uidClaim : String) (authData : ProcessedAuthData) :
    Value :=
  read (.obj authData) (template authConfig.headerPrefix ++ uidClaim)

/-- The path's provider names callers, and the ACL service was asked about the caller in `authData`,
with the path's actions and the context of `req`, and granted it. -/
def Granted (env : GatewayEnv) (path : PathDefinition) (authConfig : HandlerAuthConfig)
    (req : Request) (authData : ProcessedAuthData) (run : List GatewayEvent) : Prop :=
  findProvider env path.auth = some authConfig ∧
    (authConfig.type = .jwt ∨ authConfig.type = .jwks) ∧
    ∃ uidClaim, authConfig.uidClaim = some uidClaim ∧ uidClaim ≠ "" ∧
      (callerId authConfig uidClaim authData).truthy = true ∧
      .aclChecked (callerId authConfig uidClaim authData) (some (extractResourceContext req))
        (actionList path) (.ok true) ∈ run

theorem Granted.mono {env : GatewayEnv} {path : PathDefinition} {authConfig : HandlerAuthConfig}
    {req : Request} {authData : ProcessedAuthData} {run run' : List GatewayEvent}
    (h : Granted env path authConfig req authData run) (hsub : ∀ e ∈ run, e ∈ run') :
    Granted env path authConfig req authData run' := by
  obtain ⟨hfind, htype, uidClaim, huid, hne, hcaller, hmem⟩ := h
  exact ⟨hfind, htype, uidClaim, huid, hne, hcaller, hsub _ hmem⟩

/-- An event that hands something to the broker. -/
def BrokerCall : GatewayEvent → Prop
  | .published .. | .requested .. => True
  | .aclChecked .. | .responded .. => False

theorem toList_isEmpty (actions : OneOrMany) : actions.toList.isEmpty = !actions.nonEmpty := by
  cases actions with
  | one s => by_cases h : s = "" <;> simp [OneOrMany.toList, OneOrMany.nonEmpty, h]
  | many ss => simp [OneOrMany.toList, OneOrMany.nonEmpty]

section Authorize

variable {env : GatewayEnv} {path : PathDefinition} {req : Request} {authData : ProcessedAuthData}

theorem checkActions_spec (env : GatewayEnv) (path : PathDefinition) (req : Request)
    (authData : ProcessedAuthData) :
    (checkActions env authData path (some (extractResourceContext req))).Ensures fun r t =>
      (∀ e ∈ t, ¬ BrokerCall e) ∧
        (r = .ok true →
          NoActions path ∨ ∃ authConfig, Granted env path authConfig req authData t) := by
  have quiet (b : Bool) (hb : b = true → NoActions path) :
      (pure b : Gateway Bool).Ensures fun r t => (∀ e ∈ t, ¬ BrokerCall e) ∧
        (r = .ok true →
          NoActions path ∨ ∃ authConfig, Granted env path authConfig req authData t) := by
    refine Traced.ensures_pure ⟨by simp, fun h => .inl (hb (Except.ok.inj h))⟩
  have denied := quiet false (fun h => by cases h)
  unfold checkActions
  split
  next hactions => exact quiet true fun _ => Bool.eq_false_iff.mpr hactions
  next hactions =>
  split
  next => exact denied
  next =>
  split
  next => exact denied
  next authConfig hfind =>
  unfold checkActionsForClaims
  dsimp only
  split
  next hempty =>
    -- the list is empty only when the path asks for nothing
    refine quiet true fun _ => ?_
    unfold NoActions
    cases hpath : path.actions with
    | none => rfl
    | some actions =>
        rw [hpath] at hempty
        have : actions.toList.isEmpty = true := hempty
        simpa [toList_isEmpty] using this
  next =>
  split
  next => exact denied
  next htype =>
  split
  next => exact denied
  next huid =>
  split
  next => exact denied
  next checkAction _ =>
  split
  next => exact denied
  next hcaller =>
    refine (Traced.ensures_perform _ _).mono ?_
    rintro r t ⟨-, rfl⟩
    refine ⟨by simp [BrokerCall], fun h => .inr ?_⟩
    obtain ⟨uidClaim, huidClaim⟩ : ∃ u, authConfig.uidClaim = some u := by
      cases hc : authConfig.uidClaim with
      | none => simp [hc, truthyText] at huid
      | some u => exact ⟨u, rfl⟩
    have hne : uidClaim ≠ "" := by
      rintro rfl
      simp [huidClaim, truthyText] at huid
    have htoken : authConfig.type = .jwt ∨ authConfig.type = .jwks := by
      by_contra hno
      exact htype (not_or.mp hno)
    rw [huidClaim] at hcaller ⊢
    exact ⟨authConfig, hfind, htoken, uidClaim, huidClaim, hne,
      by simpa [callerId, template] using hcaller, by rw [h]; exact .head _⟩

theorem authorize_spec (env : GatewayEnv) (path : PathDefinition) (req : Request)
    (authData : ProcessedAuthData) :
    (authorize env path req authData).Ensures fun r t => (∀ e ∈ t, ¬ BrokerCall e) ∧
      (r = .ok (.ok true) →
        NoActions path ∨ ∃ authConfig, Granted env path authConfig req authData t) := by
  unfold authorize
  dsimp only
  have hbody := Traced.ensures_bind (checkActions_spec env path req authData)
    (f := fun b => (pure (Except.ok b) : Gateway (Except Thrown Bool)))
    (Q := fun r t => (∀ e ∈ t, ¬ BrokerCall e) ∧
      (r = .ok (.ok true) →
        NoActions path ∨ ∃ authConfig, Granted env path authConfig req authData t))
    (fun b t ht => Traced.ensures_pure (by
      rw [List.append_nil]
      exact ⟨ht.1, fun h => ht.2 (Except.ok.inj h ▸ rfl)⟩))
    (fun e t ht => ⟨ht.1, fun h => by cases h⟩)
  refine Traced.ensures_tryCatch hbody (fun _ _ ht => ht) fun e t ht => Traced.ensures_pure ?_
  rw [List.append_nil]
  exact ⟨ht.1, fun h => by cases h⟩

end Authorize

/-! ## Admission -/

/-- `processAuthData` and the 401 branch let the request through. -/
def Authenticated (env : GatewayEnv) (path : PathDefinition) (req : Request)
    (authData : ProcessedAuthData) : Prop :=
  processAuthData env req path = .ok authData ∧
    ¬ (path.allowAnonymous ≠ some true ∧ truthyText path.auth ∧
      (Obj.get authData "success").truthy = false)

/-- From `log`, the gate lets the request through as `parsed`, leaving the log `log'`. -/
def Admits (env : GatewayEnv) (path : PathDefinition) (req : Request) (log : List GatewayEvent)
    (authData : ProcessedAuthData) (parsed : Request) (log' : List GatewayEvent) : Prop :=
  Authenticated env path req authData ∧ env.parseMultipart req = .ok parsed ∧
    (path.allowAnonymous = some true ∧ log' = log ∨ path.allowAnonymous ≠ some true ∧
      authorize env path parsed authData log = (.ok (.ok true), log'))

section Run

variable {env : GatewayEnv} {path : PathDefinition} {req : Request} {log log' : List GatewayEvent}
  {authData : ProcessedAuthData} {parsed : Request}

/-- An admitted request is forwarded. -/
theorem pathHandler_of_admits (h : Admits env path req log authData parsed log') :
    pathHandler env path req log = forward env path parsed authData log' := by
  obtain ⟨⟨hauth, hpass⟩, hparse, hverdict⟩ := h
  unfold pathHandler
  rw [Traced.bind_of_ok (show Traced.ofExcept (processAuthData env req path) log = (.ok authData, log)
    by rw [hauth]; rfl)]
  rw [if_neg hpass, handleAuthenticated, hparse]
  rcases hverdict with ⟨hanonymous, rfl⟩ | ⟨hgated, hrun⟩
  · simp only [hanonymous, if_true]
  · simp only [hgated, if_false]
    rw [Traced.bind_of_ok hrun]

end Run

/-- An event of the authorization step. -/
def asksAcl : GatewayEvent → Bool
  | .aclChecked .. => true
  | .published .. | .requested .. | .responded .. => false

/-- The authorization step always reaches a verdict: what it throws is caught. -/
theorem authorize_run (env : GatewayEnv) (path : PathDefinition) (req : Request)
    (authData : ProcessedAuthData) (log : List GatewayEvent) :
    ∃ verdict run, authorize env path req authData log = (.ok verdict, log ++ run) ∧
      ∀ e ∈ run, asksAcl e = true := by
  obtain ⟨run, hlog, hrun⟩ := emits_authorize (P := fun e => asksAcl e = true) env path req authData
    (fun _ _ _ => rfl) log
  have hok : ∃ verdict, (authorize env path req authData log).1 = .ok verdict := by
    unfold authorize Traced.tryCatch
    dsimp only
    split
    next verdict log' _ => exact ⟨verdict, rfl⟩
    next e log' _ => exact ⟨.error e, rfl⟩
  obtain ⟨verdict, hverdict⟩ := hok
  exact ⟨verdict, run, Prod.ext hverdict hlog, hrun⟩

/-- How a request that is not admitted ends: its provider does not accept it, its upload does not parse, the
ACL service fails, or its caller lacks the path's actions.  Before that the ACL service may have been asked. -/
inductive Refused (env : GatewayEnv) (path : PathDefinition) (req : Request) (log : List GatewayEvent) :
    List GatewayEvent → Gateway Unit → Prop
  | unauthorized : Refused env path req log [] (refuseUnauthorized env)
  | upload {authData : ProcessedAuthData} {error : Thrown} (hauth : Authenticated env path req authData)
      (hparse : env.parseMultipart req = .error error) : Refused env path req log [] (rejectUpload env error)
  | unavailable {authData : ProcessedAuthData} {parsed : Request} {error : Thrown} {run : List GatewayEvent}
      (hauth : Authenticated env path req authData) (hparse : env.parseMultipart req = .ok parsed)
      (hgated : path.allowAnonymous ≠ some true)
      (hfailed : authorize env path parsed authData log = (.ok (.error error), log ++ run)) :
      Refused env path req log run (aclUnavailable env error)
  | forbidden {run : List GatewayEvent} : Refused env path req log run (refuseForbidden env)

section Refused

variable {env : GatewayEnv} {path : PathDefinition} {req parsed : Request} {log log' : List GatewayEvent}
  {authData : ProcessedAuthData} {error : Thrown}

/-- A refusal only answers. -/
theorem Refused.emits {run : List GatewayEvent} {refusal : Gateway Unit}
    (h : Refused env path req log run refusal) {P : GatewayEvent → Prop}
    (hresponded : ∀ status code body sent, P (.responded status code body sent)) : refusal.Emits P := by
  cases h with
  | unauthorized | forbidden => exact emits_sendError hresponded env _ _
  | upload => exact (emits_sendError hresponded env _ _).bind fun _ => Traced.emits_ofExcept _ _
  | unavailable => exact (Traced.emits_ofExcept _ _).bind fun _ => emits_sendError hresponded env _ _

theorem pathHandler_of_authenticated (h : Authenticated env path req authData) :
    pathHandler env path req log = handleAuthenticated env path req authData log := by
  obtain ⟨hauth, hpass⟩ := h
  unfold pathHandler
  rw [hauth, Traced.bind_of_ok (show Traced.ofExcept _ log = (.ok authData, log) from rfl), if_neg hpass]

theorem pathHandler_upload (h : Authenticated env path req authData)
    (hparse : env.parseMultipart req = .error error) :
    pathHandler env path req log = rejectUpload env error log := by
  rw [pathHandler_of_authenticated h, handleAuthenticated, hparse]

theorem pathHandler_unavailable (h : Authenticated env path req authData)
    (hparse : env.parseMultipart req = .ok parsed) (hgated : path.allowAnonymous ≠ some true)
    (hfailed : authorize env path parsed authData log = (.ok (.error error), log')) :
    pathHandler env path req log = aclUnavailable env error log' := by
  rw [pathHandler_of_authenticated h, handleAuthenticated, hparse]
  simp only [hgated, if_false]
  rw [Traced.bind_of_ok hfailed]

/-- **The gate, once.**  A run that is authenticated or not, but not admitted, ends in a refusal, after at most
the authorization step. -/
theorem pathHandler_refused (hauth : processAuthData env req path = .ok authData)
    (h : ∀ authData parsed log', ¬ Admits env path req log authData parsed log') :
    ∃ run refusal, (∀ e ∈ run, asksAcl e = true) ∧ Refused env path req log run refusal ∧
      pathHandler env path req log = refusal (log ++ run) := by
  by_cases hpass : path.allowAnonymous ≠ some true ∧ truthyText path.auth ∧
      (Obj.get authData "success").truthy = false
  · refine ⟨[], _, nofun, .unauthorized, ?_⟩
    unfold pathHandler
    rw [hauth, Traced.bind_of_ok (show Traced.ofExcept _ log = (.ok authData, log) from rfl), if_pos hpass,
      List.append_nil]
  have hauthenticated : Authenticated env path req authData := ⟨hauth, hpass⟩
  cases hparse : env.parseMultipart req with
  | error e =>
      refine ⟨[], _, nofun, .upload hauthenticated hparse, ?_⟩
      rw [pathHandler_upload hauthenticated hparse, List.append_nil]
  | ok parsed =>
  by_cases hgated : path.allowAnonymous = some true
  · exact absurd ⟨hauthenticated, hparse, .inl ⟨hgated, rfl⟩⟩ (h authData parsed log)
  obtain ⟨verdict, run, hrun, hasked⟩ := authorize_run env path parsed authData log
  match verdict, hrun with
  | .error error, hrun =>
      exact ⟨run, _, hasked, .unavailable hauthenticated hparse hgated hrun,
        pathHandler_unavailable hauthenticated hparse hgated hrun⟩
  | .ok false, hrun =>
      refine ⟨run, _, hasked, .forbidden, ?_⟩
      rw [pathHandler_of_authenticated hauthenticated, handleAuthenticated, hparse]
      simp only [hgated, if_false]
      rw [Traced.bind_of_ok hrun]
  | .ok true, hrun =>
      exact absurd ⟨hauthenticated, hparse, .inr ⟨hgated, hrun⟩⟩ (h authData parsed (log ++ run))

end Refused

/-- A run that is not admitted makes no broker call. -/
theorem pathHandler_quiet (env : GatewayEnv) (path : PathDefinition) (req : Request)
    (log : List GatewayEvent)
    (h : ∀ authData parsed log', ¬ Admits env path req log authData parsed log') :
    (pathHandler env path req).EnsuresAt log fun _ t => ∀ e ∈ t, ¬ BrokerCall e := by
  cases hauth : processAuthData env req path with
  | error e =>
      refine ⟨[], ?_, by simp⟩
      unfold pathHandler
      rw [hauth, Traced.bind_of_error (show Traced.ofExcept _ log = (.error e, log) from rfl),
        List.append_nil]
  | ok authData =>
      obtain ⟨run, refusal, hasked, hrefused, hrun⟩ := pathHandler_refused hauth h
      obtain ⟨t, hlog, hquiet⟩ := hrefused.emits (P := fun e => ¬ BrokerCall e) (fun _ _ _ _ h => h) (log ++ run)
      refine ⟨run ++ t, by rw [hrun, hlog, List.append_assoc], fun e he hcall => ?_⟩
      rcases List.mem_append.mp he with he | he
      · have hacl := hasked e he
        cases e <;> simp_all [asksAcl, BrokerCall]
      · exact hquiet e he hcall

/-! ## What precedes a broker call -/

/-- What the gate has established when it lets a request through, given the events so far: the route
is public, or the provider accepted the request and the ACL granted the path's actions to the caller
that the claims of the verified token name. -/
def Cleared (env : GatewayEnv) (path : PathDefinition) (req : Request) (run : List GatewayEvent) :
    Prop :=
  path.allowAnonymous = some true ∨
    ∃ authData parsed, processAuthData env req path = .ok authData ∧
      env.parseMultipart req = .ok parsed ∧
      (truthyText path.auth = false ∨ (Obj.get authData "success").truthy = true) ∧
      (NoActions path ∨ ∃ authConfig, Granted env path authConfig parsed authData run ∧
        ∃ decoded, verifiedToken env authConfig (authorization req) = .ok decoded ∧
          mapClaims env.toUpperCase authConfig decoded = .ok authData)

/-- The event is the metrics point of a request that has been answered. -/
def MetricsCall (sink : MetricsSink) (path : PathDefinition) (req : Request)
    (run : List GatewayEvent) (e : GatewayEvent) : Prop :=
  truthyText sink.topic = true ∧ truthyText sink.action = true ∧ finished run = true ∧
    ∃ startedAt finishedAt answer, e = .published (template sink.topic) (template sink.action)
      (metricPoint req path startedAt finishedAt run) [] answer

/-- An event that is not in the first part of a trace comes after all of it. -/
theorem prefix_of_split {ε : Type} {t t' pre post : List ε} {e : ε}
    (hsplit : t ++ t' = pre ++ e :: post) (he : e ∉ t) : ∃ between, pre = t ++ between := by
  rcases List.append_eq_append_iff.mp hsplit with ⟨between, hpre, -⟩ | ⟨rest, ht, hrest⟩
  · exact ⟨between, hpre⟩
  · rcases rest with _ | ⟨e', rest⟩
    · exact ⟨[], by rw [ht, List.append_nil, List.append_nil]⟩
    · obtain ⟨rfl, -⟩ := List.cons.inj hrest
      exact absurd (ht ▸ List.mem_append_right _ (.head _)) he

/-- An admission leaves behind what clears the request. -/
theorem Admits.cleared {env : GatewayEnv} {path : PathDefinition} {req parsed : Request}
    {log run : List GatewayEvent} {authData : ProcessedAuthData}
    (h : Admits env path req log authData parsed (log ++ run)) :
    Cleared env path req run ∧ ∀ e ∈ run, ¬ BrokerCall e := by
  obtain ⟨⟨hauth, hpass⟩, hparse, ⟨hanonymous, hlog⟩ | ⟨hgated, hauthorized⟩⟩ := h
  · have hnil : run = [] := List.append_right_eq_self.mp hlog
    exact ⟨.inl hanonymous, by simp [hnil]⟩
  · obtain ⟨hquiet, hgranted⟩ :=
      ((authorize_spec env path parsed authData).at_log log).of_run hauthorized
    refine ⟨.inr ⟨authData, parsed, hauth, hparse, ?_, ?_⟩, hquiet⟩
    · rcases Bool.eq_false_or_eq_true (truthyText path.auth) with hconfigured | hnone
      · refine .inr (Bool.eq_true_of_not_eq_false fun hfailed => ?_)
        exact hpass ⟨hgated, hconfigured, hfailed⟩
      · exact .inl hnone
    · rcases hgranted rfl with hnone | ⟨authConfig, hgranted⟩
      · exact .inl hnone
      · have hclaims := processAuthData_token hgranted.1 hgranted.2.1 req
        exact .inr ⟨authConfig, hgranted, bind_eq_ok.mp (hclaims ▸ hauth)⟩

theorem Cleared.append {env : GatewayEnv} {path : PathDefinition} {req : Request}
    {run : List GatewayEvent} (h : Cleared env path req run) (rest : List GatewayEvent) :
    Cleared env path req (run ++ rest) := by
  obtain hanonymous | ⟨authData, parsed, hauth, hparse, haccepted, hgranted⟩ := h
  · exact .inl hanonymous
  · refine .inr ⟨authData, parsed, hauth, hparse, haccepted, hgranted.imp_right ?_⟩
    rintro ⟨authConfig, hgranted, hclaims⟩
    exact ⟨authConfig, hgranted.mono fun e he => List.mem_append_left _ he, hclaims⟩

theorem admits_log {env : GatewayEnv} {path : PathDefinition} {req parsed : Request}
    {log log' : List GatewayEvent} {authData : ProcessedAuthData}
    (h : Admits env path req log authData parsed log') : ∃ run, log' = log ++ run := by
  obtain ⟨-, -, ⟨-, rfl⟩ | ⟨-, hauthorized⟩⟩ := h
  · exact ⟨[], (List.append_nil _).symm⟩
  · obtain ⟨run, hlog, -⟩ := authorize_spec env path parsed authData log
    rw [hauthorized] at hlog
    exact ⟨run, hlog⟩

/-- A broker call of the handler is one that `forward` makes, after an admission. -/
theorem pathHandler_brokerCall (env : GatewayEnv) (path : PathDefinition) (req : Request)
    (log : List GatewayEvent) :
    (pathHandler env path req).EnsuresAt log fun _ t =>
      ∀ pre e post, t = pre ++ e :: post → BrokerCall e → ∃ authData parsed run between,
        Admits env path req log authData parsed (log ++ run) ∧ pre = run ++ between ∧
          ∀ P, (forward env path parsed authData).Emits P → P e := by
  by_cases h : ∃ authData parsed log', Admits env path req log authData parsed log'
  · obtain ⟨authData, parsed, log', hadmits⟩ := h
    obtain ⟨run, rfl⟩ := admits_log hadmits
    have hforward := pathHandler_of_admits hadmits
    obtain ⟨t', hlog', -⟩ := (emits_forward (P := fun _ => True) env path parsed authData
      (fun _ _ _ _ => trivial) (fun _ _ _ _ => trivial) fun _ _ _ _ => trivial) (log ++ run)
    refine ⟨run ++ t', by rw [hforward, hlog', List.append_assoc], ?_⟩
    intro pre e post hsplit hcall
    -- the authorization step calls no broker, so its events all come first
    obtain ⟨between, rfl⟩ := prefix_of_split hsplit fun he => hadmits.cleared.2 e he hcall
    refine ⟨authData, parsed, run, between, hadmits, rfl, fun P hP => ?_⟩
    obtain ⟨t'', hlog'', hemits⟩ := hP (log ++ run)
    obtain rfl : t' = t'' := List.append_cancel_left (hlog'.symm.trans hlog'')
    rw [List.append_assoc] at hsplit
    exact hemits e (List.append_cancel_left hsplit ▸ List.mem_append_right _ (.head _))
  · obtain ⟨t, hlog, hquiet⟩ := pathHandler_quiet env path req log
      fun authData parsed log' hadmits => h ⟨authData, parsed, log', hadmits⟩
    refine ⟨t, hlog, ?_⟩
    rintro pre e post rfl hcall
    exact absurd hcall (hquiet e (by simp))

/-- Every broker call of the handler comes after the gate has cleared the request. -/
theorem pathHandler_cleared (env : GatewayEnv) (path : PathDefinition) (req : Request)
    (log : List GatewayEvent) :
    (pathHandler env path req).EnsuresAt log fun _ t =>
      ∀ pre e post, t = pre ++ e :: post → BrokerCall e → Cleared env path req pre := by
  obtain ⟨t, hlog, hcalls⟩ := pathHandler_brokerCall env path req log
  refine ⟨t, hlog, fun pre e post hsplit hcall => ?_⟩
  obtain ⟨authData, parsed, run, between, hadmits, rfl, -⟩ := hcalls pre e post hsplit hcall
  exact hadmits.cleared.1.append between

/-- **Nothing is forwarded past the gate.**  In every run of an installed path, each broker call comes
after the gate has cleared the request, or is the metrics point of the finished response. -/
theorem no_forward_past_gate (env : GatewayEnv) (sink : MetricsSink) (path : PathDefinition)
    (req : Request) (log pre post : List GatewayEvent) (e : GatewayEvent)
    (hrun : (servedPath env sink path req log).2 = log ++ (pre ++ e :: post))
    (hcall : BrokerCall e) :
    Cleared env path req pre ∨ MetricsCall sink path req pre e := by
  obtain ⟨t, hlog, hcleared⟩ := pathHandler_cleared env path req log
  unfold servedPath at hrun
  rcases hresult : pathHandler env path req log with ⟨result, log'⟩
  rw [hresult] at hlog hrun
  simp only at hlog
  subst hlog
  simp only [List.drop_left] at hrun
  split at hrun
  next hsink =>
    simp only [List.append_assoc, List.append_cancel_left_eq] at hrun
    simp only [Bool.and_eq_true] at hsink
    -- the last event is the point, every earlier one is the handler's
    rcases List.append_eq_append_iff.mp hrun with ⟨between, rfl, hpoint⟩ | ⟨rest, rfl, hpoint⟩
    · rcases between with _ | ⟨e', between⟩
      · obtain ⟨rfl, -⟩ := List.cons.inj hpoint
        rw [List.append_nil]
        exact .inr ⟨hsink.1.1, hsink.1.2, hsink.2, _, _, _, rfl⟩
      · obtain ⟨-, hnil⟩ := List.cons.inj hpoint
        exact absurd hnil (by simp)
    · rcases rest with _ | ⟨e', rest⟩
      · obtain ⟨rfl, -⟩ := List.cons.inj hpoint
        rw [List.append_nil] at hsink ⊢
        exact .inr ⟨hsink.1.1, hsink.1.2, hsink.2, _, _, _, rfl⟩
      · obtain ⟨rfl, -⟩ := List.cons.inj hpoint
        exact .inl (hcleared pre e rest rfl hcall)
  next =>
    exact .inl (hcleared pre e post (List.append_cancel_left hrun) hcall)

/-- The sink the gateway-admin metrics handler listens on. -/
def metricsSink : MetricsSink := { topic := some "gw-metrics", action := some "track", now := fun _ => 0 }

theorem no_forward_past_gate_bodyRequest :
    Cleared openGateway gatedPath bodyRequest
        [.aclChecked (.str "u1") (some { companyId := .str "mine" }) ["doc-write"] (.ok true)] ∨
      MetricsCall metricsSink gatedPath bodyRequest
        [.aclChecked (.str "u1") (some { companyId := .str "mine" }) ["doc-write"] (.ok true)]
        (.requested "docs" "write" [("companyId", .str "mine")]
          [("X-GTW-AUTH-USERID", .str "u1"), ("X-GTW-METHOD", .str "GET"), ("X-GTW-PATH", .str "/")]
          none (.ok (.bool true))) :=
  no_forward_past_gate openGateway metricsSink gatedPath bodyRequest [] _ _ _ rfl trivial

/-- A request without a token is refused, and the metrics point of the refusal is published. -/
theorem metrics_after_refusal :
    ¬ ∀ (env : GatewayEnv) (sink : MetricsSink) (path : PathDefinition) (req : Request)
      (log pre post : List GatewayEvent) (e : GatewayEvent),
      (servedPath env sink path req log).2 = log ++ (pre ++ e :: post) → BrokerCall e →
      Cleared env path req pre := by
  intro h
  have hcleared := h openGateway metricsSink gatedPath { method := "GET" } []
    [.responded 401 (some "Unauthorized") (.obj [("statusCode", .num 401),
      ("code", .str "Unauthorized"), ("message", .str "Unauthorized")]) (.ok ())] [] _ rfl trivial
  obtain hpublic | ⟨authData, parsed, hauth, -, haccepted, -⟩ := hcleared
  · cases hpublic
  · obtain rfl : HttpAuthHandler.denied = authData := Except.ok.inj hauth
    exact absurd haccepted (by decide)

end NestAmqp.Proxy.Gate
