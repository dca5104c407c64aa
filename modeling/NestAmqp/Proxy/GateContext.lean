/-
# NestAmqp.Proxy.GateContext — the target the gate authorises and the target the service is sent.

Two functions read the same request: `extractResourceContext` decides for which company and resource
the ACL is asked, and the payload merge decides which company and resource the microservice is told.
The first reads route parameters, then query, then body; the second reads what the path's data source
merges.  This module computes the id each of them ends up with, and says exactly when they agree.
-/
import NestAmqp.Proxy.HttpHandler

namespace NestAmqp.Proxy.GateContext

open NestAmqp.Js
open NestAmqp.Lib
open NestAmqp.Acl
open HttpHandler
open HttpAuthHandler (extractResourceContext)

/-! ## The payload, key by key -/

/-- The value a data source gives a key that no route parameter carries. -/
def sourceValue (dataSource : DataSource) (q b : Option Value) : Option Value :=
  match dataSource with
  | .body => b
  | .query => q
  | .params => none
  | .bodyQuery => b.or q
  | .queryBody | .other _ => q.or b

theorem own_mergeSources (dataSource : DataSource) (req : Request) (k : String) :
    (Obj.own req.params k).or (Obj.own (mergeSources dataSource req) k) =
      (Obj.own req.params k).or
        (sourceValue dataSource (Obj.own req.query k) (Obj.own (req.body.getD []) k)) := by
  cases dataSource <;> cases hp : Obj.own req.params k <;>
    simp [mergeSources, sourceValue, hp]

theorem own_encodeFiles {data data' : Obj} (h : encodeFiles data = .ok data') {k : String}
    (hk : k ≠ "$files") : Obj.own data' k = Obj.own data k := by
  unfold encodeFiles at h
  split at h
  next files _ =>
    cases hm : files.mapM withBinaryText with
    | error e => simp [hm, bind, Except.bind] at h
    | ok fs =>
        simp only [hm, bind, Except.bind, pure, Except.pure, Except.ok.injEq] at h
        rw [← h, Obj.own_set, if_neg hk]
  next =>
    split at h
    · rw [Except.ok.inj h]
    · cases h
  next =>
    split at h
    · cases h
    · rw [Except.ok.inj h]

/-- Route parameters win in every data source; otherwise the data source decides. -/
theorem own_buildPayload {path : PathDefinition} {req : Request} {data : Obj}
    (h : buildPayload path req = .ok data) {k : String} (hraw : k ≠ "$raw") (hfiles : k ≠ "$files") :
    Obj.own data k = (Obj.own req.params k).or
      (sourceValue path.dataSource (Obj.own req.query k) (Obj.own (req.body.getD []) k)) := by
  unfold buildPayload at h
  rw [own_encodeFiles h hfiles, Obj.own_assign, ← own_mergeSources]
  congr 1
  cases req.files <;> cases path.parseRaw <;> simp [Obj.own_cons, hraw, hfiles]

/-! ## What one run asks and forwards -/

/-- The payload of an event that hands a message to the broker. -/
def payload? : GatewayEvent → Option Obj
  | .published _ _ data _ _ => some data
  | .requested _ _ data _ _ _ => some data
  | _ => none

/-- Every question to the ACL service is about the context of the parsed request, and every message
handed to the broker carries the payload built from it. -/
def AboutRequest (path : PathDefinition) (req : Request) : GatewayEvent → Prop
  | .aclChecked _ ctx _ _ => ctx = some (extractResourceContext req)
  | .published _ _ data _ _ => buildPayload path req = .ok data
  | .requested _ _ data _ _ _ => buildPayload path req = .ok data
  | .responded .. => True

/-- A run of the handler on `req₀` speaks, to the ACL service and to the broker, about the request
that the multipart parser leaves. -/
theorem emits_pathHandler (env : GatewayEnv) (path : PathDefinition) {req₀ req : Request}
    (hparse : env.parseMultipart req₀ = .ok req) :
    (pathHandler env path req₀).Emits (AboutRequest path req) := by
  have answered (error : Thrown) (code : Option Nat) :
      (sendError env error code).Emits (AboutRequest path req) :=
    emits_sendError (fun _ _ _ _ => trivial) env error code
  have forwarded (authData : ProcessedAuthData) :
      (forward env path req authData).Emits (AboutRequest path req) :=
    emits_forward env path req authData (fun _ _ _ _ => trivial) (fun _ hdata _ _ => hdata)
      fun _ hdata _ _ => hdata
  unfold pathHandler
  refine Traced.emits_bind_ofExcept fun authData _ => ?_
  split
  · exact answered _ _
  · unfold handleAuthenticated
    simp only [hparse]
    split
    · exact forwarded authData
    · refine (emits_authorize env path req authData fun _ _ _ => rfl).bind fun verdict => ?_
      split
      · exact (Traced.emits_ofExcept _ _).bind fun _ => answered _ _
      · exact answered _ _
      · exact forwarded authData

/-! ## When the two targets agree -/

/-- The `(companyId, resourceId)` fields of a payload, after normalisation. -/
def payloadTarget (data : Obj) : Target :=
  (norm (Obj.get data "companyId"), norm (Obj.get data "resourceId"))

/-- No value, `undefined` or `null`: what `??` skips. -/
def Missing (v : Option Value) : Prop := (v.getD .undefined).nullish = true

instance (v : Option Value) : Decidable (Missing v) := inferInstanceAs (Decidable (_ = true))

/-- The id a value stands for. -/
def idOf (v : Option Value) : Option String := norm (v.getD .undefined)

/-- The placements of one id in route parameters, query and body for which the gate and the payload
read the same id, by data source.  A route parameter with a value settles it.  Otherwise the gate
takes the query's value and falls back to the body's, so the sources the payload does not read, or
ranks the other way round, must not carry a different id. -/
def IdAgrees (dataSource : DataSource) (p q b : Option Value) : Prop :=
  match p with
  | some v => v.nullish = false ∨ (if Missing q then idOf b = none else idOf q = none)
  | none => match dataSource with
    | .body => Missing q ∨ idOf q = idOf b
    | .query => ¬ Missing q ∨ idOf b = none
    | .params => if Missing q then idOf b = none else idOf q = none
    | .bodyQuery => b = none ∨ Missing q ∨ idOf q = idOf b
    | .queryBody | .other _ => q = none ∨ ¬ Missing q ∨ idOf b = none

/-- `IdAgrees` at the field `k` of a request. -/
def FieldAgrees (dataSource : DataSource) (req : Request) (k : String) : Prop :=
  IdAgrees dataSource (Obj.own req.params k) (Obj.own req.query k)
    (Obj.own (req.body.getD []) k)

@[simp] theorem idOf_none : idOf none = none := rfl

theorem idOf_of_missing {v : Option Value} (h : Missing v) : idOf v = none := norm_of_nullish h

/-- The gate's reading of one id. -/
theorem norm_gate (p q b : Option Value) :
    norm (((p.getD .undefined).coalesce (q.getD .undefined)).coalesce (b.getD .undefined)) =
      if ¬ Missing p then idOf p else if ¬ Missing q then idOf q else idOf b := by
  unfold Missing idOf
  by_cases hp : (p.getD .undefined).nullish = true
  · by_cases hq : (q.getD .undefined).nullish = true
    · simp [hp, hq]
    · simp [hp, Bool.eq_false_iff.mpr hq]
  · simp [Bool.eq_false_iff.mpr hp]

/-- The payload's reading of one id agrees with the gate's exactly under `IdAgrees`. -/
theorem idAgrees_iff (dataSource : DataSource) (p q b : Option Value) :
    (norm (((p.getD .undefined).coalesce (q.getD .undefined)).coalesce (b.getD .undefined)) =
      idOf (p.or (sourceValue dataSource q b))) ↔ IdAgrees dataSource p q b := by
  rw [norm_gate]
  cases p with
  | some v =>
      by_cases hv : v.nullish = true
      · have hmissing : Missing (some v) := hv
        have hnone : idOf (some v) = none := idOf_of_missing hmissing
        simp only [IdAgrees, hmissing, not_true, if_false, Option.some_or, hnone, hv,
          Bool.true_eq_false, false_or]
        by_cases hq : Missing q <;> simp [hq]
      · have hpresent : ¬ Missing (some v) := hv
        simp [IdAgrees, hpresent, Bool.eq_false_iff.mpr hv]
  | none =>
      have hmissing : Missing (none : Option Value) := rfl
      simp only [hmissing, not_true, if_false, Option.none_or]
      by_cases hq : Missing q
      · have hqnone : idOf q = none := idOf_of_missing hq
        cases dataSource <;> cases q <;> cases b <;> simp_all [IdAgrees, sourceValue, eq_comm]
      · have hqsome : q ≠ none := by
          rintro rfl
          exact hq hmissing
        obtain ⟨w, rfl⟩ := Option.ne_none_iff_exists'.mp hqsome
        cases dataSource <;> cases b <;> simp_all [IdAgrees, sourceValue, eq_comm]

theorem field_agrees_iff {path : PathDefinition} {req : Request} {data : Obj}
    (hdata : buildPayload path req = .ok data) {k : String} (hraw : k ≠ "$raw")
    (hfiles : k ≠ "$files") :
    norm (((Obj.get req.params k).coalesce (Obj.get req.query k)).coalesce
        (Obj.get (req.body.getD []) k)) = norm (Obj.get data k) ↔
      FieldAgrees path.dataSource req k := by
  unfold FieldAgrees
  rw [← idAgrees_iff, ← own_buildPayload hdata hraw hfiles]
  rfl

/-- The run asked the ACL service for the resource context `ctx`. -/
def Asked (run : List GatewayEvent) (ctx : AclResourceContext) : Prop :=
  ∃ userId actions answer, .aclChecked userId (some ctx) actions answer ∈ run

/-- The run handed a message with payload `data` to the broker. -/
def Forwarded (run : List GatewayEvent) (data : Obj) : Prop := ∃ e ∈ run, payload? e = some data

/-- What is authorised is what is forwarded: every target the ACL service was asked about is the
target of every payload that reached the broker. -/
def GateMatchesPayload (run : List GatewayEvent) : Prop :=
  ∀ ctx data, Asked run ctx → Forwarded run data → ctx.target = payloadTarget data

theorem Asked.eq {env : GatewayEnv} {path : PathDefinition} {req₀ req : Request}
    (hparse : env.parseMultipart req₀ = .ok req) {log : List GatewayEvent}
    {ctx : AclResourceContext} (h : Asked ((pathHandler env path req₀).added log) ctx) :
    ctx = extractResourceContext req := by
  obtain ⟨userId, actions, answer, hmem⟩ := h
  exact Option.some.inj ((emits_pathHandler env path hparse).of_added hmem)

theorem Forwarded.eq {env : GatewayEnv} {path : PathDefinition} {req₀ req : Request}
    (hparse : env.parseMultipart req₀ = .ok req) {log : List GatewayEvent} {data : Obj}
    (h : Forwarded ((pathHandler env path req₀).added log) data) :
    buildPayload path req = .ok data := by
  obtain ⟨e, hmem, hdata⟩ := h
  have habout := (emits_pathHandler env path hparse).of_added hmem
  cases e <;> simp only [payload?, Option.some.injEq, reduceCtorEq] at hdata
  all_goals
    subst hdata
    exact habout

/-- **The authorised target is the forwarded target exactly when both ids agree.**  For every run of
the handler that asked the ACL service and reached the broker, the targets match iff the request
places `companyId` and `resourceId` as `IdAgrees` allows for the path's data source. -/
theorem gateMatchesPayload_iff (env : GatewayEnv) (path : PathDefinition) (req₀ req : Request)
    (hparse : env.parseMultipart req₀ = .ok req) (log : List GatewayEvent)
    (hasked : ∃ ctx, Asked ((pathHandler env path req₀).added log) ctx)
    (hforwarded : ∃ data, Forwarded ((pathHandler env path req₀).added log) data) :
    GateMatchesPayload ((pathHandler env path req₀).added log) ↔
      FieldAgrees path.dataSource req "companyId" ∧
        FieldAgrees path.dataSource req "resourceId" := by
  obtain ⟨ctx₀, hctx₀⟩ := hasked
  obtain ⟨data₀, hdata₀⟩ := hforwarded
  have hbuilt := hdata₀.eq hparse
  have htargets : (extractResourceContext req).target = payloadTarget data₀ ↔
      FieldAgrees path.dataSource req "companyId" ∧
        FieldAgrees path.dataSource req "resourceId" := by
    rw [AclResourceContext.target, payloadTarget, Prod.mk.injEq]
    exact and_congr (field_agrees_iff hbuilt (by decide) (by decide))
      (field_agrees_iff hbuilt (by decide) (by decide))
  rw [← htargets]
  constructor
  · intro h
    rw [← hctx₀.eq hparse]
    exact h ctx₀ data₀ hctx₀ hdata₀
  · intro h ctx data hctx hdata
    have hsame : data = data₀ := Except.ok.inj ((hdata.eq hparse).symm.trans hbuilt)
    rw [hctx.eq hparse, hsame]
    exact h

/-! ## Two requests -/

/-- A gateway whose only provider verifies every token as user `u1`, whose ACL service grants
everything it is asked, and whose broker and sockets always answer. -/
def openGateway : GatewayEnv where
  find name := if name = "jwt" then
      some { name := "jwt", type := .jwt, uidClaim := some "USERID", jwtMap := some ["sub:userid"],
             headerPrefix := some "X-GTW-AUTH-" }
    else none
  verifyToken _ _ := .ok (.obj [("sub", .str "u1")])
  base64ToAscii s := s
  toUpperCase := toUpperCase
  toLowerCase := toLowerCase
  aclRoleService := some fun _ _ _ _ => .ok true
  parseMultipart req := .ok req
  publishMessage _ := .ok ()
  requestData _ := .ok (.bool true)
  respond _ := .ok ()

/-- A gated `body` route. -/
def gatedPath : PathDefinition :=
  { auth := some "jwt", actions := some (.many ["doc-write"]), dataSource := .body, topic := "docs",
    action := "write" }

/-- A request that names one company in the query and another in the body. -/
def splitRequest : Request :=
  { method := "GET", headers := [("authorization", .str "Bearer t")],
    query := [("companyId", .str "mine")], body := some [("companyId", .str "theirs")] }

/-- The same request with the company in the body only. -/
def bodyRequest : Request :=
  { method := "GET", headers := [("authorization", .str "Bearer t")],
    body := some [("companyId", .str "mine")] }

theorem gateMatchesPayload_bodyRequest :
    GateMatchesPayload ((pathHandler openGateway gatedPath bodyRequest).added []) ↔
      FieldAgrees .body bodyRequest "companyId" ∧ FieldAgrees .body bodyRequest "resourceId" :=
  gateMatchesPayload_iff openGateway gatedPath bodyRequest bodyRequest rfl []
    ⟨_, _, _, _, .head _⟩ ⟨_, _, .tail _ (.head _), rfl⟩

/-- The split request is authorised for `mine` and forwarded for `theirs`. -/
theorem not_gateMatchesPayload_splitRequest :
    ¬ ∀ (env : GatewayEnv) (path : PathDefinition) (req : Request),
      truthyText path.auth = true → (path.actions.map OneOrMany.nonEmpty).getD false = true →
      GateMatchesPayload ((pathHandler env path req).added []) := by
  intro h
  have htarget := h openGateway gatedPath splitRequest rfl rfl { companyId := .str "mine" }
    [("companyId", .str "theirs")] ⟨_, _, _, .head _⟩ ⟨_, .tail _ (.head _), rfl⟩
  exact absurd htarget (by decide)

end NestAmqp.Proxy.GateContext
