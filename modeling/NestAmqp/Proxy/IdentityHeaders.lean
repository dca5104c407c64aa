/-
# NestAmqp.Proxy.IdentityHeaders — which identity headers a client can set for itself.

The handler spreads the forwarded client headers first and the mapped claims over them, so a claim
that is there always wins.  A claim that is not there protects nothing: then a `forwardHeaders` entry
that lands on the same name decides what the microservice reads as identity.  This module computes
the headers handed to the broker name by name, and says exactly for which names two requests with the
same `Authorization` header cannot be told apart.
-/
import NestAmqp.Proxy.Gate

namespace NestAmqp.Proxy.IdentityHeaders

open NestAmqp.Js
open NestAmqp.Lib
open HttpHandler
open Gate (Admits BrokerCall verifiedToken)
open HttpAuthHandler (authorization processAuthData findProvider mapClaim mapClaims)

/-! ## Authentication reads the `Authorization` header only -/

theorem processAuthData_congr (env : GatewayEnv) (path : PathDefinition) {req req' : Request}
    (h : authorization req = authorization req') :
    processAuthData env req path = processAuthData env req' path := by
  unfold processAuthData HttpAuthHandler.checkBasicAuth HttpAuthHandler.checkJwt
    HttpAuthHandler.checkStringCompare
  simp only [h]

/-! ## The mapped claims, name by name -/

/-- The claim an entry of the claim map reads. -/
def claimOf (decoded : Value) (entry : String) : Value := read decoded ((split entry ':').headD "")

/-- The header an entry of the claim map writes; `none` when the entry has no colon. -/
def claimHeader (toUpperCase : String → String) (authConfig : HandlerAuthConfig) (entry : String) :
    Option String :=
  (split entry ':')[1]?.map fun dest => template authConfig.headerPrefix ++ toUpperCase (trim dest)

/-- The token carries a claim for the header `name`. -/
def Carries (toUpperCase : String → String) (authConfig : HandlerAuthConfig) (decoded : Value)
    (name : String) : Prop :=
  decoded.truthy = true ∧ ∃ entry ∈ authConfig.jwtMap.getD [],
    claimHeader toUpperCase authConfig entry = some name ∧ (claimOf decoded entry).truthy = true

section MapClaims

variable {toUpperCase : String → String} {authConfig : HandlerAuthConfig} {decoded : Value} {out out' : Obj}

theorem mapClaim_eq (toUpperCase : String → String) (authConfig : HandlerAuthConfig) (decoded : Value)
    (out : Obj) (entry : String) : mapClaim toUpperCase authConfig decoded out entry =
      if (claimOf decoded entry).truthy then
        match claimHeader toUpperCase authConfig entry with
        | none => .error (.typeError "Cannot read properties of undefined (reading 'trim')")
        | some name => .ok (Obj.set out name (claimOf decoded entry))
      else .ok out := by
  unfold mapClaim claimHeader
  dsimp only
  cases (split entry ':')[1]? <;> rfl

/-- One entry either has no claim to map, or writes its header. -/
theorem mapClaim_spec {entry : String} (h : mapClaim toUpperCase authConfig decoded out entry = .ok out') :
    ((claimOf decoded entry).truthy = false ∧ out' = out) ∨
      ((claimOf decoded entry).truthy = true ∧ ∃ name,
        claimHeader toUpperCase authConfig entry = some name ∧
        out' = Obj.set out name (claimOf decoded entry)) := by
  rw [mapClaim_eq] at h
  split at h
  next hclaim =>
    split at h
    next => cases h
    next name hname => exact .inr ⟨hclaim, name, hname, (Except.ok.inj h).symm⟩
  next hclaim => exact .inl ⟨Bool.eq_false_iff.mpr hclaim, (Except.ok.inj h).symm⟩

/-- The fold over the claim map has a header exactly when it started with it, or an entry with a
claim writes it. -/
theorem own_foldlM_mapClaim (name : String) {jwtMap : List String}
    (h : jwtMap.foldlM (mapClaim toUpperCase authConfig decoded) out = .ok out') :
    Obj.own out' name ≠ none ↔ Obj.own out name ≠ none ∨ ∃ entry ∈ jwtMap,
      claimHeader toUpperCase authConfig entry = some name ∧ (claimOf decoded entry).truthy = true := by
  induction jwtMap generalizing out with
  | nil =>
      obtain rfl : out = out' := Except.ok.inj h
      simp
  | cons entry jwtMap ih =>
      rw [List.foldlM_cons] at h
      cases hstep : mapClaim toUpperCase authConfig decoded out entry with
      | error e => simp [hstep, bind, Except.bind] at h
      | ok mid =>
          simp only [hstep, bind, Except.bind] at h
          rw [ih h]
          simp only [List.mem_cons, exists_eq_or_imp]
          rcases mapClaim_spec hstep with ⟨hclaim, rfl⟩ | ⟨hclaim, written, hname, rfl⟩
          · simp [hclaim]
          · by_cases hsame : name = written
            · simp [hsame, hname, hclaim]
            · have hne : ¬ written = name := fun e => hsame e.symm
              simp [hsame, hname, hne]

/-- Apart from the internal flag, the mapped claims have a header exactly when the token carries a
claim for it. -/
theorem own_mapClaims (h : mapClaims toUpperCase authConfig decoded = .ok out) {name : String}
    (hname : name ≠ "success") :
    Obj.own out name ≠ none ↔ Carries toUpperCase authConfig decoded name := by
  unfold mapClaims at h
  unfold Carries
  split at h
  next htruthy =>
    split at h
    next hmap =>
      obtain rfl := Except.ok.inj h
      simp [hmap, Obj.own_cons, hname]
    next jwtMap hmap =>
      rw [own_foldlM_mapClaim name h, hmap]
      simp [Obj.own_cons, hname, htruthy]
  next hfalsy =>
    obtain rfl := Except.ok.inj h
    simp [HttpAuthHandler.denied, Obj.own_cons, hname, hfalsy]

end MapClaims

/-! ## The forwarded client headers, name by name -/

/-- The name a `forwardHeaders` entry writes. -/
def forwardedName (env : GatewayEnv) (key : String) : String :=
  if truthyText env.headerPrefix then template env.headerPrefix ++ key else key

theorem forwardedName_injective (env : GatewayEnv) {k j : String}
    (h : forwardedName env k = forwardedName env j) : k = j := by
  unfold forwardedName at h
  split at h
  · exact String.append_right_inj _ |>.mp h
  · exact h

/-- The client header a `forwardHeaders` entry reads, without regard to case. -/
def sourceHeader (env : GatewayEnv) (header : String) : String := trim (env.toLowerCase header)

/-- What a request has under the header an entry reads. -/
def clientValue (env : GatewayEnv) (req : Request) (header : String) : Option Value :=
  (req.headers.find? fun h => trim (env.toLowerCase h.1) == sourceHeader env header).map Prod.snd

/-- One entry of `forwardHeaders`: written when the client sent its header. -/
def forwardHeader (env : GatewayEnv) (req : Request) (data : Obj) (kv : String × String) : Obj :=
  match clientValue env req kv.2 with
  | none => data
  | some v => Obj.set data (forwardedName env kv.1) v

theorem httpHeaders_eq (env : GatewayEnv) (req : Request) (path : PathDefinition) :
    httpHeaders env req path = path.forwardHeaders.foldl (forwardHeader env req) [] := by
  unfold httpHeaders
  congr 1
  funext data kv
  unfold forwardHeader clientValue sourceHeader
  dsimp only
  cases req.headers.find? fun h => trim (env.toLowerCase h.1) == trim (env.toLowerCase kv.2) <;> rfl

theorem own_forwardHeader (env : GatewayEnv) (req : Request) (data : Obj) (kv : String × String)
    (name : String) : Obj.own (forwardHeader env req data kv) name =
      if name = forwardedName env kv.1 then (clientValue env req kv.2).or (Obj.own data name)
      else Obj.own data name := by
  unfold forwardHeader
  cases clientValue env req kv.2 <;> simp

/-- Entries for other names leave a name alone. -/
theorem own_foldl_untouched (env : GatewayEnv) (req : Request) {name : String}
    {entries : List (String × String)} (h : ∀ kv ∈ entries, forwardedName env kv.1 ≠ name)
    (data : Obj) : Obj.own (entries.foldl (forwardHeader env req) data) name = Obj.own data name := by
  induction entries generalizing data with
  | nil => rfl
  | cons kv entries ih =>
      rw [List.foldl_cons, ih fun kv' h' => h kv' (.tail _ h'), own_forwardHeader,
        if_neg fun e => h kv (.head _) e.symm]

/-- An entry decides its name alone: the keys of `forwardHeaders` are distinct. -/
theorem own_httpHeaders {env : GatewayEnv} {req : Request} {path : PathDefinition}
    (hkeys : (path.forwardHeaders.map Prod.fst).Nodup) {kv : String × String}
    (hmem : kv ∈ path.forwardHeaders) :
    Obj.own (httpHeaders env req path) (forwardedName env kv.1) = clientValue env req kv.2 := by
  obtain ⟨before, after, hsplit⟩ := List.append_of_mem hmem
  rw [hsplit, List.map_append, List.map_cons, List.nodup_append, List.nodup_cons] at hkeys
  obtain ⟨-, ⟨hafter, -⟩, hbefore⟩ := hkeys
  rw [httpHeaders_eq, hsplit, List.foldl_append, List.foldl_cons, own_foldl_untouched,
    own_forwardHeader, if_pos rfl, own_foldl_untouched]
  · simp
  · intro kv' h' e
    exact hbefore _ (List.mem_map_of_mem h') _ (.head _) (forwardedName_injective env e)
  · intro kv' h' e
    exact hafter (forwardedName_injective env e ▸ List.mem_map_of_mem h')

theorem own_foldl_congr {env : GatewayEnv} {req req' : Request} {name : String}
    {entries : List (String × String)} (h : ∀ kv ∈ entries, forwardedName env kv.1 = name →
      clientValue env req kv.2 = clientValue env req' kv.2) {data data' : Obj}
    (hdata : Obj.own data name = Obj.own data' name) :
    Obj.own (entries.foldl (forwardHeader env req) data) name =
      Obj.own (entries.foldl (forwardHeader env req') data') name := by
  induction entries generalizing data data' with
  | nil => exact hdata
  | cons kv entries ih =>
      rw [List.foldl_cons, List.foldl_cons]
      apply ih fun kv' h' => h kv' (.tail _ h')
      rw [own_forwardHeader, own_forwardHeader]
      split
      next heq => rw [h kv (.head _) heq.symm, hdata]
      next => exact hdata

/-- Two requests agree on a name when they agree under the header of every entry for it. -/
theorem own_httpHeaders_congr {env : GatewayEnv} {req req' : Request} {path : PathDefinition}
    {name : String} (h : ∀ kv ∈ path.forwardHeaders, forwardedName env kv.1 = name →
      clientValue env req kv.2 = clientValue env req' kv.2) :
    Obj.own (httpHeaders env req path) name = Obj.own (httpHeaders env req' path) name := by
  rw [httpHeaders_eq, httpHeaders_eq]
  exact own_foldl_congr h rfl

/-- The merged headers: the gateway's own two, then the claims, then the client's. -/
theorem own_brokerHeaders (env : GatewayEnv) (req : Request) (path : PathDefinition)
    (authData : ProcessedAuthData) (name : String) :
    Obj.own (brokerHeaders env req path authData) name =
      if name = "X-GTW-PATH" then some (.str path.path)
      else if name = "X-GTW-METHOD" then some (.str req.method)
      else ((if name = "success" then none else Obj.own authData name).or
        (Obj.own (httpHeaders env req path) name)) := by
  unfold brokerHeaders
  rw [Obj.own_assign, Obj.own_assign, Obj.own_delete, Obj.own_cons, Obj.own_cons, Obj.own_nil]
  by_cases hpath : name = "X-GTW-PATH"
  · simp [hpath]
  · by_cases hmethod : name = "X-GTW-METHOD" <;> simp [hpath, hmethod]

/-! ## What a run hands to the broker -/

/-- The headers of an event that hands a message to the broker. -/
def headers? : GatewayEvent → Option Obj
  | .published _ _ _ headers _ => some headers
  | .requested _ _ _ headers _ _ => some headers
  | .aclChecked .. | .responded .. => none

/-- Some run of the handler on `req` hands `headers` to the broker. -/
def Hands (env : GatewayEnv) (path : PathDefinition) (req : Request) (headers : Obj) : Prop :=
  ∃ log, ∃ e ∈ (pathHandler env path req).added log, headers? e = some headers

section Hands

variable {env : GatewayEnv} {path : PathDefinition} {req parsed : Request}
  {log log' : List GatewayEvent} {authData : ProcessedAuthData} {headers data : Obj}

/-- Headers reach the broker only from an admitted request, merged as the handler merges them. -/
theorem Hands.admitted (h : Hands env path req headers) :
    ∃ authData parsed log log', Admits env path req log authData parsed log' ∧
      headers = brokerHeaders env parsed path authData ∧
      (∃ data, buildPayload path parsed = .ok data) ∧
      (path.mode = .event ∨ path.mode = .rpc) := by
  obtain ⟨log, e, he, hheaders⟩ := h
  have hcall : BrokerCall e := by cases e <;> simp_all [headers?, BrokerCall]
  obtain ⟨pre, post, hsplit⟩ := List.append_of_mem he
  obtain ⟨authData, parsed, run, between, hadmits, -, hforward⟩ :=
    (Gate.pathHandler_brokerCall env path req log).added.2 pre e post hsplit hcall
  have hmerged := hforward (fun e => ∀ hs, headers? e = some hs →
      hs = brokerHeaders env parsed path authData ∧
        (∃ data, buildPayload path parsed = .ok data) ∧ (path.mode = .event ∨ path.mode = .rpc))
    (emits_forward env path parsed authData (fun _ _ _ _ hs h => by cases h)
      (fun data hdata hmode _ hs h => ⟨(Option.some.inj h).symm, ⟨data, hdata⟩, .inl hmode⟩)
      fun data hdata hmode _ hs h => ⟨(Option.some.inj h).symm, ⟨data, hdata⟩, .inr hmode⟩)
  exact ⟨authData, parsed, log, _, hadmits, hmerged headers hheaders⟩

/-- A dispatched message carries the headers it is given. -/
theorem performs_dispatch (env : GatewayEnv) {path : PathDefinition}
    (hmode : path.mode = .event ∨ path.mode = .rpc) (data headers : Obj) :
    (dispatch env path data headers).Performs fun e => headers? e = some headers := by
  have answers (error : Thrown) (code : Option Nat) :
      (do sendError env error code; errorLine error : Gateway Unit).Emits fun _ => True :=
    (emits_sendError (fun _ _ _ _ => trivial) env error code).bind fun _ => emits_errorLine error
  unfold dispatch
  refine Traced.Performs.tryCatch (R := fun _ => True) ?_ fun error =>
    (emits_errorLine error).bind fun _ => emits_sendError (fun _ _ _ _ => trivial) env error none
  rcases hmode with hmode | hmode
  · rw [hmode]
    refine Traced.Performs.tryCatch ?_ fun error => answers error (some 503)
    refine Traced.Performs.bind (R := fun _ => True) (Traced.performs_perform fun _ => rfl) ?_
    exact fun _ => emits_send (fun _ _ _ _ => trivial) env _ _ _
  · rw [hmode]
    refine Traced.Performs.tryCatch ?_ fun error => answers error none
    refine Traced.Performs.bind (R := fun _ => True) (Traced.performs_perform fun _ => rfl) ?_
    intro resp
    split
    · exact emits_send (fun _ _ _ _ => trivial) env _ _ _
    · exact emits_send (fun _ _ _ _ => trivial) env _ _ _

theorem Hands.of_admits (h : Admits env path req log authData parsed log')
    (hdata : buildPayload path parsed = .ok data) (hmode : path.mode = .event ∨ path.mode = .rpc) :
    Hands env path req (brokerHeaders env parsed path authData) := by
  obtain ⟨run, rfl⟩ := Gate.admits_log h
  obtain ⟨t, hlog, e, he, hheaders⟩ := performs_dispatch env hmode data
    (brokerHeaders env parsed path authData) (log ++ run)
  refine ⟨log, e, ?_, hheaders⟩
  have hforward : forward env path parsed authData (log ++ run) =
      dispatch env path data (brokerHeaders env parsed path authData) (log ++ run) := by
    unfold forward
    rw [hdata]
    exact Traced.bind_of_ok rfl
  rw [Traced.added, Gate.pathHandler_of_admits h, hforward, hlog, List.append_assoc, List.drop_left]
  exact List.mem_append_right _ he

end Hands

/-! ## Requests as Node delivers them -/

/-- A header name as Node presents it: not empty, ASCII in lower case, without blanks. -/
def HeaderName (s : String) : Prop :=
  s ≠ "" ∧ ∀ c ∈ s.toList, c.toNat < 128 ∧ c.toLower = c ∧ isBlank c = false

theorem headerName_of_all {s : String} (hempty : s ≠ "")
    (hall : (s.toList.all fun c => c.toNat < 128 && (c.toLower == c && !isBlank c)) = true) : HeaderName s :=
  ⟨hempty, fun c hc => by simpa using List.all_eq_true.mp hall c hc⟩

theorem HeaderName.trimmed {s : String} (h : HeaderName s) : trim s = s := by
  have hkeep (cs : List Char) (hcs : ∀ c ∈ cs, isBlank c = false) : cs.dropWhile isBlank = cs := by
    cases cs with
    | nil => rfl
    | cons c cs => simp [hcs c (.head _)]
  unfold trim
  rw [hkeep _ fun c hc => (h.2 c hc).2.2, hkeep _ fun c hc => (h.2 c (List.mem_reverse.mp hc)).2.2,
    List.reverse_reverse, String.ofList_toList]

/-- `toLowerCase` leaves a header name as it is. -/
def KeepsLowerCase (env : GatewayEnv) : Prop := ∀ s, HeaderName s → env.toLowerCase s = s

/-- Lower-casing the ASCII letters does. -/
theorem HeaderName.toLowerCase {s : String} (h : HeaderName s) : Js.toLowerCase s = s := by
  have hlower : s.toList.map Char.toLower = s.toList :=
    (List.map_congr_left (g := id) fun c hc => (h.2 c hc).2.1).trans (List.map_id _)
  unfold Js.toLowerCase
  rw [hlower, String.ofList_toList]

/-- A request as Node delivers it: every header name is normalised and stands once. -/
structure WellFormed (req : Request) : Prop where
  names : ∀ h ∈ req.headers, HeaderName h.1
  nodup : (req.headers.map Prod.fst).Nodup

/-- The request presents the `Authorization` header `auth`, or none. -/
def Presents (req : Request) (auth : Option String) : Prop :=
  Obj.own req.headers "authorization" = auth.map .str

theorem Presents.authorization {req : Request} {auth : Option String} (h : Presents req auth) :
    authorization req = auth := by
  unfold HttpAuthHandler.authorization Obj.get
  rw [show Obj.own req.headers "authorization" = auth.map .str from h]
  cases auth <;> rfl

theorem find?_eq_own {env : GatewayEnv} (hlower : KeepsLowerCase env) {headers : Obj}
    (hnames : ∀ h ∈ headers, HeaderName h.1) (hnodup : (headers.map Prod.fst).Nodup) (k : String) :
    (headers.find? fun h => trim (env.toLowerCase h.1) == k).map Prod.snd = Obj.own headers k := by
  induction headers with
  | nil => rfl
  | cons h headers ih =>
      obtain ⟨j, v⟩ := h
      have hj : HeaderName j := hnames _ (.head _)
      rw [List.map_cons, List.nodup_cons] at hnodup
      rw [List.find?_cons, hlower j hj, hj.trimmed, Obj.own_cons,
        ← ih (fun h' hh => hnames h' (.tail _ hh)) hnodup.2]
      by_cases hj : j = k
      · subst hj
        have hnone : Obj.own headers j = none := by
          rw [Obj.own_eq_none_iff]
          intro kv hkv heq
          exact hnodup.1 (List.mem_map.mpr ⟨kv, hkv, heq⟩)
        rw [ih (fun h' hh => hnames h' (.tail _ hh)) hnodup.2, hnone]
        simp
      · have hne : (j == k) = false := by simpa using hj
        simp [hne, Ne.symm hj]

theorem WellFormed.clientValue {env : GatewayEnv} (hlower : KeepsLowerCase env) {req : Request}
    (h : WellFormed req) (header : String) :
    clientValue env req header = Obj.own req.headers (sourceHeader env header) :=
  find?_eq_own hlower h.names h.nodup _

/-- The body of the request is a multipart form. -/
def IsMultipart (req : Request) : Prop :=
  ∃ s, Obj.own req.headers "content-type" = some (.str s) ∧
    "multipart/".toList <+: (trim (toLowerCase s)).toList

/-- The multipart parser fills in form fields and files, and passes over every other request. -/
structure MultipartParser (env : GatewayEnv) : Prop where
  keeps : ∀ req parsed, env.parseMultipart req = .ok parsed →
    parsed.headers = req.headers ∧ parsed.method = req.method
  plain : ∀ req, ¬ IsMultipart req → env.parseMultipart req = .ok req

/-! ## Two requests with one token -/

/-- Any two requests that present `auth` and differ only in their other headers hand the same value,
or the same absence, of the header `name` to the broker. -/
def SameIdentity (env : GatewayEnv) (path : PathDefinition) (auth : Option String) (name : String) :
    Prop :=
  ∀ (req req' : Request) (headers headers' : Obj), WellFormed req → WellFormed req' →
    req' = { req with headers := req'.headers } → Presents req auth → Presents req' auth →
    Hands env path req headers → Hands env path req' headers' →
    Obj.own headers name = Obj.own headers' name

/-- The header `name` is out of the client's reach: the gateway writes it itself, the token carries a
claim for it, or no client header but `Authorization` is forwarded under it. -/
def OutOfReach (env : GatewayEnv) (path : PathDefinition) (authConfig : HandlerAuthConfig)
    (auth : Option String) (name : String) : Prop :=
  name = "X-GTW-PATH" ∨ name = "X-GTW-METHOD" ∨
    (name ≠ "success" ∧ ∃ decoded, verifiedToken env authConfig auth = .ok decoded ∧
      Carries env.toUpperCase authConfig decoded name) ∨
    ∀ kv ∈ path.forwardHeaders, forwardedName env kv.1 = name → HeaderName (sourceHeader env kv.2) →
      sourceHeader env kv.2 = "authorization"

/-- The path lets some plain request with this `Authorization` header through. -/
def LetsThrough (env : GatewayEnv) (path : PathDefinition) (auth : Option String) : Prop :=
  ∃ req headers, WellFormed req ∧ ¬ IsMultipart req ∧ Presents req auth ∧ Hands env path req headers

section Identity

variable {env : GatewayEnv} {path : PathDefinition} {authConfig : HandlerAuthConfig}
  {auth : Option String} {name : String}

theorem sameIdentity_of_outOfReach (hparser : MultipartParser env) (hlower : KeepsLowerCase env)
    (hfind : findProvider env path.auth = some authConfig)
    (htype : authConfig.type = .jwt ∨ authConfig.type = .jwks)
    (h : OutOfReach env path authConfig auth name) : SameIdentity env path auth name := by
  intro req req' headers headers' hwf hwf' hdiffer hpresents hpresents' hhands hhands'
  obtain ⟨authData, parsed, _, _, ⟨⟨hauth, -⟩, hparse, -⟩, rfl, -, -⟩ := hhands.admitted
  obtain ⟨authData', parsed', _, _, ⟨⟨hauth', -⟩, hparse', -⟩, rfl, -, -⟩ := hhands'.admitted
  obtain ⟨hheaders, hmethod⟩ := hparser.keeps _ _ hparse
  obtain ⟨hheaders', hmethod'⟩ := hparser.keeps _ _ hparse'
  obtain rfl : authData = authData' := by
    rw [processAuthData_congr env path
      (hpresents.authorization.trans hpresents'.authorization.symm), hauth'] at hauth
    exact (Except.ok.inj hauth).symm
  have hsame : parsed.method = parsed'.method := by rw [hmethod, hmethod', hdiffer]
  rw [own_brokerHeaders, own_brokerHeaders, hsame]
  rcases h with rfl | rfl | ⟨hname, decoded, hdecoded, hcarries⟩ | hforward
  · rfl
  · rfl
  · -- the claim is there, and claims are spread over the client's headers
    rw [Gate.processAuthData_token hfind htype, hpresents.authorization, hdecoded] at hauth
    obtain ⟨v, hv⟩ := Option.ne_none_iff_exists'.mp ((own_mapClaims hauth hname).mpr hcarries)
    simp [hname, hv]
  · -- nothing the client can vary is forwarded under this name
    have hclient (r p : Request) (hh : p.headers = r.headers) (hw : WellFormed r) (header : String) :
        clientValue env p header = Obj.own r.headers (sourceHeader env header) := by
      rw [← hw.clientValue hlower]
      unfold clientValue
      rw [hh]
    rw [own_httpHeaders_congr fun kv hkv hk => ?_]
    rw [hclient req parsed hheaders hwf, hclient req' parsed' hheaders' hwf']
    by_cases hsource : HeaderName (sourceHeader env kv.2)
    · rw [hforward kv hkv hk hsource]
      exact hpresents.trans hpresents'.symm
    · have habsent (r : Request) (hw : WellFormed r) :
          Obj.own r.headers (sourceHeader env kv.2) = none := by
        rw [Obj.own_eq_none_iff]
        rintro h hh heq
        exact hsource (heq ▸ hw.names h hh)
      rw [habsent req hwf, habsent req' hwf']

/-! ### A client that sets the header -/

/-- The headers of a request that presents `auth` and nothing else. -/
def bareHeaders (auth : Option String) : Obj := (auth.map fun a => ("authorization", .str a)).toList

/-- The same, with one more header the client has made up. -/
def spoofedHeaders (auth : Option String) (header : String) : Obj :=
  bareHeaders auth ++ [(header, .str "spoofed")]

theorem own_bareHeaders (auth : Option String) (k : String) :
    Obj.own (bareHeaders auth) k = if k = "authorization" then auth.map .str else none := by
  cases auth <;> simp [bareHeaders, Obj.own_cons]

theorem own_spoofedHeaders (auth : Option String) (header k : String) :
    Obj.own (spoofedHeaders auth header) k = if k = header then some (.str "spoofed")
      else if k = "authorization" then auth.map .str else none := by
  rw [spoofedHeaders, Obj.own_concat, own_bareHeaders]

theorem headerName_authorization : HeaderName "authorization" := headerName_of_all (by decide) rfl

theorem headerName_spoofed : HeaderName "spoofed" := headerName_of_all (by decide) rfl

theorem not_mem_bareHeaders {auth : Option String} {header : String} (h : header ≠ "authorization") :
    ∀ kv ∈ bareHeaders auth, kv.1 ≠ header := by
  rw [← Obj.own_eq_none_iff, own_bareHeaders, if_neg h]

theorem wellFormed_bareHeaders (req : Request) (auth : Option String) :
    WellFormed { req with headers := bareHeaders auth } := by
  cases auth with
  | none => exact ⟨by simp [bareHeaders], by simp [bareHeaders]⟩
  | some a =>
      refine ⟨?_, by simp [bareHeaders]⟩
      rintro h (_ | ⟨_, ⟨⟩⟩)
      exact headerName_authorization

theorem wellFormed_spoofedHeaders (req : Request) (auth : Option String) {header : String}
    (hname : HeaderName header) (hother : header ≠ "authorization") :
    WellFormed { req with headers := spoofedHeaders auth header } := by
  have hbare := wellFormed_bareHeaders req auth
  constructor
  · intro hd hmem
    rcases List.mem_append.mp hmem with hmem | hmem
    · exact hbare.names hd hmem
    · obtain rfl := List.mem_singleton.mp hmem
      exact hname
  · show ((bareHeaders auth ++ [(header, Value.str "spoofed")]).map Prod.fst).Nodup
    rw [List.map_append, List.nodup_append]
    refine ⟨hbare.nodup, by simp, ?_⟩
    intro k hk k' hk' hsame
    obtain ⟨hd, hhd, rfl⟩ := List.mem_map.mp hk
    obtain rfl : k' = header := List.mem_singleton.mp hk'
    exact not_mem_bareHeaders hother hd hhd hsame

theorem not_isMultipart_bareHeaders (req : Request) (auth : Option String) :
    ¬ IsMultipart { req with headers := bareHeaders auth } := by
  rintro ⟨s, hs, -⟩
  rw [own_bareHeaders, if_neg (by decide)] at hs
  cases hs

theorem not_isMultipart_spoofedHeaders (req : Request) (auth : Option String) (header : String) :
    ¬ IsMultipart { req with headers := spoofedHeaders auth header } := by
  rintro ⟨s, hs, hprefix⟩
  rw [own_spoofedHeaders] at hs
  split at hs
  · obtain rfl : "spoofed" = s := Value.str.inj (Option.some.inj hs)
    rw [headerName_spoofed.toLowerCase, headerName_spoofed.trimmed] at hprefix
    exact absurd hprefix (by decide)
  · rw [if_neg (by decide)] at hs
    cases hs

theorem presents_bareHeaders (req : Request) (auth : Option String) :
    Presents { req with headers := bareHeaders auth } auth := by
  unfold Presents
  rw [own_bareHeaders, if_pos rfl]

theorem presents_spoofedHeaders (req : Request) (auth : Option String) {header : String}
    (hother : header ≠ "authorization") :
    Presents { req with headers := spoofedHeaders auth header } auth := by
  unfold Presents
  rw [own_spoofedHeaders, if_neg hother.symm, if_pos rfl]

/-- Changing the headers beside `Authorization` on a plain request does not stop it. -/
theorem Hands.with_headers (hparser : MultipartParser env) {req : Request} {headers hs : Obj}
    (hplain : ¬ IsMultipart req) (hpresents : Presents req auth) (h : Hands env path req headers)
    (hplain' : ¬ IsMultipart { req with headers := hs })
    (hpresents' : Presents { req with headers := hs } auth) :
    ∃ authData, processAuthData env { req with headers := hs } path = .ok authData ∧
      Hands env path { req with headers := hs }
        (brokerHeaders env { req with headers := hs } path authData) := by
  obtain ⟨authData, parsed, log, log', ⟨⟨hauth, hpass⟩, hparse, hverdict⟩, -, ⟨data, hdata⟩, hmode⟩ :=
    h.admitted
  obtain rfl : req = parsed := Except.ok.inj ((hparser.plain req hplain).symm.trans hparse)
  have hauth' : processAuthData env { req with headers := hs } path = .ok authData := by
    rw [← hauth]
    exact processAuthData_congr env path
      (hpresents'.authorization.trans hpresents.authorization.symm)
  have hadmits : Admits env path { req with headers := hs } log authData
      { req with headers := hs } log' :=
    ⟨⟨hauth', hpass⟩, hparser.plain _ hplain', hverdict⟩
  exact ⟨authData, hauth', Hands.of_admits hadmits hdata hmode⟩

theorem outOfReach_of_sameIdentity (hparser : MultipartParser env) (hlower : KeepsLowerCase env)
    (hkeys : (path.forwardHeaders.map Prod.fst).Nodup)
    (hfind : findProvider env path.auth = some authConfig)
    (htype : authConfig.type = .jwt ∨ authConfig.type = .jwks)
    (hopen : LetsThrough env path auth) (h : SameIdentity env path auth name) :
    OutOfReach env path authConfig auth name := by
  unfold OutOfReach
  by_contra hreach
  simp only [not_or, not_forall] at hreach
  obtain ⟨hpath, hmethod, hcarried, kv, hkv, rfl, hsource, hother⟩ := hreach
  obtain ⟨req, headers, -, hplain, hpresents, hhands⟩ := hopen
  -- the same request without the client's header and with it
  have hwf := wellFormed_bareHeaders req auth
  have hwf' := wellFormed_spoofedHeaders req auth hsource hother
  have hpresents₁ := presents_bareHeaders req auth
  have hpresents₂ := presents_spoofedHeaders req auth hother
  obtain ⟨authData, hauth, hbare⟩ := hhands.with_headers hparser hplain hpresents
    (not_isMultipart_bareHeaders req auth) hpresents₁
  obtain ⟨authData', hauth', hspoofed⟩ := hhands.with_headers hparser hplain hpresents
    (not_isMultipart_spoofedHeaders req auth _) hpresents₂
  have hsame := h _ _ _ _ hwf hwf' rfl hpresents₁ hpresents₂ hbare hspoofed
  rw [Gate.processAuthData_token hfind htype, hpresents₁.authorization] at hauth
  rw [Gate.processAuthData_token hfind htype, hpresents₂.authorization, hauth] at hauth'
  obtain rfl : authData = authData' := Except.ok.inj hauth'
  obtain ⟨decoded, hdecoded, hmapped⟩ := bind_eq_ok.mp hauth
  have hclaim : (if forwardedName env kv.1 = "success" then none
      else Obj.own authData (forwardedName env kv.1)) = none := by
    split
    · rfl
    · next hne =>
        by_contra hsome
        exact hcarried ⟨hne, decoded, hdecoded, (own_mapClaims hmapped hne).mp hsome⟩
  -- no claim stands over the client's header, so the two runs differ in it
  rw [own_brokerHeaders, own_brokerHeaders, if_neg hpath, if_neg hmethod, if_neg hpath,
    if_neg hmethod, hclaim, Option.none_or, Option.none_or, own_httpHeaders hkeys hkv,
    own_httpHeaders hkeys hkv, hwf.clientValue hlower, hwf'.clientValue hlower, own_bareHeaders,
    own_spoofedHeaders, if_neg hother, if_pos rfl] at hsame
  cases hsame

/-- **Which identity headers the token alone decides.**  On a path with a token provider, a header of
the broker message is the same for all requests with one `Authorization` header when the client
cannot reach it, and only then once any such request is let through. -/
theorem sameIdentity_iff (env : GatewayEnv) (path : PathDefinition) (authConfig : HandlerAuthConfig)
    (auth : Option String) (name : String) (hparser : MultipartParser env) (hlower : KeepsLowerCase env)
    (hkeys : (path.forwardHeaders.map Prod.fst).Nodup)
    (hfind : findProvider env path.auth = some authConfig)
    (htype : authConfig.type = .jwt ∨ authConfig.type = .jwks) :
    (OutOfReach env path authConfig auth name → SameIdentity env path auth name) ∧
      (LetsThrough env path auth →
        (SameIdentity env path auth name ↔ OutOfReach env path authConfig auth name)) := by
  have hkept (h : OutOfReach env path authConfig auth name) : SameIdentity env path auth name :=
    sameIdentity_of_outOfReach hparser hlower hfind htype h
  exact ⟨hkept, fun hopen =>
    ⟨outOfReach_of_sameIdentity hparser hlower hkeys hfind htype hopen, hkept⟩⟩

end Identity

/-! ### An anonymous caller with an identity -/

/-- A gateway that prefixes forwarded headers as its provider prefixes claims. -/
def prefixedGateway : GatewayEnv := { GateContext.openGateway with headerPrefix := some "X-GTW-AUTH-" }

/-- A public route with optional authentication that forwards `x-user`. -/
def publicPath : PathDefinition :=
  { auth := some "jwt", allowAnonymous := some true, forwardHeaders := [("USERID", "x-user")],
    topic := "docs", action := "read" }

/-- The provider of `publicPath`. -/
def tokenProvider : HandlerAuthConfig :=
  { name := "jwt", type := .jwt, uidClaim := some "USERID", jwtMap := some ["sub:userid"],
    headerPrefix := some "X-GTW-AUTH-" }

theorem multipartParser_prefixedGateway : MultipartParser prefixedGateway where
  keeps := by
    rintro req parsed hparse
    obtain rfl : req = parsed := Except.ok.inj hparse
    exact ⟨rfl, rfl⟩
  plain _ _ := rfl

theorem keepsLowerCase_prefixedGateway : KeepsLowerCase prefixedGateway := fun _ => HeaderName.toLowerCase

theorem sameIdentity_iff_publicPath :
    (OutOfReach prefixedGateway publicPath tokenProvider none "X-GTW-AUTH-USERID" →
        SameIdentity prefixedGateway publicPath none "X-GTW-AUTH-USERID") ∧
      (LetsThrough prefixedGateway publicPath none →
        (SameIdentity prefixedGateway publicPath none "X-GTW-AUTH-USERID" ↔
          OutOfReach prefixedGateway publicPath tokenProvider none "X-GTW-AUTH-USERID")) :=
  sameIdentity_iff prefixedGateway publicPath tokenProvider none "X-GTW-AUTH-USERID"
    multipartParser_prefixedGateway keepsLowerCase_prefixedGateway (by decide) rfl (.inl rfl)

/-- Without a token, the client's own `x-user` is what the microservice reads as the caller. -/
theorem not_sameIdentity_anonymous :
    ¬ ∀ (env : GatewayEnv) (path : PathDefinition) (authConfig : HandlerAuthConfig)
      (auth : Option String) (name : String), MultipartParser env → KeepsLowerCase env →
      (path.forwardHeaders.map Prod.fst).Nodup → findProvider env path.auth = some authConfig →
      (authConfig.type = .jwt ∨ authConfig.type = .jwks) →
      (∃ entry ∈ authConfig.jwtMap.getD [], claimHeader env.toUpperCase authConfig entry = some name) →
      SameIdentity env path auth name := by
  intro h
  have hsame := h prefixedGateway publicPath tokenProvider none "X-GTW-AUTH-USERID"
    multipartParser_prefixedGateway keepsLowerCase_prefixedGateway (by decide) rfl (.inl rfl) ⟨_, .head _, by decide⟩
  have hwf : WellFormed { method := "GET", headers := [("x-user", .str "mallory")] } := by
    refine ⟨?_, by simp⟩
    rintro hd (_ | ⟨_, ⟨⟩⟩)
    exact headerName_of_all (by decide) rfl
  have hforged := hsame { method := "GET" } { method := "GET", headers := [("x-user", .str "mallory")] }
    [("X-GTW-METHOD", .str "GET"), ("X-GTW-PATH", .str "/")]
    [("X-GTW-AUTH-USERID", .str "mallory"), ("X-GTW-METHOD", .str "GET"), ("X-GTW-PATH", .str "/")]
    ⟨by simp, by simp⟩ hwf rfl rfl rfl ⟨[], _, .head _, rfl⟩ ⟨[], _, .head _, rfl⟩
  cases hforged

end NestAmqp.Proxy.IdentityHeaders
