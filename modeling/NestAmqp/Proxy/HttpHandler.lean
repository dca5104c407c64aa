/-
# NestAmqp.Proxy.HttpHandler — what the gateway does with a request on a registered path.

The route handler that `HttpHandlerService.registerPath` installs, from authentication to the
response: the gate, the payload merge of the five data sources, the headers handed to the broker, and
the single error envelope.  Of the log lines only those about an error are here, which throw over an error
that does not print; the metrics are left out: they follow the response and read the run, they never change it.
-/
import NestAmqp.Js.PlainObject
import NestAmqp.Proxy.HttpAuthHandler

namespace NestAmqp.Proxy.HttpHandler

open NestAmqp.Js
open NestAmqp.Lib
open NestAmqp.Acl

/-! ## The error envelope -/

/-- `ERROR_STATUS`. -/
def errorStatus : List (String × Nat) :=
  [("BadRequestError", 400), ("InvalidParamsErrror", 400), ("UnauthorizedError", 401),
   ("ForbiddenError", 403), ("NotFoundError", 404), ("ConflictError", 409),
   ("RpcTimeoutError", 504), ("RetryExhaustedError", 502)]

/-- The envelope body of `sendError`, with its status and code; a name that does not print throws. -/
def errorEnvelope (devEnv : Bool) (error : Thrown) (statusCodeOverride : Option Nat) :
    Except Thrown (Nat × String × Value) := do
  let code ← plainName error
  let statusCode := (statusCodeOverride.or (errorStatus.lookup code)).getD 500
  let message := match error with
    | .value (.str s) => .str s
    | _ => (error.prop "message").coalesce (.str "Internal server error")
  let body : Obj :=
    [("statusCode", .num statusCode), ("code", .str code), ("message", message)]
  let details := match error.prop "details" with
    | .undefined => if devEnv && (error.prop "stack").truthy then error.prop "stack" else .undefined
    | d => d
  return (statusCode, code, .obj (match details with
    | .undefined => body
    | d => Obj.set body "details" d))

/-- Write a response. -/
def send (env : GatewayEnv) (status : Nat) (errorCode : Option String) (body : Value) :
    Gateway Unit :=
  Traced.perform env.respond (.responded status errorCode body)

/-- What `res.status` throws over a name that `ERROR_STATUS` inherits: what is found there is no status. -/
def invalidStatus (code : String) : Thrown := .typeError
  ("Invalid status code: " ++ (if code = "__proto__" then "\x7b\x7d" else "undefined") ++
    ". Status code must be an integer.")

/-- `HttpHandlerService.sendError`. -/
def sendError (env : GatewayEnv) (error : Thrown) (statusCodeOverride : Option Nat) :
    Gateway Unit := do
  let (statusCode, code, body) ← Traced.ofExcept (errorEnvelope env.devEnv error statusCodeOverride)
  if statusCodeOverride.isNone && objectPrototype.contains code then Traced.throw (invalidStatus code)
  else send env statusCode (some code) body

/-! ## The payload -/

/-- The merge each data source stands for, before route parameters are written over it. -/
def mergeSources (dataSource : DataSource) (req : Request) : Obj :=
  let body := req.body.getD []
  match dataSource with
  | .body => Obj.spread req.params body
  | .query => Obj.spread req.params req.query
  | .params => req.params
  | .bodyQuery => Obj.assign (Obj.spread req.params req.query) body
  | .queryBody => Obj.assign (Obj.spread req.params body) req.query
  | .other _ => Obj.assign (Obj.spread req.params body) req.query

/-- `o.toString('binary')` on what stands in a file's `buffer`; an uploaded buffer is carried as its
binary text, which the conversion leaves alone. -/
def binaryText : Value → Except Thrown String
  | .undefined => .error (.typeError "Cannot read properties of undefined (reading 'toString')")
  | .null => .error (.typeError "Cannot read properties of null (reading 'toString')")
  | .num _ | .real _ =>
      .error (.error { name := "RangeError", message := "toString() radix must be between 2 and 36" })
  | .bool b => .ok (Value.bool b).toStr
  | .str s => .ok s
  | .obj fields =>
      if prints (.obj fields) then .ok (Value.obj fields).toStr
      else .error (.typeError "o.toString is not a function")
  | .arr items =>
      if prints (.arr items) then .ok (Value.arr items).toStr
      else .error (.typeError "Cannot convert object to primitive value")

/-- `file.buffer = file.buffer.toString('binary')`. -/
def withBinaryText : Value → Except Thrown Value
  | .obj fields => do
      let text ← binaryText (Obj.get fields "buffer")
      return .obj (Obj.set fields "buffer" (.str text))
  | .undefined => .error (.typeError "Cannot read properties of undefined (reading 'buffer')")
  | .null => .error (.typeError "Cannot read properties of null (reading 'buffer')")
  | _ => .error (.typeError "Cannot read properties of undefined (reading 'toString')")

/-- The loop over `data['$files']`. -/
def encodeFiles (data : Obj) : Except Thrown Obj :=
  match Obj.get data "$files" with
  | .arr files => do return Obj.set data "$files" (.arr (← files.mapM withBinaryText))
  | .str s =>
      -- a text iterates by characters, and a character has no `buffer`
      if s = "" then .ok data
      else .error (.typeError "Cannot read properties of undefined (reading 'toString')")
  | v => if v.truthy then .error (.typeError "data.$files is not iterable") else .ok data

/-- The `data` object of the handler: the merged sources, the raw body and the uploaded files, then
the route parameters once more. -/
def buildPayload (path : PathDefinition) (req : Request) : Except Thrown Obj :=
  let data := mergeSources path.dataSource req
  let data := if path.parseRaw then Obj.assign data [("$raw", req.rawBody)] else data
  let data := match req.files with
    | none => data
    | some files => Obj.assign data [("$files", .arr files)]
  encodeFiles (Obj.assign data req.params)

/-! ## The headers -/

/-- `HttpHandlerService.httpHeaders`: the client headers a path forwards, found without regard to
case. -/
def httpHeaders (env : GatewayEnv) (req : Request) (path : PathDefinition) : Obj :=
  path.forwardHeaders.foldl (fun data kv =>
    let header := trim (env.toLowerCase kv.2)
    match req.headers.find? fun h => trim (env.toLowerCase h.1) == header with
    | none => data
    | some (_, v) =>
        let key := if truthyText env.headerPrefix then template env.headerPrefix ++ kv.1 else kv.1
        Obj.set data key v) []

/-- Client headers first, then the authenticated claims, then the gateway's own metadata. -/
def brokerHeaders (env : GatewayEnv) (req : Request) (path : PathDefinition)
    (authData : ProcessedAuthData) : Obj :=
  let authHeaders := Obj.delete authData "success"
  Obj.assign (Obj.assign (httpHeaders env req path) authHeaders)
    [("X-GTW-METHOD", .str req.method), ("X-GTW-PATH", .str path.path)]

/-! ## Dispatch -/

/-- `code || fallback` on an optional status code. -/
def statusOr (code : Option Nat) (fallback : Nat) : Nat := (code.filter (· != 0)).getD fallback

/-- `` `'${error.name}' ${error.message}` `` in a log line: reading it off `null` or `undefined` throws. -/
def errorLine (error : Thrown) : Gateway Unit :=
  if error.nullish then Traced.throw (error.unreadable "name") else Traced.ofExcept error.nameLine

/-- The `event` branch: the request is answered once the broker has taken charge of the message. -/
def dispatchEvent (env : GatewayEnv) (path : PathDefinition) (data headers : Obj) : Gateway Unit :=
  Traced.tryCatch
    (do
      Traced.perform env.publishMessage (.published path.topic path.action data headers)
      send env (statusOr path.successStatusCode 202) none .undefined)
    fun error => do
      sendError env error (some 503)
      errorLine error

/-- The `rpc` branch: `null` and `undefined` are the empty answer, any other reply is content, sent
as a redirect when the path says so. -/
def dispatchRpc (env : GatewayEnv) (path : PathDefinition) (data headers : Obj) : Gateway Unit :=
  Traced.tryCatch
    (do
      let resp ← Traced.perform env.requestData
        (.requested path.topic path.action data headers path.timeout)
      if resp.nullish then send env (statusOr path.successStatusCode 204) none .undefined
      else send env (statusOr path.redirect (statusOr path.successStatusCode 200)) none resp)
    fun error => do
      sendError env error none
      errorLine error

/-- The mode switch, inside the handler's own `try`. -/
def dispatch (env : GatewayEnv) (path : PathDefinition) (data headers : Obj) : Gateway Unit :=
  Traced.tryCatch
    (match path.mode with
      | .event => dispatchEvent env path data headers
      | .rpc => dispatchRpc env path data headers
      | .other mode => Traced.throw
          (.error { name := "Error", message := s!"Invalid mode '{mode}' for path definition" }))
    fun error => do
      errorLine error
      sendError env error none

/-- What follows the gate: build the payload and the headers, then dispatch. -/
def forward (env : GatewayEnv) (path : PathDefinition) (req : Request)
    (authData : ProcessedAuthData) : Gateway Unit := do
  let data ← Traced.ofExcept (buildPayload path req)
  dispatch env path data (brokerHeaders env req path authData)

/-- The authorization step: `some true` lets the request through, `some false` and a failing ACL
service do not. -/
def authorize (env : GatewayEnv) (path : PathDefinition) (req : Request)
    (authData : ProcessedAuthData) : Gateway (Except Thrown Bool) :=
  let ctx := HttpAuthHandler.extractResourceContext req
  Traced.tryCatch
    (do return .ok (← HttpAuthHandler.checkActions env authData path (some ctx)))
    fun error => pure (.error error)

/-- A request whose provider does not accept it. -/
def refuseUnauthorized (env : GatewayEnv) : Gateway Unit :=
  sendError env (.value (.obj [("name", .str "Unauthorized"), ("message", .str "Unauthorized")])) (some 401)

/-- A limit that is exceeded is told from a body that does not parse. -/
def uploadStatus (error : Thrown) : Nat := if (error.prop "name").isText "MulterError" then 413 else 400

/-- An upload the multipart parser rejects: the answer, then the log line. -/
def rejectUpload (env : GatewayEnv) (error : Thrown) : Gateway Unit := do
  sendError env error (some (uploadStatus error))
  Traced.ofExcept error.messageLine

/-- An ACL check that fails: the log line, then the answer. -/
def aclUnavailable (env : GatewayEnv) (error : Thrown) : Gateway Unit := do
  Traced.ofExcept error.nameLine
  sendError env (.value (.obj [("name", .str "ServiceUnavailable"),
    ("message", .str "Authorization service unavailable")])) (some 503)

/-- A caller without the path's actions. -/
def refuseForbidden (env : GatewayEnv) : Gateway Unit :=
  sendError env (.value (.obj [("name", .str "Forbidden"), ("message", .str "Forbidden")])) (some 403)

/-- The handler behind authentication: the upload, the authorization, and the way to the broker. -/
def handleAuthenticated (env : GatewayEnv) (path : PathDefinition) (req : Request)
    (authData : ProcessedAuthData) : Gateway Unit :=
  match env.parseMultipart req with
  | .error error => rejectUpload env error
  | .ok req =>
      if path.allowAnonymous = some true then forward env path req authData
      else do
        match ← authorize env path req authData with
        | .error error => aclUnavailable env error
        | .ok false => refuseForbidden env
        | .ok true => forward env path req authData

/-- The handler installed for a path. -/
def pathHandler (env : GatewayEnv) (path : PathDefinition) (req : Request) : Gateway Unit := do
  let authData ← Traced.ofExcept (HttpAuthHandler.processAuthData env req path)
  if path.allowAnonymous ≠ some true ∧ truthyText path.auth ∧
      (Obj.get authData "success").truthy = false then refuseUnauthorized env
  else handleAuthenticated env path req authData

/-! ## What answering and forwarding emit -/

section Emits

variable {P : GatewayEvent → Prop}

theorem emits_send (hresponded : ∀ status code body sent, P (.responded status code body sent))
    (env : GatewayEnv) (status : Nat) (errorCode : Option String) (body : Value) :
    (send env status errorCode body).Emits P :=
  Traced.emits_perform fun _ => hresponded _ _ _ _

theorem emits_sendError (hresponded : ∀ status code body sent, P (.responded status code body sent))
    (env : GatewayEnv) (error : Thrown) (code : Option Nat) : (sendError env error code).Emits P := by
  refine Traced.emits_bind_ofExcept fun envelope _ => ?_
  dsimp only
  split
  · exact Traced.emits_throw _ _
  · exact emits_send hresponded env _ _ _

theorem emits_errorLine (error : Thrown) : (errorLine error).Emits P := by
  unfold errorLine
  split
  · exact Traced.emits_throw _ _
  · exact Traced.emits_ofExcept _ _

/-- The authorization step asks about the context of the request, and does nothing else. -/
theorem emits_authorize (env : GatewayEnv) (path : PathDefinition) (req : Request)
    (authData : ProcessedAuthData) (hasked : ∀ userId actions answer, P (.aclChecked userId
      (some (HttpAuthHandler.extractResourceContext req)) actions answer)) :
    (authorize env path req authData).Emits P := by
  refine Traced.Emits.tryCatch ?_ fun _ => Traced.emits_pure _ _
  refine Traced.Emits.bind ?_ fun _ => Traced.emits_pure _ _
  unfold HttpAuthHandler.checkActions HttpAuthHandler.checkActionsForClaims
  dsimp only
  -- every branch but the last decides without asking
  repeat' split
  all_goals first
    | exact Traced.emits_pure _ _
    | exact Traced.emits_perform fun _ => hasked _ _ _

/-- Dispatching hands over the payload and the headers it is given, and answers. -/
theorem emits_dispatch (hresponded : ∀ status code body sent, P (.responded status code body sent))
    {env : GatewayEnv} {path : PathDefinition} {data headers : Obj}
    (hpublished : path.mode = .event → ∀ answer,
      P (.published path.topic path.action data headers answer))
    (hrequested : path.mode = .rpc → ∀ answer,
      P (.requested path.topic path.action data headers path.timeout answer)) :
    (dispatch env path data headers).Emits P := by
  have handled (error : Thrown) (code : Option Nat) :
      (do sendError env error code; errorLine error : Gateway Unit).Emits P :=
    (emits_sendError hresponded env error code).bind fun _ => emits_errorLine error
  unfold dispatch
  refine Traced.Emits.tryCatch ?_ fun error =>
    (emits_errorLine error).bind fun _ => emits_sendError hresponded env error none
  split
  next hmode =>
    refine Traced.Emits.tryCatch ?_ fun error => handled error (some 503)
    exact (Traced.emits_perform (hpublished hmode)).bind fun _ => emits_send hresponded env _ _ _
  next hmode =>
    refine Traced.Emits.tryCatch ?_ fun error => handled error none
    refine (Traced.emits_perform (hrequested hmode)).bind fun resp => ?_
    split
    · exact emits_send hresponded env _ _ _
    · exact emits_send hresponded env _ _ _
  next => exact Traced.emits_throw _ _

/-- Forwarding hands over the built payload and the merged headers, and answers. -/
theorem emits_forward (env : GatewayEnv) (path : PathDefinition) (req : Request)
    (authData : ProcessedAuthData)
    (hresponded : ∀ status code body sent, P (.responded status code body sent))
    (hpublished : ∀ data, buildPayload path req = .ok data → path.mode = .event → ∀ answer,
      P (.published path.topic path.action data (brokerHeaders env req path authData) answer))
    (hrequested : ∀ data, buildPayload path req = .ok data → path.mode = .rpc → ∀ answer,
      P (.requested path.topic path.action data (brokerHeaders env req path authData) path.timeout
        answer)) :
    (forward env path req authData).Emits P :=
  Traced.emits_bind_ofExcept fun data hdata =>
    emits_dispatch hresponded (hpublished data hdata) (hrequested data hdata)

end Emits

end NestAmqp.Proxy.HttpHandler
