/-
# NestAmqp.Proxy.HttpAuthHandler — the gateway's authentication and authorization service.

`HttpAuthHandlerService` of the proxy module: `processAuthData` with its four provider types,
`mapClaims`, the resource context of a request, and the action check that asks the ACL service.  The
JWT library, Node's `Buffer` decoding and the ACL service answer through `GatewayEnv`; a question put
to the ACL service is logged, so that results can speak about what it was asked.
-/
import NestAmqp.Js.PlainObject
import NestAmqp.Lib.Traced
import NestAmqp.Acl.AuthMatch

namespace NestAmqp.Proxy

open NestAmqp.Js
open NestAmqp.Lib
open NestAmqp.Acl

/-! ## Requests and paths -/

/-- The parts of an Express request the gateway reads.  `body` is missing when no parser ran; `files`
is set by the multipart parser. -/
structure Request where
  method : String
  headers : Obj := []
  params : Obj := []
  query : Obj := []
  body : Option Obj := none
  rawBody : Value := .undefined
  files : Option (List Value) := none

/-- The data sources the path handler switches on; anything else takes its last branch. -/
inductive DataSource where
  | body | query | params | bodyQuery | queryBody
  | other (name : Option String)
  deriving DecidableEq, Repr

/-- The dispatch mode of a path; anything else is refused when a request arrives. -/
inductive PathMode where
  | event | rpc
  | other (name : String)
  deriving DecidableEq, Repr

/-- `PathDefinition`. -/
structure PathDefinition where
  name : String := ""
  method : String := "GET"
  path : String := "/"
  parseRaw : Bool := false
  topic : String := ""
  action : String := ""
  successStatusCode : Option Nat := none
  dataSource : DataSource := .body
  mode : PathMode := .rpc
  auth : Option String := none
  allowAnonymous : Option Bool := none
  actions : Option OneOrMany := none
  timeout : Option Nat := none
  binary : Bool := false
  headers : Obj := []
  forwardHeaders : List (String × String) := []
  redirect : Option Nat := none
  /-- What `path.name || path.path` holds for the log lines.  Nothing checks that it is a text: a path comes
  from a YAML file or from a service. -/
  label : Value := .str (if name = "" then path else name)

/-- The provider types of `HandlerAuthConfig`. -/
inductive ProviderType where
  | jwt | jwks | basic | strCompare | none
  deriving DecidableEq, Repr

/-- `HandlerAuthConfig`, the fields the handler and the verification of tokens read. -/
structure HandlerAuthConfig where
  name : String
  type : ProviderType
  uidClaim : Option String := none
  jwtMap : Option (List String) := none
  headerPrefix : Option String := none
  secret : Option String := none
  clientSecret : Option String := none
  clientId : Option String := none
  issuer : String := ""
  audience : Option String := none
  algorithms : Option (List String) := none
  jwksUri : Option String := none
  httpsAllowUnauthorized : Option Bool := none

/-- `ProcessedAuthData`: the `success` flag and the mapped claims, in one object. -/
abbrev ProcessedAuthData := Obj

/-! ## Events and environment -/

/-- What a request makes the gateway do, in order. -/
inductive GatewayEvent where
  /-- The ACL service was asked `checkAction(userId, ctx, actions)`. -/
  | aclChecked (userId : Value) (ctx : Option AclResourceContext) (actions : List String)
      (answer : Except Thrown Bool)
  /-- `broker.publishMessage(topic, action, payload, headers)`. -/
  | published (topic action : String) (payload headers : Obj) (answer : Except Thrown Unit)
  /-- `broker.requestData(topic, action, payload, headers, timeout)`. -/
  | requested (topic action : String) (payload headers : Obj) (timeout : Option Nat)
      (answer : Except Thrown Value)
  /-- A response was written; `errorCode` is the code of the error envelope, when it is one. -/
  | responded (status : Nat) (errorCode : Option String) (body : Value) (sent : Except Thrown Unit)

/-- What the handler's collaborators answer. -/
structure GatewayEnv where
  /-- `AuthProviderRegistry.find`, the same throughout a request: a reload that swaps the providers between two
  reads of one request is left out. -/
  find : String → Option HandlerAuthConfig
  /-- `JwtService.verifyTokenSecret` and `verifyTokenJwks`: the decoded payload, if it verifies; the promise
  rejects where a JWKS client is not one. -/
  verifyToken : HandlerAuthConfig → String → Except Thrown Value
  /-- `Buffer.from(s, 'base64').toString('ascii')`. -/
  base64ToAscii : String → String
  /-- `String.prototype.toUpperCase` and `toLowerCase`, with the case tables of Unicode. -/
  toUpperCase : String → String
  toLowerCase : String → String
  /-- The ACL service; `none` when it is not registered. -/
  aclRoleService : Option (List GatewayEvent → Value → Option AclResourceContext → List String →
    Except Thrown Bool)
  /-- The multipart parser: it may fill `body` and `files` of the request. -/
  parseMultipart : Request → Except Thrown Request
  publishMessage : List GatewayEvent → Except Thrown Unit
  requestData : List GatewayEvent → Except Thrown Value
  /-- Writing a response; a socket or a header value can make it throw. -/
  respond : List GatewayEvent → Except Thrown Unit
  /-- `appConfig.environment !== 'production'`. -/
  devEnv : Bool := false
  /-- `gatewayConfig.headerPrefix`. -/
  headerPrefix : Option String := none

/-- A gateway computation. -/
abbrev Gateway := Traced GatewayEvent Thrown

/-! ## Authentication -/

namespace HttpAuthHandler

/-- `{ success: false }`. -/
def denied : ProcessedAuthData := [("success", .bool false)]

/-- `req.headers.authorization`, when it is text. -/
def authorization (req : Request) : Option String :=
  match Obj.get req.headers "authorization" with
  | .str s => some s
  | _ => none

/-- `HttpAuthHandlerService.verifyToken`: only token providers verify anything. -/
def verifyToken (env : GatewayEnv) (authConfig : HandlerAuthConfig) (token : Option String) :
    Except Thrown Value :=
  match token with
  | none => .ok .undefined
  | some token =>
      if token = "" then .ok .undefined
      else match authConfig.type with
        | .jwt | .jwks => env.verifyToken authConfig token
        | _ => .ok .undefined

/-- One `source:dest` entry of a claim map; an entry without a colon throws once its claim is set. -/
def mapClaim (toUpperCase : String → String) (authConfig : HandlerAuthConfig) (decoded : Value)
    (out : ProcessedAuthData) (entry : String) : Except Thrown ProcessedAuthData :=
  let parts := split entry ':'
  -- only the half behind the colon is trimmed
  let claim := read decoded (parts.headD "")
  if claim.truthy then
    match parts[1]? with
    | none => .error (.typeError "Cannot read properties of undefined (reading 'trim')")
    | some dest =>
        .ok (Obj.set out (template authConfig.headerPrefix ++ toUpperCase (trim dest)) claim)
  else .ok out

/-- `HttpAuthHandlerService.mapClaims`. -/
def mapClaims (toUpperCase : String → String) (authConfig : HandlerAuthConfig) (decoded : Value) :
    Except Thrown ProcessedAuthData :=
  if decoded.truthy then
    match authConfig.jwtMap with
    | none => .ok [("success", .bool true)]
    | some jwtMap => jwtMap.foldlM (mapClaim toUpperCase authConfig decoded) [("success", .bool true)]
  else .ok denied

/-- `HttpAuthHandlerService.checkJwt`. -/
def checkJwt (env : GatewayEnv) (req : Request) (authConfig : HandlerAuthConfig) :
    Except Thrown ProcessedAuthData :=
  let jwt := (authorization req).bind fun h => (split h ' ')[1]?
  do
    let decoded ← verifyToken env authConfig jwt
    mapClaims env.toUpperCase authConfig decoded

/-- `HttpAuthHandlerService.checkBasicAuth`: without a client secret the provider is open. -/
def checkBasicAuth (env : GatewayEnv) (req : Request) (authConfig : HandlerAuthConfig) :
    ProcessedAuthData :=
  match authorization req with
  | none => denied
  | some authHeader =>
      if ¬ "Basic ".toList.isPrefixOf authHeader.toList then denied
      else if ¬ truthyText authConfig.clientSecret then Obj.set denied "success" (.bool true)
      else
        -- what follows a second blank is passed over, and so is what follows a second colon
        let credentials := env.base64ToAscii ((split authHeader ' ')[1]?.getD "")
        let parts := split credentials ':'
        let username := parts.headD ""
        let password := parts[1]?
        if password = authConfig.clientSecret ∧
            (¬ truthyText authConfig.clientId ∨ some username = authConfig.clientId) then
          let out := Obj.set denied (template authConfig.headerPrefix ++ "USERNAME") (.str username)
          let out := Obj.set out (template authConfig.headerPrefix ++ "USERID") (.str username)
          Obj.set out "success" (.bool true)
        else denied

/-- `HttpAuthHandlerService.checkStringCompare`: without a secret the provider is open. -/
def checkStringCompare (req : Request) (authConfig : HandlerAuthConfig) : ProcessedAuthData :=
  if ¬ truthyText authConfig.secret then Obj.set denied "success" (.bool true)
  -- a secret without a prefix lets nobody in
  else if ¬ truthyText authConfig.headerPrefix then denied
  else if authorization req = authConfig.secret then
    let out := Obj.set denied (template authConfig.headerPrefix ++ "TOKEN")
      (.str ((authorization req).getD ""))
    Obj.set out "success" (.bool true)
  else denied

/-- `AuthProviderRegistry.find(name?)`. -/
def findProvider (env : GatewayEnv) (name : Option String) : Option HandlerAuthConfig :=
  if truthyText name then name.bind env.find else none

/-- `HttpAuthHandlerService.processAuthData`: an unknown provider denies. -/
def processAuthData (env : GatewayEnv) (req : Request) (path : PathDefinition) :
    Except Thrown ProcessedAuthData :=
  if ¬ truthyText path.auth then .ok denied
  else match findProvider env path.auth with
    | none => .ok denied
    | some authConfig => match authConfig.type with
      | .basic => .ok (checkBasicAuth env req authConfig)
      | .jwt | .jwks => checkJwt env req authConfig
      | .strCompare => .ok (checkStringCompare req authConfig)
      | .none => .ok denied

/-! ## Authorization -/

/-- `HttpAuthHandlerService.extractResourceContext`: route parameters, then query, then body. -/
def extractResourceContext (req : Request) : AclResourceContext :=
  let read (k : String) : Value :=
    ((Obj.get req.params k).coalesce (Obj.get req.query k)).coalesce (Obj.get (req.body.getD []) k)
  { companyId := read "companyId", resourceId := read "resourceId" }

/-- `HttpAuthHandlerService.checkActionsForClaims`: every misconfiguration denies, none throws. -/
def checkActionsForClaims (env : GatewayEnv) (authConfig : HandlerAuthConfig)
    (claims : ProcessedAuthData) (actions : Option OneOrMany) (ctx : Option AclResourceContext) :
    Gateway Bool :=
  let list := (actions.map OneOrMany.toList).getD []
  if list.isEmpty then pure true
  else if authConfig.type ≠ .jwt ∧ authConfig.type ≠ .jwks then pure false
  else if ¬ truthyText authConfig.uidClaim then pure false
  else match env.aclRoleService with
    | none => pure false
    | some checkAction =>
        -- the user is read from the mapped claims, under the header the claim was mapped to
        let userId := read (.obj claims) (template authConfig.headerPrefix ++ template authConfig.uidClaim)
        if ¬ userId.truthy then pure false
        else Traced.perform (fun log => checkAction log userId ctx list)
          (.aclChecked userId ctx list)

/-- `HttpAuthHandlerService.checkActions`. -/
def checkActions (env : GatewayEnv) (data : ProcessedAuthData) (path : PathDefinition)
    (ctx : Option AclResourceContext) : Gateway Bool :=
  if ¬ (path.actions.map OneOrMany.nonEmpty).getD false then pure true
  else if ¬ truthyText path.auth then pure false
  else match findProvider env path.auth with
    | none => pure false
    | some authConfig => checkActionsForClaims env authConfig data path.actions ctx

end HttpAuthHandler

end NestAmqp.Proxy
