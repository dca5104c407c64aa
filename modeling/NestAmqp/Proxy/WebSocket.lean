/-
# NestAmqp.Proxy.WebSocket — the gateway's WebSocket subscriptions.

`WebSocketService` keeps, for each connected client, a table from event names to subscriptions of the
events' subjects.  A subscribe frame verifies the client's token, asks the ACL service and only then
looks at the table, so it is spread over several moments; the message handler is not awaited, so other
frames, deliveries, the heartbeat and the closing of the socket come in between.

An input of the machine is one of these moments.  Everything the service does to a client it does to
that client's socket and to what it keeps under the client's id, so a client's part is one record, and
the operations are written on it.
-/
import NestAmqp.Js.Number
import NestAmqp.Lib.Machine
import NestAmqp.Lib.Tasks
import NestAmqp.Proxy.HttpAuthHandler

namespace NestAmqp.Proxy

open NestAmqp.Js
open NestAmqp.Lib NestAmqp.Lib.Machine

/-! ## Events and messages -/

/-- The types of `WebSocketEvent`. -/
inductive WebSocketEventType where
  | ws | mqtt | http
  deriving DecidableEq, Repr

/-- `WebSocketEvent`, the fields a subscription reads. -/
structure WebSocketEvent where
  type : WebSocketEventType := .ws
  name : String
  auth : Option String := none
  requireAuth : Option Bool := none
  actions : Option OneOrMany := none
  scopeClaim : Option String := none
  payloadKey : Option String := none

/-- `gatewayConfig.ws`, the merged list `wsEvents`, what a text adds to a socket's `bufferedAmount`, and
`String.prototype.toUpperCase`, which stands here with the ASCII letters unless Unicode's tables are given. -/
structure WebSocketConfig where
  maxSubscriptionsPerClient : Option Nat := none
  maxMessageBytes : Option Nat := none
  maxBufferedBytes : Option Nat := none
  wsEvents : List WebSocketEvent := []
  frameBytes : Value → Nat := fun _ => 0
  toUpperCase : String → String := Js.toUpperCase

/-- `BrokerEvent`, what a subject is given; `topic` is the name of the event, and of its subject. -/
structure BrokerEvent where
  topic : String
  payload : Value
  source : Obj := []
  action : Value := .undefined
  headers : Value := .undefined
  raw : Value := .undefined

/-- The broker event as the object it is. -/
def BrokerEvent.toValue (o : BrokerEvent) : Value :=
  .obj [("topic", .str o.topic), ("payload", o.payload), ("source", .obj o.source),
    ("action", o.action), ("headers", o.headers), ("raw", o.raw)]

/-- `` `on${name.charAt(0).toUpperCase() + name.slice(1)}` `` -/
def onTopic (toUpperCase : String → String) (name : String) : String :=
  "on" ++ toUpperCase (String.ofList (name.toList.take 1)) ++ String.ofList (name.toList.drop 1)

/-- What the service sends: a message of an event, or an error. -/
inductive Outgoing where
  | event (eventDef : WebSocketEvent) (o : BrokerEvent)
  | error (name reason : String)

/-- The object that is sent as JSON. -/
def Outgoing.wire (toUpperCase : String → String) : Outgoing → Value
  | .event eventDef o =>
      .obj [("topic", .str (onTopic toUpperCase eventDef.name)), ("data", o.payload.orElse o.toValue)]
  | .error name reason =>
      .obj [("topic", .str "onError"), ("data", .obj [("event", .str name), ("error", .str reason)])]

/-! ## Scope and selection -/

/-- The part of `matches` that the server enforces: without an identity or a payload key it denies. -/
def inScope (o : BrokerEvent) (eventDef : WebSocketEvent) (scopeValue : Value) : Bool :=
  if truthyText eventDef.scopeClaim then
    if strictEq scopeValue .undefined || !truthyText eventDef.payloadKey then false
    else o.payload.truthy && strictEq (property o.payload (template eventDef.payloadKey)) scopeValue
  else true

/-- The part of `matches` that the client chose. -/
def selected (o : BrokerEvent) (select : Value) : Bool :=
  if select.truthy && o.payload.truthy then
    ((Thrown.value select).ownEntries.map Prod.fst).all fun key =>
      strictEq (property o.payload key) (property select key)
  else true

/-- `matches(o, select, eventDef, scopeValue)`. -/
def «matches» (o : BrokerEvent) (select : Value) (eventDef : WebSocketEvent) (scopeValue : Value) : Bool :=
  inScope o eventDef scopeValue && selected o select

/-- The scope value of a new subscription. -/
def scopeOf (eventDef : WebSocketEvent) (claims : Option ProcessedAuthData) : Value :=
  if truthyText eventDef.scopeClaim then
    match claims with
    | none => .undefined
    | some claims => Obj.get claims (template eventDef.scopeClaim)
  else .undefined

/-! ## A client -/

/-- A subscription of a subject, with what its handler closes over. -/
structure Observer where
  id : Nat
  eventDef : WebSocketEvent
  select : Value
  scopeValue : Value

/-- What became of a message for a client: sent, or dropped because its buffer is full. -/
inductive Outcome where
  | sent (out : Outgoing)
  | dropped (eventDef : WebSocketEvent) (o : BrokerEvent)

/-- `NamedWebSocket`, with what the service keeps for it: `subscriptions[client.id]`, whose values name
subscriptions by their ids, and the subscriptions of subjects whose handler sends to this client.  The last
three fields record what has happened and are read by no operation. -/
structure NamedWebSocket where
  connected : Bool := false
  token : Option String := none
  tokenExp : Option Value := none
  authByProvider : String → Option ProcessedAuthData := fun _ => none
  isAlive : Bool := true
  /-- `readyState === WebSocket.OPEN`. -/
  isOpen : Bool := true
  bufferedAmount : Nat := 0
  subscriptions : Option (List (String × Nat)) := none
  observers : List Observer := []
  nextId : Nat := 0
  outcomes : List Outcome := []
  /-- What `verifyToken` answered for the client's token, by the name of the provider. -/
  verifications : List (String × HandlerAuthConfig × Value) := []
  /-- `handleDisconnect` has run. -/
  disconnected : Bool := false

/-- Where a subscribe frame is. -/
inductive FrameStage where
  /-- In `resolveClaims`, which waits for `verifyToken`. -/
  | verifying (provider : HandlerAuthConfig)
  /-- Behind `await this.resolveClaims(…)`. -/
  | resolved (claims : ProcessedAuthData)
  /-- Waiting for `checkActionsForClaims`. -/
  | authorizing (claims : ProcessedAuthData)
  | finished

/-- The frame has not ended. -/
def FrameStage.pending : FrameStage → Bool
  | .finished => false
  | _ => true

/-- A table without the entry of a topic. -/
def withoutTopic (subs : List (String × Nat)) (topic : String) : List (String × Nat) :=
  subs.filter fun entry => entry.1 != topic

namespace NamedWebSocket

variable (config : WebSocketConfig) (client : NamedWebSocket)

/-- `isExpired(client)`, at a time in milliseconds.  A `tokenExp` that is no number never passes. -/
def isExpired (now : Nat) : Bool :=
  client.tokenExp.any fun exp => (Number exp).toOption.any fun seconds => seconds.timesAtMost 1000 now

/-- The subscriptions with these ids are unsubscribed. -/
def unsubscribeAll (ids : List Nat) : NamedWebSocket :=
  { client with observers := client.observers.filter fun o => !ids.contains o.id }

/-- `handleDisconnect(client)`. -/
def handleDisconnect : NamedWebSocket :=
  match client.subscriptions with
  | none => { client with disconnected := true }
  | some subs =>
      { client.unsubscribeAll (subs.map Prod.snd) with subscriptions := none, disconnected := true }

/-- `closeExpired(client)`. -/
def closeExpired : NamedWebSocket := { client.handleDisconnect with isOpen := false }

/-- The body of the heartbeat for one client. -/
def heartbeat (now : Nat) : NamedWebSocket :=
  if client.isExpired now then client.closeExpired
  else if !client.isAlive then { client.handleDisconnect with isOpen := false }
  else { client with isAlive := false }

/-- The body of `onModuleDestroy` for one client: the table keeps its entries. -/
def onModuleDestroy : NamedWebSocket :=
  match client.subscriptions with
  | none => client
  | some subs => client.unsubscribeAll (subs.map Prod.snd)

/-- `client.send(…)`: a socket that is not open buffers what it never sends. -/
def send (out : Outgoing) : NamedWebSocket :=
  { client with
    bufferedAmount := client.bufferedAmount + config.frameBytes (out.wire config.toUpperCase)
    outcomes := if client.isOpen then client.outcomes ++ [.sent out] else client.outcomes }

/-- `sendError(client, event, reason)`. -/
def sendError (event reason : String) : NamedWebSocket := client.send config (.error event reason)

/-- The unsubscribe branch of `onClientMessage`.  What a table has under an inherited name cannot be
unsubscribed: the `TypeError` ends the frame. -/
def unsubscribe (topic : String) : NamedWebSocket :=
  if objectPrototype.contains topic then client
  else match client.subscriptions with
  | none => client
  | some subs =>
      { client.unsubscribeAll (subs.lookup topic).toList with
        subscriptions := some (withoutTopic subs topic) }

/-- The table has as many entries as the limit allows. -/
def limitReached : Bool :=
  config.maxSubscriptionsPerClient.any fun max =>
    max != 0 && decide (max ≤ (client.subscriptions.getD []).length)

/-- `this.subjects[name]` is there: a subject, or what the table inherits. -/
def hasSubject (subjects : List String) (name : String) : Bool :=
  subjects.contains name || objectPrototype.contains name

/-- The client has a table, an empty one if there was none. -/
def withTable : NamedWebSocket := { client with subscriptions := some (client.subscriptions.getD []) }

/-- The end of `subscribeClient`, behind its last `await`: limit, subject, table, insertion.  Under an inherited
name the table has something already. -/
def addSubscription (subjects : List String) (eventDef : WebSocketEvent) (select : Value)
    (claims : Option ProcessedAuthData) : NamedWebSocket :=
  if client.limitReached config then client.sendError config eventDef.name "subscription_limit"
  else if !hasSubject subjects eventDef.name then client.sendError config eventDef.name "unknown_event"
  -- a second subscribe keeps the first one, with its `select`
  else if ((client.subscriptions.getD []).lookup eventDef.name).isSome ||
      objectPrototype.contains eventDef.name then client.withTable
  else
    { client with
      subscriptions := some (client.subscriptions.getD [] ++ [(eventDef.name, client.nextId)])
      observers := client.observers ++
        [{ id := client.nextId, eventDef, select, scopeValue := scopeOf eventDef claims }]
      nextId := client.nextId + 1 }

/-- The handler of a subscription, with the filter before it. -/
def next (now : Nat) (o : BrokerEvent) (client : NamedWebSocket) (observer : Observer) : NamedWebSocket :=
  if !client.observers.any fun live => live.id == observer.id then client
  else if !«matches» o observer.select observer.eventDef observer.scopeValue then client
  else if client.isExpired now then client.closeExpired
  else if !client.isOpen then client
  -- a slow client loses the event, not the connection
  else if client.bufferedAmount > config.maxBufferedBytes.getD 1048576 then
    { client with outcomes := client.outcomes ++ [.dropped observer.eventDef o] }
  else client.send config (.event observer.eventDef o)

/-- `subject.next(o)`, for the observers of one client. -/
def deliver (now : Nat) (o : BrokerEvent) : NamedWebSocket :=
  (client.observers.filter fun observer => observer.eventDef.name == o.topic).foldl (next config now o) client

/-! ### Subscribing -/

/-- `resolveClaims(client, providerName)` up to its `await`.  Under an inherited name the memo has something
already, which carries no claims. -/
def resolveClaims (providers : String → Option HandlerAuthConfig) (providerName : String) :
    NamedWebSocket × FrameStage :=
  match client.authByProvider providerName with
  | some claims => (client, .resolved claims)
  | none =>
      if objectPrototype.contains providerName then (client, .resolved [])
      else match providers providerName with
      | none =>
          -- a provider nobody configured is remembered as a denial
          let memo := Function.update client.authByProvider providerName (some HttpAuthHandler.denied)
          ({ client with authByProvider := memo }, .resolved HttpAuthHandler.denied)
      | some provider => (client, .verifying provider)

/-- `decoded?.exp`. -/
def expOf (decoded : Value) : Value := if decoded.nullish then .undefined else property decoded "exp"

/-- The rest of `resolveClaims`; a claim map that cannot be read ends the frame. -/
def tokenVerified (providerName : String) (provider : HandlerAuthConfig) (decoded : Value) :
    NamedWebSocket × FrameStage :=
  let client := { client with
    -- the first token that expires decides for the whole connection
    tokenExp := if client.tokenExp.isNone && (expOf decoded).truthy then some (expOf decoded) else client.tokenExp
    verifications := client.verifications ++ [(providerName, provider, decoded)] }
  match HttpAuthHandler.mapClaims config.toUpperCase provider decoded with
  | .error _ => (client, .finished)
  | .ok claims =>
      ({ client with authByProvider := Function.update client.authByProvider providerName (some claims) },
        .resolved claims)

end NamedWebSocket

/-- `claims?.success`. -/
def succeeded (claims : Option ProcessedAuthData) : Bool :=
  claims.any fun claims => (Obj.get claims "success").truthy

/-- What the checks of `subscribeClient` on the claims come to: a refusal, a question to the ACL service,
or that nothing is left to check. -/
inductive ClaimCheck where
  | refused (reason : String)
  | asks (claims : ProcessedAuthData)
  | passed

/-- The checks of `subscribeClient` on the claims. -/
def checkClaims (providers : String → Option HandlerAuthConfig) (eventDef : WebSocketEvent)
    (claims : Option ProcessedAuthData) : ClaimCheck :=
  if truthyText eventDef.auth && eventDef.requireAuth != some false && !succeeded claims then
    .refused "unauthorized"
  else if (eventDef.actions.map OneOrMany.nonEmpty).getD false then
    -- actions without a provider that names the user are refused
    match (if truthyText eventDef.auth then eventDef.auth.bind providers else none), claims with
    | some _, some claims => if succeeded (some claims) then .asks claims else .refused "forbidden"
    | _, _ => .refused "forbidden"
  else .passed

/-! ## The service -/

/-- A frame: its size, and what it parses to. -/
structure Frame where
  size : Nat
  parsed : Option Value

/-- What a frame asks for. -/
inductive Command where
  | subscribe (eventDef : WebSocketEvent) (select : Value)
  | unsubscribe (topic : String)

/-- The event a frame names. -/
def eventNamed (config : WebSocketConfig) (topic : Value) : Option WebSocketEvent :=
  config.wsEvents.find? fun o => topic.isText o.name && o.type == .ws

/-- What `onClientMessage` reads from a frame; anything else is ignored. -/
def command (config : WebSocketConfig) (frame : Frame) : Option Command :=
  frame.parsed.bind fun parsed =>
    let parsed := parsed.orElse (.obj [])
    let action := property parsed "action"
    let topic := property parsed "topic"
    if !action.truthy || !topic.truthy then none
    else (eventNamed config topic).bind fun eventDef =>
      if action.isText "subscribe" then some (.subscribe eventDef (property parsed "select"))
      else if action.isText "unsubscribe" then some (.unsubscribe eventDef.name)
      else none

/-- A call of `subscribeClient`. -/
structure SubscribeFrame where
  client : Nat
  eventDef : WebSocketEvent
  select : Value
  stage : FrameStage

/-- The call has not ended. -/
def SubscribeFrame.pending (frame : SubscribeFrame) : Bool := frame.stage.pending

/-- The state of the service. -/
structure WebSockets where
  clients : Nat → NamedWebSocket := fun _ => {}
  frames : List SubscribeFrame := []
  subjects : List String := []
  providers : String → Option HandlerAuthConfig := fun _ => none
  now : Nat := 0

/-- What can happen: a client connects; a frame of a client arrives; the call of `subscribeClient` with
this index goes on; a broker event comes in; a socket closes or fails, starts to close, is visited by the
heartbeat, answers it, or sends what it has buffered; time passes; a subject is made or the providers are
loaded; the module is destroyed. -/
inductive SocketInput where
  | connect (c : Nat) (token : Option String)
  | frame (c : Nat) (frame : Frame)
  | verified (i : Nat) (decoded : Value)
  | resume (i : Nat)
  | authorized (i : Nat) (answer : Except Thrown Bool)
  | deliver (o : BrokerEvent)
  | disconnect (c : Nat)
  | closing (c : Nat)
  | heartbeat (c : Nat)
  | pong (c : Nat)
  | drained (c bytes : Nat)
  | elapsed (ms : Nat)
  | subject (name : String)
  | loaded (providers : String → Option HandlerAuthConfig)
  | destroy

namespace WebSockets

variable (config : WebSocketConfig) (s : WebSockets)

/-- One client is changed. -/
def setClient (c : Nat) (client : NamedWebSocket) : WebSockets :=
  { s with clients := Function.update s.clients c client }

@[simp] theorem clients_setClient_self (c : Nat) (client : NamedWebSocket) :
    (s.setClient c client).clients c = client := Function.update_self ..

theorem clients_setClient_of_ne {s : WebSockets} {c d : Nat} (hne : d ≠ c) (client : NamedWebSocket) :
    (s.setClient c client).clients d = s.clients d := Function.update_of_ne hne ..

/-- The continuation of `subscribeClient` once the claims are there. -/
def claimsResolved (client : NamedWebSocket) (eventDef : WebSocketEvent) (select : Value)
    (claims : Option ProcessedAuthData) : NamedWebSocket × FrameStage :=
  match checkClaims s.providers eventDef claims with
  | .refused reason => (client.sendError config eventDef.name reason, .finished)
  | .asks claims => (client, .authorizing claims)
  | .passed => (client.addSubscription config s.subjects eventDef select claims, .finished)

/-- `subscribeClient(client, eventDef, select)` up to its first `await`. -/
def subscribeClient (client : NamedWebSocket) (eventDef : WebSocketEvent) (select : Value) :
    NamedWebSocket × FrameStage :=
  if truthyText eventDef.auth then client.resolveClaims s.providers (template eventDef.auth)
  else s.claimsResolved config client eventDef select none

/-- The end of `checkActionsForClaims`; a failure of it denies. -/
def answered (client : NamedWebSocket) (eventDef : WebSocketEvent) (select : Value)
    (claims : ProcessedAuthData) (answer : Except Thrown Bool) : NamedWebSocket × FrameStage :=
  match answer with
  | .ok true => (client.addSubscription config s.subjects eventDef select (some claims), .finished)
  | .ok false | .error _ => (client.sendError config eventDef.name "forbidden", .finished)

/-- `onClientMessage(client, raw)`. -/
def onClientMessage (c : Nat) (frame : Frame) : WebSockets :=
  if (s.clients c).isExpired s.now then s.setClient c (s.clients c).closeExpired
  -- an oversized frame is dropped without an answer
  else if frame.size > config.maxMessageBytes.getD 16384 then s
  else match command config frame with
    | none => s
    | some (.unsubscribe topic) => s.setClient c ((s.clients c).unsubscribe topic)
    | some (.subscribe eventDef select) =>
        let called := s.subscribeClient config (s.clients c) eventDef select
        { s.setClient c called.1 with
          frames := s.frames ++ [{ client := c, eventDef, select, stage := called.2 }] }

/-- The call `i` has gone on. -/
def goOn (i : Nat) (frame : SubscribeFrame) (went : NamedWebSocket × FrameStage) : WebSockets :=
  { s.setClient frame.client went.1 with frames := s.frames.set i { frame with stage := went.2 } }

/-- `handleConnection(client, request)`, for a handshake that is accepted. -/
def handleConnection (c : Nat) (token : Option String) : WebSockets :=
  if (s.clients c).connected then s
  else s.setClient c { s.clients c with connected := true, token }

/-- `verifyToken` answers. -/
def verified (i : Nat) (decoded : Value) : WebSockets :=
  match s.frames[i]? with
  | some ⟨c, eventDef, select, .verifying provider⟩ =>
      s.goOn i ⟨c, eventDef, select, .verifying provider⟩
        ((s.clients c).tokenVerified config (template eventDef.auth) provider decoded)
  | _ => s

/-- `resolveClaims` returns. -/
def resume (i : Nat) : WebSockets :=
  match s.frames[i]? with
  | some ⟨c, eventDef, select, .resolved claims⟩ =>
      s.goOn i ⟨c, eventDef, select, .resolved claims⟩
        (s.claimsResolved config (s.clients c) eventDef select (some claims))
  | _ => s

/-- `checkActionsForClaims` answers. -/
def authorized (i : Nat) (answer : Except Thrown Bool) : WebSockets :=
  match s.frames[i]? with
  | some ⟨c, eventDef, select, .authorizing claims⟩ =>
      s.goOn i ⟨c, eventDef, select, .authorizing claims⟩
        (s.answered config (s.clients c) eventDef select claims answer)
  | _ => s

/-- Something happens to the socket of a client, if it is connected. -/
def atClient (c : Nat) (f : NamedWebSocket → NamedWebSocket) : WebSockets :=
  if (s.clients c).connected then s.setClient c (f (s.clients c)) else s

/-- One input; one that nothing waits for changes nothing. -/
def step : SocketInput → WebSockets
  | .connect c token => s.handleConnection c token
  | .frame c frame => if (s.clients c).connected then s.onClientMessage config c frame else s
  | .verified i decoded => s.verified config i decoded
  | .resume i => s.resume config i
  | .authorized i answer => s.authorized config i answer
  | .deliver o => { s with clients := fun c => (s.clients c).deliver config s.now o }
  | .disconnect c => s.atClient c fun client => { client.handleDisconnect with isOpen := false }
  | .closing c => s.atClient c fun client => { client with isOpen := false }
  | .heartbeat c => s.atClient c fun client => client.heartbeat s.now
  | .pong c => s.atClient c fun client => { client with isAlive := true }
  | .drained c bytes =>
      s.atClient c fun client => { client with bufferedAmount := client.bufferedAmount - bytes }
  | .elapsed ms => { s with now := s.now + ms }
  | .subject name =>
      { s with subjects := if NamedWebSocket.hasSubject s.subjects name then s.subjects
          else s.subjects ++ [name] }
  | .loaded providers => { s with providers }
  | .destroy => { s with clients := fun c => (s.clients c).onModuleDestroy }

end WebSockets

end NestAmqp.Proxy
