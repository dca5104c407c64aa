/-
# NestAmqp.Proxy.TwinRuns — two runs of the WebSocket service, seen by one client.

Which token was verified, which claims are in a memo and which frame waits for what does not depend on the
subscriptions or on the messages.  So two runs over the same frames agree on all of that, for every client,
whatever they are otherwise compared by: a relation on one client's record that its operations keep.
-/
import NestAmqp.Proxy.WebSocket

namespace NestAmqp.Proxy

open NestAmqp.Js
open NestAmqp.Lib NestAmqp.Lib.Machine

/-! ## Sessions -/

/-- The part of a client's record that frames depend on before they reach the table. -/
structure Session where
  connected : Bool
  token : Option String
  tokenExp : Option Value
  authByProvider : String → Option ProcessedAuthData
  isAlive : Bool
  verifications : List (String × HandlerAuthConfig × Value)

namespace NamedWebSocket

/-- The client's session. -/
def session (client : NamedWebSocket) : Session where
  connected := client.connected
  token := client.token
  tokenExp := client.tokenExp
  authByProvider := client.authByProvider
  isAlive := client.isAlive
  verifications := client.verifications

/-- The client with another session. -/
def withSession (client : NamedWebSocket) (session : Session) : NamedWebSocket :=
  { client with
    connected := session.connected
    token := session.token
    tokenExp := session.tokenExp
    authByProvider := session.authByProvider
    isAlive := session.isAlive
    verifications := session.verifications }

variable {config : WebSocketConfig} (client : NamedWebSocket)

@[simp] theorem session_withSession (session : Session) : (client.withSession session).session = session := rfl

@[simp] theorem session_handleDisconnect : client.handleDisconnect.session = client.session := by
  unfold handleDisconnect
  split <;> rfl

@[simp] theorem session_closeExpired : client.closeExpired.session = client.session :=
  session_handleDisconnect client

@[simp] theorem session_unsubscribe (topic : String) : (client.unsubscribe topic).session = client.session := by
  unfold unsubscribe
  split
  · rfl
  split <;> rfl

@[simp] theorem session_onModuleDestroy : client.onModuleDestroy.session = client.session := by
  unfold onModuleDestroy
  split <;> rfl

@[simp] theorem session_sendError (event reason : String) :
    (client.sendError config event reason).session = client.session := rfl

@[simp] theorem session_addSubscription (subjects : List String) (eventDef : WebSocketEvent) (select : Value)
    (claims : Option ProcessedAuthData) :
    (client.addSubscription config subjects eventDef select claims).session = client.session := by
  unfold addSubscription
  split
  · rfl
  split
  · rfl
  split <;> rfl

@[simp] theorem session_next (now : Nat) (o : BrokerEvent) (observer : Observer) :
    (next config now o client observer).session = client.session := by
  unfold next
  split
  · rfl
  split
  · rfl
  split
  · exact session_closeExpired client
  split
  · rfl
  split <;> rfl

@[simp] theorem session_deliver (now : Nat) (o : BrokerEvent) :
    (client.deliver config now o).session = client.session := by
  unfold deliver
  generalize client.observers.filter (fun observer => observer.eventDef.name == o.topic) = observers
  induction observers generalizing client with
  | nil => rfl
  | cons observer observers ih => exact (ih _).trans (session_next client now o observer)

variable {client} {a b : NamedWebSocket}

theorem isExpired_congr (h : a.session = b.session) (now : Nat) : a.isExpired now = b.isExpired now := by
  unfold isExpired
  rw [show a.tokenExp = b.tokenExp from congrArg Session.tokenExp h]

/-- Two clients go on from the same session to the same session, which keeps its expiry. -/
structure SameMove (a b : NamedWebSocket) (p q : NamedWebSocket × FrameStage) (next : Session) : Prop where
  left : p.1 = a.withSession next
  right : q.1 = b.withSession next
  stage : p.2 = q.2
  expiry : ∀ exp, a.tokenExp = some exp → next.tokenExp = some exp

theorem resolveClaims_congr (h : a.session = b.session) (providers : String → Option HandlerAuthConfig)
    (name : String) : ∃ next, SameMove a b (a.resolveClaims providers name)
    (b.resolveClaims providers name) next := by
  have hmemo : b.authByProvider = a.authByProvider := (congrArg Session.authByProvider h).symm
  have hright : b = b.withSession a.session := by
    rw [h]
    rfl
  unfold resolveClaims
  rw [hmemo]
  cases a.authByProvider name with
  | some claims => exact ⟨a.session, rfl, hright, rfl, fun _ hexp => hexp⟩
  | none =>
      dsimp only
      split
      · exact ⟨a.session, rfl, hright, rfl, fun _ hexp => hexp⟩
      cases providers name with
      | none =>
          refine ⟨{ a.session with
            authByProvider := Function.update a.authByProvider name (some HttpAuthHandler.denied) },
            rfl, ?_, rfl,
            fun _ hexp => hexp⟩
          rw [h, ← hmemo]
          rfl
      | some provider => exact ⟨a.session, rfl, hright, rfl, fun _ hexp => hexp⟩

theorem tokenVerified_congr (h : a.session = b.session) (name : String) (provider : HandlerAuthConfig)
    (decoded : Value) :
    ∃ next, SameMove a b (a.tokenVerified config name provider decoded)
    (b.tokenVerified config name provider decoded) next := by
  have hmemo : b.authByProvider = a.authByProvider := (congrArg Session.authByProvider h).symm
  have hexp : b.tokenExp = a.tokenExp := (congrArg Session.tokenExp h).symm
  have hver : b.verifications = a.verifications := (congrArg Session.verifications h).symm
  have hconnected : b.connected = a.connected := (congrArg Session.connected h).symm
  have htoken : b.token = a.token := (congrArg Session.token h).symm
  have halive : b.isAlive = a.isAlive := (congrArg Session.isAlive h).symm
  unfold tokenVerified
  dsimp only
  rw [hmemo, hexp, hver]
  have hkept : ∀ exp, a.tokenExp = some exp →
      (if a.tokenExp.isNone && (expOf decoded).truthy then some (expOf decoded) else a.tokenExp) =
        some exp := by
    intro exp hsome
    rw [hsome]
    rfl
  cases HttpAuthHandler.mapClaims config.toUpperCase provider decoded with
  | error e =>
      refine ⟨{ a.session with
        tokenExp := if a.tokenExp.isNone && (expOf decoded).truthy then some (expOf decoded) else a.tokenExp
        verifications := a.verifications ++ [(name, provider, decoded)] }, rfl, ?_, rfl, hkept⟩
      unfold withSession session
      rw [← hconnected, ← htoken, ← halive, ← hmemo]
  | ok claims =>
      refine ⟨{ a.session with
        tokenExp := if a.tokenExp.isNone && (expOf decoded).truthy then some (expOf decoded) else a.tokenExp
        verifications := a.verifications ++ [(name, provider, decoded)]
        authByProvider := Function.update a.authByProvider name (some claims) }, rfl, ?_, rfl, hkept⟩
      unfold withSession session
      rw [← hconnected, ← htoken, ← halive]

end NamedWebSocket

/-! ## Comparing one client -/

/-- What the operations of the service must keep of a relation on one client's record, when `chosen` relates
the select objects of its subscribe frames. -/
structure Compatible (config : WebSocketConfig) (chosen : Value → Value → Prop)
    (related : Nat → NamedWebSocket → NamedWebSocket → Prop) : Prop where
  same : ∀ x, chosen x x
  moves : ∀ {now a b} (next : Session), related now a b →
    (∀ exp, a.tokenExp = some exp → next.tokenExp = some exp) → related now (a.withSession next)
    (b.withSession next)
  sendError : ∀ {now a b} (event reason : String), related now a b →
    related now (a.sendError config event reason) (b.sendError config event reason)
  addSubscription : ∀ {now a b x y} (subjects : List String) (eventDef : WebSocketEvent)
    (claims : Option ProcessedAuthData), related now a b → chosen x y →
    related now (a.addSubscription config subjects eventDef x claims)
    (b.addSubscription config subjects eventDef y claims)
  unsubscribe : ∀ {now a b} (topic : String), related now a b → related now (a.unsubscribe topic)
    (b.unsubscribe topic)
  disconnect : ∀ {now a b}, related now a b →
    related now { a.handleDisconnect with isOpen := false } { b.handleDisconnect with isOpen := false }
  closing : ∀ {now a b}, related now a b → related now { a with isOpen := false } { b with isOpen := false }
  drained : ∀ {now a b} (bytes : Nat), related now a b →
    related now { a with bufferedAmount := a.bufferedAmount - bytes }
      { b with bufferedAmount := b.bufferedAmount - bytes }
  deliver : ∀ {now a b} (o : BrokerEvent), related now a b →
    related now (a.deliver config now o) (b.deliver config now o)
  destroy : ∀ {now a b}, related now a b → related now a.onModuleDestroy b.onModuleDestroy
  elapsed : ∀ {now a b} (ms : Nat), related now a b → related (now + ms) a b

/-- The same call, for a select object that is chosen. -/
def SubscribeFrame.Linked (c : Nat) (chosen : Value → Value → Prop) (f g : SubscribeFrame) : Prop :=
  ∃ select, g = { f with select } ∧ (f.client = c → chosen f.select select)

/-- The same input, or two subscribe frames of the client whose select objects are chosen. -/
inductive SocketInput.Linked (config : WebSocketConfig) (c : Nat) (chosen : Value → Value → Prop) :
    SocketInput → SocketInput → Prop
  | same (i : SocketInput) : Linked config c chosen i i
  | subscribe {frame frame' : Frame} {eventDef : WebSocketEvent} {x y : Value}
      (hsize : frame.size ≤ config.maxMessageBytes.getD 16384)
      (hsize' : frame'.size ≤ config.maxMessageBytes.getD 16384)
      (h : command config frame = some (.subscribe eventDef x))
      (h' : command config frame' = some (.subscribe eventDef y)) (hchosen : chosen x y) :
      Linked config c chosen (.frame c frame) (.frame c frame')

namespace WebSockets

/-- Two states that agree on the sessions and the frames, and compare the client by the relation. -/
structure Linked (c : Nat) (chosen : Value → Value → Prop)
    (related : Nat → NamedWebSocket → NamedWebSocket → Prop)
    (s t : WebSockets) : Prop where
  sessions : ∀ d, (s.clients d).session = (t.clients d).session
  client : related s.now (s.clients c) (t.clients c)
  frames : List.Forall₂ (SubscribeFrame.Linked c chosen) s.frames t.frames
  subjects : t.subjects = s.subjects
  providers : t.providers = s.providers
  now : t.now = s.now

/-- What a call has done on either side. -/
structure WentLinked (c : Nat) (related : Nat → NamedWebSocket → NamedWebSocket → Prop) (now d : Nat)
    (p q : NamedWebSocket × FrameStage) : Prop where
  session : p.1.session = q.1.session
  stage : p.2 = q.2
  client : d = c → related now p.1 q.1

section

variable {config : WebSocketConfig} {c d : Nat} {chosen : Value → Value → Prop}
  {related : Nat → NamedWebSocket → NamedWebSocket → Prop} {s t : WebSockets} {a b : NamedWebSocket}

/-- One client is changed on both sides. -/
theorem Linked.setClient (h : s.Linked c chosen related t) (hsession : a.session = b.session)
    (hclient : d = c → related s.now a b) {fs gs : List SubscribeFrame}
    (hframes : List.Forall₂ (SubscribeFrame.Linked c chosen) fs gs) :
    Linked c chosen related { s.setClient d a with frames := fs } { t.setClient d b with frames := gs } where
  sessions := by
    intro e
    show ((s.setClient d a).clients e).session = ((t.setClient d b).clients e).session
    by_cases he : e = d
    · subst he
      rw [clients_setClient_self, clients_setClient_self]
      exact hsession
    · rw [clients_setClient_of_ne he, clients_setClient_of_ne he]
      exact h.sessions e
  client := by
    show related s.now ((s.setClient d a).clients c) ((t.setClient d b).clients c)
    by_cases hd : d = c
    · subst hd
      rw [clients_setClient_self, clients_setClient_self]
      exact hclient rfl
    · rw [clients_setClient_of_ne (Ne.symm hd), clients_setClient_of_ne (Ne.symm hd)]
      exact h.client
  frames := hframes
  subjects := h.subjects
  providers := h.providers
  now := h.now

theorem Linked.connected (h : s.Linked c chosen related t) (d : Nat) :
    (s.clients d).connected = (t.clients d).connected := congrArg Session.connected (h.sessions d)

theorem Linked.atClient (h : s.Linked c chosen related t) {f g : NamedWebSocket → NamedWebSocket}
    (hsession : (f (s.clients d)).session = (g (t.clients d)).session)
    (hclient : d = c → related s.now (f (s.clients c)) (g (t.clients c))) :
    (s.atClient d f).Linked c chosen related (t.atClient d g) := by
  unfold WebSockets.atClient
  rw [← h.connected d]
  split
  · refine h.setClient hsession (fun hd => ?_) h.frames
    rw [hd]
    exact hclient hd
  · exact h

/-- A client's session is changed in the same way on both sides. -/
theorem Linked.moveClient (hcompatible : Compatible config chosen related) (h : s.Linked c chosen related t)
    (move : Session → Session) (hmove : ∀ session, (move session).tokenExp = session.tokenExp) :
    (s.setClient d ((s.clients d).withSession (move (s.clients d).session))).Linked c chosen related
      (t.setClient d ((t.clients d).withSession (move (t.clients d).session))) := by
  rw [← h.sessions d]
  have hsession : ((s.clients d).withSession (move (s.clients d).session)).session =
      ((t.clients d).withSession (move (s.clients d).session)).session := rfl
  refine h.setClient hsession (fun hd => ?_) h.frames
  rw [hd]
  exact hcompatible.moves _ h.client fun exp hexp => (hmove _).trans hexp

/-- The heartbeat visits two clients of the same session. -/
theorem heartbeat_congr (hcompatible : Compatible config chosen related)
    (hsession : a.session = b.session) (now : Nat) :
    (a.heartbeat now).session = (b.heartbeat now).session ∧
      (related now a b → related now (a.heartbeat now) (b.heartbeat now)) := by
  have hgone : ({ a.handleDisconnect with isOpen := false } : NamedWebSocket).session =
      ({ b.handleDisconnect with isOpen := false } : NamedWebSocket).session :=
    (NamedWebSocket.session_handleDisconnect a).trans
    (hsession.trans (NamedWebSocket.session_handleDisconnect b).symm)
  unfold NamedWebSocket.heartbeat
  rw [NamedWebSocket.isExpired_congr hsession,
    show a.isAlive = b.isAlive from congrArg Session.isAlive hsession]
  split
  · exact ⟨hgone, fun h => hcompatible.disconnect h⟩
  split
  · exact ⟨hgone, fun h => hcompatible.disconnect h⟩
  · refine ⟨congrArg (fun session => { session with isAlive := false }) hsession, fun h => ?_⟩
    have hmoved := hcompatible.moves { a.session with isAlive := false } h fun _ hexp => hexp
    rw [hsession] at hmoved
    have hleft : a.withSession { b.session with isAlive := false } = { a with isAlive := false } := by
      rw [← hsession]
      rfl
    rw [hleft] at hmoved
    exact hmoved

/-- Two clients go on from the same session. -/
theorem WentLinked.of_sameMove (hcompatible : Compatible config chosen related)
    (h : s.Linked c chosen related t)
    {p q : NamedWebSocket × FrameStage} {next : Session}
    (hmove : NamedWebSocket.SameMove (s.clients d) (t.clients d) p q next) :
    WentLinked c related s.now d p q := by
  refine ⟨by rw [hmove.left, hmove.right]; rfl, hmove.stage, fun hd => ?_⟩
  rw [hmove.left, hmove.right]
  have hexpiry := hmove.expiry
  rw [hd] at hexpiry ⊢
  exact hcompatible.moves next h.client hexpiry

theorem WentLinked.sendError (hcompatible : Compatible config chosen related) (h : s.Linked c chosen related t)
    (d : Nat) (event reason : String) :
    WentLinked c related s.now d ((s.clients d).sendError config event reason, .finished)
      ((t.clients d).sendError config event reason, .finished) := by
  refine ⟨by rw [NamedWebSocket.session_sendError, NamedWebSocket.session_sendError]; exact h.sessions d, rfl,
    fun hd => ?_⟩
  rw [hd]
  exact hcompatible.sendError event reason h.client

theorem WentLinked.addSubscription (hcompatible : Compatible config chosen related)
    (h : s.Linked c chosen related t)
    {d : Nat} (eventDef : WebSocketEvent) {x y : Value} (claims : Option ProcessedAuthData)
    (hchosen : d = c → chosen x y) :
    WentLinked c related s.now d ((s.clients d).addSubscription config s.subjects eventDef x claims, .finished)
      ((t.clients d).addSubscription config t.subjects eventDef y claims, .finished) := by
  refine ⟨?_, rfl, fun hd => ?_⟩
  · rw [NamedWebSocket.session_addSubscription, NamedWebSocket.session_addSubscription]
    exact h.sessions d
  · rw [h.subjects, hd]
    exact hcompatible.addSubscription s.subjects eventDef claims h.client (hchosen hd)

/-- The claims are there, on both sides. -/
theorem WentLinked.claimsResolved (hcompatible : Compatible config chosen related)
    (h : s.Linked c chosen related t)
    {d : Nat} (eventDef : WebSocketEvent) {x y : Value} (claims : Option ProcessedAuthData)
    (hchosen : d = c → chosen x y) :
    WentLinked c related s.now d (s.claimsResolved config (s.clients d) eventDef x claims)
      (t.claimsResolved config (t.clients d) eventDef y claims) := by
  unfold WebSockets.claimsResolved
  rw [h.providers]
  cases checkClaims s.providers eventDef claims with
  | refused reason => exact .sendError hcompatible h d eventDef.name reason
  | asks asked =>
      refine ⟨h.sessions d, rfl, fun hd => ?_⟩
      rw [hd]
      exact h.client
  | passed => exact .addSubscription hcompatible h eventDef claims hchosen

theorem WentLinked.subscribeClient (hcompatible : Compatible config chosen related)
    (h : s.Linked c chosen related t)
    {d : Nat} (eventDef : WebSocketEvent) {x y : Value} (hchosen : d = c → chosen x y) :
    WentLinked c related s.now d (s.subscribeClient config (s.clients d) eventDef x)
      (t.subscribeClient config (t.clients d) eventDef y) := by
  unfold WebSockets.subscribeClient
  split
  next =>
    rw [h.providers]
    obtain ⟨next, hmove⟩ := NamedWebSocket.resolveClaims_congr (h.sessions d) s.providers
      (template eventDef.auth)
    exact .of_sameMove hcompatible h hmove
  next => exact .claimsResolved hcompatible h eventDef none hchosen

/-- A call goes on, on both sides. -/
theorem Linked.goOn (h : s.Linked c chosen related t) (j : Nat) {f : SubscribeFrame} {y : Value}
    (hchosen : f.client = c → chosen f.select y) {p q : NamedWebSocket × FrameStage}
    (hwent : WentLinked c related s.now f.client p q) :
    (s.goOn j f p).Linked c chosen related (t.goOn j { f with select := y } q) := by
  have hnew : SubscribeFrame.Linked c chosen { f with stage := p.2 } { f with select := y, stage := q.2 } :=
    ⟨y, by rw [hwent.stage], hchosen⟩
  exact h.setClient hwent.session hwent.client (Tasks.forall₂_set h.frames hnew j)

/-- A call is made, on both sides. -/
theorem Linked.call (h : s.Linked c chosen related t) (eventDef : WebSocketEvent) {x y : Value}
    (hchosen : d = c → chosen x y) {p q : NamedWebSocket × FrameStage}
    (hwent : WentLinked c related s.now d p q) :
    Linked c chosen related
      { s.setClient d p.1 with frames := s.frames ++ [⟨d, eventDef, x, p.2⟩] }
      { t.setClient d q.1 with frames := t.frames ++ [⟨d, eventDef, y, q.2⟩] } := by
  have hnew : SubscribeFrame.Linked c chosen ⟨d, eventDef, x, p.2⟩ ⟨d, eventDef, y, q.2⟩ :=
    ⟨y, by rw [hwent.stage], hchosen⟩
  exact h.setClient hwent.session hwent.client (Tasks.forall₂_concat h.frames hnew)

/-- The same frame arrives. -/
theorem Linked.onClientMessage (hcompatible : Compatible config chosen related)
    (h : s.Linked c chosen related t)
    (d : Nat) (frame : Frame) :
    (s.onClientMessage config d frame).Linked c chosen related (t.onClientMessage config d frame) := by
  unfold WebSockets.onClientMessage
  rw [h.now, ← NamedWebSocket.isExpired_congr (h.sessions d)]
  split
  · refine h.setClient ?_ (fun hd => ?_) h.frames
    · rw [NamedWebSocket.session_closeExpired, NamedWebSocket.session_closeExpired]
      exact h.sessions d
    · rw [hd]
      exact hcompatible.disconnect h.client
  split
  · exact h
  split
  next => exact h
  next topic hcommand =>
    refine h.setClient ?_ (fun hd => ?_) h.frames
    · rw [NamedWebSocket.session_unsubscribe, NamedWebSocket.session_unsubscribe]
      exact h.sessions d
    · rw [hd]
      exact hcompatible.unsubscribe topic h.client
  next eventDef select hcommand =>
    have hchosen : d = c → chosen select select := fun _ => hcompatible.same select
    exact h.call eventDef hchosen (.subscribeClient hcompatible h eventDef hchosen)

/-- Two linked subscribe frames arrive. -/
theorem Linked.onSubscribe (hcompatible : Compatible config chosen related) (h : s.Linked c chosen related t)
    {frame frame' : Frame} {eventDef : WebSocketEvent} {x y : Value}
    (hsize : frame.size ≤ config.maxMessageBytes.getD 16384)
    (hsize' : frame'.size ≤ config.maxMessageBytes.getD 16384)
    (hx : command config frame = some (.subscribe eventDef x))
    (hy : command config frame' = some (.subscribe eventDef y)) (hchosen : chosen x y) :
    (s.onClientMessage config c frame).Linked c chosen related (t.onClientMessage config c frame') := by
  unfold WebSockets.onClientMessage
  rw [h.now, ← NamedWebSocket.isExpired_congr (h.sessions c), hx, hy, if_neg (Nat.not_lt.mpr hsize),
    if_neg (Nat.not_lt.mpr hsize')]
  split
  · refine h.setClient ?_ (fun _ => hcompatible.disconnect h.client) h.frames
    refine (NamedWebSocket.session_closeExpired _).trans ?_
    exact (h.sessions c).trans (NamedWebSocket.session_closeExpired _).symm
  · exact h.call eventDef (fun _ => hchosen) (.subscribeClient hcompatible h eventDef fun _ => hchosen)

theorem Linked.handleConnection (hcompatible : Compatible config chosen related)
    (h : s.Linked c chosen related t)
    (d : Nat) (token : Option String) :
    (s.handleConnection d token).Linked c chosen related (t.handleConnection d token) := by
  unfold WebSockets.handleConnection
  rw [← h.connected d]
  split
  · exact h
  · exact h.moveClient hcompatible (fun session => { session with connected := true, token }) fun _ => rfl

/-- What the token says depends on the session, which the two clients share. -/
theorem Linked.verified (hcompatible : Compatible config chosen related) (h : s.Linked c chosen related t)
    (j : Nat) (decoded : Value) :
    (s.verified config j decoded).Linked c chosen related (t.verified config j decoded) := by
  unfold WebSockets.verified
  rcases Tasks.forall₂_getElem? h.frames j with ⟨hs, ht⟩ | ⟨f, _, hs, ht, y, rfl, hchosen⟩
  · rw [hs, ht]
    exact h
  · rw [hs, ht]
    obtain ⟨d, eventDef, x, stage⟩ := f
    cases stage with
    | verifying provider =>
        obtain ⟨next, hmove⟩ := NamedWebSocket.tokenVerified_congr (h.sessions d)
          (template eventDef.auth) provider decoded
        exact h.goOn j hchosen (.of_sameMove hcompatible h hmove)
    | resolved claims => exact h
    | authorizing claims => exact h
    | finished => exact h

theorem Linked.resume (hcompatible : Compatible config chosen related) (h : s.Linked c chosen related t)
    (j : Nat) : (s.resume config j).Linked c chosen related (t.resume config j) := by
  unfold WebSockets.resume
  rcases Tasks.forall₂_getElem? h.frames j with ⟨hs, ht⟩ | ⟨f, _, hs, ht, y, rfl, hchosen⟩
  · rw [hs, ht]
    exact h
  · rw [hs, ht]
    obtain ⟨d, eventDef, x, stage⟩ := f
    cases stage with
    | resolved claims => exact h.goOn j hchosen (.claimsResolved hcompatible h eventDef (some claims) hchosen)
    | verifying provider => exact h
    | authorizing claims => exact h
    | finished => exact h

theorem WentLinked.answered (hcompatible : Compatible config chosen related) (h : s.Linked c chosen related t)
    {d : Nat} (eventDef : WebSocketEvent) {x y : Value} (claims : ProcessedAuthData)
    (answer : Except Thrown Bool) (hchosen : d = c → chosen x y) :
    WentLinked c related s.now d (s.answered config (s.clients d) eventDef x claims answer)
      (t.answered config (t.clients d) eventDef y claims answer) := by
  unfold WebSockets.answered
  split
  · exact .addSubscription hcompatible h eventDef (some claims) hchosen
  · exact .sendError hcompatible h d eventDef.name "forbidden"
  · exact .sendError hcompatible h d eventDef.name "forbidden"

theorem Linked.authorized (hcompatible : Compatible config chosen related) (h : s.Linked c chosen related t)
    (j : Nat) (answer : Except Thrown Bool) :
    (s.authorized config j answer).Linked c chosen related (t.authorized config j answer) := by
  unfold WebSockets.authorized
  rcases Tasks.forall₂_getElem? h.frames j with ⟨hs, ht⟩ | ⟨f, _, hs, ht, y, rfl, hchosen⟩
  · rw [hs, ht]
    exact h
  · rw [hs, ht]
    obtain ⟨d, eventDef, x, stage⟩ := f
    cases stage with
    | authorizing claims => exact h.goOn j hchosen (.answered hcompatible h eventDef claims answer hchosen)
    | verifying provider => exact h
    | resolved claims => exact h
    | finished => exact h

/-- An event changes no session, and what it sends is the relation's own matter. -/
theorem Linked.deliver (hcompatible : Compatible config chosen related) (h : s.Linked c chosen related t)
    (o : BrokerEvent) : (s.step config (.deliver o)).Linked c chosen related (t.step config (.deliver o)) := by
  refine ⟨fun d => ?_, ?_, h.frames, h.subjects, h.providers, h.now⟩
  · show ((s.clients d).deliver config s.now o).session = ((t.clients d).deliver config t.now o).session
    rw [NamedWebSocket.session_deliver, NamedWebSocket.session_deliver]
    exact h.sessions d
  · show related s.now ((s.clients c).deliver config s.now o) ((t.clients c).deliver config t.now o)
    rw [h.now]
    exact hcompatible.deliver o h.client

theorem Linked.handleDisconnect (hcompatible : Compatible config chosen related)
    (h : s.Linked c chosen related t)
    (d : Nat) : (s.step config (.disconnect d)).Linked c chosen related (t.step config (.disconnect d)) := by
  unfold WebSockets.step
  refine h.atClient ?_ fun _ => hcompatible.disconnect h.client
  refine (NamedWebSocket.session_handleDisconnect _).trans ?_
  exact (h.sessions d).trans (NamedWebSocket.session_handleDisconnect _).symm

/-- The timers read the clock, which is the same in both. -/
theorem Linked.heartbeat (hcompatible : Compatible config chosen related) (h : s.Linked c chosen related t)
    (d : Nat) : (s.step config (.heartbeat d)).Linked c chosen related (t.step config (.heartbeat d)) := by
  obtain ⟨hsession, -⟩ := heartbeat_congr hcompatible (h.sessions d) s.now
  unfold WebSockets.step
  dsimp only
  rw [h.now]
  refine h.atClient hsession fun _ => ?_
  exact (heartbeat_congr hcompatible (h.sessions c) s.now).2 h.client

theorem Linked.pong (hcompatible : Compatible config chosen related) (h : s.Linked c chosen related t)
    (d : Nat) : (s.step config (.pong d)).Linked c chosen related (t.step config (.pong d)) := by
  unfold WebSockets.step
  dsimp only
  unfold WebSockets.atClient
  rw [← h.connected d]
  split
  · exact h.moveClient hcompatible (fun session => { session with isAlive := true }) fun _ => rfl
  · exact h

theorem Linked.onModuleDestroy (hcompatible : Compatible config chosen related)
    (h : s.Linked c chosen related t) :
    (s.step config .destroy).Linked c chosen related (t.step config .destroy) := by
  refine ⟨fun d => ?_, hcompatible.destroy h.client, h.frames, h.subjects, h.providers, h.now⟩
  show (s.clients d).onModuleDestroy.session = (t.clients d).onModuleDestroy.session
  rw [NamedWebSocket.session_onModuleDestroy, NamedWebSocket.session_onModuleDestroy]
  exact h.sessions d

/-- The other inputs are the same in both runs. -/
theorem Linked.step_same (hcompatible : Compatible config chosen related) (h : s.Linked c chosen related t)
    (i : SocketInput) : (s.step config i).Linked c chosen related (t.step config i) := by
  unfold WebSockets.step
  cases i with
  | connect d token => exact h.handleConnection hcompatible d token
  | frame d frame =>
      dsimp only
      rw [← h.connected d]
      split
      · exact h.onClientMessage hcompatible d frame
      · exact h
  | verified j decoded => exact h.verified hcompatible j decoded
  | resume j => exact h.resume hcompatible j
  | authorized j answer => exact h.authorized hcompatible j answer
  | deliver o => exact h.deliver hcompatible o
  | disconnect d => exact h.handleDisconnect hcompatible d
  | closing d => exact h.atClient (h.sessions d) fun _ => hcompatible.closing h.client
  | heartbeat d => exact h.heartbeat hcompatible d
  | pong d => exact h.pong hcompatible d
  | drained d bytes => exact h.atClient (h.sessions d) fun _ => hcompatible.drained bytes h.client
  | elapsed ms =>
      refine ⟨h.sessions, hcompatible.elapsed ms h.client, h.frames, h.subjects, h.providers, ?_⟩
      show t.now + ms = s.now + ms
      rw [h.now]
  | subject name =>
      refine ⟨h.sessions, h.client, h.frames, ?_, h.providers, h.now⟩
      dsimp only
      rw [h.subjects]
  | loaded providers => exact ⟨h.sessions, h.client, h.frames, h.subjects, rfl, h.now⟩
  | destroy => exact h.onModuleDestroy hcompatible

/-- **Linked inputs** lead from linked states to linked states. -/
theorem Linked.step (hcompatible : Compatible config chosen related) (h : s.Linked c chosen related t)
    {i j : SocketInput} (hinputs : i.Linked config c chosen j) :
    (s.step config i).Linked c chosen related (t.step config j) := by
  cases hinputs with
  | same => exact h.step_same hcompatible i
  -- the two subscriptions that differ in what they ask for
  | subscribe hsize hsize' hx hy hchosen =>
      unfold WebSockets.step
      dsimp only
      rw [← h.connected c]
      split
      · exact h.onSubscribe hcompatible hsize hsize' hx hy hchosen
      · exact h

end

end WebSockets

end NestAmqp.Proxy
