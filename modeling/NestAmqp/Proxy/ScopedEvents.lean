/-
# NestAmqp.Proxy.ScopedEvents — the scope of what a client is sent.

The scope value of a subscription is a claim the service mapped from a token of the same connection,
verified by the event's own provider, or nothing.  The claims reach the subscription through the memo of
the connection and through the frames that wait with them, so all three are followed together.
-/
import NestAmqp.Proxy.SubscriptionTable

namespace NestAmqp.Proxy

open NestAmqp.Js
open NestAmqp.Lib NestAmqp.Lib.Machine

/-! ## Claims and scopes of a client -/

namespace NamedWebSocket

/-- The claims are mapped from what a provider of this name verified the client's token to, or there are none
beside the internal flag. -/
def Mapped (config : WebSocketConfig) (client : NamedWebSocket) (providerName : String) (claims : ProcessedAuthData) : Prop :=
  (∀ key ≠ "success", Obj.own claims key = none) ∨ ∃ provider decoded,
    (providerName, provider, decoded) ∈ client.verifications ∧
    HttpAuthHandler.mapClaims config.toUpperCase provider decoded = .ok claims

/-- The scope value comes from claims of the client. -/
def ScopedBy (config : WebSocketConfig) (client : NamedWebSocket) (eventDef : WebSocketEvent) (scopeValue : Value) : Prop :=
  ∃ claims, scopeValue = scopeOf eventDef claims ∧
    ∀ own, claims = some own → client.Mapped config (template eventDef.auth) own

/-- The claims a frame waits with are the client's. -/
def CarriesOwn (config : WebSocketConfig) (client : NamedWebSocket) (eventDef : WebSocketEvent) (stage : FrameStage) : Prop :=
  ∀ claims, stage = .resolved claims ∨ stage = .authorizing claims →
    client.Mapped config (template eventDef.auth) claims

/-- Memo, subscriptions and messages of a client go back to its own claims. -/
structure Attributed (config : WebSocketConfig) (client : NamedWebSocket) : Prop where
  memo : ∀ name claims, client.authByProvider name = some claims → client.Mapped config name claims
  scopes : ∀ o ∈ client.observers, client.ScopedBy config o.eventDef o.scopeValue
  sends : ∀ eventDef o, .sent (.event eventDef o) ∈ client.outcomes →
    ∃ scopeValue, client.ScopedBy config eventDef scopeValue ∧ inScope o eventDef scopeValue = true

variable {config : WebSocketConfig} {a b client : NamedWebSocket} {eventDef : WebSocketEvent}

/-- The only key of a denial is the flag. -/
theorem own_denied {key : String} (hkey : key ≠ "success") : Obj.own HttpAuthHandler.denied key = none := by
  simp [HttpAuthHandler.denied, Obj.own_cons, hkey]

theorem Mapped.mono (hsub : a.verifications ⊆ b.verifications) {name : String} {claims : ProcessedAuthData}
    (h : a.Mapped config name claims) : b.Mapped config name claims := by
  rcases h with hdenied | ⟨provider, decoded, hmem, hmapped⟩
  · exact .inl hdenied
  · exact .inr ⟨provider, decoded, hsub hmem, hmapped⟩

theorem ScopedBy.mono (hsub : a.verifications ⊆ b.verifications) {scopeValue : Value}
    (h : a.ScopedBy config eventDef scopeValue) : b.ScopedBy config eventDef scopeValue := by
  obtain ⟨claims, hvalue, hown⟩ := h
  exact ⟨claims, hvalue, fun own hclaims => (hown own hclaims).mono hsub⟩

theorem CarriesOwn.mono (hsub : a.verifications ⊆ b.verifications) {stage : FrameStage}
    (h : a.CarriesOwn config eventDef stage) : b.CarriesOwn config eventDef stage :=
  fun claims hstage => (h claims hstage).mono hsub

/-- Nothing is added but verifications. -/
theorem Attributed.shrink (h : a.Attributed config) (hsub : a.verifications ⊆ b.verifications)
    (hmemo : b.authByProvider = a.authByProvider) (hobservers : b.observers ⊆ a.observers)
    (hsends : ∀ e o, .sent (.event e o) ∈ b.outcomes → Outcome.sent (.event e o) ∈ a.outcomes) :
    b.Attributed config where
  memo := by
    intro name claims hclaims
    rw [hmemo] at hclaims
    exact (h.memo name claims hclaims).mono hsub
  scopes := fun o ho => (h.scopes o (hobservers ho)).mono hsub
  sends := by
    intro e o hsent
    obtain ⟨scopeValue, hscoped, hin⟩ := h.sends e o (hsends e o hsent)
    exact ⟨scopeValue, hscoped.mono hsub, hin⟩

theorem Attributed.start : Attributed config {} where
  memo _ claims hclaims := absurd hclaims.symm (Option.some_ne_none claims)
  scopes _ ho := absurd ho List.not_mem_nil
  sends _ _ hsent := absurd hsent List.not_mem_nil

/-- The fields a clean-up leaves alone. -/
structure SameRecord (a b : NamedWebSocket) : Prop where
  verifications : b.verifications = a.verifications
  authByProvider : b.authByProvider = a.authByProvider
  observers : b.observers ⊆ a.observers
  outcomes : b.outcomes = a.outcomes

theorem Attributed.sameRecord (h : a.Attributed config) (hsame : SameRecord a b) : b.Attributed config := by
  refine h.shrink (by rw [hsame.verifications]; exact List.Subset.refl _) hsame.authByProvider
    hsame.observers ?_
  intro e o hsent
  rw [← hsame.outcomes]
  exact hsent

theorem SameRecord.refl (client : NamedWebSocket) : SameRecord client client :=
  ⟨rfl, rfl, List.Subset.refl _, rfl⟩

theorem sameRecord_handleDisconnect (client : NamedWebSocket) : SameRecord client client.handleDisconnect := by
  unfold handleDisconnect
  split
  · exact ⟨rfl, rfl, List.Subset.refl _, rfl⟩
  · exact ⟨rfl, rfl, List.filter_sublist.subset, rfl⟩

theorem sameRecord_closeExpired (client : NamedWebSocket) : SameRecord client client.closeExpired := by
  obtain ⟨hver, hmemo, hobservers, hout⟩ := sameRecord_handleDisconnect client
  exact ⟨hver, hmemo, hobservers, hout⟩

theorem sameRecord_heartbeat (client : NamedWebSocket) (now : Nat) :
    SameRecord client (client.heartbeat now) := by
  unfold heartbeat
  split
  · exact sameRecord_closeExpired client
  · split
    · exact sameRecord_closeExpired client
    · exact ⟨rfl, rfl, List.Subset.refl _, rfl⟩

theorem sameRecord_unsubscribe (client : NamedWebSocket) (topic : String) :
    SameRecord client (client.unsubscribe topic) := by
  unfold unsubscribe
  split
  · exact .refl client
  split
  · exact .refl client
  · exact ⟨rfl, rfl, List.filter_sublist.subset, rfl⟩

theorem sameRecord_onModuleDestroy (client : NamedWebSocket) : SameRecord client client.onModuleDestroy := by
  unfold onModuleDestroy
  split
  · exact .refl client
  · exact ⟨rfl, rfl, List.filter_sublist.subset, rfl⟩

/-- An error is no message of an event. -/
theorem Attributed.sendError (h : a.Attributed config) (event reason : String) :
    (a.sendError config event reason).Attributed config := by
  refine h.shrink (List.Subset.refl _) rfl (List.Subset.refl _) fun e o hsent => ?_
  unfold NamedWebSocket.sendError send at hsent
  dsimp only at hsent
  split at hsent
  · rcases List.mem_append.mp hsent with hsent | hsent
    · exact hsent
    · cases List.mem_singleton.mp hsent
  · exact hsent

/-- A subscription with the client's own claims. -/
theorem Attributed.addSubscription (h : a.Attributed config) (subjects : List String) (select : Value)
    {claims : Option ProcessedAuthData}
    (hown : ∀ own, claims = some own → a.Mapped config (template eventDef.auth) own) :
    (a.addSubscription config subjects eventDef select claims).Attributed config := by
  unfold NamedWebSocket.addSubscription
  split
  next => exact h.sendError ..
  next =>
    split
    next => exact h.sendError ..
    next =>
      split
      next => exact h.sameRecord ⟨rfl, rfl, List.Subset.refl _, rfl⟩
      next =>
        refine ⟨h.memo, fun o ho => ?_, h.sends⟩
        rcases List.mem_append.mp ho with ho | ho
        · exact h.scopes o ho
        · rw [List.mem_singleton.mp ho]
          exact ⟨claims, rfl, hown⟩

theorem verifications_next (now : Nat) (o : BrokerEvent) (observer : Observer) :
    (next config now o client observer).verifications = client.verifications := by
  unfold next
  split
  · rfl
  split
  · rfl
  split
  · exact (sameRecord_closeExpired client).verifications
  split
  · rfl
  split <;> rfl

/-- What a handler sends is in the scope of its subscription. -/
theorem Attributed.next (h : a.Attributed config) (now : Nat) (o : BrokerEvent) {observer : Observer}
    (hscoped : a.ScopedBy config observer.eventDef observer.scopeValue) :
    (next config now o a observer).Attributed config := by
  unfold NamedWebSocket.next
  split
  · exact h
  split
  · exact h
  next hmatches =>
    split
    · exact h.sameRecord (sameRecord_closeExpired a)
    split
    · exact h
    split
    · refine h.shrink (List.Subset.refl _) rfl (List.Subset.refl _) fun e p hsent => ?_
      rcases List.mem_append.mp hsent with hsent | hsent
      · exact hsent
      · cases List.mem_singleton.mp hsent
    · refine ⟨h.memo, h.scopes, fun e p hsent => ?_⟩
      unfold send at hsent
      dsimp only at hsent
      split at hsent
      · rcases List.mem_append.mp hsent with hsent | hsent
        · exact h.sends e p hsent
        · cases List.mem_singleton.mp hsent
          refine ⟨observer.scopeValue, hscoped, ?_⟩
          simp only [Bool.not_eq_true', Bool.not_eq_false, «matches», Bool.and_eq_true] at hmatches
          exact hmatches.1
      · exact h.sends e p hsent

theorem Attributed.deliver (h : a.Attributed config) (now : Nat) (o : BrokerEvent) :
    (a.deliver config now o).Attributed config := by
  unfold NamedWebSocket.deliver
  have hscoped : ∀ observer ∈ a.observers.filter (fun observer => observer.eventDef.name == o.topic),
      a.ScopedBy config observer.eventDef observer.scopeValue :=
    fun observer hobserver => h.scopes observer (List.mem_of_mem_filter hobserver)
  generalize a.observers.filter (fun observer => observer.eventDef.name == o.topic) = observers at hscoped ⊢
  induction observers generalizing a with
  | nil => exact h
  | cons observer observers ih =>
      refine ih (h.next now o (hscoped observer (.head _))) fun other hother => ?_
      refine (hscoped other (.tail _ hother)).mono ?_
      rw [verifications_next]
      exact List.Subset.refl _

theorem verifications_deliver (client : NamedWebSocket) (now : Nat) (o : BrokerEvent) :
    (client.deliver config now o).verifications = client.verifications := by
  unfold NamedWebSocket.deliver
  generalize client.observers.filter (fun observer => observer.eventDef.name == o.topic) = observers
  induction observers generalizing client with
  | nil => rfl
  | cons observer observers ih => exact (ih _).trans (verifications_next now o observer)

/-- One more entry in the memo. -/
theorem Mapped.update {memo : String → Option ProcessedAuthData}
    (hold : ∀ key claims, memo key = some claims → b.Mapped config key claims) {name : String}
    {mapped : ProcessedAuthData}
    (hnew : b.Mapped config name mapped) (key : String) (claims : ProcessedAuthData)
    (hclaims : Function.update memo name (some mapped) key = some claims) : b.Mapped config key claims := by
  by_cases hkey : key = name
  · subst hkey
    rw [Function.update_self] at hclaims
    rw [← Option.some.inj hclaims]
    exact hnew
  · rw [Function.update_of_ne hkey] at hclaims
    exact hold key claims hclaims

/-- A memo that denies, or is there already; what the table of memos inherits has no claims. -/
theorem Attributed.resolveClaims (h : a.Attributed config) (providers : String → Option HandlerAuthConfig)
    (name : String) :
    (a.resolveClaims providers name).1.Attributed config ∧
      (a.resolveClaims providers name).1.verifications = a.verifications ∧
      ∀ claims, (a.resolveClaims providers name).2 = .resolved claims ∨
        (a.resolveClaims providers name).2 = .authorizing claims → a.Mapped config name claims := by
  unfold NamedWebSocket.resolveClaims
  split
  next memo hmemo =>
    refine ⟨h, rfl, fun claims hstage => ?_⟩
    rcases hstage with hstage | hstage
    · cases hstage
      exact h.memo name memo hmemo
    · cases hstage
  next =>
    split
    next =>
      refine ⟨h, rfl, fun claims hstage => ?_⟩
      rcases hstage with hstage | hstage
      · cases hstage
        exact .inl fun key _ => rfl
      · cases hstage
    split
    next =>
      refine ⟨⟨Mapped.update h.memo (.inl fun _ => own_denied), h.scopes, h.sends⟩, rfl, fun claims hstage => ?_⟩
      · rcases hstage with hstage | hstage
        · cases hstage
          exact .inl fun _ => own_denied
        · cases hstage
    next => exact ⟨h, rfl, fun claims hstage => hstage.elim nofun nofun⟩

/-- The claims of a token that was just verified. -/
theorem Attributed.tokenVerified (h : a.Attributed config) (name : String) (provider : HandlerAuthConfig)
    (decoded : Value) :
    (a.tokenVerified config name provider decoded).1.Attributed config ∧
      a.verifications ⊆ (a.tokenVerified config name provider decoded).1.verifications ∧
      ∀ claims, (a.tokenVerified config name provider decoded).2 = .resolved claims ∨
        (a.tokenVerified config name provider decoded).2 = .authorizing claims →
        (a.tokenVerified config name provider decoded).1.Mapped config name claims := by
  unfold NamedWebSocket.tokenVerified
  dsimp only
  have hsub : a.verifications ⊆ a.verifications ++ [(name, provider, decoded)] := List.subset_append_left _ _
  split
  next =>
    exact ⟨h.shrink hsub rfl (List.Subset.refl _) fun _ _ hsent => hsent, hsub, fun claims hstage =>
      hstage.elim nofun nofun⟩
  next mapped hmapped =>
    have hnew : (name, provider, decoded) ∈ a.verifications ++ [(name, provider, decoded)] :=
      List.mem_append_right _ (List.mem_singleton_self _)
    refine ⟨⟨Mapped.update (fun key claims hclaims => (h.memo key claims hclaims).mono hsub)
      (.inr ⟨provider, decoded, hnew, hmapped⟩),
      fun o ho => (h.scopes o ho).mono hsub, fun e o hsent => ?_⟩, hsub, fun claims hstage => ?_⟩
    · obtain ⟨scopeValue, hscoped, hin⟩ := h.sends e o hsent
      exact ⟨scopeValue, hscoped.mono hsub, hin⟩
    · rcases hstage with hstage | hstage
      · cases hstage
        exact .inr ⟨provider, decoded, hnew, hmapped⟩
      · cases hstage

end NamedWebSocket

/-- The ACL service is asked about the claims that were resolved. -/
theorem claims_of_asks {providers : String → Option HandlerAuthConfig} {eventDef : WebSocketEvent}
    {claims : Option ProcessedAuthData} {asked : ProcessedAuthData}
    (h : checkClaims providers eventDef claims = .asks asked) : claims = some asked := by
  unfold checkClaims at h
  split at h
  · cases h
  split at h
  · split at h
    · split at h
      · cases h
        rfl
      · cases h
    · cases h
  · cases h

/-! ## Every state -/

namespace WebSockets

/-- Every client's record goes back to its own claims, and so does every frame that waits with claims. -/
structure Attributed (config : WebSocketConfig) (s : WebSockets) : Prop where
  clients : ∀ c, (s.clients c).Attributed config
  frames : ∀ frame ∈ s.frames, (s.clients frame.client).CarriesOwn config frame.eventDef frame.stage

variable {config : WebSocketConfig} {s : WebSockets}

theorem Attributed.start : Attributed config {} where
  clients := fun _ => NamedWebSocket.Attributed.start
  frames := fun _ hframe => absurd hframe List.not_mem_nil

/-- One client is changed, and no verification is forgotten. -/
theorem Attributed.setClient (h : s.Attributed config) {c : Nat} {client : NamedWebSocket}
    (hclient : client.Attributed config)
    (hsub : (s.clients c).verifications ⊆ client.verifications) {frames : List SubscribeFrame}
    (hframes : ∀ frame ∈ frames, frame ∈ s.frames ∨
      frame.client = c ∧ client.CarriesOwn config frame.eventDef frame.stage) :
    Attributed config { s.setClient c client with frames } where
  clients := by
    intro d
    show ((s.setClient c client).clients d).Attributed config
    by_cases hd : d = c
    · subst hd
      rw [clients_setClient_self]
      exact hclient
    · rw [clients_setClient_of_ne hd]
      exact h.clients d
  frames := by
    intro frame hframe
    show ((s.setClient c client).clients frame.client).CarriesOwn config _ _
    by_cases hc : frame.client = c
    · rw [hc, clients_setClient_self]
      rcases hframes frame hframe with hold | ⟨-, hnew⟩
      · have howned := h.frames frame hold
        rw [hc] at howned
        exact howned.mono hsub
      · exact hnew
    · rw [clients_setClient_of_ne hc]
      rcases hframes frame hframe with hold | ⟨heq, -⟩
      · exact h.frames frame hold
      · exact absurd heq hc

theorem Attributed.setSame (h : s.Attributed config) {c : Nat} {client : NamedWebSocket}
    (hsame : NamedWebSocket.SameRecord (s.clients c) client) : (s.setClient c client).Attributed config :=
  h.setClient ((h.clients c).sameRecord hsame) (by rw [hsame.verifications]; exact List.Subset.refl _)
    fun _ hframe => .inl hframe

theorem Attributed.atClient (h : s.Attributed config) {c : Nat} {f : NamedWebSocket → NamedWebSocket}
    (hsame : NamedWebSocket.SameRecord (s.clients c) (f (s.clients c))) : (s.atClient c f).Attributed config := by
  unfold WebSockets.atClient
  split
  · exact h.setSame hsame
  · exact h

/-- What a call of `subscribeClient` leaves behind for its client. -/
structure Leaves (config : WebSocketConfig) (s : WebSockets) (c : Nat) (eventDef : WebSocketEvent)
    (went : NamedWebSocket × FrameStage) : Prop where
  client : went.1.Attributed config
  verifications : (s.clients c).verifications ⊆ went.1.verifications
  carries : went.1.CarriesOwn config eventDef went.2

theorem Leaves.addSubscription (h : s.Attributed config) {c : Nat} {eventDef : WebSocketEvent}
    {claims : Option ProcessedAuthData}
    (hown : ∀ own, claims = some own → (s.clients c).Mapped config (template eventDef.auth) own) (select : Value) :
    Leaves config s c eventDef ((s.clients c).addSubscription config s.subjects eventDef select claims,
    .finished) := by
  refine ⟨(h.clients c).addSubscription s.subjects select hown, ?_, fun own hstage => hstage.elim nofun nofun⟩
  unfold NamedWebSocket.addSubscription
  split
  · exact List.Subset.refl _
  split
  · exact List.Subset.refl _
  split <;> exact List.Subset.refl _

theorem Leaves.sendError (h : s.Attributed config) (c : Nat) (eventDef : WebSocketEvent) (reason : String) :
    Leaves config s c eventDef ((s.clients c).sendError config eventDef.name reason, .finished) :=
  ⟨(h.clients c).sendError .., List.Subset.refl _, fun _ hstage => hstage.elim nofun nofun⟩

/-- Once the claims are the client's own. -/
theorem Leaves.claimsResolved (h : s.Attributed config) {c : Nat} {eventDef : WebSocketEvent}
    {claims : Option ProcessedAuthData}
    (hown : ∀ own, claims = some own → (s.clients c).Mapped config (template eventDef.auth) own) (select : Value) :
    Leaves config s c eventDef (s.claimsResolved config (s.clients c) eventDef select claims) := by
  unfold WebSockets.claimsResolved
  split
  next reason hrefused => exact .sendError h c eventDef reason
  next asked hasks =>
    refine ⟨h.clients c, List.Subset.refl _, fun own hstage => ?_⟩
    rcases hstage with hstage | hstage
    · cases hstage
    · cases hstage
      exact hown _ (claims_of_asks hasks)
  next => exact .addSubscription h hown select

theorem Attributed.goOn (h : s.Attributed config) {j : Nat} {frame : SubscribeFrame}
    {went : NamedWebSocket × FrameStage}
    (hleaves : Leaves config s frame.client frame.eventDef went) : (s.goOn j frame went).Attributed config := by
  refine h.setClient hleaves.client hleaves.verifications fun other hother => ?_
  rcases List.mem_or_eq_of_mem_set hother with hold | rfl
  · exact .inl hold
  · exact .inr ⟨rfl, hleaves.carries⟩

/-- A frame arrives. -/
theorem Attributed.onClientMessage (h : s.Attributed config) (c : Nat) (frame : Frame) :
    (s.onClientMessage config c frame).Attributed config := by
  unfold WebSockets.onClientMessage
  split
  · exact h.setSame (NamedWebSocket.sameRecord_closeExpired _)
  split
  · exact h
  split
  next => exact h
  next topic _ => exact h.setSame (NamedWebSocket.sameRecord_unsubscribe _ topic)
  next eventDef select _ =>
    have hleaves : Leaves config s c eventDef (s.subscribeClient config (s.clients c) eventDef select) := by
      unfold subscribeClient
      split
      next =>
        obtain ⟨hclient, hver, hcarries⟩ :=
          (h.clients c).resolveClaims s.providers (template eventDef.auth)
        refine ⟨hclient, by rw [hver]; exact List.Subset.refl _, fun claims hstage => ?_⟩
        exact (hcarries claims hstage).mono (by rw [hver]; exact List.Subset.refl _)
      next => exact .claimsResolved h (fun _ hown => by cases hown) select
    refine h.setClient hleaves.client hleaves.verifications fun other hother => ?_
    rcases List.mem_append.mp hother with hold | hnew
    · exact .inl hold
    · rw [List.mem_singleton.mp hnew]
      exact .inr ⟨rfl, hleaves.carries⟩

/-- **Every input** leaves everything attributed. -/
theorem Attributed.step (h : s.Attributed config) (i : SocketInput) : (s.step config i).Attributed config := by
  unfold WebSockets.step
  cases i with
  | connect c token =>
      dsimp only
      unfold handleConnection
      split
      · exact h
      · exact h.setSame ⟨rfl, rfl, List.Subset.refl _, rfl⟩
  | frame c frame =>
      dsimp only
      split
      · exact h.onClientMessage c frame
      · exact h
  | verified j decoded =>
      dsimp only
      unfold verified
      split
      -- the frame that waited for the token goes on with what the verification says
      next c eventDef select provider hframe =>
        obtain ⟨hclient, hver, hcarries⟩ := (h.clients c).tokenVerified
          (template eventDef.auth) provider decoded
        exact h.goOn ⟨hclient, hver, hcarries⟩
      next => exact h
  | resume j =>
      dsimp only
      unfold resume
      split
      next c eventDef select claims hframe =>
        -- its claims are those of a verification of this client
        have hcarries := h.frames _ (List.mem_of_getElem? hframe) claims (.inl rfl)
        refine h.goOn (.claimsResolved h (fun own hown => ?_) select)
        rw [← Option.some.inj hown]
        exact hcarries
      next => exact h
  | authorized j answer =>
      dsimp only
      unfold authorized
      split
      next c eventDef select claims hframe =>
        have hcarries := h.frames _ (List.mem_of_getElem? hframe) claims (.inr rfl)
        unfold answered
        split
        next =>
          refine h.goOn (.addSubscription h (fun own hown => ?_) select)
          rw [← Option.some.inj hown]
          exact hcarries
        next => exact h.goOn (.sendError h c eventDef "forbidden")
        next => exact h.goOn (.sendError h c eventDef "forbidden")
      next => exact h
  -- an event verifies nothing, so the frames that wait are those there were
  | deliver o =>
      refine ⟨fun c => (h.clients c).deliver s.now o, fun frame hframe => ?_⟩
      refine (h.frames frame hframe).mono ?_
      show _ ⊆ ((s.clients frame.client).deliver config s.now o).verifications
      rw [NamedWebSocket.verifications_deliver]
      exact List.Subset.refl _
  | disconnect c =>
      obtain ⟨hver, hmemo, hobservers, hout⟩ := NamedWebSocket.sameRecord_handleDisconnect (s.clients c)
      exact h.atClient ⟨hver, hmemo, hobservers, hout⟩
  | closing c => exact h.atClient ⟨rfl, rfl, List.Subset.refl _, rfl⟩
  | heartbeat c => exact h.atClient (NamedWebSocket.sameRecord_heartbeat _ s.now)
  | pong c => exact h.atClient ⟨rfl, rfl, List.Subset.refl _, rfl⟩
  | drained c bytes => exact h.atClient ⟨rfl, rfl, List.Subset.refl _, rfl⟩
  | elapsed ms => exact ⟨h.clients, h.frames⟩
  | subject name => exact ⟨h.clients, h.frames⟩
  | loaded providers => exact ⟨h.clients, h.frames⟩
  | destroy =>
      have hsame := fun c => NamedWebSocket.sameRecord_onModuleDestroy (s.clients c)
      refine ⟨fun c => (h.clients c).sameRecord (hsame c), fun frame hframe => ?_⟩
      refine (h.frames frame hframe).mono ?_
      show _ ⊆ (s.clients frame.client).onModuleDestroy.verifications
      rw [(hsame frame.client).verifications]
      exact List.Subset.refl _

/-- **In every state**, what a client was sent goes back to its own claims. -/
theorem attributed_run (config : WebSocketConfig) (inputs : List SocketInput) :
    (run (WebSockets.step config) {} inputs).Attributed config :=
  run_invariant (fun _ i h => h.step i) .start inputs

end WebSockets

/-! ## Scope values -/

/-- A scope value that lets a message through is a claim of a token that was verified, unless the event
is scoped by the internal flag. -/
theorem NamedWebSocket.ScopedBy.verified {client : NamedWebSocket} {eventDef : WebSocketEvent}
    {scopeValue : Value}
    (h : client.ScopedBy config eventDef scopeValue) (hscope : truthyText eventDef.scopeClaim = true)
    (hname : eventDef.scopeClaim ≠ some "success") {o : BrokerEvent}
    (hin : inScope o eventDef scopeValue = true) :
    ∃ provider decoded claims, (template eventDef.auth, provider, decoded) ∈ client.verifications ∧
      decoded.truthy = true ∧ HttpAuthHandler.mapClaims config.toUpperCase provider decoded = .ok claims ∧
      o.payload.truthy = true ∧
      strictEq (property o.payload (template eventDef.payloadKey))
      (Obj.get claims (template eventDef.scopeClaim)) = true := by
  obtain ⟨claims, rfl, hown⟩ := h
  unfold inScope scopeOf at hin
  rw [if_pos hscope, if_pos hscope] at hin
  cases claims with
  | none => exact absurd hin Bool.false_ne_true
  | some own =>
      dsimp only at hin
      split at hin
      next => cases hin
      next hdenies =>
        simp only [Bool.or_eq_true, not_or, Bool.not_eq_true] at hdenies
        have hne : template eventDef.scopeClaim ≠ "success" := by
          cases hclaim : eventDef.scopeClaim with
          | none =>
              rw [hclaim] at hscope
              cases hscope
          | some name => exact fun heq => hname (hclaim.trans (congrArg some heq))
        -- a claim that is there is not among none
        have hclaims : ¬ ∀ key ≠ "success", Obj.own own key = none := by
          intro hnone
          have hundefined : Obj.get own (template eventDef.scopeClaim) = .undefined :=
            congrArg (·.getD .undefined) (hnone _ hne)
          rw [hundefined] at hdenies
          exact absurd hdenies.1 (by decide)
        rcases hown own rfl with hmapped | ⟨provider, decoded, hmem, hmapped⟩
        · exact absurd hmapped hclaims
        · have hdecoded : decoded.truthy = true := by
            by_contra hfalsy
            unfold HttpAuthHandler.mapClaims at hmapped
            rw [if_neg hfalsy] at hmapped
            obtain rfl := Except.ok.inj hmapped
            exact hclaims fun _ => own_denied
          rw [Bool.and_eq_true] at hin
          exact ⟨provider, decoded, own, hmem, hdecoded, hmapped, hin.1, hin.2⟩

end NestAmqp.Proxy
