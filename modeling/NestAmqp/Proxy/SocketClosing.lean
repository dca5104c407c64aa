/-
# NestAmqp.Proxy.SocketClosing — subscriptions whose connection is gone.

`handleDisconnect` takes everything down that the table records, by whichever of its four routes it is
reached.  A subscribe frame that is still waiting for the token or the ACL service does not look at the
connection again, so when it passes its last check afterwards it puts an entry into a table that nothing
clears any more.  No such frame is exactly what it takes.
-/
import NestAmqp.Proxy.SubscriptionTable

namespace NestAmqp.Proxy

open NestAmqp.Js
open NestAmqp.Lib NestAmqp.Lib.Machine

/-- Nothing is subscribed for the client. -/
def NamedWebSocket.Clear (client : NamedWebSocket) : Prop :=
  client.subscriptions = none ∧ client.observers = []

/-- A client that is gone has nothing left. -/
def NamedWebSocket.Cleared (client : NamedWebSocket) : Prop :=
  client.disconnected = true → client.Clear

namespace NamedWebSocket

variable {config : WebSocketConfig} {a b client : NamedWebSocket}

theorem Clear.same (h : a.Clear) (hsame : SameTable a b) : b.Clear :=
  ⟨hsame.subscriptions.trans h.1, hsame.observers.trans h.2⟩

/-- No operation but an insertion undoes a clean-up. -/
theorem Cleared.tableStep (hrecorded : a.Recorded config) (h : a.Cleared) (hstep : TableStep a b) :
    b.Cleared := by
  intro hgone
  cases hstep with
  | same hsame =>
      rw [hsame.disconnected] at hgone
      exact (h hgone).same hsame
  | disconnected hsame => exact Clear.same hrecorded.handleDisconnect_clear hsame
  | unsubscribed topic =>
      rw [disconnected_unsubscribe] at hgone
      rw [unsubscribe_of_none a (h hgone).1]
      exact h hgone
  | destroyed =>
      unfold NamedWebSocket.onModuleDestroy at hgone ⊢
      split at hgone
      next hnone => exact ⟨hnone, (h hgone).2⟩
      next subs hsubs =>
        rw [(h hgone).1] at hsubs
        cases hsubs

theorem Cleared.tableSteps (hrecorded : a.Recorded config) (h : a.Cleared) (hsteps : TableSteps a b) :
    b.Cleared := by
  induction hsteps with
  | refl => exact h
  | tail hsteps hstep ih => exact ih.tableStep (hrecorded.tableSteps hsteps) hstep

/-- An insertion for a client that is not gone. -/
theorem Cleared.addSubscription (h : a.Cleared) {subjects : List String} {eventDef : WebSocketEvent}
    (select : Value)
    (claims : Option ProcessedAuthData) (hthere : hasSubject subjects eventDef.name = true → a.disconnected = false) :
    (a.addSubscription config subjects eventDef select claims).Cleared := by
  unfold NamedWebSocket.addSubscription
  split
  next => exact h
  next =>
    split
    next => exact h
    next hsubject =>
      have hmem : hasSubject subjects eventDef.name = true := by simpa using hsubject
      split
      all_goals
        intro hgone
        rw [show a.disconnected = true from hgone] at hthere
        cases hthere hmem

/-- An insertion into a cleared table leaves an entry. -/
theorem Clear.addSubscription (config : WebSocketConfig) (h : a.Clear) {subjects : List String}
    {eventDef : WebSocketEvent} (select : Value)
    (claims : Option ProcessedAuthData) (hsubject : hasSubject subjects eventDef.name = true) :
    (a.addSubscription config subjects eventDef select claims).disconnected = a.disconnected ∧
      ¬ (a.addSubscription config subjects eventDef select claims).Clear := by
  have hroom : ¬ a.limitReached config = true := by
    unfold limitReached
    rw [h.1]
    cases config.maxSubscriptionsPerClient with
    | none => exact Bool.false_ne_true
    | some max => simp
  unfold NamedWebSocket.addSubscription
  rw [if_neg hroom, if_neg (by simpa using hsubject)]
  split
  · exact ⟨rfl, fun hclear => Option.some_ne_none _ hclear.1⟩
  · exact ⟨rfl, fun hclear => Option.some_ne_none _ hclear.1⟩

end NamedWebSocket

namespace WebSockets

/-- The input lets no subscribe frame of a client that is gone pass its last check. -/
def timely (config : WebSocketConfig) (s : WebSockets) (i : SocketInput) : Bool :=
  (s.passing config i).all fun passed =>
    !NamedWebSocket.hasSubject s.subjects passed.2.1.name || !(s.clients passed.1).disconnected

variable {config : WebSocketConfig} {s : WebSockets}

/-- What holds of every client as long as no frame comes too late. -/
def Cleared (config : WebSocketConfig) (s : WebSockets) : Prop :=
  ∀ c, (s.clients c).Recorded config ∧ (s.clients c).Cleared

theorem Cleared.start (config : WebSocketConfig) : Cleared config {} := fun _ => ⟨.start config, nofun⟩

/-- One input, when no frame comes too late. -/
theorem Cleared.step (h : Cleared config s) {i : SocketInput} (hi : s.timely config i = true) :
    Cleared config (s.step config i) := by
  intro c
  refine ⟨recorded_step (fun d => (h d).1) i c, ?_⟩
  cases clientStep config s i c with
  | steps hsteps => exact (h c).2.tableSteps (h c).1 hsteps
  | added eventDef select claims hpassing hb =>
      rw [hb]
      refine (h c).2.addSubscription select claims fun hsubject => ?_
      unfold timely at hi
      rw [hpassing] at hi
      simpa [hsubject] using hi

/-- A frame that comes too late leaves an entry behind. -/
theorem Cleared.late (h : Cleared config s) {i : SocketInput} (hi : ¬ s.timely config i = true) :
    ¬ ∀ c, ((s.step config i).clients c).Cleared := by
  unfold timely at hi
  cases hpassing : s.passing config i with
  | none =>
      rw [hpassing] at hi
      exact absurd rfl hi
  | some passed =>
      obtain ⟨c, eventDef, select, claims⟩ := passed
      rw [hpassing] at hi
      have hlate : NamedWebSocket.hasSubject s.subjects eventDef.name = true ∧
          (s.clients c).disconnected = true := by simpa using hi
      intro hcleared
      obtain ⟨hgone, hnot⟩ :=
        ((h c).2 hlate.2).addSubscription config select claims hlate.1
      have hafter := hcleared c
      rw [clients_of_passing hpassing] at hafter
      exact hnot (hafter (hgone.trans hlate.2))

/-- **No entry for a client that is gone**, in every state of a run, exactly when no frame of such a client
passes its last check. -/
theorem cleared_iff_timely (config : WebSocketConfig) (inputs : List SocketInput) :
    (∀ s', Reaches (WebSockets.step config) {} inputs s' → ∀ c, (s'.clients c).Cleared) ↔
      Along (WebSockets.step config) (fun s i => s.timely config i = true) {} inputs := by
  have hcleared : ∀ s, Cleared config s → ∀ c, (s.clients c).Cleared := fun _ h c => (h c).2
  have hstep : ∀ s i, Cleared config s → s.timely config i = true → Cleared config (s.step config i) :=
    fun _ _ h hi => h.step hi
  have hlate : ∀ s i, Cleared config s → ¬ s.timely config i = true →
      ¬ ∀ c, ((s.step config i).clients c).Cleared := fun _ _ h hi => h.late hi
  exact Along.iff_forall_reaches hcleared hstep hlate (.start config) inputs

/-- When no subscribe frame of a client passes its last check after `handleDisconnect` has run for it, then
in every state of the run a client that is gone, whether or not its frames have all ended, has no entry in the
table and no live subscription. -/
theorem clear_after_disconnect (config : WebSocketConfig) (inputs : List SocketInput)
    (htimely : Along (WebSockets.step config) (fun s i => s.timely config i = true) {} inputs) :
    ∀ s', Reaches (WebSockets.step config) {} inputs s' → ∀ c, (s'.clients c).disconnected = true →
      (s'.clients c).subscriptions = none ∧ (s'.clients c).observers = [] :=
  fun s' hs' c hgone => (cleared_iff_timely config inputs).mpr htimely s' hs' c hgone

/-! ### A frame that comes too late -/

/-- A gateway with one event, which needs a token. -/
def newsConfig : WebSocketConfig := { wsEvents := [{ name := "news", auth := some "main" }] }

/-- The one provider; its claim map forwards the subject. -/
def mainProvider : HandlerAuthConfig :=
  { name := "main", type := .jwt, jwtMap := some ["sub:userid"], headerPrefix := some "X-" }

/-- A frame with an action and a topic. -/
def frameOf (action topic : String) (select : Value) : Frame :=
  { size := 64, parsed := some (.obj [("action", .str action), ("topic", .str topic), ("select", select)]) }

/-- The service has its subject and its provider, and a client connects. -/
def newsStart : List SocketInput :=
  [.loaded fun name => if name = "main" then some mainProvider else none, .subject "news",
    .connect 0 (some "token")]

/-- The client subscribes, and leaves when its frame has ended. -/
def newsStay : List SocketInput :=
  newsStart ++ [.frame 0 (frameOf "subscribe" "news" .undefined), .verified 0 (.obj [("sub", .str "u")]),
    .resume 0, .disconnect 0]

/-- Nothing of it stays. -/
theorem clear_after_disconnect_stays :
    ((run (WebSockets.step newsConfig) {} newsStay).clients 0).subscriptions = none ∧
      ((run (WebSockets.step newsConfig) {} newsStay).clients 0).observers = [] :=
  clear_after_disconnect newsConfig newsStay (by decide +kernel) _ (reaches_run ..) 0 (by decide +kernel)

/-- The client leaves while its token is verified: the entry that comes afterwards stays. -/
theorem not_clear_after_disconnect_verifying :
    ¬ ∀ (config : WebSocketConfig) (inputs : List SocketInput),
      ∀ s', Reaches (WebSockets.step config) {} inputs s' → ∀ c, (s'.clients c).disconnected = true →
        (∀ frame ∈ s'.frames, frame.client = c → frame.pending = false) →
        (s'.clients c).subscriptions = none ∧ (s'.clients c).observers = [] := by
  intro h
  have hclear := h newsConfig
    (newsStart ++ [.frame 0 (frameOf "subscribe" "news" .undefined), .disconnect 0,
      .verified 0 (.obj [("sub", .str "u")]), .resume 0]) _ (reaches_run ..) 0 (by decide +kernel)
    (by decide +kernel)
  exact absurd hclear.1 (by decide +kernel)

end WebSockets

end NestAmqp.Proxy
