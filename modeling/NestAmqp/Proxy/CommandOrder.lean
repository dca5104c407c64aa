/-
# NestAmqp.Proxy.CommandOrder — the order of a client's subscribe and unsubscribe frames.

A subscribe frame may wait for the token and for the ACL service; an unsubscribe frame never waits.  As
long as everything succeeds, a topic is wanted while it is subscribed or a subscribe frame for it waits,
and only the client's own frames change that: a subscribe makes it wanted, and an unsubscribe leaves it
wanted just when a subscribe still waits.  So the last command counts, unless it is an unsubscribe that
overtakes, or a subscribe under a name that the table of subscriptions inherits.
-/
import NestAmqp.Proxy.SocketClosing

namespace NestAmqp.Proxy

open NestAmqp.Js
open NestAmqp.Lib NestAmqp.Lib.Machine

/-! ## The table and the live subscriptions -/

namespace NamedWebSocket

variable {config : WebSocketConfig} {a b client : NamedWebSocket}

/-- The table is the list of the live subscriptions. -/
def Mirrored (client : NamedWebSocket) : Prop :=
  client.entries = client.observers.map fun o => (o.eventDef.name, o.id)

/-- There is a live subscription of the topic. -/
def Subscribed (client : NamedWebSocket) (topic : String) : Prop :=
  ∃ o ∈ client.observers, o.eventDef.name = topic

theorem Mirrored.subscribed_iff (h : client.Mirrored) (topic : String) :
    client.Subscribed topic ↔ ∃ entry ∈ client.entries, entry.1 = topic := by
  unfold Mirrored at h
  rw [h]
  simp [Subscribed]

theorem Mirrored.same (h : a.Mirrored) (hsame : SameTable a b) : b.Mirrored := by
  unfold Mirrored
  rw [hsame.entries, hsame.observers]
  exact h

theorem subscribed_same (hsame : SameTable a b) (topic : String) : b.Subscribed topic ↔ a.Subscribed topic := by
  unfold Subscribed
  rw [hsame.observers]

theorem entries_unsubscribe (hrecorded : client.Recorded config) (topic : String) :
    (client.unsubscribe topic).entries = withoutTopic client.entries topic := by
  unfold unsubscribe
  split
  next hinherited =>
    -- there is no entry under an inherited name
    refine (List.filter_eq_self.mpr fun entry hentry => ?_).symm
    rw [bne_iff_ne]
    rintro rfl
    exact Bool.false_ne_true ((hrecorded.own entry hentry).symm.trans hinherited)
  unfold entries
  split
  next hnone => rw [hnone]; rfl
  next subs hsubs => rw [hsubs]; rfl

/-- What an unsubscribe takes out of the table is what it unsubscribes. -/
theorem Mirrored.unsubscribe (h : client.Mirrored) (hrecorded : client.Recorded config) (topic : String) :
    (client.unsubscribe topic).Mirrored := by
  by_cases hinherited : objectPrototype.contains topic = true
  · rw [show client.unsubscribe topic = client from if_pos hinherited]
    exact h
  unfold Mirrored
  rw [entries_unsubscribe hrecorded]
  have hobservers : (client.unsubscribe topic).observers =
      client.observers.filter fun o => !((client.entries.lookup topic).toList.contains o.id) := by
    unfold NamedWebSocket.unsubscribe entries
    rw [if_neg hinherited]
    split
    next hnone =>
      rw [hnone]
      exact (List.filter_eq_self.mpr fun _ _ => rfl).symm
    next subs hsubs => rw [hsubs]; rfl
  rw [hobservers]
  unfold withoutTopic
  rw [show client.entries.filter (fun entry => entry.1 != topic) = (client.observers.filter
    ((fun entry => entry.1 != topic) ∘ fun o => (o.eventDef.name, o.id))).map fun o => (o.eventDef.name, o.id)
    from by rw [← List.filter_map]; exact congrArg _ h]
  congr 1
  apply List.filter_congr
  intro o ho
  have hmem := hrecorded.recorded o ho
  by_cases hname : o.eventDef.name = topic
  · subst hname
    rw [AssocList.lookup_of_mem hrecorded.topics hmem]
    simp
  · -- another topic has another id
    have hid : ∀ id, client.entries.lookup topic = some id → o.id ≠ id := by
      rintro id hlookup rfl
      have hentry : (topic, o.id) ∈ client.entries := AssocList.mem_of_lookup hlookup
      have hsame := List.inj_on_of_nodup_map hrecorded.ids hmem hentry rfl
      exact hname (congrArg Prod.fst hsame)
    cases hlookup : client.entries.lookup topic with
    | none => simp [hname]
    | some id => simp [hname, hid id hlookup]

/-- An insertion with room, of an event with a subject: the topic is in the table, if it is no inherited name,
and the others are as they were. -/
theorem entries_addSubscription {subjects : List String} {eventDef : WebSocketEvent} {select : Value}
    {claims : Option ProcessedAuthData} (hroom : client.limitReached config = false)
    (hsubject : hasSubject subjects eventDef.name = true) (topic : String) :
    (∃ entry ∈ (client.addSubscription config subjects eventDef select claims).entries, entry.1 = topic) ↔
      (∃ entry ∈ client.entries, entry.1 = topic) ∨
        topic = eventDef.name ∧ objectPrototype.contains eventDef.name = false := by
  unfold addSubscription
  rw [if_neg (by rw [hroom]; exact Bool.false_ne_true), if_neg (by simpa using hsubject)]
  split
  next hfound =>
    show (∃ entry ∈ client.entries, entry.1 = topic) ↔ _
    refine ⟨.inl, ?_⟩
    rintro (hthere | ⟨rfl, hplain⟩)
    · exact hthere
    · rw [hplain, Bool.or_false, List.lookup_isSome_iff] at hfound
      obtain ⟨entry, hentry, hname⟩ := hfound
      exact ⟨entry, hentry, (beq_iff_eq.mp hname).symm⟩
  next hfree =>
    rw [Bool.or_eq_true, not_or, Bool.not_eq_true, Bool.not_eq_true] at hfree
    rw [hfree.2]
    show (∃ entry ∈ client.entries ++ [(eventDef.name, client.nextId)], entry.1 = topic) ↔ _
    simp [or_and_right, exists_or, eq_comm]

theorem Mirrored.addSubscription (h : client.Mirrored) (subjects : List String) (eventDef : WebSocketEvent)
    (select : Value) (claims : Option ProcessedAuthData) :
    (client.addSubscription config subjects eventDef select claims).Mirrored := by
  unfold NamedWebSocket.addSubscription
  split
  next => exact h.same (sameTable_send ..)
  next =>
    split
    next => exact h.same (sameTable_send ..)
    next =>
      split
      next => exact h
      next =>
        show client.entries ++ _ = List.map _ (client.observers ++ _)
        rw [List.map_append, ← h]
        rfl

end NamedWebSocket

/-! ## Commands -/

/-- What a frame asks for a topic. -/
inductive Asked where
  | subscribe | unsubscribe
  deriving DecidableEq, Repr

/-- The topic a command is for, and what it asks. -/
def Command.asked : Command → String × Asked
  | .subscribe eventDef _ => (eventDef.name, .subscribe)
  | .unsubscribe topic => (topic, .unsubscribe)

/-- What an input asks for a topic on behalf of a client. -/
def askedFor (config : WebSocketConfig) (c : Nat) (topic : String) : SocketInput → Option Asked
  | .frame d frame =>
      if d = c then
        (command config frame).bind fun asks => if asks.asked.1 = topic then some asks.asked.2 else none
      else none
  | _ => none

/-- A check on the claims that refuses. -/
def ClaimCheck.isRefused : ClaimCheck → Bool
  | .refused _ => true
  | _ => false

namespace WebSockets

/-- The client stays connected, and its frames are well formed and not too large. -/
def staysConnected (config : WebSocketConfig) (c : Nat) (s : WebSockets) : SocketInput → Bool
  | .frame d frame =>
      d != c || ((s.clients c).connected && decide (frame.size ≤ config.maxMessageBytes.getD 16384) &&
        (command config frame).isSome)
  | .disconnect d => d != c
  | .heartbeat d => d != c || (s.clients c).isAlive
  | .destroy => false
  | _ => true

/-- The token verification, the checks on the claims and the ACL service let the client's frame go on. -/
def letsGoOn (config : WebSocketConfig) (c : Nat) (s : WebSockets) : SocketInput → Bool
  | .frame d frame =>
      d != c || match command config frame with
        | some (.subscribe eventDef _) =>
            truthyText eventDef.auth || !(checkClaims s.providers eventDef none).isRefused
        | _ => true
  | .verified i decoded =>
      match s.frames[i]? with
      | some ⟨d, _, _, .verifying provider⟩ => d != c || (HttpAuthHandler.mapClaims config.toUpperCase provider decoded).isOk
      | _ => true
  | .resume i =>
      match s.frames[i]? with
      | some ⟨d, eventDef, _, .resolved claims⟩ =>
          d != c || !(checkClaims s.providers eventDef (some claims)).isRefused
      | _ => true
  | .authorized i answer =>
      match s.frames[i]? with
      | some ⟨d, _, _, .authorizing _⟩ =>
          d != c || match answer with
            | .ok true => true
            | _ => false
      | _ => true
  | _ => true

/-- A frame of the client that passes its last check finds its event's subject, and room in the table. -/
def hasRoom (config : WebSocketConfig) (c : Nat) (s : WebSockets) (i : SocketInput) : Bool :=
  (s.passing config i).all fun passed =>
    passed.1 != c ||
      (!(s.clients c).limitReached config && NamedWebSocket.hasSubject s.subjects passed.2.1.name)

/-- Everything succeeds for a connected client, whose token has not expired. -/
def succeeds (config : WebSocketConfig) (c : Nat) (s : WebSockets) (i : SocketInput) : Bool :=
  !(s.clients c).isExpired s.now && s.staysConnected config c i && s.letsGoOn config c i && s.hasRoom config c i

/-- A subscribe frame of the client for the topic waits. -/
def Waits (c : Nat) (topic : String) (s : WebSockets) : Prop :=
  ∃ frame ∈ s.frames, frame.client = c ∧ frame.eventDef.name = topic ∧ frame.pending = true

/-- The topic is subscribed for the client, or will be. -/
def Wanted (c : Nat) (topic : String) (s : WebSockets) : Prop :=
  s.Waits c topic ∨ (s.clients c).Subscribed topic

/-- What an input does to the topics a client wants, when everything succeeds. -/
inductive CommandStep (config : WebSocketConfig) (c : Nat) (s : WebSockets) (i : SocketInput)
    (s' : WebSockets) :
    Prop
  /-- Nothing. -/
  | quiet (hasked : ∀ topic, askedFor config c topic i = none)
      (hsame : NamedWebSocket.SameTable (s.clients c) (s'.clients c))
      (hwaits : ∀ topic, s'.Waits c topic ↔ s.Waits c topic)
  /-- A topic is unsubscribed. -/
  | unsubscribed (t : String)
      (hasked : ∀ topic, askedFor config c topic i = if t = topic then some .unsubscribe else none)
      (hclient : s'.clients c = (s.clients c).unsubscribe t) (hframes : s'.frames = s.frames)
  /-- A subscribe frame, a new one or one that waited, waits or is put into the table. -/
  | carried (e : WebSocketEvent)
      (hasked : (∀ topic, askedFor config c topic i = if e.name = topic then some .subscribe else none) ∨
        (∀ topic, askedFor config c topic i = none) ∧ s.Waits c e.name)
      (hother : ∀ topic, e.name ≠ topic → (s'.Waits c topic ↔ s.Waits c topic))
      (hcarried : NamedWebSocket.SameTable (s.clients c) (s'.clients c) ∧ s'.Waits c e.name ∨
        (∃ select claims, s'.clients c = (s.clients c).addSubscription config s.subjects e select claims) ∧
          (s.clients c).limitReached config = false ∧ NamedWebSocket.hasSubject s.subjects e.name = true)

/-- What a topic is wanted by after a command for it. -/
def wantedAfter (c : Nat) (topic : String) (s : WebSockets) : Option Asked → Prop
  | none => s.Wanted c topic
  | some .subscribe => True
  | some .unsubscribe => s.Waits c topic

variable {config : WebSocketConfig} {c : Nat} {s s' : WebSockets} {i : SocketInput}

/-! ### What a step means for a topic -/

theorem CommandStep.mirrored (h : CommandStep config c s i s') (hrecorded : (s.clients c).Recorded config)
    (hmirrored : (s.clients c).Mirrored) : (s'.clients c).Mirrored := by
  cases h with
  | quiet _ hsame _ => exact hmirrored.same hsame
  | unsubscribed t _ hclient _ =>
      rw [hclient]
      exact hmirrored.unsubscribe hrecorded t
  | carried e _ _ hcarried =>
      rcases hcarried with ⟨hsame, -⟩ | ⟨⟨select, claims, hclient⟩, -, -⟩
      · exact hmirrored.same hsame
      · rw [hclient]
        exact hmirrored.addSubscription s.subjects e select claims

/-- **A topic is wanted** after a step if it was subscribed to in it, or was wanted before and not
unsubscribed; after an unsubscribe it is wanted by the frames that still wait. -/
theorem CommandStep.wanted (h : CommandStep config c s i s') (hrecorded : (s.clients c).Recorded config)
    (hmirrored : (s.clients c).Mirrored) {topic : String} (hplain : objectPrototype.contains topic = false) :
    s'.Wanted c topic ↔ s.wantedAfter c topic (askedFor config c topic i) := by
  have hafter := h.mirrored hrecorded hmirrored
  cases h with
  | quiet hasked hsame hwaits =>
      rw [hasked topic]
      exact or_congr (hwaits topic) (NamedWebSocket.subscribed_same hsame topic)
  | unsubscribed t hasked hclient hframes =>
      have hwaits : s'.Waits c topic ↔ s.Waits c topic := by
        unfold Waits
        rw [hframes]
      -- an unsubscribe takes the topic out of the table, and no frame that waits
      have hsubscribed : (s'.clients c).Subscribed topic ↔ (s.clients c).Subscribed topic ∧ topic ≠ t := by
        rw [hafter.subscribed_iff, hmirrored.subscribed_iff, hclient,
          NamedWebSocket.entries_unsubscribe hrecorded]
        unfold withoutTopic
        constructor
        · rintro ⟨entry, hentry, rfl⟩
          obtain ⟨hmem, hne⟩ := List.mem_filter.mp hentry
          exact ⟨⟨entry, hmem, rfl⟩, bne_iff_ne.mp hne⟩
        · rintro ⟨⟨entry, hentry, rfl⟩, hne⟩
          exact ⟨entry, List.mem_filter.mpr ⟨hentry, bne_iff_ne.mpr hne⟩, rfl⟩
      rw [hasked topic]
      by_cases htopic : t = topic
      · rw [if_pos htopic]
        constructor
        · rintro (hwait | hsub)
          · exact hwaits.mp hwait
          · exact absurd htopic.symm (hsubscribed.mp hsub).2
        · exact fun hwait => .inl (hwaits.mpr hwait)
      · rw [if_neg htopic]
        refine or_congr hwaits (hsubscribed.trans ?_)
        exact and_iff_left (Ne.symm htopic)
  -- a subscribe has come through, or waits on
  | carried e hasked hother hcarried =>
      by_cases htopic : e.name = topic
      · subst htopic
        have hwanted : s'.Wanted c e.name := by
          rcases hcarried with ⟨-, hwait⟩ | ⟨⟨select, claims, hclient⟩, hroom, hsubject⟩
          · exact .inl hwait
          · right
            rw [hafter.subscribed_iff, hclient, NamedWebSocket.entries_addSubscription hroom hsubject]
            exact .inr ⟨rfl, hplain⟩
        rcases hasked with hsubscribe | ⟨hnone, hwaited⟩
        · rw [hsubscribe, if_pos rfl]
          exact iff_of_true hwanted trivial
        · rw [hnone]
          exact iff_of_true hwanted (.inl hwaited)
      · have hnone : askedFor config c topic i = none := by
          rcases hasked with hsubscribe | ⟨hnone, -⟩
          · rw [hsubscribe, if_neg htopic]
          · exact hnone topic
        rw [hnone]
        refine or_congr (hother topic htopic) ?_
        rcases hcarried with ⟨hsame, -⟩ | ⟨⟨select, claims, hclient⟩, hroom, hsubject⟩
        · exact NamedWebSocket.subscribed_same hsame topic
        · rw [hafter.subscribed_iff, hmirrored.subscribed_iff, hclient,
            NamedWebSocket.entries_addSubscription hroom hsubject]
          exact or_iff_left fun hsame => htopic hsame.1.symm

/-! ### The steps of a client for whom everything succeeds -/

/-- A subscribe frame waits on, or its last check is passed with room in the table. -/
def Carried (config : WebSocketConfig) (c : Nat) (s : WebSockets) (e : WebSocketEvent)
    (went : NamedWebSocket × FrameStage) : Prop :=
  NamedWebSocket.SameTable (s.clients c) went.1 ∧ went.2.pending = true ∨
    (∃ select claims, went.1 = (s.clients c).addSubscription config s.subjects e select claims) ∧
      (s.clients c).limitReached config = false ∧ NamedWebSocket.hasSubject s.subjects e.name = true

theorem CommandStep.of_same (hasked : ∀ topic, askedFor config c topic i = none)
    (hsame : NamedWebSocket.SameTable (s.clients c) (s'.clients c)) (hframes : s'.frames = s.frames) :
    CommandStep config c s i s' := by
  refine .quiet hasked hsame fun topic => ?_
  unfold Waits
  rw [hframes]

theorem CommandStep.atClient (hasked : ∀ topic, askedFor config c topic i = none) {d : Nat}
    {f : NamedWebSocket → NamedWebSocket}
    (hsame : d = c → NamedWebSocket.SameTable (s.clients c) (f (s.clients c))) :
    CommandStep config c s i (s.atClient d f) := by
  unfold WebSockets.atClient
  split
  · refine .of_same hasked ?_ rfl
    by_cases hd : d = c
    · subst hd
      rw [clients_setClient_self]
      exact hsame rfl
    · rw [clients_setClient_of_ne (Ne.symm hd)]
      exact .refl _
  · exact .of_same hasked (.refl _) rfl

/-- A call of `subscribeClient` goes on. -/
theorem CommandStep.goOn (hasked : ∀ topic, askedFor config c topic i = none) {j : Nat} {frame : SubscribeFrame}
    (hframe : s.frames[j]? = some frame) (hpending : frame.pending = true) {went : NamedWebSocket × FrameStage}
    (hcarried : frame.client = c → s.Carried config c frame.eventDef went) :
    CommandStep config c s i (s.goOn j frame went) := by
  by_cases hc : frame.client = c
  · subst hc
    refine .carried frame.eventDef (.inr ⟨hasked, frame, List.mem_of_getElem? hframe, rfl, rfl, hpending⟩) ?_ ?_
    · intro topic hne
      refine Tasks.exists_set_iff hframe ?_
      exact iff_of_false (fun h => hne h.2.1) (fun h => hne h.2.1)
    · rcases hcarried rfl with ⟨hsame, hwent⟩ | ⟨⟨select, claims, hadded⟩, hroom, hsubject⟩
      · left
        refine ⟨?_, _, Tasks.mem_set_self hframe, rfl, rfl, hwent⟩
        rw [show (s.goOn j frame went).clients frame.client = went.1 from clients_setClient_self ..]
        exact hsame
      · exact .inr ⟨⟨select, claims, (clients_setClient_self ..).trans hadded⟩, hroom, hsubject⟩
  · refine .quiet hasked ?_ fun topic => Tasks.exists_set_iff hframe ?_
    · rw [show (s.goOn j frame went).clients c = s.clients c from clients_setClient_of_ne (Ne.symm hc) _]
      exact .refl _
    · exact iff_of_false (fun h => hc h.1) (fun h => hc h.1)

/-- The claims are there, and nothing refuses. -/
theorem carried_claimsResolved {e : WebSocketEvent} {claims : Option ProcessedAuthData}
    (hchecks : (checkClaims s.providers e claims).isRefused = false)
    (hroom : checkClaims s.providers e claims = .passed →
      (s.clients c).limitReached config = false ∧
      NamedWebSocket.hasSubject s.subjects e.name = true) (select : Value) :
    s.Carried config c e (s.claimsResolved config (s.clients c) e select claims) := by
  unfold claimsResolved
  split
  next reason hrefused =>
    rw [hrefused] at hchecks
    cases hchecks
  next => exact .inl ⟨.refl _, rfl⟩
  next hpassed => exact .inr ⟨⟨select, claims, rfl⟩, hroom hpassed⟩

theorem pending_resolveClaims (client : NamedWebSocket) (providers : String → Option HandlerAuthConfig)
    (providerName : String) : (client.resolveClaims providers providerName).2.pending = true := by
  unfold NamedWebSocket.resolveClaims
  split
  · rfl
  split
  · rfl
  split <;> rfl

theorem sameTable_deliver {config : WebSocketConfig} {client : NamedWebSocket}
    (hrecorded : client.Recorded config)
    {now : Nat} (hexpired : client.isExpired now = false) (o : BrokerEvent) :
    NamedWebSocket.SameTable client (client.deliver config now o) := by
  rcases hrecorded.deliver_eq now o with ⟨-, hnone⟩ | ⟨observer, -, -, -, hone⟩
  · rw [hnone]
    exact .refl _
  · rw [hone]
    unfold NamedWebSocket.next
    rw [hexpired]
    split
    · exact .refl _
    split
    · exact .refl _
    rw [if_neg Bool.false_ne_true]
    split
    · exact .refl _
    split
    · exact ⟨rfl, rfl, rfl, rfl⟩
    · exact NamedWebSocket.sameTable_send ..

/-- The room there is for a frame that passes its last check. -/
theorem room_of_passing (h : s.hasRoom config c i = true) {e : WebSocketEvent} {select : Value}
    {claims : Option ProcessedAuthData} (hpassing : s.passing config i = some (c, e, select, claims)) :
    (s.clients c).limitReached config = false ∧
      NamedWebSocket.hasSubject s.subjects e.name = true := by
  unfold hasRoom at h
  rw [hpassing] at h
  simpa using h

/-- A frame of the client. -/
theorem commandStep_frame {frame : Frame} (hconnected : (s.clients c).connected = true)
    (h : s.succeeds config c (.frame c frame) = true) :
    CommandStep config c s (.frame c frame) (s.onClientMessage config c frame) := by
  simp only [succeeds, Bool.and_eq_true, Bool.not_eq_true'] at h
  obtain ⟨⟨⟨hexpired, hstays⟩, hgoes⟩, hroom⟩ := h
  simp only [staysConnected, bne_self_eq_false, Bool.false_or, Bool.and_eq_true, decide_eq_true_eq,
    Option.isSome_iff_exists] at hstays
  obtain ⟨⟨-, hsize⟩, asks, hcommand⟩ := hstays
  have hasked : ∀ topic, askedFor config c topic (.frame c frame) =
      if asks.asked.1 = topic then some asks.asked.2 else none := by
    intro topic
    unfold askedFor
    dsimp only
    rw [if_pos rfl, hcommand]
    rfl
  unfold onClientMessage
  rw [if_neg (by rw [hexpired]; exact Bool.false_ne_true), if_neg (Nat.not_lt.mpr hsize), hcommand]
  cases asks with
  | unsubscribe topic => exact .unsubscribed topic hasked (clients_setClient_self ..) rfl
  | subscribe e select =>
      -- up to its first `await` the frame waits, or has come to its end
      have hcarried : s.Carried config c e (s.subscribeClient config (s.clients c) e select) := by
        unfold subscribeClient
        split
        next => exact .inl ⟨NamedWebSocket.sameTable_resolveClaims .., pending_resolveClaims ..⟩
        next hauth =>
          refine carried_claimsResolved ?_ (fun hpassed => ?_) select
          · simpa [letsGoOn, hcommand, hauth] using hgoes
          · have hpassing : s.passing config (.frame c frame) = some (c, e, select, none) := by
              simp [passing, hconnected, hexpired, Nat.not_lt.mpr hsize, hcommand, hauth, hpassed]
            exact room_of_passing hroom hpassing
      refine .carried e (.inl hasked) (fun topic hne => ?_) ?_
      · exact Tasks.exists_concat_iff fun h => hne h.2.1
      · rcases hcarried with ⟨hsame, hwent⟩ | ⟨⟨chosen, claims, hadded⟩, hfree⟩
        · left
          refine ⟨?_, _, List.mem_append_right _ (List.mem_singleton_self _), rfl, rfl, hwent⟩
          rw [show _ = _ from clients_setClient_self ..]
          exact hsame
        · exact .inr ⟨⟨chosen, claims, (clients_setClient_self ..).trans hadded⟩, hfree⟩

/-- A frame of another client. -/
theorem commandStep_other {d : Nat} (hd : d ≠ c) (frame : Frame) :
    CommandStep config c s (.frame d frame) (s.onClientMessage config d frame) := by
  have hasked : ∀ topic, askedFor config c topic (.frame d frame) = none := fun _ => if_neg hd
  have hsame : ∀ client, NamedWebSocket.SameTable (s.clients c) ((s.setClient d client).clients c) := by
    intro client
    rw [clients_setClient_of_ne (Ne.symm hd)]
    exact .refl _
  unfold onClientMessage
  split
  · exact .of_same hasked (hsame _) rfl
  split
  · exact .of_same hasked (.refl _) rfl
  split
  · exact .of_same hasked (.refl _) rfl
  · exact .of_same hasked (hsame _) rfl
  · exact .quiet hasked (hsame _) fun topic => Tasks.exists_concat_iff fun h => hd h.1

/-- `verifyToken` answers. -/
theorem commandStep_verified {j : Nat} {decoded : Value}
    (h : s.letsGoOn config c (.verified j decoded) = true) :
    CommandStep config c s (.verified j decoded) (s.verified config j decoded) := by
  unfold verified
  split
  next d e select provider hframe =>
    refine .goOn (fun _ => rfl) hframe rfl fun hc => .inl ?_
    obtain rfl : d = c := hc
    refine ⟨NamedWebSocket.sameTable_tokenVerified .., ?_⟩
    have hmapped : (HttpAuthHandler.mapClaims config.toUpperCase provider decoded).isOk = true := by
      simpa [letsGoOn, hframe] using h
    unfold NamedWebSocket.tokenVerified
    dsimp only
    split
    next error herror =>
      rw [herror] at hmapped
      cases hmapped
    next => rfl
  next => exact .of_same (fun _ => rfl) (.refl _) rfl

/-- `resolveClaims` returns. -/
theorem commandStep_resume {j : Nat} (h : s.letsGoOn config c (.resume j) = true)
    (hroom : s.hasRoom config c (.resume j) = true) :
    CommandStep config c s (.resume j) (s.resume config j) := by
  unfold resume
  split
  next d e select claims hframe =>
    refine .goOn (fun _ => rfl) hframe rfl fun hc => ?_
    obtain rfl : d = c := hc
    refine carried_claimsResolved ?_ (fun hpassed => ?_) select
    · simpa [letsGoOn, hframe] using h
    · have hpassing : s.passing config (.resume j) = some (d, e, select, some claims) := by
        simp [passing, hframe, hpassed]
      exact room_of_passing hroom hpassing
  next => exact .of_same (fun _ => rfl) (.refl _) rfl

/-- `checkActionsForClaims` answers. -/
theorem commandStep_authorized {j : Nat} {answer : Except Thrown Bool}
    (h : s.letsGoOn config c (.authorized j answer) = true)
    (hroom : s.hasRoom config c (.authorized j answer) = true) :
    CommandStep config c s (.authorized j answer) (s.authorized config j answer) := by
  unfold authorized
  split
  next d e select claims hframe =>
    refine .goOn (fun _ => rfl) hframe rfl fun hc => ?_
    obtain rfl : d = c := hc
    unfold answered
    split
    next =>
      have hpassing : s.passing config (.authorized j (.ok true)) = some (d, e, select, some claims) := by
        simp [passing, hframe]
      exact .inr ⟨⟨select, some claims, rfl⟩, room_of_passing hroom hpassing⟩
    next => simp [letsGoOn, hframe] at h
    next => simp [letsGoOn, hframe] at h
  next => exact .of_same (fun _ => rfl) (.refl _) rfl

/-- **Every input**, when everything succeeds. -/
theorem commandStep (hrecorded : (s.clients c).Recorded config) (h : s.succeeds config c i = true) :
    CommandStep config c s i (s.step config i) := by
  have hparts := h
  simp only [succeeds, Bool.and_eq_true, Bool.not_eq_true'] at hparts
  obtain ⟨⟨⟨hexpired, hstays⟩, hgoes⟩, hroom⟩ := hparts
  cases i with
  | connect d token =>
      show CommandStep config c s _ (s.handleConnection d token)
      unfold handleConnection
      split
      · exact .of_same (fun _ => rfl) (.refl _) rfl
      · refine .of_same (fun _ => rfl) ?_ rfl
        by_cases hd : d = c
        · subst hd
          rw [clients_setClient_self]
          exact ⟨rfl, rfl, rfl, rfl⟩
        · rw [clients_setClient_of_ne (Ne.symm hd)]
          exact .refl _
  | frame d frame =>
      unfold step
      dsimp only
      by_cases hd : d = c
      · subst hd
        have hconnected : (s.clients d).connected = true := by
          simp only [staysConnected, bne_self_eq_false, Bool.false_or, Bool.and_eq_true] at hstays
          exact hstays.1.1
        rw [if_pos hconnected]
        exact commandStep_frame hconnected h
      · split
        · exact commandStep_other hd frame
        · exact .of_same (fun _ => if_neg hd) (.refl _) rfl
  -- a frame that waits goes on: it comes behind the frames of the client that have ended
  | verified j decoded => exact commandStep_verified hgoes
  | resume j => exact commandStep_resume hgoes hroom
  | authorized j answer => exact commandStep_authorized hgoes hroom
  | deliver o => exact .of_same (fun _ => rfl) (sameTable_deliver hrecorded hexpired o) rfl
  | disconnect d =>
      unfold step
      dsimp only
      refine .atClient (fun _ => rfl) fun hd => ?_
      -- the client would not stay connected
      subst hd
      simp [staysConnected] at hstays
  | closing d =>
      unfold step
      dsimp only
      exact .atClient (fun _ => rfl) fun _ => ⟨rfl, rfl, rfl, rfl⟩
  | heartbeat d =>
      unfold step
      dsimp only
      refine .atClient (fun _ => rfl) fun hd => ?_
      subst hd
      have halive : (s.clients d).isAlive = true := by simpa [staysConnected] using hstays
      unfold NamedWebSocket.heartbeat
      rw [hexpired, halive]
      exact ⟨rfl, rfl, rfl, rfl⟩
  | pong d =>
      unfold step
      dsimp only
      exact .atClient (fun _ => rfl) fun _ => ⟨rfl, rfl, rfl, rfl⟩
  | drained d bytes =>
      unfold step
      dsimp only
      exact .atClient (fun _ => rfl) fun _ => ⟨rfl, rfl, rfl, rfl⟩
  | elapsed ms => exact .of_same (fun _ => rfl) (.refl _) rfl
  | subject name => exact .of_same (fun _ => rfl) (.refl _) rfl
  | loaded providers => exact .of_same (fun _ => rfl) (.refl _) rfl
  | destroy => cases hstays

/-! ### Runs -/

/-- What the client's last frame for the topic asks. -/
def lastAsked (config : WebSocketConfig) (c : Nat) (topic : String) (inputs : List SocketInput) :
    Option Asked :=
  (inputs.filterMap (askedFor config c topic)).getLast?

/-- The client's last frame for the topic is an unsubscribe, and a subscribe frame for it waits when it
arrives. -/
def Overtakes (config : WebSocketConfig) (c : Nat) (topic : String) (inputs : List SocketInput) : Prop :=
  ∃ l i r, inputs = l ++ i :: r ∧ askedFor config c topic i = some .unsubscribe ∧
    (∀ j ∈ r, askedFor config c topic j = none) ∧ (run (step config) {} l).Waits c topic

theorem lastAsked_concat (topic : String) (inputs : List SocketInput) (i : SocketInput) :
    lastAsked config c topic (inputs ++ [i]) =
      ((askedFor config c topic i).or (lastAsked config c topic inputs)) := by
  unfold lastAsked
  rw [List.filterMap_append]
  cases h : askedFor config c topic i with
  | none => simp [List.filterMap, h]
  | some asked => simp [List.filterMap, h]

/-- The client's last frame for the topic has no effect that lasts: a subscribe under a name that every object
inherits, or an unsubscribe that arrives while a subscribe frame waits. -/
def ComesToNothing (config : WebSocketConfig) (c : Nat) (topic : String) (inputs : List SocketInput) : Prop :=
  if objectPrototype.contains topic then lastAsked config c topic inputs = some .subscribe
  else Overtakes config c topic inputs

/-- The table is in order for everyone, and the client's mirrors its live subscriptions. -/
def InStep (config : WebSocketConfig) (c : Nat) (s : WebSockets) : Prop :=
  (∀ d, (s.clients d).Recorded config) ∧ (s.clients c).Mirrored

theorem InStep.start (config : WebSocketConfig) (c : Nat) : InStep config c {} := ⟨fun _ => .start config, rfl⟩

theorem InStep.step (h : InStep config c s) (hi : s.succeeds config c i = true) :
    InStep config c (s.step config i) :=
  ⟨recorded_step h.1 i, (commandStep (h.1 c) hi).mirrored (h.1 c) h.2⟩

theorem InStep.run {inputs : List SocketInput}
    (h : Along (WebSockets.step config) (fun s i => s.succeeds config c i = true) {} inputs) :
    InStep config c (run (WebSockets.step config) {} inputs) := by
  have hstep : ∀ s i, InStep config c s → s.succeeds config c i = true → InStep config c (s.step config i) :=
    fun _ _ hs hi => hs.step hi
  exact Along.invariant_run hstep (.start config c) h

/-- **What the client wants** at the end of a run: what its last frame asks for, and what that frame was
too early for. -/
theorem wanted_run {inputs : List SocketInput} {topic : String}
    (hplain : objectPrototype.contains topic = false)
    (h : Along (step config) (fun s i => s.succeeds config c i = true) {} inputs) :
    (run (step config) {} inputs).Wanted c topic ↔
      lastAsked config c topic inputs = some .subscribe ∨ Overtakes config c topic inputs := by
  induction inputs using List.reverseRecOn with
  | nil =>
      refine iff_of_false ?_ ?_
      · rintro (⟨_, hframe, -⟩ | ⟨_, ho, -⟩)
        · cases hframe
        · cases ho
      · rintro (hlast | ⟨l, i, r, heq, -⟩)
        · cases hlast
        · exact List.append_ne_nil_of_right_ne_nil l (List.cons_ne_nil i r) heq.symm
  | append_singleton inputs i ih =>
      obtain ⟨hbefore, hi, -⟩ := (along_append ..).mp h
      have hinstep := InStep.run hbefore
      have hwanted := (commandStep (hinstep.1 c) hi).wanted (hinstep.1 c) hinstep.2 hplain
      rw [run_append]
      refine hwanted.trans ?_
      rw [lastAsked_concat]
      cases hasked : askedFor config c topic i with
      -- the input is no command for the topic: the last one is where it was
      | none =>
          refine (ih hbefore).trans (or_congr Iff.rfl ?_)
          constructor
          · rintro ⟨l, j, r, rfl, hj, hr, hwaits⟩
            refine ⟨l, j, r ++ [i], by simp, hj, ?_, hwaits⟩
            intro k hk
            rcases List.mem_append.mp hk with hk | hk
            · exact hr k hk
            · rw [List.mem_singleton.mp hk]
              exact hasked
          · rintro ⟨l, j, r, heq, hj, hr, hwaits⟩
            rcases List.eq_nil_or_concat r with rfl | ⟨r, k, rfl⟩
            · -- the last input is no command for the topic
              obtain ⟨-, hij⟩ := List.append_inj' heq rfl
              rw [List.singleton_inj.mp hij, hj] at hasked
              cases hasked
            · rw [List.concat_eq_append] at heq hr
              rw [← List.cons_append, ← List.append_assoc] at heq
              obtain ⟨rfl, -⟩ := List.append_inj' heq rfl
              exact ⟨l, j, r, rfl, hj, fun k hk => hr k (List.mem_append_left _ hk), hwaits⟩
      -- the input is a command: it is overtaken only by what waits now
      | some asked =>
          have hends : Overtakes config c topic (inputs ++ [i]) ↔
              asked = .unsubscribe ∧ (run (step config) {} inputs).Waits c topic := by
            constructor
            · rintro ⟨l, j, r, heq, hj, hr, hwaits⟩
              rcases List.eq_nil_or_concat r with rfl | ⟨r, k, rfl⟩
              · obtain ⟨rfl, hij⟩ := List.append_inj' heq rfl
                rw [List.singleton_inj.mp hij, hj] at hasked
                exact ⟨(Option.some.inj hasked).symm, hwaits⟩
              · rw [List.concat_eq_append] at heq hr
                rw [← List.cons_append, ← List.append_assoc] at heq
                obtain ⟨-, hik⟩ := List.append_inj' heq rfl
                rw [List.singleton_inj.mp hik,
                  hr k (List.mem_append_right _ (List.mem_singleton_self _))] at hasked
                cases hasked
            · rintro ⟨rfl, hwaits⟩
              exact ⟨inputs, i, [], rfl, hasked, nofun, hwaits⟩
          rw [hends]
          cases asked with
          | subscribe => exact iff_of_true trivial (.inl rfl)
          | unsubscribe =>
              show (run (step config) {} inputs).Waits c topic ↔ _
              simp

/-- Nothing is ever subscribed under an inherited name. -/
theorem not_subscribed_inherited (config : WebSocketConfig) (inputs : List SocketInput) (c : Nat) {topic : String}
    (hinherited : objectPrototype.contains topic = true) :
    ¬ ((run (step config) {} inputs).clients c).Subscribed topic := by
  rintro ⟨o, ho, rfl⟩
  have hrecorded := recorded_run config inputs c
  exact Bool.false_ne_true ((hrecorded.own _ (hrecorded.recorded o ho)).symm.trans hinherited)

/-- For a connected client for whom everything succeeds, once its frames have ended: it is subscribed to a
topic if and only if its last frame for the topic was a subscribe, exactly when that last frame is neither
a subscribe under a name that every object inherits nor, under another, an unsubscribe that arrives while a
subscribe frame for the topic still waits. -/
theorem lastAsked_wins_iff (config : WebSocketConfig) (inputs : List SocketInput) (c : Nat) (topic : String)
    (hsucceeds : Along (step config) (fun s i => s.succeeds config c i = true) {} inputs)
    (hended : ∀ frame ∈ (run (step config) {} inputs).frames, frame.client = c → frame.pending = false) :
    ((((run (step config) {} inputs).clients c).Subscribed topic ↔
        lastAsked config c topic inputs = some .subscribe) ↔
      ¬ ComesToNothing config c topic inputs) := by
  unfold ComesToNothing
  split
  next hinherited =>
    have hnot := not_subscribed_inherited config inputs c hinherited
    exact ⟨fun hiff hlast => hnot (hiff.mpr hlast), fun hlast => iff_of_false hnot hlast⟩
  next hplain =>
  rw [Bool.not_eq_true] at hplain
  have hwanted := wanted_run hplain hsucceeds
  have hnone : ¬ (run (step config) {} inputs).Waits c topic := by
    rintro ⟨frame, hframe, hc, -, hpending⟩
    rw [hended frame hframe hc] at hpending
    cases hpending
  have hsubscribed : ((run (step config) {} inputs).clients c).Subscribed topic ↔
      lastAsked config c topic inputs = some .subscribe ∨ Overtakes config c topic inputs :=
    (or_iff_right hnone).symm.trans hwanted
  have hapart : Overtakes config c topic inputs → lastAsked config c topic inputs ≠ some .subscribe := by
    rintro ⟨l, i, r, rfl, hi, hr, -⟩ hlast
    unfold lastAsked at hlast
    rw [List.filterMap_append, List.filterMap_cons_some hi, List.filterMap_eq_nil_iff.mpr hr,
      List.getLast?_concat] at hlast
    cases hlast
  rw [hsubscribed]
  constructor
  · exact fun hiff hovertakes => hapart hovertakes (hiff.mp (.inr hovertakes))
  · exact fun hnot => or_iff_left hnot

/-- A client that subscribes, waits, and unsubscribes. -/
theorem lastAsked_wins_iff_inTurn :
    ((((run (step newsConfig) {} (newsStart ++ [.frame 0 (frameOf "subscribe" "news" .undefined),
        .verified 0 (.obj [("sub", .str "u")]), .resume 0,
        .frame 0 (frameOf "unsubscribe" "news" .undefined)])).clients 0).Subscribed "news" ↔
      lastAsked newsConfig 0 "news" (newsStart ++ [.frame 0 (frameOf "subscribe" "news" .undefined),
        .verified 0 (.obj [("sub", .str "u")]), .resume 0,
        .frame 0 (frameOf "unsubscribe" "news" .undefined)]) = some .subscribe) ↔
      ¬ ComesToNothing newsConfig 0 "news" (newsStart ++ [.frame 0 (frameOf "subscribe" "news" .undefined),
        .verified 0 (.obj [("sub", .str "u")]), .resume 0,
        .frame 0 (frameOf "unsubscribe" "news" .undefined)])) :=
  lastAsked_wins_iff newsConfig _ 0 "news" (by decide +kernel) (by decide +kernel)

/-- A client that subscribes and unsubscribes at once stays subscribed. -/
theorem not_lastAsked_wins_overtaken :
    ¬ ∀ (config : WebSocketConfig) (inputs : List SocketInput) (c : Nat) (topic : String),
      Along (step config) (fun s i => s.succeeds config c i = true) {} inputs →
      (∀ frame ∈ (run (step config) {} inputs).frames, frame.client = c → frame.pending = false) →
      (((run (step config) {} inputs).clients c).Subscribed topic ↔
        lastAsked config c topic inputs = some .subscribe) := by
  intro h
  have hiff := h newsConfig (newsStart ++ [.frame 0 (frameOf "subscribe" "news" .undefined),
    .frame 0 (frameOf "unsubscribe" "news" .undefined), .verified 0 (.obj [("sub", .str "u")]), .resume 0])
    0 "news" (by decide +kernel) (by decide +kernel)
  have hlast := hiff.mp (by unfold NamedWebSocket.Subscribed; decide +kernel)
  exact absurd hlast (by decide +kernel)

end WebSockets

end NestAmqp.Proxy
