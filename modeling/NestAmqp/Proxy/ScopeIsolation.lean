/-
# NestAmqp.Proxy.ScopeIsolation — what a client can see, and what its select object can change.

Two comparisons of runs.  A message of a scoped event that is not in the client's scope leaves the client's
record as it is, so the client cannot tell a run with such messages from the run without them.  A select
object with more keys lets fewer messages pass; but a message that does not pass also leaves room in the
client's buffer, so the client is sent a part of what it would have been offered, sent or dropped.
-/
import NestAmqp.Proxy.TwinRuns
import NestAmqp.Proxy.ScopedEvents
import NestAmqp.Proxy.SocketClosing

namespace NestAmqp.Proxy

open NestAmqp.Js
open NestAmqp.Lib NestAmqp.Lib.Machine

/-! ## Messages of other scopes -/

/-- A relation any operation keeps. -/
theorem compatible_eq (config : WebSocketConfig) : Compatible config (fun x y => x = y) fun _ a b => a = b where
  same := fun _ => rfl
  moves := by rintro _ _ _ _ rfl _; rfl
  sendError := by rintro _ _ _ _ _ rfl; rfl
  addSubscription := by rintro _ _ _ _ _ _ _ _ rfl rfl; rfl
  unsubscribe := by rintro _ _ _ _ rfl; rfl
  disconnect := by rintro _ _ _ rfl; rfl
  closing := by rintro _ _ _ rfl; rfl
  drained := by rintro _ _ _ _ rfl; rfl
  deliver := by rintro _ _ _ _ rfl; rfl
  destroy := by rintro _ _ _ rfl; rfl
  elapsed := by rintro _ _ _ _ rfl; rfl

namespace WebSockets

/-- A message of a scoped event that is in the scope of no subscription of the client. -/
def foreign (config : WebSocketConfig) (c : Nat) (s : WebSockets) : SocketInput → Bool
  | .deliver o =>
      (eventNamed config (.str o.topic)).any (fun eventDef => truthyText eventDef.scopeClaim) &&
        !(s.clients c).observers.any fun observer =>
          observer.eventDef.name == o.topic && inScope o observer.eventDef observer.scopeValue
  | _ => false

end WebSockets

/-- A message outside the scope of every subscription of the topic. -/
theorem NamedWebSocket.deliver_outOfScope {config : WebSocketConfig} {client : NamedWebSocket} (now : Nat)
    {o : BrokerEvent} (h : ∀ observer ∈ client.observers, observer.eventDef.name = o.topic →
      inScope o observer.eventDef observer.scopeValue = false) : client.deliver config now o = client := by
  unfold deliver
  have hout : ∀ observer ∈ client.observers.filter (fun observer => observer.eventDef.name == o.topic),
      inScope o observer.eventDef observer.scopeValue = false := by
    intro observer hobserver
    obtain ⟨hlive, hname⟩ := List.mem_filter.mp hobserver
    exact h observer hlive (beq_iff_eq.mp hname)
  generalize client.observers.filter (fun observer => observer.eventDef.name == o.topic) = observers at hout
  induction observers with
  | nil => rfl
  | cons observer observers ih =>
      have hnext : next config now o client observer = client := by
        unfold next
        split
        · rfl
        · rw [if_pos]
          unfold «matches»
          rw [hout observer (.head _)]
          rfl
      rw [List.foldl_cons, hnext]
      exact ih fun other hother => hout other (.tail _ hother)

namespace WebSockets

variable {config : WebSocketConfig} {c : Nat} {s t : WebSockets}

/-- A foreign message does not change the client. -/
theorem Linked.foreign (h : s.Linked c (fun x y => x = y) (fun _ a b => a = b) t) {i : SocketInput}
    (hi : s.foreign config c i = true) : (s.step config i).Linked c (fun x y => x = y)
    (fun _ a b => a = b) t := by
  unfold WebSockets.foreign at hi
  split at hi
  next o =>
    refine ⟨fun d => ?_, ?_, h.frames, h.subjects, h.providers, h.now⟩
    · show ((s.clients d).deliver config s.now o).session = (t.clients d).session
      rw [NamedWebSocket.session_deliver]
      exact h.sessions d
    · show (s.clients c).deliver config s.now o = t.clients c
      rw [NamedWebSocket.deliver_outOfScope, h.client]
      intro observer hobserver hname
      rw [Bool.and_eq_true, Bool.not_eq_true', List.any_eq_false] at hi
      have hout := hi.2 observer hobserver
      simpa [hname] using hout
  next => cases hi

theorem Linked.start (chosen : Value → Value → Prop) {related : Nat → NamedWebSocket → NamedWebSocket → Prop}
    (h : related 0 {} {}) : Linked c chosen related {} {} :=
  ⟨fun _ => rfl, h, .nil, rfl, rfl, rfl⟩

/-- **Noninterference.**  A client's record ends the same without the messages of other scopes. -/
theorem clients_without_foreign (config : WebSocketConfig) (inputs : List SocketInput) (c : Nat) :
    (run (step config) {} inputs).clients c =
      (run (step config) {} (without (step config) (foreign config c) {} inputs)).clients c := by
  have hstep : ∀ s t i, Linked c (fun x y => x = y) (fun _ a b => a = b) s t →
      Linked c (fun x y => x = y) (fun _ a b => a = b) (s.step config i) (t.step config i) :=
    fun _ _ i h => h.step (compatible_eq config) (.same i)
  have hdrop : ∀ s t i, Linked c (fun x y => x = y) (fun _ a b => a = b) s t → s.foreign config c i = true →
      Linked c (fun x y => x = y) (fun _ a b => a = b) (s.step config i) t :=
    fun _ _ _ h hi => h.foreign hi
  have hstart : Linked c (fun x y => x = y) (fun _ a b => a = b) {} {} := .start _ rfl
  exact (run_without hstep hdrop hstart inputs).client

end WebSockets

/-! ## Select objects -/

/-- The second select object has the keys of the first, with the same values, and possibly more. -/
inductive AddsKeys : Value → Value → Prop
  | same (x : Value) : AddsKeys x x
  | absent (y : Value) : AddsKeys .undefined y
  | keys {fields fields' : Obj}
      (h : ∀ key value, Obj.own fields key = some value → Obj.own fields' key = some value) :
      AddsKeys (.obj fields) (.obj fields')

/-- What a select object selects, key by key. -/
theorem selected_obj_iff (o : BrokerEvent) (fields : Obj) : selected o (.obj fields) = true ↔
    (o.payload.truthy = true → ∀ key value, Obj.own fields key = some value →
      strictEq (property o.payload key) value = true) := by
  have hobject : (Value.obj fields).truthy = true := rfl
  unfold selected
  rw [hobject, Bool.true_and]
  split
  next hpayload =>
    rw [List.all_eq_true]
    constructor
    · intro h _ key value hown
      have hkey : key ∈ (Thrown.value (.obj fields)).ownEntries.map Prod.fst := by
        by_contra hnone
        have hmissing : Obj.own fields key = none := by
          rw [Obj.own_eq_none_iff]
          exact fun kv hkv heq => hnone (List.mem_map.mpr ⟨kv, hkv, heq⟩)
        rw [hmissing] at hown
        cases hown
      have heq := h key hkey
      rwa [show property (.obj fields) key = value from congrArg (·.getD .undefined) hown] at heq
    · intro h key hkey
      obtain ⟨kv, hkv, rfl⟩ := List.mem_map.mp hkey
      cases hown : Obj.own fields kv.1 with
      | none => exact absurd rfl ((Obj.own_eq_none_iff fields kv.1).mp hown kv hkv)
      | some value =>
          have heq := h hpayload kv.1 value hown
          rwa [show property (.obj fields) kv.1 = value from congrArg (·.getD .undefined) hown]
  next hpayload => exact iff_of_true rfl fun htruthy => absurd htruthy hpayload

/-- More keys select fewer messages. -/
theorem AddsKeys.selected {x y : Value} (h : AddsKeys x y) {o : BrokerEvent} (hy : selected o y = true) :
    selected o x = true := by
  cases h with
  | same => exact hy
  | absent => rfl
  | keys hkeys =>
      rw [selected_obj_iff] at hy ⊢
      exact fun hpayload key value hown => hy hpayload key value (hkeys key value hown)

/-- The same subscription, with more keys in its select object. -/
def Observer.Narrowed (x y : Observer) : Prop := ∃ select, y = { x with select } ∧ AddsKeys x.select select

/-! ## What is received, and what is offered -/

/-- A message of an event that was sent. -/
def Outcome.received : Outcome → Option (WebSocketEvent × BrokerEvent)
  | .sent (.event eventDef o) => some (eventDef, o)
  | _ => none

/-- A message of an event that passed the filter, whether it was sent or dropped. -/
def Outcome.offered : Outcome → Option (WebSocketEvent × BrokerEvent)
  | .sent (.event eventDef o) | .dropped eventDef o => some (eventDef, o)
  | .sent (.error _ _) => none

namespace NamedWebSocket

/-- The messages of events the client was sent, in order. -/
def received (client : NamedWebSocket) : List (WebSocketEvent × BrokerEvent) :=
  client.outcomes.filterMap Outcome.received

/-- The messages of events the client was sent, or would have been with room in its buffer, in order. -/
def offered (client : NamedWebSocket) : List (WebSocketEvent × BrokerEvent) :=
  client.outcomes.filterMap Outcome.offered

/-- The same table and the same live subscriptions, up to the keys of their select objects. -/
structure NarrowedTable (a b : NamedWebSocket) : Prop where
  subscriptions : b.subscriptions = a.subscriptions
  observers : List.Forall₂ Observer.Narrowed a.observers b.observers
  nextId : b.nextId = a.nextId
  isOpen : b.isOpen = a.isOpen

/-- The second client has received part of what the first was offered, and while the token lasts it is
subscribed to the same topics, with more keys in its select objects. -/
structure Narrowed (now : Nat) (a b : NamedWebSocket) : Prop where
  session : a.session = b.session
  received : b.received.Sublist a.offered
  table : a.isExpired now = false → NarrowedTable a b

variable {config : WebSocketConfig} {now : Nat} {a b client : NamedWebSocket}

/-- An operation that sends no message of an event. -/
theorem Narrowed.quiet (h : Narrowed now a b) {a' b' : NamedWebSocket} (ha : a'.session = a.session)
    (hb : b'.session = b.session) (hoffered : a'.offered = a.offered) (hreceived : b'.received = b.received)
    (htable : NarrowedTable a b → NarrowedTable a' b') : Narrowed now a' b' where
  session := ha.trans (h.session.trans hb.symm)
  received := by
    rw [hoffered, hreceived]
    exact h.received
  table := by
    intro hexpired
    rw [isExpired_congr ha] at hexpired
    exact htable (h.table hexpired)

theorem NarrowedTable.unsubscribeAll (h : NarrowedTable a b) (ids : List Nat) :
    List.Forall₂ Observer.Narrowed (a.unsubscribeAll ids).observers (b.unsubscribeAll ids).observers := by
  refine Tasks.forall₂_filter h.observers ?_
  rintro x _ ⟨select, rfl, -⟩
  rfl

theorem outcomes_unsubscribe (client : NamedWebSocket) (topic : String) :
    (client.unsubscribe topic).outcomes = client.outcomes := by
  unfold unsubscribe
  split
  · rfl
  split <;> rfl

theorem outcomes_onModuleDestroy (client : NamedWebSocket) :
    client.onModuleDestroy.outcomes = client.outcomes := by
  unfold onModuleDestroy
  split <;> rfl

theorem received_congr (h : a.outcomes = b.outcomes) : a.received = b.received :=
  congrArg (List.filterMap Outcome.received) h

theorem offered_congr (h : a.outcomes = b.outcomes) : a.offered = b.offered :=
  congrArg (List.filterMap Outcome.offered) h

theorem received_sendError (client : NamedWebSocket) (event reason : String) :
    (client.sendError config event reason).received = client.received := by
  unfold received sendError send
  dsimp only
  split
  · rw [List.filterMap_append]
    exact List.append_nil _
  · rfl

theorem offered_sendError (client : NamedWebSocket) (event reason : String) :
    (client.sendError config event reason).offered = client.offered := by
  unfold offered sendError send
  dsimp only
  split
  · rw [List.filterMap_append]
    exact List.append_nil _
  · rfl

theorem narrowedTable_sendError (h : NarrowedTable a b) (event reason : String) :
    NarrowedTable (a.sendError config event reason) (b.sendError config event reason) :=
  ⟨h.subscriptions, h.observers, h.nextId, h.isOpen⟩

theorem Narrowed.sendError (h : Narrowed now a b) (event reason : String) :
    Narrowed now (a.sendError config event reason) (b.sendError config event reason) :=
  h.quiet rfl rfl (offered_sendError a event reason) (received_sendError b event reason)
    fun htable => narrowedTable_sendError htable event reason

/-- An insertion changes the messages of neither. -/
theorem messages_addSubscription (client : NamedWebSocket) (subjects : List String) (eventDef : WebSocketEvent)
    (select : Value) (claims : Option ProcessedAuthData) :
    (client.addSubscription config subjects eventDef select claims).received = client.received ∧
      (client.addSubscription config subjects eventDef select claims).offered = client.offered := by
  unfold addSubscription
  split
  · exact ⟨received_sendError .., offered_sendError ..⟩
  split
  · exact ⟨received_sendError .., offered_sendError ..⟩
  split <;> exact ⟨rfl, rfl⟩

theorem NarrowedTable.addSubscription (h : NarrowedTable a b) (subjects : List String)
    (eventDef : WebSocketEvent)
    (claims : Option ProcessedAuthData) {x y : Value} (hchosen : AddsKeys x y) :
    NarrowedTable (a.addSubscription config subjects eventDef x claims)
      (b.addSubscription config subjects eventDef y claims) := by
  unfold NamedWebSocket.addSubscription limitReached
  rw [h.subscriptions, h.nextId]
  split
  · exact narrowedTable_sendError h ..
  split
  · exact narrowedTable_sendError h ..
  split
  · have htable : b.withTable.subscriptions = a.withTable.subscriptions := by
      unfold withTable
      rw [h.subscriptions]
    exact ⟨htable, h.observers, h.nextId, h.isOpen⟩
  · exact ⟨rfl, Tasks.forall₂_concat h.observers ⟨y, rfl, hchosen⟩, rfl, h.isOpen⟩

theorem NarrowedTable.handleDisconnect (h : NarrowedTable a b) :
    NarrowedTable { a.handleDisconnect with isOpen := false } { b.handleDisconnect with isOpen := false } := by
  unfold NamedWebSocket.handleDisconnect
  rw [h.subscriptions]
  cases a.subscriptions with
  | none => exact ⟨rfl, h.observers, h.nextId, rfl⟩
  | some subs => exact ⟨rfl, h.unsubscribeAll _, h.nextId, rfl⟩

theorem NarrowedTable.unsubscribe (h : NarrowedTable a b) (topic : String) :
    NarrowedTable (a.unsubscribe topic) (b.unsubscribe topic) := by
  unfold NamedWebSocket.unsubscribe
  rw [h.subscriptions]
  split
  · exact h
  cases a.subscriptions with
  | none => exact h
  | some subs => exact ⟨rfl, h.unsubscribeAll _, h.nextId, h.isOpen⟩

theorem NarrowedTable.onModuleDestroy (h : NarrowedTable a b) :
    NarrowedTable a.onModuleDestroy b.onModuleDestroy := by
  unfold NamedWebSocket.onModuleDestroy
  rw [h.subscriptions]
  cases a.subscriptions with
  | none => exact h
  | some subs => exact ⟨h.subscriptions, h.unsubscribeAll _, h.nextId, h.isOpen⟩

/-! ### Deliveries -/

theorem NarrowedTable.live (h : NarrowedTable a b) (id : Nat) :
    (b.observers.any fun live => live.id == id) = a.observers.any fun live => live.id == id := by
  refine (Tasks.any_congr h.observers ?_).symm
  rintro x _ ⟨select, rfl, -⟩
  rfl

theorem offered_send (client : NamedWebSocket) (eventDef : WebSocketEvent) (o : BrokerEvent)
    (hopen : client.isOpen = true) :
    (client.send config (.event eventDef o)).offered = client.offered ++ [(eventDef, o)] := by
  unfold offered send
  dsimp only
  rw [if_pos hopen, List.filterMap_append]
  rfl

theorem received_send (client : NamedWebSocket) (eventDef : WebSocketEvent) (o : BrokerEvent)
    (hopen : client.isOpen = true) :
    (client.send config (.event eventDef o)).received = client.received ++ [(eventDef, o)] := by
  unfold received send
  dsimp only
  rw [if_pos hopen, List.filterMap_append]
  rfl

/-- What a handler does with a message that passes, as long as the token lasts and the socket is open. -/
theorem next_passed (config : WebSocketConfig) (observer : Observer) {o : BrokerEvent}
    (hlive : (client.observers.any fun live => live.id == observer.id) = true)
    (hmatches : «matches» o observer.select observer.eventDef observer.scopeValue = true)
    (hexpired : client.isExpired now = false) (hopen : client.isOpen = true) :
    SameTable client (next config now o client observer) ∧ (next config now o client observer).isOpen = true ∧
      (next config now o client observer).offered = client.offered ++ [(observer.eventDef, o)] ∧
      ((next config now o client observer).received = client.received ∨
        (next config now o client observer).received = client.received ++ [(observer.eventDef, o)]) := by
  unfold next
  rw [hlive, hmatches, hexpired, hopen]
  simp only [Bool.not_true, Bool.false_eq_true, if_false]
  split
  next =>
    refine ⟨⟨rfl, rfl, rfl, rfl⟩, rfl, ?_, .inl ?_⟩
    · unfold offered
      rw [List.filterMap_append]
      rfl
    · unfold received
      rw [List.filterMap_append]
      exact List.append_nil _
  next =>
    refine ⟨sameTable_send .., hopen, offered_send client _ o hopen, .inr (received_send client _ o hopen)⟩

/-- A message that is not for a subscription, or not for an open socket. -/
theorem next_passedBy (config : WebSocketConfig) (observer : Observer) {o : BrokerEvent}
    (hexpired : client.isExpired now = false)
    (h : (client.observers.any fun live => live.id == observer.id) = false ∨
      «matches» o observer.select observer.eventDef observer.scopeValue = false ∨ client.isOpen = false) :
    next config now o client observer = client := by
  unfold next
  split
  · rfl
  split
  · rfl
  rw [if_neg (by rw [hexpired]; exact Bool.false_ne_true)]
  split
  · rfl
  next hlive hmatches hopen =>
    rcases h with h | h | h
    · rw [h] at hlive
      exact absurd rfl hlive
    · rw [h] at hmatches
      exact absurd rfl hmatches
    · rw [h] at hopen
      exact absurd rfl hopen

theorem NarrowedTable.same {a' b' : NamedWebSocket} (h : NarrowedTable a b) (ha : SameTable a a')
    (hb : SameTable b b')
    (hopen : b'.isOpen = a'.isOpen) : NarrowedTable a' b' where
  subscriptions := by rw [ha.subscriptions, hb.subscriptions, h.subscriptions]
  observers := by rw [ha.observers, hb.observers]; exact h.observers
  nextId := by rw [ha.nextId, hb.nextId, h.nextId]
  isOpen := hopen

/-- One message goes through a subscription with fewer keys, and through one with more. -/
theorem Narrowed.next (h : Narrowed now a b) (hexpired : a.isExpired now = false) (o : BrokerEvent)
    {x y : Observer}
    (hxy : x.Narrowed y) : Narrowed now (next config now o a x) (next config now o b y) := by
  obtain ⟨select, rfl, hkeys⟩ := hxy
  have htable := h.table hexpired
  have hexpired' : b.isExpired now = false := (isExpired_congr h.session now).symm.trans hexpired
  have hsession : (NamedWebSocket.next config now o a x).session =
      (NamedWebSocket.next config now o b { x with select }).session := by
    rw [session_next, session_next]
    exact h.session
  by_cases hlive : (a.observers.any fun live => live.id == x.id) = true
  · by_cases hopen : a.isOpen = true
    · by_cases hx : «matches» o x.select x.eventDef x.scopeValue = true
      · obtain ⟨hsame, hstill, hoffered, -⟩ := next_passed config x hlive hx hexpired hopen
        by_cases hy : «matches» o select x.eventDef x.scopeValue = true
        · -- the second subscription takes it too, and may be the one that is not sent to
          obtain ⟨hsame', hstill', -, hreceived⟩ := next_passed config { x with select }
            ((htable.live x.id).trans hlive) hy hexpired' (htable.isOpen.trans hopen)
          refine ⟨hsession, ?_, fun _ => htable.same hsame hsame' (hstill'.trans hstill.symm)⟩
          rw [hoffered]
          rcases hreceived with hreceived | hreceived
          · rw [hreceived]
            exact h.received.trans (List.sublist_append_left _ _)
          · rw [hreceived]
            exact h.received.append (List.Sublist.refl _)
        · -- the second one filters it out
          rw [Bool.not_eq_true] at hy
          rw [next_passedBy config { x with select } hexpired' (.inr (.inl hy))] at hsession ⊢
          refine ⟨hsession, ?_, fun _ => htable.same hsame (.refl b)
            (htable.isOpen.trans (hopen.trans hstill.symm))⟩
          rw [hoffered]
          exact h.received.trans (List.sublist_append_left _ _)
      · -- what the first one filters out, the second does: it has the more keys
        have hy : «matches» o select x.eventDef x.scopeValue = false := by
          rw [Bool.eq_false_iff]
          intro hy
          apply hx
          unfold «matches» at hy ⊢
          rw [Bool.and_eq_true] at hy ⊢
          exact ⟨hy.1, hkeys.selected hy.2⟩
        rw [Bool.not_eq_true] at hx
        rw [next_passedBy config x hexpired (.inr (.inl hx)),
          next_passedBy config { x with select } hexpired' (.inr (.inl hy))]
        exact h
    · rw [Bool.not_eq_true] at hopen
      rw [next_passedBy config x hexpired (.inr (.inr hopen)),
        next_passedBy config { x with select } hexpired' (.inr (.inr (htable.isOpen.trans hopen)))]
      exact h
  · rw [Bool.not_eq_true] at hlive
    rw [next_passedBy config x hexpired (.inl hlive),
      next_passedBy config { x with select } hexpired' (.inl ((htable.live x.id).trans hlive))]
    exact h

theorem NarrowedTable.filter (h : NarrowedTable a b) (topic : String) :
    List.Forall₂ Observer.Narrowed (a.observers.filter fun x => x.eventDef.name == topic)
      (b.observers.filter fun y => y.eventDef.name == topic) := by
  refine Tasks.forall₂_filter h.observers ?_
  rintro x _ ⟨select, rfl, -⟩
  rfl

/-- An expired client is sent nothing. -/
theorem outcomes_deliver_expired (config : WebSocketConfig) (hexpired : client.isExpired now = true)
    (o : BrokerEvent) :
    (client.deliver config now o).outcomes = client.outcomes := by
  unfold deliver
  generalize client.observers.filter (fun observer => observer.eventDef.name == o.topic) = observers
  induction observers generalizing client with
  | nil => rfl
  | cons observer observers ih =>
      have hnext : (NamedWebSocket.next config now o client observer).outcomes = client.outcomes := by
        unfold NamedWebSocket.next
        split
        · rfl
        split
        · rfl
        exact outcomes_handleDisconnect client
      refine Eq.trans (ih ?_) hnext
      rw [isExpired_congr (session_next client now o observer)]
      exact hexpired

/-- A message goes through the subscriptions one by one. -/
theorem Narrowed.foldl (h : Narrowed now a b) (hexpired : a.isExpired now = false) (o : BrokerEvent)
    {xs ys : List Observer}
    (hxys : List.Forall₂ Observer.Narrowed xs ys) :
    Narrowed now (xs.foldl (NamedWebSocket.next config now o) a)
    (ys.foldl (NamedWebSocket.next config now o) b) := by
  induction hxys generalizing a b with
  | nil => exact h
  | cons hxy _ ih =>
      refine ih (h.next hexpired o hxy) ?_
      rw [isExpired_congr (session_next a now o _)]
      exact hexpired

theorem Narrowed.deliver (h : Narrowed now a b) (o : BrokerEvent) :
    Narrowed now (a.deliver config now o) (b.deliver config now o) := by
  cases hexpired : a.isExpired now with
  | true =>
      have hexpired' : b.isExpired now = true := (isExpired_congr h.session now).symm.trans hexpired
      refine ⟨?_, ?_, fun hnot => ?_⟩
      · rw [session_deliver, session_deliver]
        exact h.session
      · rw [offered_congr (outcomes_deliver_expired config hexpired o),
          received_congr (outcomes_deliver_expired config hexpired' o)]
        exact h.received
      · rw [isExpired_congr (session_deliver a now o), hexpired] at hnot
        cases hnot
  | false =>
      unfold NamedWebSocket.deliver
      exact h.foldl hexpired o ((h.table hexpired).filter o.topic)

/-- A token that has expired stays expired. -/
theorem isExpired_mono {ms : Nat} (h : client.isExpired now = true) : client.isExpired (now + ms) = true := by
  unfold isExpired at h ⊢
  rw [Option.any_eq_true] at h ⊢
  obtain ⟨exp, hexp, hpassed⟩ := h
  refine ⟨exp, hexp, ?_⟩
  rw [Option.any_eq_true] at hpassed ⊢
  obtain ⟨seconds, hseconds, hle⟩ := hpassed
  exact ⟨seconds, hseconds, JsNumber.timesAtMost_mono (by omega) hle⟩

theorem isExpired_withSession {next : Session} (hexpiry : ∀ exp, client.tokenExp = some exp →
    next.tokenExp = some exp)
    (h : client.isExpired now = true) : (client.withSession next).isExpired now = true := by
  unfold isExpired at h ⊢
  rw [Option.any_eq_true] at h ⊢
  obtain ⟨exp, hexp, hpassed⟩ := h
  exact ⟨exp, hexpiry exp hexp, hpassed⟩

end NamedWebSocket

/-- Every operation leaves the second client with part of what the first was offered. -/
theorem compatible_narrowed (config : WebSocketConfig) :
    Compatible config AddsKeys NamedWebSocket.Narrowed where
  same := .same
  moves := by
    intro now a b next h hexpiry
    refine ⟨rfl, h.received, fun hexpired => ?_⟩
    -- who has not expired now had not before
    have hbefore : a.isExpired now = false := by
      by_contra hnot
      rw [Bool.not_eq_false] at hnot
      rw [NamedWebSocket.isExpired_withSession hexpiry hnot] at hexpired
      cases hexpired
    obtain ⟨hsubs, hobservers, hnext, hopen⟩ := h.table hbefore
    exact ⟨hsubs, hobservers, hnext, hopen⟩
  sendError := fun event reason h => h.sendError event reason
  addSubscription := by
    intro now a b x y subjects eventDef claims h hchosen
    refine h.quiet (NamedWebSocket.session_addSubscription ..) (NamedWebSocket.session_addSubscription ..)
      (NamedWebSocket.messages_addSubscription ..).2 (NamedWebSocket.messages_addSubscription ..).1 ?_
    exact fun htable => htable.addSubscription subjects eventDef claims hchosen
  unsubscribe := fun topic h =>
    h.quiet (NamedWebSocket.session_unsubscribe ..) (NamedWebSocket.session_unsubscribe ..)
      (NamedWebSocket.offered_congr (NamedWebSocket.outcomes_unsubscribe ..))
      (NamedWebSocket.received_congr (NamedWebSocket.outcomes_unsubscribe ..)) fun htable =>
      htable.unsubscribe topic
  disconnect := fun h =>
    h.quiet (NamedWebSocket.session_handleDisconnect _) (NamedWebSocket.session_handleDisconnect _)
      (NamedWebSocket.offered_congr (NamedWebSocket.outcomes_handleDisconnect _))
      (NamedWebSocket.received_congr (NamedWebSocket.outcomes_handleDisconnect _)) fun htable =>
      htable.handleDisconnect
  closing := fun h => h.quiet rfl rfl rfl rfl fun htable =>
  ⟨htable.subscriptions, htable.observers, htable.nextId, rfl⟩
  drained := fun _ h =>
    h.quiet rfl rfl rfl rfl fun htable => ⟨htable.subscriptions, htable.observers, htable.nextId, htable.isOpen⟩
  deliver := fun o h => h.deliver o
  destroy := fun h =>
    h.quiet (NamedWebSocket.session_onModuleDestroy _) (NamedWebSocket.session_onModuleDestroy _)
      (NamedWebSocket.offered_congr (NamedWebSocket.outcomes_onModuleDestroy _))
      (NamedWebSocket.received_congr (NamedWebSocket.outcomes_onModuleDestroy _)) fun htable =>
      htable.onModuleDestroy
  elapsed := by
    intro now a b ms h
    refine ⟨h.session, h.received, fun hexpired => h.table ?_⟩
    by_contra hnot
    rw [Bool.not_eq_false] at hnot
    rw [NamedWebSocket.isExpired_mono hnot] at hexpired
    cases hexpired

namespace WebSockets

/-- **More keys.**  With more keys in its select objects a client is sent part of what it is offered. -/
theorem received_sublist_offered (config : WebSocketConfig) {inputs inputs' : List SocketInput} {c : Nat}
    (h : List.Forall₂ (SocketInput.Linked config c AddsKeys) inputs inputs') :
    ((run (step config) {} inputs').clients c).received.Sublist
      ((run (step config) {} inputs).clients c).offered := by
  have hstep : ∀ s t i j, Linked c AddsKeys NamedWebSocket.Narrowed s t → i.Linked config c AddsKeys j →
      Linked c AddsKeys NamedWebSocket.Narrowed (s.step config i) (t.step config j) :=
    fun _ _ _ _ hst hij => hst.step (compatible_narrowed config) hij
  have hstart : NamedWebSocket.Narrowed 0 {} {} :=
    ⟨rfl, List.nil_sublist _, fun _ => ⟨rfl, .nil, rfl, rfl⟩⟩
  exact (run_simulation hstep (Linked.start AddsKeys hstart) h).client.received

/-- The message has, under the event's payload key, the value of the event's scope claim in claims that were
mapped from a token of this client, verified by the event's provider. -/
def SentInScope (config : WebSocketConfig) (client : NamedWebSocket) (eventDef : WebSocketEvent) (o : BrokerEvent) : Prop :=
  ∃ provider decoded claims, (template eventDef.auth, provider, decoded) ∈ client.verifications ∧
    decoded.truthy = true ∧ HttpAuthHandler.mapClaims config.toUpperCase provider decoded = .ok claims ∧ o.payload.truthy = true ∧
    strictEq (property o.payload (template eventDef.payloadKey))
    (Obj.get claims (template eventDef.scopeClaim)) = true

/-- An event whose messages go to their own user. -/
def ordersEvent : WebSocketEvent :=
  { name := "orders", auth := some "main", scopeClaim := some "X-USERID", payloadKey := some "userId" }

/-- A gateway with this event. -/
def ordersConfig : WebSocketConfig := { wsEvents := [ordersEvent] }

/-- A broker event with one field in its payload. -/
def eventOf (topic key : String) (value : Value) : BrokerEvent :=
  { topic := topic, payload := .obj [(key, value)] }

/-- A client with a token subscribes with this select object, and gets two messages. -/
def ordersInputs (select : Value) : List SocketInput :=
  [.loaded fun name => if name = "main" then some mainProvider else none, .subject "orders",
    .connect 0 (some "token"), .frame 0 (frameOf "subscribe" "orders" select),
    .verified 0 (.obj [("sub", .str "u")]), .resume 0, .deliver (eventOf "orders" "userId" (.str "u")),
    .deliver (eventOf "orders" "userId" (.str "v"))]

/-- An event scoped by the internal flag, open to clients without a token. -/
def flagConfig : WebSocketConfig :=
  { wsEvents :=
      [{ name := "orders", auth := some "main", requireAuth := some false, scopeClaim := some "success",
          payloadKey := some "done" }] }

/-- A client without a valid token subscribes, and gets a message. -/
def flagInputs : List SocketInput :=
  [.loaded fun name => if name = "main" then some mainProvider else none, .subject "orders",
    .connect 0 none, .frame 0 (frameOf "subscribe" "orders" .undefined), .verified 0 .undefined, .resume 0,
    .deliver (eventOf "orders" "done" (.bool false))]

/-- An open event, and a buffer that one message fills. -/
def tightConfig : WebSocketConfig :=
  { maxMessageBytes := some 100, maxBufferedBytes := some 0, wsEvents := [{ name := "orders" }], frameBytes := fun _ => 1 }

/-- A client subscribes with this select object, and gets two messages. -/
def tightInputs (select : Value) : List SocketInput :=
  [.subject "orders", .connect 0 none, .frame 0 (frameOf "subscribe" "orders" select),
    .deliver (eventOf "orders" "n" (.num 1)), .deliver (eventOf "orders" "n" (.num 2))]

/-- A client subscribes with a frame of this size, subscribes again without a select object, and gets a
message. -/
def retryInputs (size : Nat) (select : Value) : List SocketInput :=
  [.subject "orders", .connect 0 none, .frame 0 { frameOf "subscribe" "orders" select with size },
    .frame 0 (frameOf "subscribe" "orders" .undefined), .deliver (eventOf "orders" "n" (.num 2))]

end WebSockets

end NestAmqp.Proxy
