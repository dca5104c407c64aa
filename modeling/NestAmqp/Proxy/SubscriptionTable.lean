/-
# NestAmqp.Proxy.SubscriptionTable — the table of subscriptions and the subscriptions that are live.

What one input does to a client's part of the table, said once: it leaves it, clears it, takes a topic
out, unsubscribes what it records, or puts in the topic of a subscribe frame that has passed its last
check.  From that follows what the table records in every state: every live subscription, one for each
topic, and no more of them than the limit.
-/
import Mathlib.Logic.Relation
import NestAmqp.Proxy.WebSocket

namespace NestAmqp.Proxy

open NestAmqp.Js
open NestAmqp.Lib NestAmqp.Lib.Machine

namespace NamedWebSocket

/-! ## Steps on the table -/

/-- The table, the live subscriptions and the mark of `handleDisconnect` are as they were. -/
structure SameTable (a b : NamedWebSocket) : Prop where
  subscriptions : b.subscriptions = a.subscriptions
  observers : b.observers = a.observers
  nextId : b.nextId = a.nextId
  disconnected : b.disconnected = a.disconnected

/-- What a client's table can go through, insertion apart. -/
inductive TableStep (a : NamedWebSocket) : NamedWebSocket → Prop
  | same {b : NamedWebSocket} (h : SameTable a b) : TableStep a b
  | disconnected {b : NamedWebSocket} (h : SameTable a.handleDisconnect b) : TableStep a b
  | unsubscribed (topic : String) : TableStep a (a.unsubscribe topic)
  | destroyed : TableStep a a.onModuleDestroy

/-- Any number of such steps. -/
abbrev TableSteps : NamedWebSocket → NamedWebSocket → Prop := Relation.ReflTransGen TableStep

variable (config : WebSocketConfig) (client : NamedWebSocket)

theorem SameTable.refl : SameTable client client := ⟨rfl, rfl, rfl, rfl⟩

theorem sameTable_send (out : Outgoing) : SameTable client (client.send config out) := ⟨rfl, rfl, rfl, rfl⟩

theorem unsubscribe_of_none (h : client.subscriptions = none) (topic : String) :
    client.unsubscribe topic = client := by
  unfold unsubscribe
  rw [h, ite_self]

theorem disconnected_unsubscribe (topic : String) :
    (client.unsubscribe topic).disconnected = client.disconnected := by
  unfold unsubscribe
  split
  · rfl
  split <;> rfl

theorem tableStep_closeExpired : TableStep client client.closeExpired := .disconnected ⟨rfl, rfl, rfl, rfl⟩

theorem tableStep_heartbeat (now : Nat) : TableStep client (client.heartbeat now) := by
  unfold heartbeat
  split
  · exact tableStep_closeExpired client
  · split
    · exact .disconnected ⟨rfl, rfl, rfl, rfl⟩
    · exact .same ⟨rfl, rfl, rfl, rfl⟩

theorem tableStep_next (now : Nat) (o : BrokerEvent) (observer : Observer) :
    TableStep client (next config now o client observer) := by
  unfold next
  split
  · exact .same (.refl client)
  split
  · exact .same (.refl client)
  split
  · exact tableStep_closeExpired client
  split
  · exact .same (.refl client)
  split
  · exact .same ⟨rfl, rfl, rfl, rfl⟩
  · exact .same (sameTable_send config client _)

/-- A message goes through the observers one by one. -/
theorem tableSteps_deliver (now : Nat) (o : BrokerEvent) :
    TableSteps client (client.deliver config now o) := by
  unfold deliver
  generalize client.observers.filter (fun observer => observer.eventDef.name == o.topic) = observers
  induction observers generalizing client with
  | nil => exact .refl
  | cons observer observers ih =>
      exact .head (tableStep_next config client now o observer) (ih (next config now o client observer))

theorem sameTable_resolveClaims (providers : String → Option HandlerAuthConfig) (providerName : String) :
    SameTable client (client.resolveClaims providers providerName).1 := by
  unfold resolveClaims
  split
  · exact .refl client
  split
  · exact .refl client
  split
  · exact ⟨rfl, rfl, rfl, rfl⟩
  · exact .refl client

theorem sameTable_tokenVerified (providerName : String) (provider : HandlerAuthConfig) (decoded : Value) :
    SameTable client (client.tokenVerified config providerName provider decoded).1 := by
  unfold tokenVerified
  dsimp only
  split <;> exact ⟨rfl, rfl, rfl, rfl⟩

end NamedWebSocket

/-! ## Insertions -/

namespace WebSockets

variable (config : WebSocketConfig) (s : WebSockets)

/-- The client, the event, the select object and the claims of a subscribe frame that passes its last
check on an input. -/
def passing : SocketInput → Option (Nat × WebSocketEvent × Value × Option ProcessedAuthData)
  | .frame c frame =>
      if !(s.clients c).connected || (s.clients c).isExpired s.now ||
          decide (frame.size > config.maxMessageBytes.getD 16384) then none
      else match command config frame with
        | some (.subscribe eventDef select) =>
            if truthyText eventDef.auth then none
            else match checkClaims s.providers eventDef none with
              | .passed => some (c, eventDef, select, none)
              | _ => none
        | _ => none
  | .resume i =>
      match s.frames[i]? with
      | some ⟨c, eventDef, select, .resolved claims⟩ =>
          match checkClaims s.providers eventDef (some claims) with
          | .passed => some (c, eventDef, select, some claims)
          | _ => none
      | _ => none
  | .authorized i (.ok true) =>
      match s.frames[i]? with
      | some ⟨c, eventDef, select, .authorizing claims⟩ => some (c, eventDef, select, some claims)
      | _ => none
  | _ => none

/-- What an input does to a client, as far as the table is concerned. -/
inductive ClientStep (i : SocketInput) (c : Nat) : NamedWebSocket → Prop
  | steps {b : NamedWebSocket} (h : NamedWebSocket.TableSteps (s.clients c) b) : ClientStep i c b
  | added {b : NamedWebSocket} (eventDef : WebSocketEvent) (select : Value) (claims : Option ProcessedAuthData)
      (h : s.passing config i = some (c, eventDef, select, claims))
      (hb : b = (s.clients c).addSubscription config s.subjects eventDef select claims) : ClientStep i c b

variable {config s} {i : SocketInput} {c : Nat}

theorem ClientStep.same {b : NamedWebSocket} (h : NamedWebSocket.SameTable (s.clients c) b) :
    ClientStep config s i c b := .steps (.single (.same h))

theorem ClientStep.refl : ClientStep config s i c (s.clients c) := .steps .refl

/-- One client is changed, the others are as they were. -/
theorem ClientStep.setClient {d : Nat} {b : NamedWebSocket} (h : ClientStep config s i d b) :
    ClientStep config s i c ((s.setClient d b).clients c) := by
  by_cases hcd : c = d
  · subst hcd
    rw [clients_setClient_self]
    exact h
  · rw [clients_setClient_of_ne hcd]
    exact .refl

theorem ClientStep.atClient {d : Nat} {f : NamedWebSocket → NamedWebSocket}
    (h : NamedWebSocket.TableStep (s.clients d) (f (s.clients d))) :
    ClientStep config s i c ((s.atClient d f).clients c) := by
  unfold WebSockets.atClient
  split
  · exact .setClient (.steps (.single h))
  · exact .refl

/-- A call of `subscribeClient` goes on. -/
theorem ClientStep.goOn {j : Nat} {frame : SubscribeFrame} {went : NamedWebSocket × FrameStage}
    (h : ClientStep config s i frame.client went.1) :
    ClientStep config s i c ((s.goOn j frame went).clients c) := h.setClient

/-- The claims of a frame are there: either its last check passes, or the table stays. -/
theorem clientStep_claimsResolved {d : Nat} (eventDef : WebSocketEvent) (select : Value)
    (claims : Option ProcessedAuthData)
    (hpassing : checkClaims s.providers eventDef claims = .passed →
      s.passing config i = some (d, eventDef, select, claims)) :
    ClientStep config s i d (s.claimsResolved config (s.clients d) eventDef select claims).1 := by
  unfold claimsResolved
  split
  next => exact .same (NamedWebSocket.sameTable_send ..)
  next => exact .refl
  next hpassed => exact .added eventDef select claims (hpassing hpassed) rfl

/-- A frame arrives. -/
theorem clientStep_onClientMessage (frame : Frame) {d : Nat} (hconnected : (s.clients d).connected = true) :
    ClientStep config s (.frame d frame) c ((s.onClientMessage config d frame).clients c) := by
  unfold onClientMessage
  split
  next => exact .setClient (.steps (.single (NamedWebSocket.tableStep_closeExpired _)))
  next hexpired =>
    split
    next => exact .refl
    next hsize =>
      split
      next => exact .refl
      next topic hcommand => exact .setClient (.steps (.single (.unsubscribed topic)))
      next eventDef select hcommand =>
        refine .setClient ?_
        unfold subscribeClient
        split
        next => exact .same (NamedWebSocket.sameTable_resolveClaims ..)
        next hauth =>
          refine clientStep_claimsResolved eventDef select none fun hpassed => ?_
          simp [passing, hconnected, hexpired, hsize, hcommand, hauth, hpassed]

/-- **What one input does to a client's table.** -/
theorem clientStep (config : WebSocketConfig) (s : WebSockets) (i : SocketInput) (c : Nat) :
    ClientStep config s i c ((s.step config i).clients c) := by
  cases i with
  | connect d token =>
      show ClientStep config s _ c ((s.handleConnection d token).clients c)
      unfold handleConnection
      split
      · exact .refl
      · exact .setClient (.same ⟨rfl, rfl, rfl, rfl⟩)
  | frame d frame =>
      unfold step
      dsimp only
      split
      next hconnected => exact clientStep_onClientMessage frame hconnected
      next => exact .refl
  | verified j decoded =>
      show ClientStep config s _ c ((s.verified config j decoded).clients c)
      unfold verified
      split
      · exact .goOn (.same (NamedWebSocket.sameTable_tokenVerified ..))
      · exact .refl
  | resume j =>
      show ClientStep config s _ c ((s.resume config j).clients c)
      unfold resume
      split
      next d eventDef select claims hframe =>
        refine .goOn (clientStep_claimsResolved eventDef select (some claims) fun hpassed => ?_)
        simp [passing, hframe, hpassed]
      next => exact .refl
  | authorized j answer =>
      show ClientStep config s _ c ((s.authorized config j answer).clients c)
      unfold authorized
      split
      next d eventDef select claims hframe =>
        refine .goOn ?_
        unfold answered
        split
        next => exact .added eventDef select (some claims) (by simp [passing, hframe]) rfl
        next => exact .same (NamedWebSocket.sameTable_send ..)
        next => exact .same (NamedWebSocket.sameTable_send ..)
      next => exact .refl
  | deliver o => exact .steps (NamedWebSocket.tableSteps_deliver config (s.clients c) s.now o)
  | disconnect d => exact .atClient (.disconnected ⟨rfl, rfl, rfl, rfl⟩)
  | closing d => exact .atClient (.same ⟨rfl, rfl, rfl, rfl⟩)
  | heartbeat d => exact .atClient (NamedWebSocket.tableStep_heartbeat (s.clients d) s.now)
  | pong d => exact .atClient (.same ⟨rfl, rfl, rfl, rfl⟩)
  | drained d bytes => exact .atClient (.same ⟨rfl, rfl, rfl, rfl⟩)
  | elapsed ms => exact .refl
  | subject name => exact .refl
  | loaded providers => exact .refl
  | destroy => exact .steps (.single .destroyed)

theorem claimsResolved_passed {eventDef : WebSocketEvent} {claims : Option ProcessedAuthData}
    (h : checkClaims s.providers eventDef claims = .passed) (client : NamedWebSocket) (select : Value) :
    s.claimsResolved config client eventDef select claims =
      (client.addSubscription config s.subjects eventDef select claims, .finished) := by
  unfold claimsResolved
  rw [h]

/-- A frame that passes its last check is put into the table. -/
theorem clients_of_passing {eventDef : WebSocketEvent} {select : Value} {claims : Option ProcessedAuthData}
    (h : s.passing config i = some (c, eventDef, select, claims)) :
    (s.step config i).clients c =
      (s.clients c).addSubscription config s.subjects eventDef select claims := by
  unfold passing at h
  split at h
  -- a frame without authentication passes at once
  next d frame =>
    split at h
    next => cases h
    next hguard =>
      simp only [Bool.or_eq_true, Bool.not_eq_true', decide_eq_true_eq, not_or, Bool.not_eq_false] at hguard
      obtain ⟨⟨hconnected, hexpired⟩, hsize⟩ := hguard
      split at h
      next e chosen hcommand =>
        split at h
        next => cases h
        next hauth =>
          split at h
          next hpassed =>
            cases h
            unfold step onClientMessage subscribeClient
            dsimp only
            rw [if_pos hconnected, if_neg hexpired, if_neg hsize, hcommand]
            dsimp only
            rw [if_neg hauth, claimsResolved_passed hpassed]
            exact clients_setClient_self ..
          next => cases h
      next => cases h
  -- one that has been verified passes when it goes on
  next j =>
    split at h
    next d e chosen resolved hframe =>
      split at h
      next hpassed =>
        cases h
        unfold step resume
        dsimp only
        rw [hframe]
        dsimp only
        rw [claimsResolved_passed hpassed]
        exact clients_setClient_self ..
      next => cases h
    next => cases h
  -- one that has asked for permission passes with the answer
  next j =>
    split at h
    next d e chosen resolved hframe =>
      cases h
      unfold step authorized
      dsimp only
      rw [hframe]
      exact clients_setClient_self ..
    next => cases h
  next => cases h

end WebSockets

/-! ## What the table records -/

namespace NamedWebSocket

/-- The entries of the client's table. -/
def entries (client : NamedWebSocket) : List (String × Nat) := client.subscriptions.getD []

/-- The table is in order: every live subscription is the one recorded under its topic, a topic has at most
one of each, ids are not used twice, the entries are within the limit, and none is under a name that every
object inherits. -/
structure Recorded (config : WebSocketConfig) (client : NamedWebSocket) : Prop where
  recorded : ∀ o ∈ client.observers, (o.eventDef.name, o.id) ∈ client.entries
  oneEach : (client.observers.map fun o => o.eventDef.name).Nodup
  topics : (client.entries.map Prod.fst).Nodup
  ids : (client.entries.map Prod.snd).Nodup
  fresh : ∀ entry ∈ client.entries, entry.2 < client.nextId
  bounded : ∀ max, config.maxSubscriptionsPerClient = some max → 0 < max → client.entries.length ≤ max
  own : ∀ entry ∈ client.entries, objectPrototype.contains entry.1 = false

variable {config : WebSocketConfig} {a b client : NamedWebSocket}

theorem SameTable.entries (h : SameTable a b) : b.entries = a.entries := by
  unfold NamedWebSocket.entries
  rw [h.subscriptions]

theorem Recorded.same (h : Recorded config a) (hsame : SameTable a b) : Recorded config b where
  recorded := by rw [hsame.observers, hsame.entries]; exact h.recorded
  oneEach := by rw [hsame.observers]; exact h.oneEach
  topics := by rw [hsame.entries]; exact h.topics
  ids := by rw [hsame.entries]; exact h.ids
  fresh := by rw [hsame.entries, hsame.nextId]; exact h.fresh
  bounded := by rw [hsame.entries]; exact h.bounded
  own := by rw [hsame.entries]; exact h.own

theorem mem_unsubscribeAll {ids : List Nat} {o : Observer} :
    o ∈ (client.unsubscribeAll ids).observers ↔ o ∈ client.observers ∧ o.id ∉ ids := by
  simp [unsubscribeAll]

/-- Fewer observers and fewer entries, as long as no observer loses its entry. -/
theorem Recorded.shrink (h : Recorded config a) (hobservers : b.observers.Sublist a.observers)
    (hentries : b.entries.Sublist a.entries) (hnext : b.nextId = a.nextId)
    (hrecorded : ∀ o ∈ b.observers, (o.eventDef.name, o.id) ∈ b.entries) : Recorded config b where
  recorded := hrecorded
  oneEach := h.oneEach.sublist (hobservers.map _)
  topics := h.topics.sublist (hentries.map _)
  ids := h.ids.sublist (hentries.map _)
  fresh := by
    intro entry hentry
    rw [hnext]
    exact h.fresh entry (hentries.mem hentry)
  bounded := fun max hmax hpos => hentries.length_le.trans (h.bounded max hmax hpos)
  own := fun entry hentry => h.own entry (hentries.mem hentry)

theorem Recorded.withTable (h : Recorded config client) : Recorded config client.withTable :=
  h.shrink (List.Sublist.refl _) (List.Sublist.refl _) rfl h.recorded

/-- Every recorded subscription is unsubscribed, so none is live. -/
theorem Recorded.unsubscribeAll_ids (h : Recorded config client) :
    (client.unsubscribeAll (client.entries.map Prod.snd)).observers = [] := by
  rw [List.eq_nil_iff_forall_not_mem]
  intro o ho
  obtain ⟨hlive, hout⟩ := mem_unsubscribeAll.mp ho
  exact hout (List.mem_map_of_mem (h.recorded o hlive))

/-- **Clean-up.**  `handleDisconnect` leaves no entry and no live subscription. -/
theorem Recorded.handleDisconnect_clear (h : Recorded config client) :
    client.handleDisconnect.subscriptions = none ∧ client.handleDisconnect.observers = [] := by
  have hcleared := h.unsubscribeAll_ids
  unfold entries at hcleared
  unfold handleDisconnect
  split
  next hnone =>
    rw [hnone] at hcleared
    refine ⟨hnone, ?_⟩
    simpa [unsubscribeAll] using hcleared
  next subs hsome =>
    rw [hsome] at hcleared
    exact ⟨rfl, hcleared⟩

theorem Recorded.handleDisconnect (h : Recorded config client) : Recorded config client.handleDisconnect := by
  obtain ⟨htable, hobservers⟩ := h.handleDisconnect_clear
  refine h.shrink (by rw [hobservers]; exact List.nil_sublist _) ?_ ?_ ?_
  · unfold entries
    rw [htable]
    exact List.nil_sublist _
  · unfold NamedWebSocket.handleDisconnect
    split <;> rfl
  · rw [hobservers]
    exact fun _ ho => absurd ho List.not_mem_nil

theorem Recorded.unsubscribe (h : Recorded config client) (topic : String) :
    Recorded config (client.unsubscribe topic) := by
  unfold NamedWebSocket.unsubscribe
  split
  next => exact h
  split
  next => exact h
  next subs hsubs =>
    have hentries : client.entries = subs := by
      unfold entries
      rw [hsubs]
      rfl
    refine h.shrink List.filter_sublist ?_ rfl ?_
    · rw [hentries]
      exact List.filter_sublist
    · intro o ho
      obtain ⟨hlive, hout⟩ := mem_unsubscribeAll.mp ho
      have hmem := h.recorded o hlive
      rw [hentries] at hmem
      refine List.mem_filter.mpr ⟨hmem, ?_⟩
      rw [bne_iff_ne]
      rintro rfl
      -- the entry of the topic is the one that was unsubscribed
      have htopics := h.topics
      rw [hentries] at htopics
      rw [AssocList.lookup_of_mem htopics hmem] at hout
      exact hout (List.mem_singleton_self _)

theorem Recorded.onModuleDestroy (h : Recorded config client) : Recorded config client.onModuleDestroy := by
  have hcleared := h.unsubscribeAll_ids
  unfold entries at hcleared
  unfold NamedWebSocket.onModuleDestroy
  split
  next => exact h
  next subs hsubs =>
    rw [hsubs] at hcleared
    refine h.shrink List.filter_sublist (List.Sublist.refl _) rfl ?_
    show ∀ o ∈ (client.unsubscribeAll (subs.map Prod.snd)).observers, _
    rw [show (client.unsubscribeAll (subs.map Prod.snd)).observers = [] from hcleared]
    exact fun _ ho => absurd ho List.not_mem_nil

theorem Recorded.addSubscription (h : Recorded config client) (subjects : List String)
    (eventDef : WebSocketEvent)
    (select : Value) (claims : Option ProcessedAuthData) :
    Recorded config (client.addSubscription config subjects eventDef select claims) := by
  unfold NamedWebSocket.addSubscription
  split
  next => exact h.same (sameTable_send ..)
  next hlimit =>
    split
    next => exact h.same (sameTable_send ..)
    next =>
      split
      next => exact h.withTable
      next hfree =>
        rw [Bool.or_eq_true, not_or, Bool.not_eq_true, Bool.not_eq_true] at hfree
        -- the topic has no entry yet, and no entry has the id that comes next
        have hfresh : ∀ entry ∈ client.entries, entry.1 ≠ eventDef.name := by
          intro entry hentry hname
          have hthere : (client.entries.lookup eventDef.name).isSome = true := by
            rw [List.lookup_isSome_iff]
            exact ⟨entry, hentry, by rw [hname]; exact beq_self_eq_true _⟩
          exact Bool.false_ne_true (hfree.1.symm.trans hthere)
        have hnext : ∀ entry ∈ client.entries, entry.2 ≠ client.nextId :=
          fun entry hentry => Nat.ne_of_lt (h.fresh entry hentry)
        refine ⟨?_, ?_, ?_, ?_, ?_, ?_, ?_⟩
        · intro o ho
          rcases List.mem_append.mp ho with ho | ho
          · exact List.mem_append_left _ (h.recorded o ho)
          · rw [List.mem_singleton.mp ho]
            exact List.mem_append_right _ (List.mem_singleton_self _)
        · show (List.map _ (client.observers ++ _)).Nodup
          rw [List.map_append, List.nodup_append]
          refine ⟨h.oneEach, List.nodup_singleton _, ?_⟩
          rintro name hname _ hnew rfl
          obtain ⟨o, ho, rfl⟩ := List.mem_map.mp hname
          exact hfresh _ (h.recorded o ho) (List.mem_singleton.mp hnew)
        · show (List.map _ (client.entries ++ _)).Nodup
          rw [List.map_append, List.nodup_append]
          refine ⟨h.topics, List.nodup_singleton _, ?_⟩
          rintro name hname _ hnew rfl
          obtain ⟨entry, hentry, rfl⟩ := List.mem_map.mp hname
          exact hfresh entry hentry (List.mem_singleton.mp hnew)
        · show (List.map _ (client.entries ++ _)).Nodup
          rw [List.map_append, List.nodup_append]
          refine ⟨h.ids, List.nodup_singleton _, ?_⟩
          rintro id hid _ hnew rfl
          obtain ⟨entry, hentry, rfl⟩ := List.mem_map.mp hid
          exact hnext entry hentry (List.mem_singleton.mp hnew)
        · intro entry hentry
          rcases List.mem_append.mp hentry with hentry | hentry
          · exact Nat.lt_succ_of_lt (h.fresh entry hentry)
          · rw [List.mem_singleton.mp hentry]
            exact Nat.lt_succ_self _
        · intro max hmax hpos
          show (client.entries ++ _).length ≤ max
          -- below the limit there is room for one more
          have hroom : client.entries.length < max := by
            unfold limitReached at hlimit
            rw [hmax] at hlimit
            simp only [Option.any_some, Bool.and_eq_true, bne_iff_ne, decide_eq_true_eq, not_and,
              Nat.not_le] at hlimit
            exact hlimit (Nat.pos_iff_ne_zero.mp hpos)
          rw [List.length_append, List.length_singleton]
          exact hroom
        · intro entry hentry
          rcases List.mem_append.mp hentry with hentry | hentry
          · exact h.own entry hentry
          · rw [List.mem_singleton.mp hentry]
            exact hfree.2

theorem Recorded.tableStep (h : Recorded config a) (hstep : TableStep a b) : Recorded config b := by
  cases hstep with
  | same hsame => exact h.same hsame
  | disconnected hsame => exact h.handleDisconnect.same hsame
  | unsubscribed topic => exact h.unsubscribe topic
  | destroyed => exact h.onModuleDestroy

theorem Recorded.tableSteps (h : Recorded config a) (hsteps : TableSteps a b) : Recorded config b := by
  induction hsteps with
  | refl => exact h
  | tail _ hstep ih => exact ih.tableStep hstep

/-- **One observer for a message.**  A message of a topic goes through the one live subscription of the
topic, or through none. -/
theorem Recorded.deliver_eq (h : Recorded config client) (now : Nat) (o : BrokerEvent) :
    (∀ observer ∈ client.observers, observer.eventDef.name ≠ o.topic) ∧ client.deliver config now o = client ∨
      ∃ observer ∈ client.observers, observer.eventDef.name = o.topic ∧
        (∀ other ∈ client.observers, other.eventDef.name = o.topic → other = observer) ∧
        client.deliver config now o = next config now o client observer := by
  unfold deliver
  cases hfound : client.observers.filter fun observer => observer.eventDef.name == o.topic with
  | nil =>
      left
      rw [List.filter_eq_nil_iff] at hfound
      exact ⟨fun observer hobserver hname => hfound observer hobserver (beq_iff_eq.mpr hname), rfl⟩
  | cons observer rest =>
      right
      have hmem : ∀ other,
          other ∈ observer :: rest ↔ other ∈ client.observers ∧ other.eventDef.name = o.topic := by
        intro other
        rw [← hfound, List.mem_filter, beq_iff_eq]
      obtain ⟨hlive, hname⟩ := (hmem observer).mp (.head _)
      have heq : ∀ other ∈ client.observers, other.eventDef.name = o.topic → other = observer :=
        fun other hother htopic => List.inj_on_of_nodup_map h.oneEach hother hlive (htopic.trans hname.symm)
      have hrest : rest = [] := by
        cases hr : rest with
        | nil => rfl
        | cons other tail =>
            -- a second observer of the topic would be the same one again
            obtain ⟨hother, htopic⟩ := (hmem other).mp (by rw [hr]; exact .tail _ (.head _))
            have hnodup := h.oneEach.of_map.filter fun observer => observer.eventDef.name == o.topic
            rw [hfound, hr, heq other hother htopic, List.nodup_cons] at hnodup
            exact absurd (List.Mem.head _) hnodup.1
      refine ⟨observer, hlive, hname, heq, ?_⟩
      rw [hrest]
      rfl

theorem outcomes_handleDisconnect (client : NamedWebSocket) :
    client.handleDisconnect.outcomes = client.outcomes := by
  unfold NamedWebSocket.handleDisconnect
  split <;> rfl

/-- A handler sends or drops at most one message. -/
theorem outcomes_next (now : Nat) (o : BrokerEvent) (observer : Observer) :
    (next config now o client observer).outcomes.length ≤ client.outcomes.length + 1 := by
  unfold next
  split
  · exact Nat.le_succ _
  split
  · exact Nat.le_succ _
  split
  · show client.handleDisconnect.outcomes.length ≤ _
    rw [outcomes_handleDisconnect]
    exact Nat.le_succ _
  split
  · exact Nat.le_succ _
  split
  · simp
  · unfold send
    dsimp only
    split <;> simp

theorem Recorded.start (config : WebSocketConfig) : Recorded config {} where
  recorded _ ho := absurd ho List.not_mem_nil
  oneEach := .nil
  topics := .nil
  ids := .nil
  fresh _ hentry := absurd hentry List.not_mem_nil
  bounded := fun max _ _ => Nat.zero_le max
  own _ hentry := absurd hentry List.not_mem_nil

end NamedWebSocket

namespace WebSockets

variable {config : WebSocketConfig} {s : WebSockets}

/-- One input keeps every client's table in order. -/
theorem recorded_step (h : ∀ c, (s.clients c).Recorded config) (i : SocketInput) (c : Nat) :
    ((s.step config i).clients c).Recorded config := by
  cases clientStep config s i c with
  | steps hsteps => exact (h c).tableSteps hsteps
  | added eventDef select claims _ hb =>
      rw [hb]
      exact (h c).addSubscription s.subjects eventDef select claims

/-- **In every state**, every client's table is in order. -/
theorem recorded_run (config : WebSocketConfig) (inputs : List SocketInput) (c : Nat) :
    ((run (step config) {} inputs).clients c).Recorded config :=
  run_invariant (I := fun s => ∀ c, (s.clients c).Recorded config) (fun s i h => recorded_step (s := s) h i)
    (fun _ => .start config) inputs c

/-- In every state of every interleaving, every client has at most as many entries as the limit allows and
one live subscription for a topic, which is the recorded one, and a message reaches it at most once. -/
theorem subscriptions_recorded (config : WebSocketConfig) (inputs : List SocketInput) (c : Nat) :
    ((run (step config) {} inputs).clients c).Recorded config ∧
      ∀ o, (((run (step config) {} inputs).step config (.deliver o)).clients c).outcomes.length ≤
        ((run (step config) {} inputs).clients c).outcomes.length + 1 := by
  have hrecorded := recorded_run config inputs c
  refine ⟨hrecorded, fun o => ?_⟩
  show (((run (step config) {} inputs).clients c).deliver config _ o).outcomes.length ≤ _
  rcases hrecorded.deliver_eq (run (step config) {} inputs).now o with ⟨-, hnone⟩ | ⟨observer, -, -, -, hone⟩
  · rw [hnone]
    exact Nat.le_succ _
  · rw [hone]
    exact NamedWebSocket.outcomes_next _ o observer

end WebSockets

end NestAmqp.Proxy
