/-
# NestAmqp.Amqp.SubscriberLineage — where a dead letter goes, and how far a failing message gets.

Two results about the lineage of a subscriber's message.  A dead letter keeps the original's routing key
only when nothing was retried, because every copy comes back under the name of the queue; that holds of
every handler.  And the number of attempts is bounded whatever fails on the way, as long as the errors of
the handler can be told: after `n` confirmed copies the one delivery in the queue is the original after `n`
hops, and an ended lineage leaves at most one dead letter.
-/
import NestAmqp.Amqp.Lineage

namespace NestAmqp.Amqp

open NestAmqp.Js
open NestAmqp.Lib
open NestAmqp.Lib.Machine

theorem hop_of_empty {names : List String} {consumer : Option Delivery → Consuming Unit} {queue : String}
    {s : Lineage} (hpending : s.pending = []) (stamps : DeathHeaders names) :
    hop consumer queue s stamps = s := by
  unfold hop
  rw [hpending]

/-! ## The routing key of a dead letter -/

/-- What the confirmed copies of a lineage tell about its queue.  Whatever is put back keeps its place in
front, so behind the message itself there are only copies. -/
structure Followed (env : ConsumerEnv) (options : MessageHandlerOptions) (kind : ConsumerKind)
    (queue : String) (policy : RetryPolicyConfig) (msg : Delivery) (s : Lineage) : Prop where
  /-- The first copy came from a failure of the message itself. -/
  first : confirmedCopies .retry s.log ≠ [] → ∃ e t n, Failed env options kind msg e t ∧
    attemptsMade msg = .ok n ∧ retries policy n e = true
  unretried : confirmedCopies .retry s.log = [] → s.pending = [] ∨ s.pending = [msg]
  last : confirmedCopies .retry s.log ≠ [] → ∀ d, s.pending.getLast? = some d → d.routingKey = queue

section Followed

variable {env : ConsumerEnv} {options : MessageHandlerOptions} {kind : ConsumerKind}
  {names : List String} {queue : String} {policy : RetryPolicyConfig} {msg d : Delivery}
  {rest : List Delivery} {s : Lineage}

theorem Followed.start : Followed env options kind queue policy msg { pending := [msg] } where
  first h := absurd rfl h
  unretried _ := .inr rfl
  last h := absurd rfl h

/-- Nothing came in: the first delivery is gone, or still there. -/
theorem Followed.kept (h : Followed env options kind queue policy msg s) (hpending : s.pending = d :: rest)
    {new : List Event} (hretried : confirmedCopies .retry new = []) (gone : Bool) :
    Followed env options kind queue policy msg
      { log := s.log ++ new, pending := (if gone then [] else [d]) ++ rest } := by
  have hcopies : confirmedCopies .retry (s.log ++ new) = confirmedCopies .retry s.log := by
    rw [confirmedCopies_append, hretried, List.append_nil]
  refine ⟨?_, fun hnil => ?_, fun hne last hlast => ?_⟩
  · rw [hcopies]
    exact h.first
  · rw [hcopies] at hnil
    rcases h.unretried hnil with hempty | hone
    · rw [hempty] at hpending
      cases hpending
    · rw [hone] at hpending
      cases hpending
      cases gone with
      | true => exact .inl rfl
      | false => exact .inr rfl
  · rw [hcopies] at hne
    refine h.last hne last ?_
    rw [hpending]
    cases gone with
    | false => exact hlast
    | true =>
        cases rest with
        | nil => cases hlast
        | cons d' rest => exact hlast

/-- A confirmed copy came in, behind whatever is there. -/
theorem Followed.retried (h : Followed env options kind queue policy msg s) (hpending : s.pending = d :: rest)
    {e : Thrown} {t new : List Event} {n : JsNumber} (hfail : Failed env options kind d e t)
    (hcount : attemptsMade d = .ok n) (hretry : retries policy n e = true) {m : Publication}
    (hretried : confirmedCopies .retry new = [m]) (front : List Delivery) (stamps : DeathHeaders names) :
    Followed env options kind queue policy msg
      { log := s.log ++ new, pending := front ++ [copyBack queue policy stamps d n] } := by
  have hcopies : confirmedCopies .retry (s.log ++ new) = confirmedCopies .retry s.log ++ [m] := by
    rw [confirmedCopies_append, hretried]
  refine ⟨fun _ => ?_, fun hnil => ?_, fun _ last hlast => ?_⟩
  · by_cases hnil : confirmedCopies .retry s.log = []
    · rcases h.unretried hnil with hempty | hone
      · rw [hempty] at hpending
        cases hpending
      · rw [hone] at hpending
        cases hpending
        exact ⟨e, t, n, hfail, hcount, hretry⟩
    · exact h.first hnil
  · rw [hcopies] at hnil
    exact absurd hnil (by simp)
  · rw [List.getLast?_concat] at hlast
    obtain rfl := Option.some.inj hlast
    rfl

theorem Followed.step (hsafe : env.SettlesSafely) (h : Followed env options kind queue policy msg s)
    (stamps : DeathHeaders names) : Followed env options kind queue policy msg
      (hop (retryConsumer env options kind queue policy) queue s stamps) := by
  cases hpending : s.pending with
  | nil => rwa [hop_of_empty hpending]
  | cons d rest =>
      have hfate := hop_fate options kind queue policy hsafe stamps hpending
      generalize hop (retryConsumer env options kind queue policy) queue s stamps = s' at hfate ⊢
      cases hfate with
      | @returned new hretried hdead =>
          have hkept := h.kept hpending hretried (!requeued new)
          cases hrequeued : requeued new <;> simpa [hrequeued] using hkept
      | @failed e t new safe back hfail houtcome =>
          generalize hretried : confirmedCopies .retry new = retried at houtcome
          generalize confirmedCopies .deadLetter new = dead at houtcome
          cases houtcome with
          | nothing => simpa using h.kept hpending hretried false
          | retried hcount hretry => exact h.retried hpending hfail hcount hretry hretried _ stamps
          | deadLettered hcount hretry hdest hcause => simpa using h.kept hpending hretried e.reads
          | dropped hcount hretry hdest => simpa using h.kept hpending hretried e.reads

theorem followed_lineage (hsafe : env.SettlesSafely) (hops : List (DeathHeaders names)) :
    Followed env options kind queue policy msg
      (lineage (retryConsumer env options kind queue policy) queue msg hops) :=
  run_invariant (fun _ stamps h => h.step hsafe stamps) Followed.start hops

/-- The hop that empties the queue by dead-lettering: what it dead-letters is the message itself when
nothing was retried, and a copy that came back through the queue otherwise. -/
theorem Followed.deadLettered (hsafe : env.SettlesSafely) (h : Followed env options kind queue policy msg s)
    (stamps : DeathHeaders names) {s' : Lineage}
    (hs' : hop (retryConsumer env options kind queue policy) queue s stamps = s') (hended : s'.pending = [])
    (hletter : confirmedCopies .deadLetter s'.log ≠ confirmedCopies .deadLetter s.log) :
    ∃ d e t n dest cause, Failed env options kind d e t ∧ attemptsMade d = .ok n ∧
      retries policy n e = false ∧ policy.deadLetterTo = some dest ∧
      confirmedCopies .deadLetter s'.log = confirmedCopies .deadLetter s.log ++
        [deadLetterCopy queue policy dest d cause n] ∧
      (confirmedCopies .retry s'.log = [] → d = msg) ∧
      (confirmedCopies .retry s'.log ≠ [] → d.routingKey = queue) := by
  cases hpending : s.pending with
  | nil =>
      rw [hop_of_empty hpending] at hs'
      rw [hs'] at hletter
      exact absurd rfl hletter
  | cons d rest =>
      have hfate := hop_fate options kind queue policy hsafe stamps hpending
      rw [hs'] at hfate
      cases hfate with
      | returned hretried hdead => simp [hdead] at hletter
      | @failed e t new safe back hfail houtcome =>
          generalize hretried : confirmedCopies .retry new = retried at houtcome
          generalize hdead : confirmedCopies .deadLetter new = dead at houtcome
          obtain rfl : rest = [] := (List.append_eq_nil_iff.mp (List.append_eq_nil_iff.mp hended).1).2
          cases houtcome with
          | nothing => simp [hdead] at hletter
          | retried hcount hretry => simp [hdead] at hletter
          | dropped hcount hretry hdest => simp [hdead] at hletter
          | @deadLettered n hcount hretry dest hdest cause hcause =>
              have hcopies : confirmedCopies .retry (s.log ++ new) = confirmedCopies .retry s.log := by
                rw [confirmedCopies_append, hretried, List.append_nil]
              refine ⟨d, e, t, n, dest, cause, hfail, hcount, hretry, hdest,
                by rw [confirmedCopies_append, hdead], fun hnil => ?_, fun hne => ?_⟩
              · rw [hcopies] at hnil
                rcases h.unretried hnil with hempty | hone
                · rw [hempty] at hpending
                  cases hpending
                · rw [hone] at hpending
                  exact (List.cons.inj hpending).1.symm
              · rw [hcopies] at hne
                exact h.last hne d (by rw [hpending]; rfl)

end Followed

/-- **A dead letter keeps the original's routing key exactly when nothing was retried**, a message that
was first delivered with the queue's own name apart.  For every handler, and whatever fails on the way: of
the hop that empties the queue by dead-lettering.  When the handler always throws and its errors are
all retriable, that is decided by the message and the policy: it cannot be deserialised, or its first
failure is the last attempt. -/
theorem deadLetter_routingKey_iff (env : ConsumerEnv) (hsafe : env.SettlesSafely)
    (options : MessageHandlerOptions) (queue : String) (policy : RetryPolicyConfig) (dest : DeadLetter)
    (hdest : policy.deadLetterTo = some dest) (hkey : dest.routingKey = none) (names : List String)
    (msg : Delivery) (hops : List (DeathHeaders names)) (stamps : DeathHeaders names) :
    let s := lineage (retryConsumer env options .subscribe queue policy) queue msg hops
    let s' := hop (retryConsumer env options .subscribe queue policy) queue s stamps
    s'.pending = [] → confirmedCopies .deadLetter s'.log ≠ confirmedCopies .deadLetter s.log →
    ((∃ m, confirmedCopies .deadLetter s'.log = confirmedCopies .deadLetter s.log ++ [m] ∧
        m.routingKey = msg.routingKey) ↔
      msg.routingKey = queue ∨ confirmedCopies .retry s'.log = []) ∧
    (env.AlwaysRetriable → (confirmedCopies .retry s'.log = [] ↔
      (∃ e, tryDeserializeMessage env options msg = .error e ∧ e.isDeserialization = true) ∨
        ∃ n, attemptsMade msg = .ok n ∧ n.below policy.attemptLimit = false)) := by
  intro s s' hended hletter
  have hfollowed : Followed env options .subscribe queue policy msg s := followed_lineage hsafe hops
  obtain ⟨d, e, t, n, dest', cause, hfail, hcount, hretry, hdest', hdead, hunretried, hretried⟩ :=
    hfollowed.deadLettered hsafe stamps rfl hended hletter
  obtain rfl := Option.some.inj (hdest.symm.trans hdest')
  constructor
  · have hkept : (∃ m, confirmedCopies .deadLetter s'.log = confirmedCopies .deadLetter s.log ++ [m] ∧
        m.routingKey = msg.routingKey) ↔ d.routingKey = msg.routingKey := by
      rw [hdead]
      simp [deadLetterCopy, hkey]
    rw [hkept]
    by_cases hnil : confirmedCopies .retry s'.log = []
    · exact iff_of_true (by rw [hunretried hnil]) (.inr hnil)
    · rw [hretried hnil]
      exact ⟨fun hsame => .inl hsame.symm, fun h => (h.resolve_right hnil).symm⟩
  · intro hretriable
    constructor
    · intro hnil
      obtain rfl := hunretried hnil
      rw [retries_eq_false_iff, hfail.isDeserialization_iff hretriable] at hretry
      exact hretry.imp_right fun hlimit => ⟨n, hcount, hlimit⟩
    · intro hfinal
      -- its first failure would have been retried
      by_contra hne
      obtain ⟨e', t', n', hfail', hcount', hretry'⟩ := (hfollowed.step hsafe stamps).first hne
      have hnot : retries policy n' e' = false := by
        rw [retries_eq_false_iff, hfail'.isDeserialization_iff hretriable]
        refine hfinal.imp_right ?_
        rintro ⟨n'', hcount'', hlimit⟩
        rwa [Except.ok.inj (hcount'.symm.trans hcount'')]
      rw [hnot] at hretry'
      cases hretry'

/-- The policy of the two runs below: one retry, then the dead-letter exchange. -/
def deadLetterPolicy : RetryPolicyConfig :=
  { maxAttempts := some 2, deadLetter := some { exchange := "dead" } }

/-- The lineage of a failing message under that policy, on the queue `orders`. -/
def failingOrder (routingKey : String) (hops : List (DeathHeaders [])) : Lineage :=
  lineage (retryConsumer failingConsumer {} .subscribe "orders" deadLetterPolicy) "orders"
    { routingKey, content := [] } hops

/-- A message that arrived under the queue's own name keeps it. -/
theorem deadLetter_routingKey_ownName :
    (∃ m, confirmedCopies .deadLetter (failingOrder "orders" [noHeaders, noHeaders]).log =
        confirmedCopies .deadLetter (failingOrder "orders" [noHeaders]).log ++ [m] ∧
      m.routingKey = "orders") ↔ "orders" = "orders" ∨
        confirmedCopies .retry (failingOrder "orders" [noHeaders, noHeaders]).log = [] :=
  (deadLetter_routingKey_iff failingConsumer failingConsumer_settlesSafely {} "orders"
    deadLetterPolicy { exchange := "dead" } rfl rfl [] { routingKey := "orders", content := [] } [noHeaders]
    noHeaders rfl (List.cons_ne_nil _ _)).1

/-- One retry, and the dead letter of `order.created` is addressed to `orders`. -/
theorem deadLetter_routingKey_lost :
    ¬ ∀ (env : ConsumerEnv) (options : MessageHandlerOptions) (queue : String)
      (policy : RetryPolicyConfig) (dest : DeadLetter) (msg : Delivery) (hops : List (DeathHeaders []))
      (stamps : DeathHeaders []),
      env.SettlesSafely → policy.deadLetterTo = some dest → dest.routingKey = none →
      let s := lineage (retryConsumer env options .subscribe queue policy) queue msg hops
      let s' := hop (retryConsumer env options .subscribe queue policy) queue s stamps
      s'.pending = [] → ∀ m, confirmedCopies .deadLetter s'.log = confirmedCopies .deadLetter s.log ++ [m] →
        m.routingKey = msg.routingKey := by
  intro h
  have hlost := h failingConsumer {} "orders" deadLetterPolicy { exchange := "dead" }
    { routingKey := "order.created", content := [] } [noHeaders] noHeaders
    failingConsumer_settlesSafely rfl rfl rfl _ rfl
  exact absurd hlost (by decide)

/-! ## A lineage of failures -/

/-- What a delivery that was failing when its lineage ended failed with. -/
inductive LastFailure (env : ConsumerEnv) (options : MessageHandlerOptions) (d : Delivery) :
    Thrown → List Event → Prop
  | undecodable {e : Thrown} {log : List Event} (hmsg : tryDeserializeMessage env options d = .error e) :
      LastFailure env options d e log
  | threw {e : Thrown} {before rest : List Event} (hlast : handlerRuns rest = 0) :
      LastFailure env options d e (before ++ .handled d (some e) :: rest)

/-- The lineage of a message that keeps failing, after `hops` hops.  Its counter is `a` at first. -/
structure Tracked (env : ConsumerEnv) (options : MessageHandlerOptions) (names : List String)
    (queue : String) (policy : RetryPolicyConfig) (msg : Delivery) (a : JsNumber) (hops : Nat)
    (s : Lineage) : Prop where
  /-- The counters of the confirmed copies go up by one. -/
  counters : ∀ (j : Nat) m, (confirmedCopies .retry s.log)[j]? = some m →
    Obj.own (m.properties.headers.getD []) RETRY_COUNT_HEADER = some (raised a j).toValue
  /-- Every confirmed copy was made below the limit. -/
  bounded : ∀ j < (confirmedCopies .retry s.log).length,
    (raised a j).below policy.attemptLimit = true
  /-- A lineage that goes on has one delivery in the queue, the next descendant; every hop so far made a
  copy or had a failing step. -/
  alive : ∀ d rest, s.pending = d :: rest → rest = [] ∧
    Descends names queue policy msg (confirmedCopies .retry s.log).length d ∧
    confirmedCopies .deadLetter s.log = [] ∧
    hops = (confirmedCopies .retry s.log).length + failures s.log
  /-- A lineage that ended did so on a failure that was not to be retried. -/
  ended : s.pending = [] → ∃ d e, Descends names queue policy msg (confirmedCopies .retry s.log).length d ∧
    LastFailure env options d e s.log ∧
    retries policy (raised a (confirmedCopies .retry s.log).length) e = false ∧
    Buried queue policy d e (raised a (confirmedCopies .retry s.log).length)
      (confirmedCopies .deadLetter s.log)

section Tracked

variable {env : ConsumerEnv} {options : MessageHandlerOptions} {kind : ConsumerKind}
  {names : List String} {queue : String} {policy : RetryPolicyConfig} {msg d : Delivery} {a : JsNumber}
  {hops : Nat} {s : Lineage} {new : List Event}

theorem FailsAt.lastFailure {log rest : List Event} {e : Thrown} {t : List Event}
    (h : FailsAt env options d log e t) (hlast : handlerRuns rest = 0) :
    LastFailure env options d e (log ++ (t ++ rest)) := by
  cases h with
  | undecodable hmsg => exact .undecodable hmsg
  | threw hmsg he => exact .threw hlast

theorem Tracked.start (env : ConsumerEnv) (options : MessageHandlerOptions) (names : List String)
    (queue : String) (policy : RetryPolicyConfig) (msg : Delivery) (a : JsNumber) :
    Tracked env options names queue policy msg a 0 { pending := [msg] } where
  counters j m h := by simp [confirmedCopies] at h
  bounded j h := by simp [confirmedCopies] at h
  alive d rest h := by
    cases h
    exact ⟨rfl, Descends.refl names queue policy msg, rfl, rfl⟩
  ended h := by cases h

/-- The same delivery again, with one failure more. -/
theorem Tracked.requeued (h : Tracked env options names queue policy msg a hops s)
    (hpending : s.pending = [d]) (hretried : confirmedCopies .retry new = [])
    (hdead : confirmedCopies .deadLetter new = []) (hfailures : failures new = 1) :
    Tracked env options names queue policy msg a (hops + 1) { log := s.log ++ new, pending := [d] } := by
  obtain ⟨-, hd, hletters, hhops⟩ := h.alive d [] hpending
  have hcopies : confirmedCopies .retry (s.log ++ new) = confirmedCopies .retry s.log := by
    rw [confirmedCopies_append, hretried, List.append_nil]
  refine ⟨?_, ?_, fun d' rest hd' => ?_, fun hnone => by cases hnone⟩
  · rw [hcopies]
    exact h.counters
  · rw [hcopies]
    exact h.bounded
  · cases hd'
    rw [hcopies, confirmedCopies_append, failures_append, hletters, hdead, hfailures]
    exact ⟨rfl, hd, rfl, by omega⟩

/-- The copy in its place. -/
theorem Tracked.retried (h : Tracked env options names queue policy msg a hops s)
    (hnames : RETRY_COUNT_HEADER ∉ names) (hmsg : attemptsMade msg = .ok a) (hpending : s.pending = [d])
    {n : JsNumber} (hcount : attemptsMade d = .ok n) (hbelow : n.below policy.attemptLimit = true)
    (hretried : confirmedCopies .retry new = [retryCopy queue policy d n])
    (hdead : confirmedCopies .deadLetter new = []) (hfailures : failures new = 0)
    (stamps : DeathHeaders names) :
    Tracked env options names queue policy msg a (hops + 1)
      { log := s.log ++ new, pending := [copyBack queue policy stamps d n] } := by
  obtain ⟨-, hd, hletters, hhops⟩ := h.alive d [] hpending
  obtain rfl : raised a (confirmedCopies .retry s.log).length = n :=
    Except.ok.inj ((hd.attempts hnames a hmsg).symm.trans hcount)
  have hcopies : confirmedCopies .retry (s.log ++ new) = confirmedCopies .retry s.log ++
      [retryCopy queue policy d (raised a (confirmedCopies .retry s.log).length)] := by
    rw [confirmedCopies_append, hretried]
  refine ⟨fun j m hm => ?_, fun j hj => ?_, fun d' rest hd' => ?_, fun hnone => by cases hnone⟩
  · rw [hcopies] at hm
    rcases Nat.lt_or_ge j (confirmedCopies .retry s.log).length with hj | hj
    · rw [List.getElem?_append_left hj] at hm
      exact h.counters j m hm
    · -- the new copy is the last one: its counter is the number of attempts it stands for
      have hlt := (List.getElem?_eq_some_iff.mp hm).1
      rw [List.length_append, List.length_singleton] at hlt
      obtain rfl : (confirmedCopies .retry s.log).length = j := by omega
      rw [List.getElem?_concat_length] at hm
      obtain rfl := Option.some.inj hm
      simp [retryCopy, own_retryProperties]
  · rw [hcopies, List.length_append, List.length_singleton] at hj
    rcases Nat.lt_succ_iff_lt_or_eq.mp hj with hj | rfl
    · exact h.bounded j hj
    · exact hbelow
  · cases hd'
    rw [hcopies, List.length_append, List.length_singleton, confirmedCopies_append, failures_append,
      hletters, hdead, hfailures]
    exact ⟨rfl, hd.copyBack hcount stamps, rfl, by omega⟩

/-- The failure that is not retried. -/
theorem Tracked.buried (h : Tracked env options names queue policy msg a hops s)
    (hnames : RETRY_COUNT_HEADER ∉ names) (hmsg : attemptsMade msg = .ok a) (hpending : s.pending = [d])
    {n : JsNumber} (hcount : attemptsMade d = .ok n) {e : Thrown} (hretry : retries policy n e = false)
    (hretried : confirmedCopies .retry new = [])
    (hdead : Buried queue policy d e n (confirmedCopies .deadLetter new))
    (hlast : LastFailure env options d e (s.log ++ new)) :
    Tracked env options names queue policy msg a (hops + 1) { log := s.log ++ new, pending := [] } := by
  obtain ⟨-, hd, hletters, -⟩ := h.alive d [] hpending
  obtain rfl : raised a (confirmedCopies .retry s.log).length = n :=
    Except.ok.inj ((hd.attempts hnames a hmsg).symm.trans hcount)
  have hcopies : confirmedCopies .retry (s.log ++ new) = confirmedCopies .retry s.log := by
    rw [confirmedCopies_append, hretried, List.append_nil]
  refine ⟨?_, ?_, fun d' rest hd' => (by cases hd'), fun _ => ⟨d, e, ?_, hlast, ?_, ?_⟩⟩
  · rw [hcopies]
    exact h.counters
  · rw [hcopies]
    exact h.bounded
  · rw [hcopies]
    exact hd
  · rw [hcopies]
    exact hretry
  · rw [hcopies, confirmedCopies_append, hletters]
    exact hdead

/-- What one hop makes of a delivery that fails, when the failure can be told. -/
inductive FailingFate (env : ConsumerEnv) (options : MessageHandlerOptions) (queue : String)
    (policy : RetryPolicyConfig) (stamps : DeathHeaders names) (log : List Event) (d : Delivery) :
    Lineage → Prop
  /-- A step failed: the same delivery comes again. -/
  | requeued {new : List Event} (hretried : confirmedCopies .retry new = [])
      (hdead : confirmedCopies .deadLetter new = []) (hfailures : failures new = 1) :
      FailingFate env options queue policy stamps log d { log := log ++ new, pending := [d] }
  /-- The copy was confirmed and comes back. -/
  | retried {e : Thrown} {t new : List Event} {n : JsNumber} (hfail : FailsAt env options d log e t)
      (hcount : attemptsMade d = .ok n) (hretry : retries policy n e = true)
      (hretried : confirmedCopies .retry new = [retryCopy queue policy d n])
      (hdead : confirmedCopies .deadLetter new = []) (hfailures : failures new = 0) :
      FailingFate env options queue policy stamps log d
        { log := log ++ new, pending := [copyBack queue policy stamps d n] }
  /-- The message was dead-lettered with confirmation, or dropped. -/
  | buried {e : Thrown} {new : List Event} {n : JsNumber} (hcount : attemptsMade d = .ok n)
      (hretry : retries policy n e = false) (hretried : confirmedCopies .retry new = [])
      (hdead : Buried queue policy d e n (confirmedCopies .deadLetter new))
      (hlast : LastFailure env options d e (log ++ new)) :
      FailingFate env options queue policy stamps log d { log := log ++ new, pending := [] }

/-- **One hop of a lineage of failures.**  A failure that can be told leaves the delivery, its copy, or
nothing. -/
theorem hop_failingFate (hsafe : env.SettlesSafely) (hfails : env.AlwaysFails)
    (hadmits : kind.admits options d = true) (htold : s.Told env options kind queue policy)
    (hpending : s.pending = [d]) (stamps : DeathHeaders names) :
    FailingFate env options queue policy stamps s.log d
      (hop (retryConsumer env options kind queue policy) queue s stamps) := by
  obtain ⟨e, t, hfail⟩ := hfails.failsAt options d s.log
  obtain ⟨safe, a, s', ha, hs, -, hhop⟩ := hop_of_failsAt queue policy hsafe hpending hadmits hfail stamps
  have htold : Told env queue policy d e := (htold d [] hpending hadmits).2 e t hfail
  have hquiet := (hfail.failed kind).quiet
  have houtcome := HandedOver.outcome stamps hquiet ha hs
  have hfailures : failures (t ++ (a ++ s')) = if safe then 0 else 1 := by
    rw [failures_append, failures_append, hquiet.failures, hs.failures_eq, Nat.zero_add, Nat.add_zero,
      ha.failures_eq htold]
  have hlast : LastFailure env options d e (s.log ++ (t ++ (a ++ s'))) :=
    hfail.lastFailure (by rw [handlerRuns_append, ha.handlerRuns_eq, hs.handlerRuns_eq])
  rw [hhop, List.append_nil]
  generalize hretried : confirmedCopies .retry (t ++ (a ++ s')) = retried at houtcome
  generalize hdead : confirmedCopies .deadLetter (t ++ (a ++ s')) = dead at houtcome
  generalize copiesBack queue stamps (t ++ (a ++ s')) = back at houtcome ⊢
  cases houtcome with
  | nothing => exact .requeued hretried hdead hfailures
  | retried hcount hretry =>
      rw [htold.reads] at hfailures ⊢
      exact .retried hfail hcount hretry hretried hdead hfailures
  | deadLettered hcount hretry hdest hcause =>
      rw [htold.reads]
      exact .buried hcount hretry hretried (by rw [hdead]; exact .deadLettered hdest hcause) hlast
  | dropped hcount hretry hdest =>
      rw [htold.reads]
      exact .buried hcount hretry hretried (by rw [hdead]; exact .dropped hdest) hlast

theorem below_of_retries {n : JsNumber} {e : Thrown} (h : retries policy n e = true) :
    n.below policy.attemptLimit = true := by
  unfold retries at h
  exact (Bool.and_eq_true_iff.mp h).2

theorem Tracked.step (hsafe : env.SettlesSafely) (hfails : env.AlwaysFails)
    (hadmits : ∀ d, kind.admits options d = true) (hnames : RETRY_COUNT_HEADER ∉ names)
    (hmsg : attemptsMade msg = .ok a) (h : Tracked env options names queue policy msg a hops s)
    (htold : s.Told env options kind queue policy) (stamps : DeathHeaders names) :
    Tracked env options names queue policy msg a (hops + 1)
      (hop (retryConsumer env options kind queue policy) queue s stamps) := by
  cases hpending : s.pending with
  | nil =>
      rw [hop_of_empty hpending]
      refine ⟨h.counters, h.bounded, fun d rest hd => ?_, h.ended⟩
      rw [hpending] at hd
      cases hd
  | cons d rest =>
      obtain ⟨rfl, -⟩ := h.alive d rest hpending
      have hfate := hop_failingFate hsafe hfails (hadmits d) htold hpending stamps
      generalize hop (retryConsumer env options kind queue policy) queue s stamps = s' at hfate ⊢
      cases hfate with
      | requeued hretried hdead hfailures => exact h.requeued hpending hretried hdead hfailures
      | retried hfail hcount hretry hretried hdead hfailures =>
          exact h.retried hnames hmsg hpending hcount (below_of_retries hretry) hretried hdead hfailures stamps
      | buried hcount hretry hretried hdead hlast =>
          exact h.buried hnames hmsg hpending hcount hretry hretried hdead hlast

/-- **The invariant along every run that can be told.** -/
theorem tracked_lineage (hsafe : env.SettlesSafely) (hfails : env.AlwaysFails)
    (hadmits : ∀ d, kind.admits options d = true) (hnames : RETRY_COUNT_HEADER ∉ names)
    (hmsg : attemptsMade msg = .ok a) (hops : List (DeathHeaders names))
    (htold : Along (hop (retryConsumer env options kind queue policy) queue)
      (fun s _ => s.Told env options kind queue policy) { pending := [msg] } hops) :
    Tracked env options names queue policy msg a hops.length
      (lineage (retryConsumer env options kind queue policy) queue msg hops) := by
  have h := htold.counted (I := Tracked env options names queue policy msg a)
    (fun _ _ stamps h htold => h.step hsafe hfails hadmits hnames hmsg htold stamps)
    (Tracked.start env options names queue policy msg a)
  rwa [Nat.zero_add] at h

end Tracked

/-! ## Bounded retries -/

/-- A dead letter of `msg` carries the message, where it failed, and why. -/
structure CarriesOriginal (names : List String) (queue : String) (policy : RetryPolicyConfig)
    (msg : Delivery) (dest : DeadLetter) (cause : PlainError) (m : Publication) : Prop where
  exchange : m.exchange = dest.exchange
  body : m.body = .raw msg.content
  originQueue : Obj.own (m.properties.headers.getD []) RETRY_ORIGIN_QUEUE_HEADER = some (.str queue)
  errorText : Obj.own (m.properties.headers.getD []) RETRY_ERROR_HEADER = some cause.message
  headers : ∀ name, name ∉ [RETRY_COUNT_HEADER, RETRY_ERROR_HEADER, RETRY_ORIGIN_QUEUE_HEADER] →
    name ∉ names → Obj.own (m.properties.headers.getD []) name =
      Obj.own (msg.properties.headers.getD []) name
  replyTo : m.properties.replyTo = msg.properties.replyTo
  correlationId : m.properties.correlationId = msg.properties.correlationId
  other : m.properties.other = msg.properties.other
  expiration : m.properties.expiration =
    if 0 < policy.delay then none else msg.properties.expiration

theorem Descends.carriesOriginal {names : List String} {queue : String} {policy : RetryPolicyConfig}
    {msg d : Delivery} {n : Nat} (h : Descends names queue policy msg n d) (dest : DeadLetter)
    (cause : PlainError) (attempts : JsNumber) : CarriesOriginal names queue policy msg dest cause
      (deadLetterCopy queue policy dest d cause attempts) where
  exchange := rfl
  body := by rw [← h.content]; rfl
  originQueue := by
    unfold deadLetterCopy
    rw [own_retryProperties]
    simp [Obj.own_cons, RETRY_ORIGIN_QUEUE_HEADER]
  errorText := by
    unfold deadLetterCopy
    rw [own_retryProperties]
    simp [Obj.own_cons, RETRY_ORIGIN_QUEUE_HEADER, RETRY_ERROR_HEADER]
  headers name hname hnames := by
    simp only [List.mem_cons, List.not_mem_nil, or_false, not_or] at hname
    unfold deadLetterCopy
    rw [own_retryProperties, if_neg hname.1, h.headers name hname.1 hnames]
    simp [Obj.own_cons, hname.2.1, hname.2.2]
  replyTo := h.replyTo
  correlationId := h.correlationId
  other := h.other
  expiration := by
    show (if 0 < policy.delay then none else d.properties.expiration) = _
    rw [h.expiration]
    by_cases hdelay : 0 < policy.delay <;> simp [hdelay]

/-- The counter of a message: its header, or zero when it has none. -/
def CounterIs (msg : Delivery) (c : Nat) : Prop :=
  (Obj.own (msg.properties.headers.getD []) RETRY_COUNT_HEADER = none ∧ c = 0) ∨
    Obj.own (msg.properties.headers.getD []) RETRY_COUNT_HEADER = some (.num c)

theorem CounterIs.attemptsMade {msg : Delivery} {c : Nat} (h : CounterIs msg c) :
    attemptsMade msg = .ok (.num (c + 1)) := by
  unfold Amqp.attemptsMade Delivery.header Obj.get
  rcases h with ⟨h, rfl⟩ | h <;> rw [h] <;> rfl

/-- What the end of a lineage leaves of its last failure: the dead letter, when the policy keeps exhausted
messages. -/
def DeadLettersFor (names : List String) (queue : String) (policy : RetryPolicyConfig) (msg : Delivery)
    (error : Thrown) (letters : List Publication) : Prop :=
  match policy.deadLetterTo with
  | none => letters = []
  | some dest => ∃ cause m, errorToPlain error = .ok cause ∧ letters = [m] ∧
      CarriesOriginal names queue policy msg dest cause m

/-- A failing lineage with counter `c`, after `hops` hops. -/
structure BoundedLineage (env : ConsumerEnv) (options : MessageHandlerOptions) (names : List String)
    (queue : String) (policy : RetryPolicyConfig) (msg : Delivery) (c : Nat) (hops : Nat) (s : Lineage) :
    Prop where
  counters : ∀ (j : Nat) m, (confirmedCopies .retry s.log)[j]? = some m →
    Obj.own (m.properties.headers.getD []) RETRY_COUNT_HEADER = some (.num (c + j + 1))
  bounded : ((confirmedCopies .retry s.log).length : Int) ≤ policy.attemptLimit - 1
  alone : s.pending.length ≤ 1
  noDeadLetter : s.pending ≠ [] → confirmedCopies .deadLetter s.log = []
  progress : s.pending ≠ [] → hops = (confirmedCopies .retry s.log).length + failures s.log
  ended : s.pending = [] → ∃ d error,
    Descends names queue policy msg (confirmedCopies .retry s.log).length d ∧
    LastFailure env options d error s.log ∧
    (error.isDeserialization = true ∨
      policy.attemptLimit ≤ c + (confirmedCopies .retry s.log).length + 1) ∧
    DeadLettersFor names queue policy msg error (confirmedCopies .deadLetter s.log)

section Bounded

variable {env : ConsumerEnv} {options : MessageHandlerOptions} {names : List String} {queue : String}
  {policy : RetryPolicyConfig} {msg d : Delivery} {hops : Nat} {s : Lineage} {c : Nat}

theorem Buried.deadLettersFor {n : Nat} {error : Thrown} {attempts : JsNumber} {letters : List Publication}
    (h : Buried queue policy d error attempts letters) (hd : Descends names queue policy msg n d) :
    DeadLettersFor names queue policy msg error letters := by
  unfold DeadLettersFor
  cases h with
  | deadLettered hdest hcause =>
      rw [hdest]
      exact ⟨_, _, hcause, rfl, hd.carriesOriginal _ _ _⟩
  | dropped hdest => rw [hdest]

theorem Tracked.boundedLineage
    (h : Tracked env options names queue policy msg (.num (c + 1)) hops s) :
    BoundedLineage env options names queue policy msg c hops s where
  counters j m hm := by
    rw [h.counters j m hm, raised_num, JsNumber.toValue_num]
    congr 2
    omega
  bounded := by
    have hlimit := policy.one_le_attemptLimit
    rcases Nat.eq_zero_or_pos (confirmedCopies .retry s.log).length with hzero | hpos
    · rw [hzero]
      omega
    · have hbelow := h.bounded _ (Nat.sub_one_lt_of_lt hpos)
      rw [raised_num, JsNumber.below_num, decide_eq_true_iff] at hbelow
      omega
  alone := by
    cases hpending : s.pending with
    | nil => exact Nat.zero_le 1
    | cons d rest =>
        obtain ⟨rfl, -⟩ := h.alive d rest hpending
        exact Nat.le_refl 1
  noDeadLetter hsome := by
    obtain ⟨d, rest, hpending⟩ := List.exists_cons_of_ne_nil hsome
    exact (h.alive d rest hpending).2.2.1
  progress hsome := by
    obtain ⟨d, rest, hpending⟩ := List.exists_cons_of_ne_nil hsome
    exact (h.alive d rest hpending).2.2.2
  ended hnone := by
    obtain ⟨d, error, hd, hlast, hretry, hburied⟩ := h.ended hnone
    refine ⟨d, error, hd, hlast, ?_, hburied.deadLettersFor hd⟩
    rw [retries_eq_false_iff, raised_num, JsNumber.below_num, decide_eq_false_iff_not] at hretry
    exact hretry.imp_right fun hle => by omega

end Bounded

/-- Two failed hops on a broker that refuses the first publish, and one that goes through. -/
def flakyConsumer : ConsumerEnv :=
  { failingConsumer with
    publish := fun log _ _ =>
      if failures log = 0 then .error { name := "Error", message := "channel closed" } else .ok () }

/-- An ordinary error can be told. -/
theorem told_plain {env : ConsumerEnv} (hserialize : ∀ v, env.serialize v = .ok ()) (queue : String)
    (policy : RetryPolicyConfig) (d : Delivery) (name message : String) :
    Told env queue policy d (.error { name, message }) := by
  have hcause : ∃ cause, errorToPlain (.error { name, message }) = .ok cause := by
    unfold errorToPlain plainName plainMessage
    split <;> exact ⟨_, rfl⟩
  obtain ⟨cause, hcause⟩ := hcause
  refine ⟨rfl, fun n _ _ _ => ⟨cause, hcause⟩, fun n _ _ _ _ => ⟨cause, hcause, fun text _ => ?_⟩⟩
  unfold ConsumerEnv.serialized exhaustedReply
  simp only [Value.nullish, Bool.false_eq_true, if_false, hserialize]
  exact failsReadably_ok _

/-- An ordinary error can be told at every hop. -/
theorem told_of_boom {env : ConsumerEnv}
    (hhandler : env.handler = fun _ _ _ => .error (.error { name := "Error", message := "boom" }))
    (hdeserialize : ∀ d, env.deserialize d = .ok (.obj [])) (hserialize : ∀ v, env.serialize v = .ok ())
    (options : MessageHandlerOptions) (kind : ConsumerKind) (queue : String) (policy : RetryPolicyConfig)
    (s : Lineage) : s.Told env options kind queue policy := by
  intro d rest hpending hadmits
  have hdecoded : deserializeMessage env options d = .ok (.obj []) := by
    unfold deserializeMessage
    rw [hdeserialize]
  refine ⟨fun cause hcause => (by rw [hdecoded] at hcause; cases hcause), fun e t hfail => ?_⟩
  cases hfail with
  | undecodable hmsg =>
      unfold tryDeserializeMessage at hmsg
      rw [hdecoded] at hmsg
      cases hmsg
  | threw hmsg he =>
      rw [hhandler] at he
      obtain rfl := Except.error.inj he
      exact told_plain hserialize queue policy d "Error" "boom"

/-- An error whose message does not print. -/
def unreadableError : Thrown := .value (.obj [("message", .obj [("toString", .num 1)])])

end NestAmqp.Amqp
