/-
# NestAmqp.Gateway.ReloadBroadcast — is a persisted route change always followed by a reload?

The broadcast stands behind the three loops that write, inside the same `try`.  A repository call that
throws behind a persisted write therefore ends the run without it; only the conflict of an upsert's own
write is caught where it happens.  A log line ends it alike, when what it prints is no text: the message of
a journal failure, or the stored owner of the row that such a conflict is about.  `reload_follows_iff` makes
the absence of such a call the exact condition, whatever the repository, the journal and the broker answer.
-/
import NestAmqp.Lib.Recording
import NestAmqp.Gateway.Convergence

namespace NestAmqp.Gateway

open NestAmqp.Js NestAmqp.Lib NestAmqp.Lib.Script HttpPathRepository

/-! ## What a run asked -/

/-- An operation with what it was answered. -/
abbrev PathCall := Call PathOp PathAns Thrown

/-- The call wrote a row. -/
def persists : PathCall → Bool
  | ⟨.insert _, .ok _⟩ => true
  | ⟨.updateById _ _, .ok row⟩ => Option.isSome (α := StoredHttpPath) row
  | _ => false

/-- The call published a reload on this topic, or tried to. -/
def announces (topic : String) : PathCall → Bool
  | ⟨.publishReload t, _⟩ => t == topic
  | _ => false

/-- The call asked which rows have a key. -/
def looksUp : PathCall → Bool
  | ⟨.findByRouteKey _, _⟩ => true
  | _ => false

/-- A call on the paths threw. -/
def failed : PathCall → Bool
  | ⟨op, .error _⟩ => op.isOnPaths
  | _ => false

/-- The unique index refused the write of an upsert, which the run settles by looking up who has the key.
The write of the row found there stands behind that lookup, outside of the `try`; the patch of a disabled
row has no key. -/
def refused (previous : Option PathCall) : PathCall → Bool
  | ⟨.insert _, .error e⟩ => isConflict e
  | ⟨.updateById _ model, .error e⟩ => isConflict e && (keyText model).isSome && !previous.any looksUp
  | _ => false

theorem refused_updateById (previous : Option PathCall) (id : Value) (model : Obj) (e : Thrown) :
    refused previous ⟨.updateById id model, .error e⟩ =
      (isConflict e && (keyText model).isSome && !previous.any looksUp) := rfl

/-- A lookup behind a conflict is settled: the service has the row itself, or the owner of the row prints. -/
def settles (service : String) (clashes : List StoredHttpPath) : Bool :=
  clashes.any (fun c => c.ownerName.isText service) || prints (winnerOf service clashes)

/-- The log line about the answer does not print. -/
def unprintable (service : String) : PathCall → Bool
  | ⟨.journal _, .error e⟩ => !e.reads
  | ⟨.findByRouteKey _, .ok clashes⟩ => !settles service clashes
  | _ => false

theorem unprintable_journal (service : String) (entry : RouteSyncLogEntry) (e : Thrown) :
    unprintable service ⟨.journal entry, .error e⟩ = !e.reads := rfl

/-- The run ends with this call. -/
def stops (service : String) (previous : Option PathCall) (call : PathCall) : Bool :=
  (failed call && !refused previous call) || unprintable service call

theorem stops_findByRouteKey (service : String) (previous : Option PathCall) (routeKey : String)
    (clashes : List StoredHttpPath) :
    stops service previous ⟨.findByRouteKey routeKey, .ok clashes⟩ = !settles service clashes := rfl

/-- Nothing has been announced yet. -/
def Unannounced (calls : List PathCall) : Prop := ∀ call ∈ calls, ∀ topic, announces topic call = false

/-- Every persisted write has a broadcast behind it. -/
def Reloaded (topic : String) (calls : List PathCall) : Prop :=
  ∀ before call after, calls = before ++ call :: after → persists call = true →
    ∃ later ∈ after, announces topic later = true

/-- Something was written. -/
def Wrote (calls : List PathCall) : Prop := ∃ call ∈ calls, persists call = true

/-- Behind a persisted write and before a broadcast, a call ended the run. -/
def FailsAfterWrite (service : String) (calls : List PathCall) : Prop :=
  ∃ before call after, calls = before ++ call :: after ∧ Wrote before ∧ Unannounced before ∧
    stops service before.getLast? call = true

/-! ## One call more -/

section Concat

variable {topic service : String} {calls : List PathCall} {call : PathCall}

theorem concat_eq_append_cons_iff {τ : Type} {l before after : List τ} {x y : τ} :
    l ++ [y] = before ++ x :: after ↔
      (before = l ∧ x = y ∧ after = []) ∨ ∃ rest, after = rest ++ [y] ∧ l = before ++ x :: rest := by
  rcases List.eq_nil_or_concat' after with rfl | ⟨rest, z, rfl⟩
  · constructor
    · intro h
      obtain ⟨hl, hxy⟩ := List.append_inj' h rfl
      exact .inl ⟨hl.symm, (List.cons.inj hxy).1.symm, rfl⟩
    · rintro (⟨rfl, rfl, -⟩ | ⟨rest, hrest, -⟩)
      · rfl
      · simp at hrest
  · rw [← List.cons_append, ← List.append_assoc]
    constructor
    · intro h
      obtain ⟨hl, hyz⟩ := List.append_inj' h rfl
      exact .inr ⟨rest, by rw [(List.cons.inj hyz).1], hl⟩
    · rintro (⟨-, -, hnil⟩ | ⟨rest', hrest, rfl⟩)
      · simp at hnil
      · obtain ⟨rfl, hzy⟩ := List.append_inj' hrest rfl
        rw [hzy]

theorem wrote_concat_iff : Wrote (calls ++ [call]) ↔ Wrote calls ∨ persists call = true := by
  unfold Wrote
  simp only [List.mem_append, List.mem_singleton, or_and_right, exists_or, exists_eq_left]

theorem failsAfterWrite_concat_iff : FailsAfterWrite service (calls ++ [call]) ↔
    FailsAfterWrite service calls ∨
      Wrote calls ∧ Unannounced calls ∧ stops service calls.getLast? call = true := by
  unfold FailsAfterWrite
  simp only [concat_eq_append_cons_iff]
  constructor
  · rintro ⟨before, x, after, ⟨rfl, rfl, -⟩ | ⟨rest, -, rfl⟩, h⟩
    · exact .inr h
    · exact .inl ⟨before, x, rest, rfl, h⟩
  · rintro (⟨before, x, rest, rfl, h⟩ | h)
    · exact ⟨before, x, rest ++ [call], .inr ⟨rest, rfl, rfl⟩, h⟩
    · exact ⟨calls, call, [], .inl ⟨rfl, rfl, rfl⟩, h⟩

theorem not_failsAfterWrite_of_not_wrote (h : ¬ Wrote calls) : ¬ FailsAfterWrite service calls := by
  rintro ⟨before, call, after, rfl, ⟨earlier, hearlier, hpersists⟩, -⟩
  exact h ⟨earlier, List.mem_append_left _ hearlier, hpersists⟩

/-- A read writes nothing and announces nothing. -/
theorem silent_of_isRead (h : call.op.isRead = true) :
    persists call = false ∧ ∀ topic, announces topic call = false := by
  obtain ⟨op, answer⟩ := call
  cases op <;> first | exact ⟨rfl, fun _ => rfl⟩ | cases h

/-- A broadcast is behind everything that was written. -/
theorem reloaded_concat_of_announces (h : announces topic call = true) (hquiet : persists call = false) :
    Reloaded topic (calls ++ [call]) := by
  intro before x after hsplit hpersists
  rcases concat_eq_append_cons_iff.mp hsplit with ⟨rfl, rfl, rfl⟩ | ⟨rest, rfl, -⟩
  · rw [hquiet] at hpersists
    cases hpersists
  · exact ⟨call, List.mem_append_right _ (.head _), h⟩

theorem Reloaded.concat (h : Reloaded topic calls) (hquiet : persists call = false) :
    Reloaded topic (calls ++ [call]) := by
  intro before x after hsplit hpersists
  rcases concat_eq_append_cons_iff.mp hsplit with ⟨rfl, rfl, rfl⟩ | ⟨rest, rfl, rfl⟩
  · rw [hquiet] at hpersists
    cases hpersists
  · obtain ⟨later, hlater, hannounces⟩ := h before x rest rfl hpersists
    exact ⟨later, List.mem_append_left _ hlater, hannounces⟩

/-- Without a broadcast, everything is reloaded when nothing was written. -/
theorem reloaded_iff_of_silent (h : ∀ call ∈ calls, announces topic call = false) :
    Reloaded topic calls ↔ ¬ Wrote calls := by
  constructor
  · rintro hreloaded ⟨call, hcall, hpersists⟩
    obtain ⟨before, after, rfl⟩ := List.append_of_mem hcall
    obtain ⟨later, hlater, hannounces⟩ := hreloaded before call after rfl hpersists
    rw [h later (List.mem_append_right _ (.tail _ hlater))] at hannounces
    cases hannounces
  · rintro hnone before call after rfl hpersists
    exact absurd ⟨call, List.mem_append_right _ (.head _), hpersists⟩ hnone

end Concat

/-! ## While nothing has failed -/

/-- No broadcast yet, nothing has ended the run, and what was written was to be. -/
structure Undisturbed (service : String) (diff : RouteDiff) (calls : List PathCall) : Prop where
  silent : Unannounced calls
  unfailed : ¬ FailsAfterWrite service calls
  changed : Wrote calls → diff.changed = true

/-- Between two writes: the last call was no lookup, once something has been written. -/
structure Between (service : String) (diff : RouteDiff) (calls : List PathCall) : Prop
    extends Undisturbed service diff calls where
  settled : Wrote calls → calls.getLast?.any looksUp = false

/-- The run has ended without a broadcast: nothing was written, or a call ended it behind a write. -/
structure Stopped (service : String) (calls : List PathCall) : Prop where
  silent : Unannounced calls
  failed : Wrote calls → FailsAfterWrite service calls

section Steps

variable {service topic : String} {diff : RouteDiff} {calls : List PathCall} {call : PathCall}

theorem Unannounced.concat (h : Unannounced calls) (hsilent : ∀ topic, announces topic call = false) :
    Unannounced (calls ++ [call]) :=
  List.forall_mem_append.mpr ⟨h, List.forall_mem_singleton.mpr hsilent⟩

/-- A call that does not stop the run. -/
theorem Undisturbed.concat (h : Undisturbed service diff calls)
    (hsilent : ∀ topic, announces topic call = false)
    (hpassed : Wrote calls → stops service calls.getLast? call = false)
    (hchanged : persists call = true → diff.changed = true) : Undisturbed service diff (calls ++ [call]) where
  silent := h.silent.concat hsilent
  unfailed := by
    rw [failsAfterWrite_concat_iff]
    rintro (hfails | ⟨hwrote, -, hstops⟩)
    · exact h.unfailed hfails
    · rw [hpassed hwrote] at hstops
      cases hstops
  changed hwrote := (wrote_concat_iff.mp hwrote).elim h.changed hchanged

/-- A call that stops it. -/
theorem Undisturbed.stop (h : Undisturbed service diff calls) (hsilent : ∀ topic, announces topic call = false)
    (hquiet : persists call = false) (hstops : Wrote calls → stops service calls.getLast? call = true) :
    Stopped service (calls ++ [call]) where
  silent := h.silent.concat hsilent
  failed hwrote := by
    have hbefore : Wrote calls := (wrote_concat_iff.mp hwrote).resolve_right (by
      rw [hquiet]
      exact Bool.false_ne_true)
    exact failsAfterWrite_concat_iff.mpr (.inr ⟨hbefore, h.silent, hstops hbefore⟩)

/-- Behind an entry in the journal. -/
theorem Undisturbed.journaled (h : Undisturbed service diff calls) (entry : RouteSyncLogEntry)
    (answer : Except Thrown (PathAns (.journal entry)))
    (hprints : unprintable service ⟨.journal entry, answer⟩ = false) :
    Between service diff (calls ++ [⟨.journal entry, answer⟩]) where
  toUndisturbed := h.concat (fun _ => rfl)
    (fun _ => by
      unfold stops
      rw [hprints]
      cases answer <;> rfl)
    fun hpersists => by cases answer <;> cases hpersists
  settled _ := by
    rw [List.getLast?_concat]
    rfl

/-- A run that has not written is not asked for a broadcast, and one that has is not given it. -/
theorem Stopped.decided (h : Stopped service calls) (topic : String) :
    Reloaded topic calls ↔ ¬ FailsAfterWrite service calls := by
  rw [reloaded_iff_of_silent fun call hcall => h.silent call hcall topic, not_iff_not]
  exact ⟨h.failed, fun hfails => by_contra fun hnone => not_failsAfterWrite_of_not_wrote hnone hfails⟩

end Steps

/-! ## What handling a manifest asks for -/

section Run

variable {env : PathEnv} {service : String} {diff : RouteDiff}

/-- An entry in the journal: the run goes on, or ends with a failure that does not print. -/
theorem triple_journaled (service : String) {P Q E : List PathCall → Prop} (entry : RouteSyncLogEntry)
    (h : ∀ calls answer, P calls → unprintable service ⟨.journal entry, answer⟩ = false →
      Q (calls ++ [⟨.journal entry, answer⟩]))
    (hstops : ∀ calls e, P calls → e.reads = false → E (calls ++ [⟨.journal entry, .error e⟩])) :
    Triple (recording env.service) (fun s => P s.2) (journal entry) (fun _ s => Q s.2) fun _ s => E s.2 := by
  refine triple_tryCatch (E := fun e s => ∃ calls, P calls ∧ s.2 = calls ++ [⟨.journal entry, .error e⟩])
    (triple_call (E := fun e calls' => ∃ calls, P calls ∧ calls' = calls ++ [⟨.journal entry, .error e⟩])
      (fun calls a hP => h calls (.ok a) hP rfl) fun calls e hP => ⟨calls, hP, rfl⟩) fun e => ?_
  rintro s ⟨calls, hP, hs⟩
  cases hreads : e.reads with
  | true =>
      rw [Thrown.messageLine_of_reads hreads]
      refine triple_pure (P := fun s' => s' = s) (fun s' hs' => ?_) s rfl
      rw [hs', hs]
      refine h calls (.error e) hP ?_
      rw [unprintable_journal, hreads, Bool.not_true]
  | false =>
      rw [Thrown.messageLine_of_not_reads hreads]
      refine triple_threw (P := fun s' => s' = s) (fun s' hs' => ?_) s rfl
      rw [hs', hs]
      exact hstops calls e hP hreads

/-- An entry in the journal, while nothing has ended the run. -/
theorem triple_journaled_between {P : List PathCall → Prop} (entry : RouteSyncLogEntry)
    (hP : ∀ calls, P calls → Undisturbed service diff calls) :
    Triple (recording env.service) (fun s => P s.2) (journal entry) (fun _ s => Between service diff s.2)
      fun _ s => Stopped service s.2 := by
  refine triple_journaled service entry (fun calls answer h hprints =>
    (hP calls h).journaled entry answer hprints) fun calls e h hreads => ?_
  refine (hP calls h).stop (fun _ => rfl) rfl fun _ => ?_
  unfold stops
  rw [unprintable_journal, hreads]
  exact Bool.or_true _

/-- Behind the lookup of a key, whose rows are known: they settle the conflict, or end the run. -/
structure Clashing (service : String) (diff : RouteDiff) (clashes : List StoredHttpPath)
    (calls : List PathCall) : Prop where
  looked : calls.getLast?.any looksUp = true
  settled : settles service clashes = true → Undisturbed service diff calls
  unsettled : settles service clashes = false → Stopped service calls

theorem triple_findByRouteKey_record (routeKey : String) :
    Triple (recording env.service) (fun s => Undisturbed service diff s.2) (findByRouteKey routeKey)
      (fun clashes s => Clashing service diff clashes s.2) fun _ s => Stopped service s.2 := by
  refine @triple_call _ _ _ _ env.service (.findByRouteKey routeKey) (Undisturbed service diff)
    (Clashing service diff) (fun _ => Stopped service) (fun calls clashes h => ?_)
    fun calls e h => h.stop (fun _ => rfl) rfl fun _ => rfl
  refine ⟨by rw [List.getLast?_concat]; rfl, fun hsettles => ?_, fun hunsettled => ?_⟩
  · refine h.concat (fun _ => rfl) (fun _ => ?_) fun hpersists => by cases hpersists
    exact (stops_findByRouteKey service _ routeKey clashes).trans (by rw [hsettles, Bool.not_true])
  · refine h.stop (fun _ => rfl) rfl fun _ => ?_
    exact (stops_findByRouteKey service _ routeKey clashes).trans (by rw [hunsettled, Bool.not_false])

/-- Settling a refused write: its own lookup and its own update are not caught, and neither is the log line. -/
theorem triple_reconcile_record (u : RouteUpsert) (hchanged : diff.changed = true) :
    Triple (recording env.service) (fun s => Undisturbed service diff s.2) (reconcile service u)
      (fun r s => Undisturbed service diff s.2 ∧ (r = none → Between service diff s.2))
      fun _ s => Stopped service s.2 := by
  unfold reconcile
  refine triple_bind (triple_findByRouteKey_record u.routeKey) fun clashes => ?_
  split
  next mine hmine =>
    have hsettles : settles service clashes = true :=
      Bool.or_eq_true_iff.mpr (.inl (List.any_eq_true.mpr ⟨mine, List.mem_of_find?_eq_some hmine,
        List.find?_some (p := fun c => (StoredHttpPath.ownerName c).isText service) hmine⟩))
    refine triple_bind (Q := fun _ s => Undisturbed service diff s.2)
      (triple_call (P := Clashing service diff clashes) (Q := fun _ => Undisturbed service diff)
        (E := fun _ => Stopped service) ?_ ?_) fun _ => ?_
    · exact fun calls row h => (h.settled hsettles).concat (fun _ => rfl) (fun _ => rfl) fun _ => hchanged
    · intro calls e h
      refine (h.settled hsettles).stop (fun _ => rfl) rfl fun _ => ?_
      unfold stops
      rw [refused_updateById, h.looked, Bool.not_true, Bool.and_false]
      rfl
    · exact triple_pure fun s h => ⟨h, nofun⟩
  next hnone =>
    have hforeign : clashes.any (fun c => c.ownerName.isText service) = false :=
      List.any_eq_false.mpr (List.find?_eq_none.mp hnone)
    have hsettles : settles service clashes = prints (winnerOf service clashes) := by
      unfold settles
      rw [hforeign, Bool.false_or]
    refine triple_bind (Q := fun _ s => Undisturbed service diff s.2) (triple_ofExcept ?_ ?_) fun _ => ?_
    · exact fun text hprinted s h => h.settled (hsettles.trans (prints_of_printed hprinted))
    · exact fun e hprinted s h => h.unsettled (hsettles.trans (not_prints_of_printed hprinted))
    · refine triple_bind (Q := fun _ s => Between service diff s.2)
        (triple_journaled_between _ fun _ h => h) fun _ => ?_
      exact triple_pure fun s h => ⟨h.toUndisturbed, fun _ => h⟩

/-- The write of an upsert.  Between two writes its conflict is known for one of its own. -/
theorem triple_writeUpsert_record (u : RouteUpsert) (hchanged : diff.changed = true)
    (hkey : (keyText u.model).isSome = true) :
    Triple (recording env.service) (fun s => Between service diff s.2) (writeUpsert service u)
      (fun r s => Undisturbed service diff s.2 ∧ (r = none → Between service diff s.2))
      fun _ s => Stopped service s.2 := by
  unfold writeUpsert
  -- the refusal of the unique index goes on to the look-up, anything else ends the run
  refine triple_tryCatch (E := fun e s => (isConflict e = true → Undisturbed service diff s.2) ∧
    (isConflict e = false → Stopped service s.2)) ?_ fun e => ?_
  · split
    next id hid =>
      refine triple_bind (Q := fun _ s => Undisturbed service diff s.2)
        (triple_call (P := Between service diff) (Q := fun _ => Undisturbed service diff)
          (E := fun e calls => (isConflict e = true → Undisturbed service diff calls) ∧
            (isConflict e = false → Stopped service calls)) ?_ ?_) fun _ => ?_
      · exact fun calls a h => h.toUndisturbed.concat (fun _ => rfl) (fun _ => rfl) fun _ => hchanged
      · intro calls e h
        refine ⟨fun hconflict => ?_, fun hother => ?_⟩
        · refine h.toUndisturbed.concat (fun _ => rfl) (fun hwrote => ?_) fun hpersists => by cases hpersists
          unfold stops
          rw [refused_updateById, hconflict, hkey, h.settled hwrote]
          rfl
        · refine h.toUndisturbed.stop (fun _ => rfl) rfl fun _ => ?_
          unfold stops
          rw [refused_updateById, hother]
          rfl
      · exact triple_pure fun s h => ⟨h, nofun⟩
    next hnone =>
      refine triple_bind (Q := fun _ s => Undisturbed service diff s.2)
        (triple_call (P := Between service diff) (Q := fun _ => Undisturbed service diff)
          (E := fun e calls => (isConflict e = true → Undisturbed service diff calls) ∧
            (isConflict e = false → Stopped service calls)) ?_ ?_) fun _ => ?_
      · exact fun calls a h => h.toUndisturbed.concat (fun _ => rfl) (fun _ => rfl) fun _ => hchanged
      · intro calls e h
        have hstops : stops service calls.getLast? ⟨.insert u.model, .error e⟩ = !isConflict e :=
          Bool.or_false _
        refine ⟨fun hconflict => ?_, fun hother => ?_⟩
        · refine h.toUndisturbed.concat (fun _ => rfl) (fun _ => ?_) fun hpersists => by cases hpersists
          rw [hstops, hconflict]
          rfl
        · refine h.toUndisturbed.stop (fun _ => rfl) rfl fun _ => ?_
          rw [hstops, hother]
          rfl
      · exact triple_pure fun s h => ⟨h, nofun⟩
  · split
    next hconflict => exact fun s h => triple_reconcile_record u hchanged s (h.1 hconflict)
    next hother => exact triple_threw fun s h => h.2 (Bool.eq_false_iff.mpr hother)

theorem triple_applyUpsert_record (u : RouteUpsert) (hchanged : diff.changed = true)
    (hkey : (keyText u.model).isSome = true) :
    Triple (recording env.service) (fun s => Between service diff s.2) (applyUpsert service u)
      (fun _ s => Between service diff s.2) fun _ s => Stopped service s.2 := by
  unfold applyUpsert
  refine triple_bind (triple_writeUpsert_record u hchanged hkey) fun added => ?_
  cases added with
  | some added =>
      exact triple_journaled_between (P := fun calls => Undisturbed service diff calls ∧
        (some added = none → Between service diff calls)) _ fun _ h => h.1
  | none => exact triple_pure fun s h => h.2 rfl

/-- The write of a disable is not caught, whatever it throws. -/
theorem triple_applyDisable_record (d : RouteDisable) (hchanged : diff.changed = true) :
    Triple (recording env.service) (fun s => Between service diff s.2) (applyDisable service d)
      (fun _ s => Between service diff s.2) fun _ s => Stopped service s.2 := by
  unfold applyDisable
  refine triple_bind (Q := fun _ s => Undisturbed service diff s.2)
    (triple_call (P := Between service diff) (Q := fun _ => Undisturbed service diff)
      (E := fun _ => Stopped service) ?_ ?_) fun _ => ?_
  · exact fun calls a h => h.toUndisturbed.concat (fun _ => rfl) (fun _ => rfl) fun _ => hchanged
  · intro calls e h
    refine h.toUndisturbed.stop (fun _ => rfl) rfl fun _ => ?_
    have hkey : keyText [("enabled", .bool false)] = none := rfl
    unfold stops
    rw [refused_updateById, hkey, Option.isSome_none, Bool.and_false, Bool.false_and]
    rfl
  · exact triple_journaled_between _ fun _ h => h

/-- The lookups of the plan write nothing. -/
theorem triple_plan_record (config : GatewayConfig) (service : String) (routes : List Value) (w : PathWorld) :
    Triple (recording env.service) (fun s => s = (w, [])) (plan config service routes)
      (fun diff s => (Between service diff s.2 ∧ ¬ Wrote s.2) ∧
        ∀ u ∈ diff.upserts, (keyText u.model).isSome = true)
      fun _ s => Stopped service s.2 := by
  -- the calls are what has been asked since
  have hasked : Keeps (recording env.service) (fun s => s.1.asked = w.asked ++ s.2.map Call.op)
      (plan config service routes) := by
    refine keeps_of_service (fun s op hs => ?_) _
    unfold recording noting
    rw [asked_service, hs, List.map_append, List.append_assoc]
    rfl
  have hreads {s : PathWorld × List PathCall} (hlooking : Looking w s.1)
      (hs : s.1.asked = w.asked ++ s.2.map Call.op) : ∀ call ∈ s.2, call.op.isRead = true := by
    obtain ⟨-, ops, hops, hread⟩ := hlooking
    obtain rfl := List.append_cancel_left (hs.symm.trans hops)
    exact fun call hcall => hread _ (List.mem_map_of_mem hcall)
  have hnone {calls : List PathCall} (h : ∀ call ∈ calls, call.op.isRead = true) : ¬ Wrote calls := by
    rintro ⟨call, hcall, hpersists⟩
    rw [(silent_of_isRead (h call hcall)).1] at hpersists
    cases hpersists
  rintro s rfl
  refine ((triple_plan config service routes w).noted.and hasked (w, [])
    ⟨rfl, (List.append_nil _).symm⟩).mono ?_ ?_
  · rintro diff s ⟨⟨hlooking, reserved, -, hdiff⟩, hs⟩
    have hread := hreads hlooking hs
    have hunwritten := hnone hread
    refine ⟨⟨⟨⟨fun call hcall => (silent_of_isRead (hread call hcall)).2,
      not_failsAfterWrite_of_not_wrote hunwritten, fun hwrote => absurd hwrote hunwritten⟩,
      fun hwrote => absurd hwrote hunwritten⟩, hunwritten⟩, fun u hu => ?_⟩
    obtain ⟨state, hdiffed, hupserts, -, -⟩ := diffRoutes_spec hdiff
    obtain ⟨v, overrides, -, -, -, -, hupsert⟩ := hdiffed.upsert (hupserts ▸ hu)
    have hkey : keyText u.model = some u.routeKey := by
      rw [keyText_eq_some, hupsert, model_upsertOf]
      unfold Obj.get
      rw [own_upsertModel_routeKey]
      rfl
    rw [hkey]
    rfl
  · rintro e s ⟨⟨hlooking, -⟩, hs⟩
    have hread := hreads hlooking hs
    exact ⟨fun call hcall => (silent_of_isRead (hread call hcall)).2, fun hwrote => absurd hwrote (hnone hread)⟩

/-- A collision is logged before anything is written. -/
theorem triple_journalCollision_record (c : RouteRefusal) :
    Triple (recording env.service) (fun s => Between service diff s.2 ∧ ¬ Wrote s.2)
    (journalCollision service c)
      (fun _ s => Between service diff s.2 ∧ ¬ Wrote s.2) fun _ s => Stopped service s.2 := by
  have hstopped {calls : List PathCall} (h : Between service diff calls ∧ ¬ Wrote calls) :
      Stopped service calls := ⟨h.1.silent, fun hwrote => absurd hwrote h.2⟩
  have hunwritten {calls : List PathCall} {entry : RouteSyncLogEntry}
      {answer : Except Thrown (PathAns (.journal entry))} (h : ¬ Wrote calls) :
      ¬ Wrote (calls ++ [⟨.journal entry, answer⟩]) := by
    rw [wrote_concat_iff, not_or, Bool.not_eq_true]
    exact ⟨h, by cases answer <;> rfl⟩
  unfold journalCollision
  split
  · exact triple_pure fun _ hs => hs
  · refine triple_bind (Q := fun _ s => Between service diff s.2 ∧ ¬ Wrote s.2)
      (triple_ofExcept (fun _ _ _ hs => hs) fun _ _ _ hs => hstopped hs) fun _ => ?_
    refine triple_journaled service (P := fun calls => Between service diff calls ∧ ¬ Wrote calls)
      (Q := fun calls => Between service diff calls ∧ ¬ Wrote calls) (E := Stopped service) _
      (fun calls answer h hprints => ⟨h.1.journaled _ answer hprints, hunwritten h.2⟩) fun calls e h _ => ?_
    exact ⟨h.1.silent.concat fun _ => rfl, fun hwrote => absurd hwrote (hunwritten h.2)⟩

/-- A run that comes to its broadcast has announced what it wrote, whatever is logged behind it. -/
theorem triple_announceChange_record {config : GatewayConfig} {topic : String}
    (htopic : config.reloadTopic = some topic) (hne : topic ≠ "") :
    Triple (recording env.service) (fun s => Between service diff s.2) (announceChange config service diff)
      (fun _ s => Reloaded topic s.2 ↔ ¬ FailsAfterWrite service s.2)
      fun _ s => Reloaded topic s.2 ↔ ¬ FailsAfterWrite service s.2 := by
  unfold announceChange
  split
  next =>
    let Announced (calls : List PathCall) : Prop :=
      Reloaded topic calls ∧ ¬ FailsAfterWrite service calls ∧ ¬ Unannounced calls
    have hdecided {calls : List PathCall} (h : Announced calls) :
        Reloaded topic calls ↔ ¬ FailsAfterWrite service calls := iff_of_true h.1 h.2.1
    -- the broadcast is attempted, whatever the broker answers
    have hattempted (calls : List PathCall) (answer : Except Thrown Unit) (h : Between service diff calls) :
        Announced (calls ++ [⟨.publishReload topic, answer⟩]) := by
      refine ⟨reloaded_concat_of_announces (beq_self_eq_true topic) rfl, ?_, fun hsilent => ?_⟩
      · rw [failsAfterWrite_concat_iff]
        rintro (hfails | ⟨-, -, hstops⟩)
        · exact h.unfailed hfails
        · cases answer <;> cases hstops
      · have hannounces := hsilent _ (List.mem_append_right _ (.head _)) topic
        rw [show announces topic _ = (topic == topic) from rfl, beq_self_eq_true] at hannounces
        cases hannounces
    refine triple_bind (Q := fun _ s => Announced s.2) ?_ fun _ => ?_
    · unfold triggerReload
      rw [htopic]
      dsimp only
      rw [if_neg hne]
      exact triple_tryCatch
        (triple_call (P := Between service diff) (Q := fun _ => Announced) (E := fun _ => Announced)
          (fun calls a h => hattempted calls (.ok a) h) fun calls e h => hattempted calls (.error e) h)
        fun e => triple_ofExcept (fun _ _ _ hs => hs) fun _ _ _ hs => hdecided hs
    · have hjournaled (calls : List PathCall) (entry : RouteSyncLogEntry)
          (answer : Except Thrown (PathAns (.journal entry))) (h : Announced calls) :
          Announced (calls ++ [⟨.journal entry, answer⟩]) := by
        refine ⟨h.1.concat (by cases answer <;> rfl), ?_, fun hsilent =>
          h.2.2 fun call hcall => hsilent call (List.mem_append_left _ hcall)⟩
        rw [failsAfterWrite_concat_iff]
        rintro (hfails | ⟨-, hsilent, -⟩)
        · exact h.2.1 hfails
        · exact h.2.2 hsilent
      exact (triple_journaled service (P := Announced) (Q := Announced) (E := Announced) _
        (fun calls answer h _ => hjournaled calls _ answer h) fun calls e h _ =>
        hjournaled calls _ (.error e) h).mono
        (fun _ _ h => hdecided h) fun _ _ h => hdecided h
  next hunchanged =>
    refine triple_pure fun s h => iff_of_true ?_ h.unfailed
    rw [reloaded_iff_of_silent fun call hcall => h.silent call hcall topic]
    exact fun hwrote => hunchanged (h.changed hwrote)

theorem triple_applyDiff_record {config : GatewayConfig} {topic : String}
    (htopic : config.reloadTopic = some topic) (hne : topic ≠ "")
    (hkeys : ∀ u ∈ diff.upserts, (keyText u.model).isSome = true) :
    Triple (recording env.service) (fun s => Between service diff s.2 ∧ ¬ Wrote s.2)
      (applyDiff config service diff) (fun _ s => Reloaded topic s.2 ↔ ¬ FailsAfterWrite service s.2)
      fun _ s => Reloaded topic s.2 ↔ ¬ FailsAfterWrite service s.2 := by
  have hloop {β : Type} {I : List PathCall → Prop} {f : β → PathScript Unit} (l : List β) (h : ∀ x ∈ l,
      Triple (recording env.service) (fun s => I s.2) (f x) (fun _ s => I s.2) fun _ s => Stopped service s.2) :
      Triple (recording env.service) (fun s => I s.2) (forEach f l) (fun _ s => I s.2)
        fun _ s => Reloaded topic s.2 ↔ ¬ FailsAfterWrite service s.2 := by
    refine (triple_forEach (J := fun _ (s : PathWorld × List PathCall) => I s.2) l ?_).mono (fun _ _ h => h)
      fun _ _ h => Stopped.decided h topic
    rintro before x after rfl
    exact h x (List.mem_append_right _ (.head _))
  unfold applyDiff
  refine triple_bind (Q := fun _ s => Between service diff s.2)
    ((hloop (I := fun calls => Between service diff calls ∧ ¬ Wrote calls) _ fun c _ =>
      triple_journalCollision_record c).mono (fun _ _ h => h.1) fun _ _ h => h) fun _ => ?_
  refine triple_bind (hloop _ fun _ _ => triple_journaled_between _ fun _ h => h.toUndisturbed) fun _ => ?_
  refine triple_bind (hloop _ fun u hu => triple_applyUpsert_record u ?_ (hkeys u hu)) fun _ => ?_
  · unfold RouteDiff.changed
    rw [List.isEmpty_eq_false_iff.mpr (List.ne_nil_of_mem hu)]
    rfl
  refine triple_bind (hloop _ fun d hd => triple_applyDisable_record d ?_) fun _ => ?_
  · unfold RouteDiff.changed
    rw [List.isEmpty_eq_false_iff.mpr (List.ne_nil_of_mem hd), Bool.not_false, Bool.or_true]
  refine triple_bind (hloop _ fun _ _ => triple_journaled_between _ fun _ h => h.toUndisturbed) fun _ => ?_
  exact triple_announceChange_record htopic hne

/-- A manifest without a name of its service asks for nothing. -/
theorem triple_handle_record (env : PathEnv) {config : GatewayConfig} {topic : String}
    (htopic : config.reloadTopic = some topic) (hne : topic ≠ "") (manifest : RouteManifest) (w : PathWorld) :
    Triple (recording env.service) (fun s => s = (w, [])) (handle config manifest)
      (fun _ s => Reloaded topic s.2 ↔ ¬ FailsAfterWrite (manifest.service.getD "") s.2)
      fun _ s => Reloaded topic s.2 ↔ ¬ FailsAfterWrite (manifest.service.getD "") s.2 := by
  have hidle (service : String) : Stopped service [] :=
    ⟨fun _ hcall => absurd hcall List.not_mem_nil, fun ⟨_, hcall, _⟩ => absurd hcall List.not_mem_nil⟩
  unfold handle
  split
  next service hservice =>
    rw [hservice]
    split
    next => exact triple_pure fun s hs => hs ▸ (hidle _).decided topic
    next =>
      refine triple_tryCatch (E := fun _ s => Reloaded topic s.2 ↔ ¬ FailsAfterWrite service s.2) ?_
        fun e => triple_ofExcept (fun _ _ _ hs => hs) fun _ _ _ hs => hs
      unfold sync
      refine triple_bind ((triple_plan_record config service manifest.list w).mono (fun _ _ h => h)
        fun _ _ h => Stopped.decided h topic) fun diff s ⟨h, hkeys⟩ => ?_
      exact triple_applyDiff_record htopic hne hkeys s h
  next => exact triple_pure fun s hs => hs ▸ (hidle _).decided topic

end Run

/-! ## When every persisted change is followed by a reload -/

/-- **A run reloads what it wrote exactly when no call ends it between a write and the broadcast.**  The
conflict of an upsert's own write does not, unless it is with a row whose owner does not print. -/
theorem reload_follows_iff (env : PathEnv) {config : GatewayConfig} {topic : String}
    (htopic : config.reloadTopic = some topic) (hne : topic ≠ "") (manifest : RouteManifest) (w : PathWorld) :
    Reloaded topic (calls env.service (handle config manifest) w) ↔
      ¬ FailsAfterWrite (manifest.service.getD "") (calls env.service (handle config manifest) w) := by
  have hends := triple_handle_record env htopic hne manifest w (w, []) rfl
  unfold calls
  generalize run _ _ _ = r at hends ⊢
  rcases r with ⟨e | a, s⟩ <;> exact hends

/-! ### A disable that fails behind an insert -/

/-- A table with a route that the service no longer announces. -/
def staleStore : PathStore where
  rows := [{ _id := "1", columns := upsertModel "docs" "POST /docs" (Obj.set listRoute "method" (.str "POST")) true .none }]
  ids := by decide
  keys := by
    intro a ha b hb _ _
    rw [List.mem_singleton.mp ha, List.mem_singleton.mp hb]

/-- The gateway's configuration. -/
def reloadConfig : GatewayConfig := { reloadTopic := some "gw" }

/-- A repository that takes inserts and loses its connection on an update. -/
def losesUpdates : PathEnv where
  failure _ op :=
    match op with
    | .updateById _ _ => some (.error { name := "Error", message := "connection lost" })
    | _ => none

/-- Nothing fails: the new route is inserted, the old one disabled, and the routers reload. -/
theorem reload_follows_iff_calm :
    Reloaded "gw" (calls PathEnv.calm.service (handle reloadConfig (docsManifest listRoute))
    { store := staleStore }) ↔
      ¬ FailsAfterWrite "docs"
        (calls PathEnv.calm.service (handle reloadConfig (docsManifest listRoute)) { store := staleStore }) :=
  reload_follows_iff .calm rfl (by decide) (docsManifest listRoute) { store := staleStore }

/-- The new route is inserted, the disable of the old one fails: the routers never learn of the insert. -/
theorem not_reload_follows_failingDisable :
    ¬ ∀ (env : PathEnv) (config : GatewayConfig) (topic : String) (manifest : RouteManifest) (w : PathWorld),
      config.reloadTopic = some topic → topic ≠ "" →
        Reloaded topic (calls env.service (handle config manifest) w) := by
  intro h
  have hreloaded := h losesUpdates reloadConfig "gw" (docsManifest listRoute)
    { store := staleStore } rfl (by decide)
  have hwrote : (calls losesUpdates.service (handle reloadConfig (docsManifest listRoute))
      { store := staleStore }).any persists = true := by decide +kernel
  have hsilent : (calls losesUpdates.service (handle reloadConfig (docsManifest listRoute))
      { store := staleStore }).any (announces "gw") = false := by decide +kernel
  rw [List.any_eq_false] at hsilent
  obtain ⟨call, hcall, hpersists⟩ := List.any_eq_true.mp hwrote
  rw [reloaded_iff_of_silent fun call hcall => Bool.eq_false_iff.mpr (hsilent call hcall)] at hreloaded
  exact hreloaded ⟨call, hcall, hpersists⟩

end NestAmqp.Gateway
