/-
# NestAmqp.Gateway.MalformedEntries — does a malformed entry of a manifest affect the others?

The diff drops the entries that are no valid routes, but the lookups before it have read the key of every
entry.  An entry without a readable key (`null`, a method that is no text) ends the run there, before
anything is written or journaled.  `malformed_harmless_iff` makes that the exact condition: a manifest
with malformed entries is handled as the manifest without them, with one journal entry for each, exactly
when everything the lookups read can be read, and the owner of every contested row prints: the log line of
a collision stands before the entries that are dropped.
-/
import NestAmqp.Lib.Agreement
import NestAmqp.Gateway.Convergence
import NestAmqp.Gateway.SyncedRows

namespace NestAmqp.Gateway

open NestAmqp.Js NestAmqp.Lib NestAmqp.Lib.Script HttpPathRepository

/-! ## The manifest without its malformed entries -/

/-- The manifest without the entries that are no valid routes. -/
def RouteManifest.wellFormed (manifest : RouteManifest) : RouteManifest :=
  { manifest with routes := .arr (manifest.list.filter isValidRoute) }

/-- The journal entry of a dropped route. -/
def reportsInvalid : PathOp → Bool
  | .journal entry => entry.event == .invalid
  | _ => false

/-- How many dropped routes have been journaled. -/
def PathWorld.reported (w : PathWorld) : Nat := w.asked.countP reportsInvalid

/-- Malformed entries leave the table to the other ones, and each of them is journaled. -/
structure MalformedHarmless (env : PathEnv) (config : GatewayConfig) (manifest : RouteManifest)
    (w : PathWorld) :
    Prop where
  store : (handled env config manifest w).store = (handled env config manifest.wellFormed w).store
  reported : (handled env config manifest w).reported =
    w.reported + manifest.list.countP fun r => !isValidRoute r

/-- The lookups and the diff can read what they read: the keys of the YAML paths and of all entries, and the
overrides of the rows that announced routes fall on, unless the YAML or a lock settles these before. -/
structure Plannable (config : GatewayConfig) (service : String) (routes : List Value) (store : PathStore) :
    Prop where
  keys : ¬ Unreadable config routes
  overrides : ∀ row ∈ store.rows, row.get "owner" = .str service → row.isModified = false →
    ∀ key v, row.key = some key → announced routes key = some v → (config.Declares key → service = "yaml") →
      ∃ overrides, readOverrides (row.get "userOverrides") = .ok overrides

/-- Besides, the owners of the rows that others have under the announced keys can be printed. -/
structure Legible (config : GatewayConfig) (service : String) (routes : List Value) (store : PathStore) :
    Prop extends Plannable config service routes store where
  owners : ∀ key v, announced routes key = some v → ¬ config.Declares key →
    ∀ owner, rivalOwner store service key = some owner → prints owner = true

/-! ## When the plan returns -/

section Plan

variable {env : PathEnv} {config : GatewayConfig} {service key : String} {routes : List Value}
  {store : PathStore} {w w₀ : PathWorld} {reserved reserved' : Obj}

/-- The service's own row under a key has no rival. -/
theorem rivalOwner_of_own {row : StoredHttpPath} (hrow : row ∈ store.rows) (hkey : row.key = some key)
    (howner : row.get "owner" = .str service) : rivalOwner store service key = none := by
  unfold rivalOwner
  rw [Option.map_eq_none_iff, List.find?_eq_none]
  intro other hother
  obtain ⟨hmem, hsame⟩ := PathStore.mem_findByRouteKey.mp hother
  rw [PathStore.eq_of_key hmem hrow hsame hkey, ownerName_of_owner howner]
  simp

/-- A route is classified when it falls on readable overrides, or is settled before them. -/
theorem Plannable.classify (h : Plannable config service routes store)
    (hreserves : Reserves config store service routes reserved) {v : Value}
    (hannounced : announced routes key = some v) :
    ∃ outcome, classify service (byRouteKey (store.findByOwner service)) reserved (fieldsOf v) key =
      .ok outcome := by
  cases hlookup : (byRouteKey (store.findByOwner service)).lookup key with
  | none => exact exists_classify (fieldsOf v) ⟨_, by rw [hlookup]; rfl⟩
  | some row =>
      obtain ⟨hrow, howner, hkey, -⟩ := lookup_findByOwner.mp hlookup
      by_cases hread : row.isModified = false ∧ (config.Declares key → service = "yaml")
      · obtain ⟨overrides, hoverrides⟩ := h.overrides row hrow howner hread.1 key v hkey hannounced hread.2
        exact exists_classify (fieldsOf v) ⟨overrides, by rw [hlookup]; exact hoverrides⟩
      · -- the YAML owns the key, or a user has locked the row
        unfold Gateway.classify
        dsimp only
        rw [hlookup]
        split
        next => exact ⟨_, rfl⟩
        next hfree =>
          obtain ⟨hmem, -, hvkey⟩ := mem_of_announced hannounced
          have hmodified : row.isModified = true := by
            by_contra hunmodified
            refine hread ⟨Bool.eq_false_iff.mpr hunmodified, fun hdeclared => ?_⟩
            by_contra hother
            rw [(hreserves.get_eq ⟨v, hmem, hvkey⟩).1 hdeclared] at hfree
            apply hfree
            rw [Bool.and_eq_true, Bool.not_eq_true', ← Bool.not_eq_true, Value.isText_iff]
            exact ⟨rfl, fun heq => hother (Value.str.inj heq).symm⟩
          rw [Option.any_some, hmodified]
          exact ⟨_, rfl⟩

/-- The other direction: what a diff has decided, it could read. -/
theorem plannable_of_diff (hreserves : Reserves config store service routes reserved) {diff : RouteDiff}
    (hdiff : diffRoutes service routes (store.findByOwner service) reserved = .ok diff) :
    Plannable config service routes store where
  keys := not_unreadable (show Reserves config
  ({ store } : PathWorld).store service routes reserved from hreserves)
  overrides row hrow howner hmodified key v hkey hannounced hdeclared := by
    obtain ⟨hmem, -, hvkey⟩ := mem_of_announced hannounced
    have hlookup : (byRouteKey (store.findByOwner service)).lookup key = some row :=
      lookup_findByOwner.mpr ⟨hrow, howner, hkey, routeKeyOf_ne_empty hvkey⟩
    obtain ⟨state, hdiffed, -⟩ := diffRoutes_spec hdiff
    obtain ⟨outcome, houtcome⟩ := hdiffed.decided key v hannounced
    have hclassified := classified_of_ok houtcome
    rw [hlookup] at hclassified
    cases hclassified with
    | collision htruthy hother =>
        by_cases hyaml : config.Declares key
        · rw [(hreserves.get_eq ⟨v, hmem, hvkey⟩).1 hyaml, hdeclared hyaml] at hother
          exact absurd rfl hother
        · rw [(hreserves.get_eq ⟨v, hmem, hvkey⟩).2 hyaml, rivalOwner_of_own hrow hkey howner] at htruthy
          cases htruthy
    | skipped row' hrow' hmodified' =>
        obtain rfl := Option.some.inj hrow'
        rw [hmodified] at hmodified'
        cases hmodified'
    | unchanged _ _ _ _ overrides hoverrides _ => exact ⟨overrides, hoverrides⟩
    | upsert _ _ overrides hoverrides _ => exact ⟨overrides, hoverrides⟩

/-- **The plan returns exactly when everything it reads can be read.** -/
theorem plan_returns_iff (hanswers : env.Answers) :
    (∃ diff w', (plan config service routes).run env.service w = (.ok diff, w')) ↔
      Plannable config service routes w.store := by
  constructor
  · rintro ⟨diff, w', hplan⟩
    have hends : Ends _ _ ((plan config service routes).run env.service w) :=
      triple_plan config service routes w w rfl
    rw [hplan] at hends
    obtain ⟨-, reserved, hreserves, hdiff⟩ := hends
    exact plannable_of_diff hreserves hdiff
  · intro hplannable
    have htriple : Triple env.service (fun w' => w' = w) (plan config service routes) (fun _ _ => True)
        fun _ _ => False := by
      refine (triple_plan_or (F := False) ?_ ?_ ?_ ?_).mono (fun _ _ _ => trivial) fun _ _ h => h.2
      · intro asked op e hop he
        rw [hanswers asked op (by cases op <;> first | rfl | cases hop)] at he
        cases he
      · exact fun e he => hplannable.keys (.inl ⟨e, he⟩)
      · exact fun r hr e he => hplannable.keys (.inr ⟨r, hr, e, he⟩)
      · intro reserved e hreserves he
        obtain ⟨diff, hdiff⟩ := diffRoutes_returns (fun r hr _ => hreserves.keyed r hr) fun key v hv =>
          hplannable.classify hreserves hv
        rw [hdiff] at he
        cases he
    have hends := htriple w rfl
    generalize (plan config service routes).run env.service w = r at hends
    rcases r with ⟨e | diff, w'⟩
    · exact hends.elim
    · exact ⟨diff, w', rfl⟩

end Plan

/-! ## The diff without the malformed entries -/

section Diff

variable {service : String} {map : List (String × StoredHttpPath)} {reserved reserved' : Obj}

/-- The state of the loop, but for the dropped entries. -/
def DiffState.valid (state : DiffState) : DiffState := { state with diff := { state.diff with invalid := [] } }

theorem valid_record (diff : RouteDiff) (r : Obj) (key : String) (outcome : RouteOutcome) :
    { diff.record r key outcome with invalid := [] } =
      ({ diff with invalid := [] } : RouteDiff).record r key outcome ∧
      (diff.record r key outcome).invalid = diff.invalid := by
  cases outcome <;> exact ⟨rfl, rfl⟩

theorem classify_congr {r : Obj} {key : String} (h : Obj.get reserved key = Obj.get reserved' key) :
    classify service map reserved r key = classify service map reserved' r key := by
  unfold classify
  rw [h]

/-- One valid route. -/
theorem diffRoute_valid {state state' : DiffState} {v : Value} (hvalid : isValidRoute v = true)
    (hreserved : ∀ key, routeKeyOf v = .ok key → Obj.get reserved key = Obj.get reserved' key)
    (h : diffRoute service map reserved state v = .ok state') :
    diffRoute service map reserved' state.valid v = .ok state'.valid ∧
      state'.diff.invalid = state.diff.invalid := by
  unfold diffRoute at h ⊢
  rw [hvalid] at h ⊢
  cases hkey : routeKeyOf v with
  | error e =>
      rw [hkey] at h
      cases h
  | ok key =>
      rw [hkey] at h
      change (if state.seen.contains key then _ else _) = _ at h
      show (if state.seen.contains key then _ else _) = _ ∧ _
      split at h
      next hseen =>
        obtain rfl := Except.ok.inj h
        rw [if_pos hseen]
        exact ⟨rfl, rfl⟩
      next hnew =>
        rw [if_neg hnew]
        rw [classify_congr (hreserved key hkey)] at h
        cases houtcome : classify service map reserved' (fieldsOf v) key with
        | error e =>
            rw [houtcome] at h
            cases h
        | ok outcome =>
            rw [houtcome] at h
            obtain rfl := Except.ok.inj h
            obtain ⟨hrecord, hinvalid⟩ := valid_record state.diff (fieldsOf v) key outcome
            refine ⟨?_, hinvalid⟩
            show Except.ok _ = Except.ok (DiffState.mk _ _)
            rw [hrecord]
            rfl

/-- The loop, over all routes and over the valid ones. -/
theorem diffRoutes_loop {routes : List Value} {state state' : DiffState}
    (hreserved : ∀ r ∈ routes, isValidRoute r = true → ∀ key, routeKeyOf r = .ok key →
      Obj.get reserved key = Obj.get reserved' key)
    (h : routes.foldlM (diffRoute service map reserved) state = .ok state') :
    (routes.filter isValidRoute).foldlM (diffRoute service map reserved') state.valid = .ok state'.valid ∧
      state'.diff.invalid = state.diff.invalid ++ routes.filter fun r => !isValidRoute r := by
  induction routes generalizing state with
  | nil =>
      obtain rfl := Except.ok.inj h
      exact ⟨rfl, (List.append_nil _).symm⟩
  | cons v routes ih =>
      rw [List.foldlM_cons] at h
      obtain ⟨next, hnext, h⟩ := bind_eq_ok.mp h
      obtain ⟨hrest, hinvalid⟩ := ih (fun r hr => hreserved r (.tail _ hr)) h
      cases hvalid : isValidRoute v with
      | true =>
          obtain ⟨hstep, hkept⟩ := diffRoute_valid hvalid (hreserved v (.head _) hvalid) hnext
          rw [List.filter_cons_of_pos hvalid, List.foldlM_cons, hstep, hinvalid, hkept,
            List.filter_cons_of_neg (by rw [hvalid]; exact Bool.false_ne_true)]
          exact ⟨hrest, rfl⟩
      | false =>
          unfold diffRoute at hnext
          rw [hvalid] at hnext
          obtain rfl := Except.ok.inj hnext
          rw [List.filter_cons_of_neg (by rw [hvalid]; exact Bool.false_ne_true), hinvalid,
            List.filter_cons_of_pos (by rw [hvalid]; rfl)]
          exact ⟨hrest, List.append_assoc _ [v] _⟩

/-- **The diff of the valid routes is the diff of all of them, without the dropped ones.** -/
theorem diffRoutes_valid {routes : List Value} {existing : List StoredHttpPath} {diff : RouteDiff}
    (hreserved : ∀ r ∈ routes, isValidRoute r = true → ∀ key, routeKeyOf r = .ok key →
      Obj.get reserved key = Obj.get reserved' key)
    (h : diffRoutes service routes existing reserved = .ok diff) :
    diffRoutes service (routes.filter isValidRoute) existing reserved' = .ok { diff with invalid := [] } ∧
      diff.invalid = routes.filter fun r => !isValidRoute r := by
  unfold diffRoutes at h ⊢
  obtain ⟨state, hstate, h⟩ := bind_eq_ok.mp h
  obtain rfl := Except.ok.inj h
  obtain ⟨hloop, hinvalid⟩ := diffRoutes_loop hreserved hstate
  refine ⟨?_, hinvalid⟩
  rw [show ({} : DiffState) = DiffState.valid {} from rfl, hloop]
  rfl

end Diff

/-! ## Writing the diff -/

/-- Two worlds with the same table. -/
def SameStore (w w' : PathWorld) : Prop := w.store = w'.store

section Apply

variable {env : PathEnv} {config : GatewayConfig} {service : String} {diff diff' : RouteDiff}

theorem agree_onPaths (hanswers : env.Answers) {op : PathOp} (hop : op.isOnPaths = true) :
    Agree env.service env.service SameStore (perform op : PathScript (PathAns op)) (perform op) := by
  refine agree_perform fun w w' h => ?_
  unfold SameStore at h
  rw [hanswers.service w hop, hanswers.service w' hop, h]
  exact ⟨rfl, rfl⟩

/-- What is journaled makes no difference. -/
theorem agree_journal (hreads : env.Reads) (entry entry' : RouteSyncLogEntry) :
    Agree env.service env.service SameStore (journal entry) (journal entry') :=
  agree_of_quiet (fun _ => triple_beside hreads.not_unreadable (fun _ _ hw => hw) _)
    fun _ => triple_beside hreads.not_unreadable (fun _ _ hw => hw) _

theorem agree_reconcile (hanswers : env.Answers) (hreads : env.Reads) (u : RouteUpsert) :
    Agree env.service env.service SameStore (reconcile service u) (reconcile service u) := by
  unfold reconcile
  refine (agree_onPaths hanswers rfl).bind fun clashes => ?_
  split
  · exact (agree_onPaths hanswers rfl).bind fun _ => agree_pure _
  · -- both runs have found the same owner
    refine Agree.bind ?_ fun _ => (agree_journal hreads _ _).bind fun _ => agree_pure _
    cases printed (winnerOf service clashes) with
    | ok text => exact agree_pure text
    | error e => exact agree_threw e

theorem agree_applyUpsert (hanswers : env.Answers) (hreads : env.Reads) (u : RouteUpsert) :
    Agree env.service env.service SameStore (applyUpsert service u) (applyUpsert service u) := by
  unfold applyUpsert writeUpsert
  refine Agree.bind (Agree.tryCatch ?_ fun e => ?_) fun added => ?_
  · split
    · exact (agree_onPaths hanswers rfl).bind fun _ => agree_pure _
    · exact (agree_onPaths hanswers rfl).bind fun _ => agree_pure _
  · split
    · exact agree_reconcile hanswers hreads u
    · exact agree_threw e
  · cases added with
    | some added => exact agree_journal hreads _ _
    | none => exact agree_pure ()

theorem agree_applyDisable (hanswers : env.Answers) (hreads : env.Reads) (d : RouteDisable) :
    Agree env.service env.service SameStore (applyDisable service d) (applyDisable service d) := by
  unfold applyDisable
  exact (agree_onPaths hanswers rfl).bind fun _ => agree_journal hreads _ _

/-- **Two diffs with the same writes** have the same effect on the table. -/
theorem agree_applyDiff (hanswers : env.Answers) (hreads : env.Reads)
    (hprint : ∀ c ∈ diff.collisions, prints c.conflictWith = true)
    (hcollisions : diff.collisions = diff'.collisions) (hupserts : diff.upserts = diff'.upserts)
    (hdisables : diff.disables = diff'.disables) :
    Agree env.service env.service SameStore (applyDiff config service diff)
    (applyDiff config service diff') := by
  have hnever := hreads.not_unreadable
  have howners : ∀ c ∈ diff'.collisions, prints c.conflictWith = false → False := by
    intro c hc hnot
    rw [hprint c (hcollisions ▸ hc)] at hnot
    cases hnot
  have hloop {β : Type} (entry : β → RouteSyncLogEntry) (l l' : List β) :
      Agree env.service env.service SameStore (forEach (fun b => journal (entry b)) l)
        (forEach (fun b => journal (entry b)) l') :=
    agree_of_quiet (fun _ => triple_journals hnever (fun _ _ hw => hw) _ _)
      fun _ => triple_journals hnever (fun _ _ hw => hw) _ _
  unfold applyDiff
  rw [hcollisions, hupserts, hdisables]
  refine Agree.bind (agree_of_quiet (fun _ => triple_journalCollisions hnever howners fun _ _ hw _ => hw)
    fun _ => triple_journalCollisions hnever howners fun _ _ hw _ => hw) fun _ => ?_
  refine Agree.bind (hloop _ _ _) fun _ => ?_
  refine Agree.bind (agree_forEach fun u _ => agree_applyUpsert hanswers hreads u) fun _ => ?_
  refine Agree.bind (agree_forEach fun d _ => agree_applyDisable hanswers hreads d) fun _ => ?_
  refine Agree.bind (hloop _ _ _) fun _ => ?_
  exact agree_of_quiet (fun _ => triple_announceChange hnever fun _ _ hw => hw)
    fun _ => triple_announceChange hnever fun _ _ hw => hw

/-! ## What is journaled -/

theorem reported_after (w : PathWorld) (op : PathOp) (store : PathStore) :
    (w.after op store).reported = w.reported + if reportsInvalid op then 1 else 0 := by
  unfold PathWorld.reported PathWorld.after
  rw [List.countP_append, List.countP_singleton]

/-- Lookups journal nothing. -/
theorem Looking.reported {w₀ w : PathWorld} (h : Looking w₀ w) : w.reported = w₀.reported := by
  obtain ⟨-, ops, hasked, hreads⟩ := h
  have hnone : ops.countP reportsInvalid = 0 := by
    refine List.countP_eq_zero.mpr fun op hop hreports => ?_
    have hread := hreads op hop
    cases op <;> first | cases hreports | cases hread
  unfold PathWorld.reported
  rw [hasked, List.countP_append, hnone, Nat.add_zero]

/-- An operation that is no such entry. -/
theorem keeps_reported {n : Nat} {op : PathOp} (h : reportsInvalid op = false) :
    Keeps env.service (fun w => w.reported = n) (perform op : PathScript (PathAns op)) := by
  refine keeps_perform fun w hw => ?_
  unfold PathWorld.reported at hw ⊢
  rw [asked_service, List.countP_append, List.countP_singleton, h, hw]
  rfl

theorem keeps_reported_journal {n : Nat} {entry : RouteSyncLogEntry} (h : entry.event ≠ .invalid) :
    Keeps env.service (fun w => w.reported = n) (journal entry) :=
  Keeps.tryCatch (keeps_reported (beq_eq_false_iff_ne.mpr h)) fun _ => keeps_ofExcept _

theorem keeps_reported_applyUpsert {n : Nat} (u : RouteUpsert) :
    Keeps env.service (fun w => w.reported = n) (applyUpsert service u) := by
  unfold applyUpsert writeUpsert
  refine Keeps.bind (Keeps.tryCatch ?_ fun e => ?_) fun added => ?_
  · split
    · exact Keeps.bind (keeps_reported rfl) fun _ => keeps_pure _
    · exact Keeps.bind (keeps_reported rfl) fun _ => keeps_pure _
  · split
    · unfold reconcile
      refine Keeps.bind (keeps_reported rfl) fun clashes => ?_
      split
      · exact Keeps.bind (keeps_reported rfl) fun _ => keeps_pure _
      · exact Keeps.bind (keeps_ofExcept _) fun _ => Keeps.bind (keeps_reported_journal nofun) fun _ =>
          keeps_pure _
    · exact fun w hw => hw
  · cases added with
    | some added => exact keeps_reported_journal (by cases added <;> exact nofun)
    | none => exact keeps_pure ()

/-- The entry of a collision is none of those. -/
theorem reported_after_collision {n : Nat} {w : PathWorld} {entry : RouteSyncLogEntry} (hw : w.reported = n)
    (hevent : entry.event = .collision) : (w.after (.journal entry) w.store).reported = n := by
  rw [reported_after, hw, if_neg]
  · rfl
  · show ¬ (entry.event == .invalid) = true
    rw [hevent]
    exact Bool.false_ne_true

/-- **Every dropped route is journaled**, whatever the journal answers and wherever the run stops behind the
collisions. -/
theorem triple_reported (hreads : env.Reads) (hprint : ∀ c ∈ diff.collisions, prints c.conflictWith = true)
    (n : Nat) :
    Triple env.service (fun w => w.reported = n) (applyDiff config service diff)
      (fun _ w => w.reported = n + diff.invalid.length) fun _ w => w.reported = n + diff.invalid.length := by
  unfold applyDiff
  refine triple_bind (Q := fun _ w => w.reported = n) ?_ fun _ => ?_
  · refine (triple_journalCollisions (F := False) hreads.not_unreadable (fun c hc hnot => ?_)
      fun _ _ hw hevent => reported_after_collision hw hevent).mono (fun _ _ h => h) fun _ _ h => h.elim
    rw [hprint c hc] at hnot
    cases hnot
  refine triple_bind (Q := fun _ w => w.reported = n + diff.invalid.length) ?_ fun _ => ?_
  · refine triple_forEach (J := fun before (w : PathWorld) => w.reported = n + before.length) _
      fun before r _ _ => ?_
    refine triple_journal (fun w hw => ?_) fun e _ w _ he hnot => ?_
    · rw [reported_after, hw, List.length_append, List.length_singleton, Nat.add_assoc]
      rfl
    · exact absurd ⟨_, _, e, he, hnot⟩ hreads.not_unreadable
  refine Keeps.bind (keeps_forEach fun u _ => keeps_reported_applyUpsert u) fun _ => ?_
  refine Keeps.bind (keeps_forEach fun d _ => ?_) fun _ => ?_
  · exact Keeps.bind (keeps_reported rfl) fun _ => keeps_reported_journal nofun
  refine Keeps.bind (keeps_forEach fun s _ => keeps_reported_journal nofun) fun _ => ?_
  unfold announceChange
  split
  · refine Keeps.bind ?_ fun _ => keeps_reported_journal nofun
    unfold triggerReload
    split
    · split
      · exact keeps_pure ()
      · exact Keeps.tryCatch (keeps_reported rfl) fun _ => keeps_ofExcept _
    · exact keeps_pure ()
  · exact keeps_pure ()

/-- A collision whose owner does not print ends the run before any dropped route is journaled. -/
theorem triple_unprinted {c : RouteRefusal} (hc : c ∈ diff.collisions) (hnot : prints c.conflictWith = false)
    (n : Nat) :
    Triple env.service (fun w => w.reported = n) (applyDiff config service diff) (fun _ _ => False)
      fun _ w => w.reported = n := by
  unfold applyDiff
  refine triple_bind (Q := fun _ _ => False) (fun w hw => ?_) fun _ _ h => h.elim
  -- the loop passes only collisions that print
  have hloop : Triple env.service
      (fun w : PathWorld => w.reported = n ∧ ∀ c ∈ ([] : List RouteRefusal), prints c.conflictWith = true)
      (forEach (journalCollision service) diff.collisions)
      (fun _ w => w.reported = n ∧ ∀ c ∈ diff.collisions, prints c.conflictWith = true)
      fun _ w => w.reported = n := by
    refine triple_forEach (J := fun before (w : PathWorld) => w.reported = n ∧
      ∀ c ∈ before, prints c.conflictWith = true) diff.collisions fun before c after _ => ?_
    unfold journalCollision
    split
    next hsilent =>
      refine triple_pure fun w hw => ⟨hw.1, List.forall_mem_append.mpr ⟨hw.2, List.forall_mem_singleton.mpr ?_⟩⟩
      rw [Bool.or_eq_true, Value.isText_iff, Value.isText_iff] at hsilent
      rcases hsilent with h | h <;> rw [h] <;> rfl
    next =>
      refine triple_bind (Q := fun _ w => w.reported = n ∧ ∀ c' ∈ before ++ [c], prints c'.conflictWith = true)
        (triple_ofExcept (fun _ hprinted _ hw => ?_) fun _ _ _ hw => hw.1) fun _ =>
        triple_journal (fun _ hw => ⟨reported_after_collision hw.1 rfl, hw.2⟩) fun _ _ _ hw _ _ =>
          reported_after_collision hw.1 rfl
      exact ⟨hw.1, List.forall_mem_append.mpr
        ⟨hw.2, List.forall_mem_singleton.mpr (prints_of_printed hprinted)⟩⟩
  refine (hloop w ⟨hw, nofun⟩).mono (fun _ _ h => ?_) fun _ _ h => h
  rw [h.2 c hc] at hnot
  cases hnot

end Apply

/-! ## When malformed entries are harmless -/

section Handled

variable {env : PathEnv} {config : GatewayConfig} {manifest : RouteManifest} {service : String} {w : PathWorld}

/-- A manifest whose plan throws writes nothing and journals nothing. -/
theorem handled_of_unplannable (hanswers : env.Answers) (hservice : manifest.service = some service)
    (hnamed : service ≠ "") (hunplannable : ¬ Plannable config service manifest.list w.store) :
    Looking w (handled env config manifest w) := by
  have hends : Ends _ _ ((plan config service manifest.list).run env.service w) :=
    triple_plan config service manifest.list w w rfl
  rw [handled_eq hservice hnamed]
  unfold sync
  rw [run_bind]
  cases hplan : (plan config service manifest.list).run env.service w with
  | mk answer w' =>
      rw [hplan] at hends
      cases answer with
      | ok diff => exact absurd ((plan_returns_iff hanswers).mp ⟨diff, w', hplan⟩) hunplannable
      | error e => exact hends.1

/-- A manifest whose plan returns is its diff, written. -/
theorem handled_of_plannable (hanswers : env.Answers) (hservice : manifest.service = some service)
    (hnamed : service ≠ "") (hplannable : Plannable config service manifest.list w.store) :
    ∃ diff w' reserved, handled env config manifest w = ((applyDiff config service diff).run env.service w').2 ∧
      Looking w w' ∧ Reserves config w.store service manifest.list reserved ∧
      diffRoutes service manifest.list (w.store.findByOwner service) reserved = .ok diff := by
  have hends : Ends _ _ ((plan config service manifest.list).run env.service w) :=
    triple_plan config service manifest.list w w rfl
  obtain ⟨diff, w', hplan⟩ := (plan_returns_iff hanswers).mpr hplannable
  rw [hplan] at hends
  obtain ⟨hlooking, reserved, hreserves, hdiff⟩ := hends
  refine ⟨diff, w', reserved, ?_, hlooking, hreserves, hdiff⟩
  rw [handled_eq hservice hnamed]
  unfold sync
  rw [run_bind_of_ok _ hplan]

/-- The owners that collisions are logged with print just when they are legible. -/
theorem Plannable.owners_iff {routes : List Value} {store : PathStore} {reserved : Obj} {diff : RouteDiff}
    (h : Plannable config service routes store) (hreserves : Reserves config store service routes reserved)
    (hdiff : diffRoutes service routes (store.findByOwner service) reserved = .ok diff) :
    (∀ c ∈ diff.collisions, prints c.conflictWith = true) ↔ Legible config service routes store := by
  obtain ⟨state, hdiffed, -, -, hcollisions⟩ := diffRoutes_spec hdiff
  rw [hcollisions]
  constructor
  · refine fun hprint => ⟨h, fun key v hannounced hfree owner howner => ?_⟩
    obtain ⟨hmem, -, hkey⟩ := mem_of_announced hannounced
    have hreserved : Obj.get reserved key = owner := by
      rw [(hreserves.get_eq ⟨v, hmem, hkey⟩).2 hfree, howner]
      rfl
    by_contra hnot
    -- what does not print is truthy and no text, so the key collides
    have htruthy : owner.truthy = true := by
      by_contra hfalsy
      exact hnot (prints_of_not_truthy (Bool.eq_false_iff.mpr hfalsy))
    have hother : owner ≠ .str service := fun htext => hnot (htext ▸ rfl)
    have hcollides : Gateway.classify service (byRouteKey (store.findByOwner service)) reserved (fieldsOf v) key =
        .ok (.collision owner) := by
      rw [← hreserved]
      exact classify_collision (hreserved ▸ htruthy) (hreserved ▸ hother)
    exact hnot (hprint _ ((hdiffed.collisions ⟨key, _, _, owner⟩).mpr ⟨v, hannounced, hcollides, rfl⟩))
  · intro hlegible c hc
    obtain ⟨howner, htruthy, -, v, hannounced⟩ := hdiffed.collision hc
    obtain ⟨hmem, -, hkey⟩ := mem_of_announced hannounced
    obtain ⟨hyaml, hrival⟩ := hreserves.get_eq ⟨v, hmem, hkey⟩
    rw [howner] at htruthy ⊢
    by_cases hdeclared : config.Declares c.routeKey
    · rw [hyaml hdeclared]
      rfl
    · rw [hrival hdeclared] at htruthy ⊢
      cases hfound : rivalOwner store service c.routeKey with
      | none => rfl
      | some owner => exact hlegible.owners _ v hannounced hdeclared owner hfound

/-- A manifest that is not legible journals no dropped route. -/
theorem reported_of_illegible (hanswers : env.Answers) (hservice : manifest.service = some service)
    (hnamed : service ≠ "") (hillegible : ¬ Legible config service manifest.list w.store) :
    (handled env config manifest w).reported = w.reported := by
  by_cases hplannable : Plannable config service manifest.list w.store
  · obtain ⟨diff, w', reserved, hhandled, hlooking, hreserves, hdiff⟩ :=
      handled_of_plannable hanswers hservice hnamed hplannable
    have howner : ¬ ∀ c ∈ diff.collisions, prints c.conflictWith = true :=
      fun hprint => hillegible ((hplannable.owners_iff hreserves hdiff).mp hprint)
    simp only [not_forall, Bool.not_eq_true] at howner
    obtain ⟨c, hc, hnot⟩ := howner
    have hends : Ends _ _ ((applyDiff config service diff).run env.service w') :=
      triple_unprinted hc hnot w'.reported w' rfl
    rw [hhandled, ← hlooking.reported]
    generalize (applyDiff config service diff).run env.service w' = r at hends
    rcases r with ⟨e | a, w''⟩
    · exact hends
    · exact hends.elim
  · exact (handled_of_unplannable hanswers hservice hnamed hplannable).reported

theorem announced_valid (routes : List Value) (key : String) :
    announced (routes.filter isValidRoute) key = announced routes key := by
  unfold announced
  rw [List.find?_filter]
  congr 1
  funext r
  cases isValidRoute r <;> simp

/-- What is legible stays so without the malformed entries. -/
theorem Legible.valid {routes : List Value} {store : PathStore} (h : Legible config service routes store) :
    Legible config service (routes.filter isValidRoute) store where
  keys := by
    rintro (hyaml | ⟨r, hr, hkey⟩)
    · exact h.keys (.inl hyaml)
    · exact h.keys (.inr ⟨r, (List.mem_filter.mp hr).1, hkey⟩)
  overrides row hrow howner hmodified key v hkey hannounced := by
    rw [announced_valid] at hannounced
    exact h.overrides row hrow howner hmodified key v hkey hannounced
  owners key v hannounced := by
    rw [announced_valid] at hannounced
    exact h.owners key v hannounced

/-- **The table** does not tell a legible manifest from the one without its malformed entries. -/
theorem store_wellFormed (hanswers : env.Answers) (hreads : env.Reads) (hservice : manifest.service = some service)
    (hnamed : service ≠ "") (hlegible : Legible config service manifest.list w.store) :
    (handled env config manifest w).store = (handled env config manifest.wellFormed w).store := by
  obtain ⟨diff, w₁, reserved, hhandled, hlooking, hreserves, hdiff⟩ :=
    handled_of_plannable hanswers hservice hnamed hlegible.toPlannable
  obtain ⟨diff', w₂, reserved', hhandled', hlooking', hreserves', hdiff'⟩ :=
    handled_of_plannable hanswers (show manifest.wellFormed.service = some service from hservice) hnamed
      hlegible.valid.toPlannable
  -- both maps say the same about the keys of valid routes
  have hreserved : ∀ r ∈ manifest.list, isValidRoute r = true → ∀ key, routeKeyOf r = .ok key →
      Obj.get reserved key = Obj.get reserved' key := by
    intro r hr hvalid key hkey
    have hget := hreserves.get_eq ⟨r, hr, hkey⟩
    have hget' := hreserves'.get_eq ⟨r, List.mem_filter.mpr ⟨hr, hvalid⟩, hkey⟩
    by_cases hdeclared : config.Declares key
    · rw [hget.1 hdeclared, hget'.1 hdeclared]
    · rw [hget.2 hdeclared, hget'.2 hdeclared]
  obtain rfl := Except.ok.inj ((diffRoutes_valid hreserved hdiff).1.symm.trans hdiff')
  rw [hhandled, hhandled']
  have hagree : Agree env.service env.service SameStore (applyDiff config service diff)
      (applyDiff config service { diff with invalid := [] }) :=
    agree_applyDiff hanswers hreads ((hlegible.toPlannable.owners_iff hreserves hdiff).mpr hlegible) rfl rfl rfl
  exact (hagree w₁ w₂ (hlooking.1.trans hlooking'.1.symm)).2

/-- The journal has the dropped routes of a legible manifest. -/
theorem reported_handled (hanswers : env.Answers) (hreads : env.Reads) (hservice : manifest.service = some service)
    (hnamed : service ≠ "") (hlegible : Legible config service manifest.list w.store) :
    (handled env config manifest w).reported =
      w.reported + manifest.list.countP fun r => !isValidRoute r := by
  obtain ⟨diff, w', reserved, hhandled, hlooking, hreserves, hdiff⟩ :=
    handled_of_plannable hanswers hservice hnamed hlegible.toPlannable
  have hends : Ends _ _ ((applyDiff config service diff).run env.service w') :=
    triple_reported hreads ((hlegible.toPlannable.owners_iff hreserves hdiff).mpr hlegible) w'.reported w' rfl
  rw [(diffRoutes_valid (fun _ _ _ _ _ => rfl) hdiff).2, ← List.countP_eq_length_filter] at hends
  rw [hhandled, ← hlooking.reported]
  generalize (applyDiff config service diff).run env.service w' = r at hends
  rcases r with ⟨e | a, w''⟩ <;> exact hends

/-- **Malformed entries are harmless exactly when there are none, or when everything the lookups read and the
collisions print is legible.** -/
theorem malformed_harmless_iff (hanswers : env.Answers) (hreads : env.Reads)
    (hservice : manifest.service = some service) (hnamed : service ≠ "") :
    MalformedHarmless env config manifest w ↔
      (∀ r ∈ manifest.list, isValidRoute r = true) ∨ Legible config service manifest.list w.store := by
  constructor
  · intro hharmless
    by_contra hneither
    obtain ⟨hinvalid, hillegible⟩ := not_or.mp hneither
    apply hinvalid
    have hreported := hharmless.reported
    rw [reported_of_illegible hanswers hservice hnamed hillegible] at hreported
    have hnone : manifest.list.countP (fun r => !isValidRoute r) = 0 := by omega
    intro r hr
    simpa using List.countP_eq_zero.mp hnone r hr
  · rintro (hvalid | hlegible)
    · have hlist : manifest.wellFormed.list = manifest.list := List.filter_eq_self.mpr hvalid
      have hnone : manifest.list.countP (fun r => !isValidRoute r) = 0 :=
        List.countP_eq_zero.mpr fun r hr => by simp [hvalid r hr]
      refine ⟨?_, ?_⟩
      · rw [handled_eq hservice hnamed,
          handled_eq (show manifest.wellFormed.service = some service from hservice) hnamed, hlist]
      · by_cases hlegible : Legible config service manifest.list w.store
        · exact reported_handled hanswers hreads hservice hnamed hlegible
        · rw [reported_of_illegible hanswers hservice hnamed hlegible, hnone, Nat.add_zero]
    · exact ⟨store_wellFormed hanswers hreads hservice hnamed hlegible,
        reported_handled hanswers hreads hservice hnamed hlegible⟩

end Handled

/-! ### A manifest with a `null` -/

/-- A route without a topic is dropped. -/
def unroutedManifest : RouteManifest :=
  { service := some "docs", routes := .arr [.obj [("method", .str "GET"), ("path", .str "/x")],
  .obj listRoute] }

/-- A manifest with a `null` beside its route. -/
def nullManifest : RouteManifest := { service := some "docs", routes := .arr [.null, .obj listRoute] }

/-- An entry with a readable key. -/
theorem malformed_harmless_iff_unrouted :
    MalformedHarmless .calm {} unroutedManifest { store := .empty } ↔
      (∀ r ∈ unroutedManifest.list, isValidRoute r = true) ∨
        Legible {} "docs" unroutedManifest.list PathStore.empty :=
  malformed_harmless_iff (fun _ _ _ => rfl) nofun rfl (by decide)

/-- The key of `null` cannot be read: the route beside it is not stored. -/
theorem not_malformed_harmless_null :
    ¬ ∀ (env : PathEnv) (config : GatewayConfig) (manifest : RouteManifest) (service : String) (w : PathWorld),
      env.Answers → env.Reads → manifest.service = some service → service ≠ "" →
      MalformedHarmless env config manifest w := by
  intro h
  have hharmless := h .calm {} nullManifest "docs" { store := .empty } (fun _ _ _ => rfl) nofun rfl (by decide)
  have hrows := congrArg (fun store => store.rows.length) hharmless.store
  exact absurd hrows (by decide +kernel)

end NestAmqp.Gateway
