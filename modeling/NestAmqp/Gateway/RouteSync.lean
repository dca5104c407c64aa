/-
# NestAmqp.Gateway.RouteSync — applying a manifest to the stored paths.

`RouteSyncService.handle`: it looks up which keys of the manifest are reserved, diffs the manifest against
the rows of its service, writes what changed, journals every change and broadcasts a reload.  Whatever
fails stops it where it stands, and so does a log line with a value that does not print: the stored owner
of a contested row, or the message of a failure.

`triple_plan` says what the lookups find, and `keeps_applyDiff` says once which operations the rest can
ask for: what each of them keeps, handling a manifest keeps.
-/
import NestAmqp.Gateway.RouteDiff

namespace NestAmqp.Gateway

open NestAmqp.Js NestAmqp.Lib NestAmqp.Lib.Script HttpPathRepository

/-! ## The service -/

/-- The part of the gateway's configuration that route sync reads: the YAML paths and the topic of reload
broadcasts. -/
structure GatewayConfig where
  paths : List Value := []
  reloadTopic : Option String := none

/-- A manifest as it is delivered. -/
structure RouteManifest where
  service : Option String
  routes : Value := .arr []

/-- The routes of a manifest, none when they are no list. -/
def RouteManifest.list (manifest : RouteManifest) : List Value := itemsOf manifest.routes

/-- The key of one YAML path. -/
def reserveYamlPath (reserved : Obj) (p : Value) : Except Thrown Obj :=
  (routeKeyOf p).map fun key => Obj.set reserved key (.str "yaml")

/-- The keys of the YAML paths. -/
def reserveYaml (config : GatewayConfig) : Except Thrown Obj := config.paths.foldlM reserveYamlPath []

/-- The key of one route of the manifest, when another owner has a row with it. -/
def reserveRoute (service : String) (reserved : Obj) (r : Value) : PathScript Obj := do
  let key ← ofExcept (routeKeyOf r)
  if (Obj.own reserved key).isSome then pure reserved
  else do
    let clashes ← findByRouteKey key
    match clashes.find? fun c => !c.ownerName.isText service with
    | some other => pure (Obj.set reserved key other.ownerName)
    | none => pure reserved

/-- The diff of a manifest against the table. -/
def plan (config : GatewayConfig) (service : String) (routes : List Value) : PathScript RouteDiff := do
  let existing ← findByOwner service
  let yaml ← ofExcept (reserveYaml config)
  let reserved ← foldEach (reserveRoute service) yaml routes
  ofExcept (diffRoutes service routes existing reserved)

/-- A collision with the YAML or with a manually managed route is not journaled.  Any other is logged first,
with the owner it is with. -/
def journalCollision (service : String) (c : RouteRefusal) : PathScript Unit :=
  if c.conflictWith.isText "yaml" || c.conflictWith.isText "manual" then pure ()
  else do
    let _ ← ofExcept (printed c.conflictWith)
    journal
      { service := .str service, level := .warn, event := .collision, routeKey := .str c.routeKey
        method := c.method, path := c.path, conflictWith := c.conflictWith }

/-- The owner of the row that was there first. -/
def winnerOf (service : String) (clashes : List StoredHttpPath) : Value :=
  let winner := clashes.find? fun c => !c.ownerName.isText service
  ((winner.map fun c => StoredHttpPath.get c "owner").getD .undefined).coalesce (.str "manual")

/-- The catch block of a write that the unique index refused: `some false` when the service's own row was
updated instead, `none` when another owner has the key. -/
def reconcile (service : String) (u : RouteUpsert) : PathScript (Option Bool) := do
  let clashes ← findByRouteKey u.routeKey
  match clashes.find? fun c => c.ownerName.isText service with
  -- another instance has inserted the route: its row takes the update
  | some mine => do
      let _ ← updateById (.str mine._id) u.model
      pure (some false)
  | none => do
      let conflictWith := winnerOf service clashes
      -- the line about the lost race prints the owner
      let _ ← ofExcept (printed conflictWith)
      journal
        { service := .str service, level := .warn, event := .collision, routeKey := .str u.routeKey
          method := Obj.get u.model "method", path := Obj.get u.model "path", conflictWith }
      pure none

/-- The write of an upsert: whether it added a row, or `none` when it was given up. -/
def writeUpsert (service : String) (u : RouteUpsert) : PathScript (Option Bool) :=
  let write : PathScript (Option Bool) :=
    match u.existingId with
    | some id => do
        let _ ← updateById (.str id) u.model
        pure (some u.added)
    | none => do
        let _ ← insert u.model
        pure (some u.added)
  -- only the refusal of the unique index is settled here
  write.tryCatch fun e => if isConflict e then reconcile service u else threw e

/-- One upsert with its journal entry. -/
def applyUpsert (service : String) (u : RouteUpsert) : PathScript Unit := do
  match ← writeUpsert service u with
  | some added =>
      journal
        { service := .str service, level := .info, event := if added then .added else .updated
          routeKey := .str u.routeKey, method := Obj.get u.model "method", path := Obj.get u.model "path"
          topic := Obj.get u.model "topic", action := Obj.get u.model "action", changes := u.changes }
  | none => pure ()

/-- One soft-disable with its journal entry. -/
def applyDisable (service : String) (d : RouteDisable) : PathScript Unit := do
  let _ ← updateById (.str d.id) [("enabled", .bool false)]
  journal
    { service := .str service, level := .info, event := .removed, routeKey := .str d.routeKey
      method := d.method, path := d.path }

/-- `triggerReload()`. -/
def triggerReload (config : GatewayConfig) : PathScript Unit :=
  match config.reloadTopic with
  | some topic =>
      if topic = "" then pure ()
      else (perform (PathOp.publishReload topic) : PathScript Unit).tryCatch fun e => ofExcept e.messageLine
  | none => pure ()

/-- The reload and its journal entry, when something changed. -/
def announceChange (config : GatewayConfig) (service : String) (diff : RouteDiff) : PathScript Unit :=
  if diff.changed then do
    triggerReload config
    journal { service := .str service, level := .info, event := .reload }
  else pure ()

/-- Writing and journaling a diff. -/
def applyDiff (config : GatewayConfig) (service : String) (diff : RouteDiff) : PathScript Unit := do
  -- whatever throws on the way leaves the rest undone, the broadcast included
  forEach (journalCollision service) diff.collisions
  forEach (fun _ => journal { service := .str service, level := .error, event := .invalid }) diff.invalid
  forEach (applyUpsert service) diff.upserts
  forEach (applyDisable service) diff.disables
  forEach (fun s => journal
    { service := .str service, level := .info, event := .skipped, routeKey := .str s.routeKey
      method := s.method, path := s.path }) diff.skipped
  announceChange config service diff

/-- The body of `handle`, behind its check of the service name. -/
def sync (config : GatewayConfig) (service : String) (routes : List Value) : PathScript Unit := do
  let diff ← plan config service routes
  applyDiff config service diff

/-- `handle(manifest)`. -/
def handle (config : GatewayConfig) (manifest : RouteManifest) : PathScript Unit :=
  match manifest.service with
  | some service =>
      if service = "" then pure ()
      else (sync config service manifest.list).tryCatch fun e => ofExcept e.messageLine
  | none => pure ()

/-! ## What the lookups find -/

/-- The YAML declares a path with this key. -/
def GatewayConfig.Declares (config : GatewayConfig) (key : String) : Prop :=
  ∃ p ∈ config.paths, routeKeyOf p = .ok key

theorem own_reserveYaml {config : GatewayConfig} {reserved : Obj} (h : reserveYaml config = .ok reserved)
    (key : String) :
    (config.Declares key → Obj.own reserved key = some (.str "yaml")) ∧
      (¬ config.Declares key → Obj.own reserved key = none) := by
  unfold reserveYaml at h
  unfold GatewayConfig.Declares
  generalize config.paths = paths at h ⊢
  induction paths using List.reverseRecOn generalizing reserved with
  | nil =>
      obtain rfl := Except.ok.inj h
      exact ⟨fun ⟨_, hp, _⟩ => (List.not_mem_nil hp).elim, fun _ => rfl⟩
  | append_singleton paths p ih =>
      rw [List.foldlM_append] at h
      rcases hbefore : paths.foldlM reserveYamlPath [] with e | before
      · rw [hbefore] at h
        cases h
      · rw [hbefore] at h
        change [p].foldlM reserveYamlPath before = _ at h
        rw [List.foldlM_cons, reserveYamlPath] at h
        rcases hkey : routeKeyOf p with e | k
        · rw [hkey] at h
          cases h
        · rw [hkey] at h
          obtain rfl := Except.ok.inj h
          obtain ⟨hdeclared, hfree⟩ := ih hbefore
          rw [Obj.own_set]
          by_cases hk : key = k
          · subst hk
            rw [if_pos rfl]
            exact ⟨fun _ => rfl, fun hnone => absurd ⟨p, by simp, hkey⟩ hnone⟩
          · rw [if_neg hk]
            constructor
            · rintro ⟨q, hq, hqkey⟩
              rcases List.mem_append.mp hq with hq | hq
              · exact hdeclared ⟨q, hq, hqkey⟩
              · rw [List.mem_singleton.mp hq, hkey] at hqkey
                exact absurd (Except.ok.inj hqkey).symm hk
            · intro hnone
              exact hfree fun ⟨q, hq, hqkey⟩ => hnone ⟨q, List.mem_append_left _ hq, hqkey⟩

/-- The owner of the row another owner has under a key. -/
def rivalOwner (store : PathStore) (service key : String) : Option Value :=
  ((store.findByRouteKey key).find? fun c => !c.ownerName.isText service).map (·.ownerName)

/-- The map of reserved keys, behind these routes. -/
structure Reserves (config : GatewayConfig) (store : PathStore) (service : String) (routes : List Value)
    (reserved : Obj) : Prop where
  yaml : ∃ reserved, reserveYaml config = .ok reserved
  keyed : ∀ r ∈ routes, ∃ key, routeKeyOf r = .ok key
  declared : ∀ key, config.Declares key → Obj.own reserved key = some (.str "yaml")
  looked : ∀ key, ¬ config.Declares key → (∃ r ∈ routes, routeKeyOf r = .ok key) →
    Obj.own reserved key = rivalOwner store service key
  others : ∀ key, ¬ config.Declares key → (¬ ∃ r ∈ routes, routeKeyOf r = .ok key) →
    Obj.own reserved key = none

/-- What the map of reserved keys says about the key of a route. -/
theorem Reserves.get_eq {config : GatewayConfig} {store : PathStore} {service key : String}
    {routes : List Value} {reserved : Obj} (h : Reserves config store service routes reserved)
    (hkey : ∃ r ∈ routes, routeKeyOf r = .ok key) :
    (config.Declares key → Obj.get reserved key = .str "yaml") ∧
      (¬ config.Declares key → Obj.get reserved key = (rivalOwner store service key).getD .undefined) := by
  unfold Obj.get
  constructor
  · intro hdeclared
    rw [h.declared key hdeclared]
    rfl
  · intro hfree
    rw [h.looked key hfree hkey]

/-- Only reads have been asked for since. -/
def Looking (w₀ w : PathWorld) : Prop :=
  w.store = w₀.store ∧ ∃ ops, w.asked = w₀.asked ++ ops ∧ ∀ op ∈ ops, op.isRead = true

/-- Why a plan can throw. -/
inductive PlanFails (env : PathEnv) (config : GatewayConfig) (service : String) (routes : List Value)
    (store : PathStore) : Prop
  | read (asked : List PathOp) (op : PathOp) (hop : op.isRead = true) (e : Thrown)
      (h : env.failure asked op = some e)
  | yaml (e : Thrown) (h : reserveYaml config = .error e)
  | key (r : Value) (hr : r ∈ routes) (e : Thrown) (h : routeKeyOf r = .error e)
  | diff (reserved : Obj) (e : Thrown)
      (h : diffRoutes service routes (store.findByOwner service) reserved = .error e)

section Plan

variable {env : PathEnv} {config : GatewayConfig} {service : String} {w₀ w : PathWorld}

theorem Looking.refl (w : PathWorld) : Looking w w := ⟨rfl, [], (List.append_nil _).symm, nofun⟩

theorem Looking.ask (h : Looking w₀ w) {op : PathOp} (hop : op.isRead = true) :
    Looking w₀ (w.after op w.store) := by
  obtain ⟨hstore, ops, hasked, hreads⟩ := h
  refine ⟨hstore, ops ++ [op], ?_, List.forall_mem_append.mpr ⟨hreads, ?_⟩⟩
  · show w.asked ++ [op] = _
    rw [hasked, List.append_assoc]
  · intro op' hop'
    rw [List.mem_singleton.mp hop']
    exact hop

theorem Reserves.pass {routes : List Value} {reserved : Obj} {r : Value} {key : String}
    (h : Reserves config w₀.store service routes reserved) (hkey : routeKeyOf r = .ok key)
    (hdone : ¬ config.Declares key → Obj.own reserved key = rivalOwner w₀.store service key) :
    Reserves config w₀.store service (routes ++ [r]) reserved where
  yaml := h.yaml
  keyed := List.forall_mem_append.mpr ⟨h.keyed, List.forall_mem_singleton.mpr ⟨key, hkey⟩⟩
  declared := h.declared
  looked k hfree := by
    rintro ⟨q, hq, hqkey⟩
    rcases List.mem_append.mp hq with hq | hq
    · exact h.looked k hfree ⟨q, hq, hqkey⟩
    · rw [List.mem_singleton.mp hq, hkey] at hqkey
      obtain rfl := Except.ok.inj hqkey
      exact hdone hfree
  others k hfree hnone := h.others k hfree fun ⟨q, hq, hqkey⟩ =>
    hnone ⟨q, List.mem_append_left _ hq, hqkey⟩

theorem Reserves.set {routes : List Value} {reserved : Obj} {r : Value} {key : String} {owner : Value}
    (h : Reserves config w₀.store service routes reserved) (hkey : routeKeyOf r = .ok key)
    (hfree : ¬ config.Declares key) (howner : rivalOwner w₀.store service key = some owner) :
    Reserves config w₀.store service (routes ++ [r]) (Obj.set reserved key owner) where
  yaml := h.yaml
  keyed := List.forall_mem_append.mpr ⟨h.keyed, List.forall_mem_singleton.mpr ⟨key, hkey⟩⟩
  declared k hk := by
    have hne : k ≠ key := fun heq => hfree (heq ▸ hk)
    rw [Obj.own_set, if_neg hne]
    exact h.declared k hk
  looked k hk := by
    rintro ⟨q, hq, hqkey⟩
    rw [Obj.own_set]
    split
    next heq => rw [heq, howner]
    next hne =>
      rcases List.mem_append.mp hq with hq | hq
      · exact h.looked k hk ⟨q, hq, hqkey⟩
      · rw [List.mem_singleton.mp hq, hkey] at hqkey
        exact absurd (Except.ok.inj hqkey).symm hne
  others k hk hnone := by
    have hne : k ≠ key := fun heq => hnone ⟨r, by simp, heq ▸ hkey⟩
    rw [Obj.own_set, if_neg hne]
    exact h.others k hk fun ⟨q, hq, hqkey⟩ => hnone ⟨q, List.mem_append_left _ hq, hqkey⟩

/-- One lookup. -/
theorem triple_reserveRoute {F : Prop} {routes : List Value} {reserved : Obj} {r : Value}
    (hread : ∀ asked op e, op.isRead = true → env.failure asked op = some e → F)
    (hkeys : ∀ e, routeKeyOf r = .error e → F) :
    Triple env.service (fun w => Looking w₀ w ∧ Reserves config w₀.store service routes reserved)
      (reserveRoute service reserved r)
      (fun reserved w => Looking w₀ w ∧ Reserves config w₀.store service (routes ++ [r]) reserved)
      fun _ w => Looking w₀ w ∧ F := by
  unfold reserveRoute
  refine triple_bind (Q := fun key w => routeKeyOf r = .ok key ∧ Looking w₀ w ∧
    Reserves config w₀.store service routes reserved) ?_ fun key => ?_
  · exact triple_ofExcept (fun key hkey w hw => ⟨hkey, hw⟩) fun e he w hw => ⟨hw.1, hkeys e he⟩
  -- a key that is reserved already is not looked up again
  · split
    next hhas =>
      refine triple_pure fun w ⟨hkey, hlooking, hreserves⟩ => ⟨hlooking, hreserves.pass hkey ?_⟩
      intro hfree
      by_cases hlooked : ∃ q ∈ routes, routeKeyOf q = .ok key
      · exact hreserves.looked key hfree hlooked
      · rw [hreserves.others key hfree hlooked] at hhas
        cases hhas
    next hhasNot =>
      refine triple_bind (Q := fun clashes w => clashes = w₀.store.findByRouteKey key ∧
        routeKeyOf r = .ok key ∧ Looking w₀ w ∧ Reserves config w₀.store service routes reserved)
        ?_ fun clashes => ?_
      · refine triple_findByRouteKey ?_ ?_
        · rintro w ⟨hkey, hlooking, hreserves⟩
          exact ⟨by rw [hlooking.1], hkey, hlooking.ask rfl, hreserves⟩
        · rintro e w ⟨-, hlooking, -⟩ he
          exact ⟨hlooking.ask rfl, hread _ _ e rfl he⟩
      · split
        next other hother =>
          rintro w ⟨rfl, hkey, hlooking, hreserves⟩
          refine ⟨hlooking, hreserves.set hkey ?_ ?_⟩
          · intro hdeclared
            rw [hreserves.declared key hdeclared] at hhasNot
            exact hhasNot rfl
          · rw [rivalOwner, hother]
            rfl
        next hnone =>
          rintro w ⟨rfl, hkey, hlooking, hreserves⟩
          refine ⟨hlooking, hreserves.pass hkey fun hfree => ?_⟩
          rw [rivalOwner, hnone]
          exact Option.not_isSome_iff_eq_none.mp hhasNot

/-- **The plan.**  It only reads; it is the diff of the manifest against the service's rows, with the keys
reserved that the YAML declares or that another owner has. -/
theorem triple_plan_or {F : Prop} {routes : List Value}
    (hread : ∀ asked op e, op.isRead = true → env.failure asked op = some e → F)
    (hyaml : ∀ e, reserveYaml config = .error e → F) (hkeys : ∀ r ∈ routes, ∀ e, routeKeyOf r = .error e → F)
    (hdiff : ∀ reserved e, Reserves config w₀.store service routes reserved →
      diffRoutes service routes (w₀.store.findByOwner service) reserved = .error e → F) :
    Triple env.service (fun w => w = w₀) (plan config service routes)
      (fun diff w => Looking w₀ w ∧ ∃ reserved, Reserves config w₀.store service routes reserved ∧
        diffRoutes service routes (w₀.store.findByOwner service) reserved = .ok diff)
      fun _ w => Looking w₀ w ∧ F := by
  unfold plan
  refine triple_bind (Q := fun existing w => existing = w₀.store.findByOwner service ∧ Looking w₀ w)
    ?_ fun existing => ?_
  · refine triple_findByOwner ?_ ?_
    · rintro w rfl
      exact ⟨rfl, (Looking.refl w).ask rfl⟩
    · rintro e w rfl he
      exact ⟨(Looking.refl w).ask rfl, hread _ _ e rfl he⟩
  · refine triple_bind (Q := fun reserved w => existing = w₀.store.findByOwner service ∧ Looking w₀ w ∧
      Reserves config w₀.store service [] reserved) ?_ fun yaml => ?_
    · refine triple_ofExcept ?_ fun e he w hw => ⟨hw.2, hyaml e he⟩
      intro yaml hyaml w hw
      exact ⟨hw.1, hw.2, ⟨yaml, hyaml⟩, nofun, fun key => (own_reserveYaml hyaml key).1, fun key _ hr =>
        by simp at hr,
        fun key hfree _ => (own_reserveYaml hyaml key).2 hfree⟩
    · refine triple_bind (Q := fun reserved w => existing = w₀.store.findByOwner service ∧ Looking w₀ w ∧
        Reserves config w₀.store service routes reserved) ?_ fun reserved => ?_
      · refine triple_foldEach (J := fun before reserved w => existing = w₀.store.findByOwner service ∧
          Looking w₀ w ∧ Reserves config w₀.store service before reserved) routes yaml ?_
        rintro before r after hroutes reserved w ⟨hexisting, hw⟩
        have hr : r ∈ routes := by
          rw [hroutes]
          exact List.mem_append_right _ (.head _)
        exact (triple_reserveRoute hread (hkeys r hr) w hw).mono
          (fun reserved w h => ⟨hexisting, h⟩) fun e w h => h
      · refine triple_ofExcept ?_ fun e he w hw => ⟨hw.2.1, hdiff reserved e hw.2.2 (hw.1 ▸ he)⟩
        rintro diff hok w ⟨rfl, hlooking, hreserves⟩
        exact ⟨hlooking, reserved, hreserves, hok⟩

/-- The plan, with the reason when it throws. -/
theorem triple_plan (config : GatewayConfig) (service : String) (routes : List Value) (w₀ : PathWorld) :
    Triple env.service (fun w => w = w₀) (plan config service routes)
      (fun diff w => Looking w₀ w ∧ ∃ reserved, Reserves config w₀.store service routes reserved ∧
        diffRoutes service routes (w₀.store.findByOwner service) reserved = .ok diff)
      fun _ w => Looking w₀ w ∧ PlanFails env config service routes w₀.store :=
  triple_plan_or (fun asked op e hop he => .read asked op hop e he) (fun e he => .yaml e he)
    (fun r hr e he => .key r hr e he) fun reserved e _ he => .diff reserved e he

end Plan

/-! ## What the rest can ask for -/

/-- The operations that writing a diff can ask for, in a world where the table is this one. -/
inductive Asks (service : String) (diff : RouteDiff) (store : PathStore) : PathOp → Prop
  | lookup (key : String) : Asks service diff store (.findByRouteKey key)
  | journal (entry : RouteSyncLogEntry) : Asks service diff store (.journal entry)
  | reload (topic : String) (hchanged : diff.changed = true) : Asks service diff store (.publishReload topic)
  | update (u : RouteUpsert) (hu : u ∈ diff.upserts) (id : String) (hid : u.existingId = some id) :
      Asks service diff store (.updateById (.str id) u.model)
  | insert (u : RouteUpsert) (hu : u ∈ diff.upserts) (hnone : u.existingId = none) :
      Asks service diff store (.insert u.model)
  | reconcile (u : RouteUpsert) (hu : u ∈ diff.upserts) (mine : StoredHttpPath) (hmine : mine ∈ store.rows)
      (hkey : mine.key = some u.routeKey) (howner : mine.ownerName = .str service) :
      Asks service diff store (.updateById (.str mine._id) u.model)
  | disable (d : RouteDisable) (hd : d ∈ diff.disables) :
      Asks service diff store (.updateById (.str d.id) [("enabled", .bool false)])

section Apply

variable {env : PathEnv} {config : GatewayConfig} {service : String} {diff : RouteDiff}
  {I : PathWorld → Prop}

theorem keeps_journal (h : ∀ w op, I w → Asks service diff w.store op → I (env.service w op).2)
    (entry : RouteSyncLogEntry) : Keeps env.service I (journal entry) :=
  Keeps.tryCatch (keeps_perform fun w hw => h w _ hw (.journal entry)) fun _ => keeps_ofExcept _

/-- What every operation keeps, a reconciled write keeps. -/
theorem keeps_reconcile {u : RouteUpsert}
    (h : ∀ w op, I w → Asks service diff w.store op → I (env.service w op).2) (hu : u ∈ diff.upserts) :
    Keeps env.service I (reconcile service u) := by
  have hlookup (w : PathWorld) (hw : I w) : I (w.after (.findByRouteKey u.routeKey) w.store) := by
    have hkept := h w _ hw (.lookup u.routeKey)
    unfold PathEnv.service at hkept
    split at hkept <;> exact hkept
  unfold reconcile
  refine triple_bind (Q := fun clashes w => I w ∧ clashes = w.store.findByRouteKey u.routeKey)
    (triple_findByRouteKey (fun w hw => ⟨hlookup w hw, rfl⟩) fun e w hw _ => hlookup w hw) fun clashes => ?_
  split
  next mine hmine =>
    refine triple_bind (Q := fun _ => I) (triple_perform ?_) fun _ => keeps_pure _
    rintro w ⟨hw, rfl⟩
    have hmem := PathStore.mem_findByRouteKey.mp (List.mem_of_find?_eq_some hmine)
    have howner := List.find?_some hmine
    have hkept := h w _ hw (.reconcile u hu mine hmem.1 hmem.2 ((Value.isText_iff _ _).mp howner))
    generalize env.service w (.updateById (.str mine._id) u.model) = r at hkept
    rcases r with ⟨e | a, w'⟩ <;> exact hkept
  next =>
    refine triple_bind (Q := fun _ => I) (fun w hw => keeps_ofExcept _ w hw.1) fun _ => ?_
    exact Keeps.bind (keeps_journal h _) fun _ => keeps_pure _

/-- **What every operation keeps, writing the diff keeps.** -/
theorem keeps_applyDiff (h : ∀ w op, I w → Asks service diff w.store op → I (env.service w op).2) :
    Keeps env.service I (applyDiff config service diff) := by
  unfold applyDiff
  -- loop by loop, in the order of the source
  refine Keeps.bind (keeps_forEach fun c _ => ?_) fun _ => ?_
  · unfold journalCollision
    split
    · exact keeps_pure ()
    · exact Keeps.bind (keeps_ofExcept _) fun _ => keeps_journal h _
  refine Keeps.bind (keeps_forEach fun _ _ => keeps_journal h _) fun _ => ?_
  refine Keeps.bind (keeps_forEach fun u hu => ?_) fun _ => ?_
  · unfold applyUpsert
    refine Keeps.bind (Keeps.tryCatch ?_ fun e => ?_) fun added => ?_
    · split
      next id hid =>
        exact Keeps.bind (keeps_perform fun w hw => h w _ hw (.update u hu id hid)) fun _ => keeps_pure _
      next hnone =>
        exact Keeps.bind (keeps_perform fun w hw => h w _ hw (.insert u hu hnone)) fun _ => keeps_pure _
    · split
      · exact keeps_reconcile h hu
      · exact fun w hw => hw
    · cases added with
      | none => exact keeps_pure ()
      | some added => exact keeps_journal h _
  refine Keeps.bind (keeps_forEach fun d hd => ?_) fun _ => ?_
  · exact Keeps.bind (keeps_perform fun w hw => h w _ hw (.disable d hd)) fun _ => keeps_journal h _
  refine Keeps.bind (keeps_forEach fun _ _ => keeps_journal h _) fun _ => ?_
  unfold announceChange
  split
  next hchanged =>
    refine Keeps.bind ?_ fun _ => keeps_journal h _
    unfold triggerReload
    split
    · split
      · exact keeps_pure ()
      · exact Keeps.tryCatch (keeps_perform fun w hw => h w _ hw (.reload _ hchanged)) fun _ => keeps_ofExcept _
    · exact keeps_pure ()
  next => exact keeps_pure ()

end Apply

end NestAmqp.Gateway
