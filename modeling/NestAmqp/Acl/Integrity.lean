/-
# NestAmqp.Acl.Integrity — grants name roles that exist, and roles name actions that exist.

The operations that create a reference check it: a role names known actions, a grant names known roles.
The two deletes check nothing, so a record can be deleted while others name it; the names it leaves
behind go on authorizing (an action), or authorize again once a record of that name is created (a role).
`referential_integrity` says that this is the only way: the stores stay consistent in every state of a
run exactly when its deletes only take records that nothing names.
-/
import NestAmqp.Acl.DecisionCache
import NestAmqp.Acl.Instances
import NestAmqp.Lib.NamedRecords

namespace NestAmqp.Acl

open NestAmqp.Js NestAmqp.Lib NestAmqp.Lib.Machine

/-! ## The stores and the six operations -/

namespace AclActionRepository

/-- `upsertOne({ name }, model)`: a description that is not in the model stays. -/
def upsertOne (actions : List AclAction) (model : AclAction) : List AclAction :=
  NamedRecords.upsert AclAction.name (fun a =>
    { a with description := match model.description with
        | .undefined => a.description
        | description => description }) actions model

/-- `removeOne({ name })`. -/
def removeOne (actions : List AclAction) (name : String) : List AclAction :=
  NamedRecords.remove AclAction.name actions name

end AclActionRepository

/-- The service with the three collections behind it. -/
structure Administration extends AclManagement where
  actions : List AclAction := []
  roles : List AclRole := []

/-- `assertActionsExist`. -/
def assertActionsExist (actions : List AclAction) (names : List String) : Except Thrown Unit :=
  let missing := names.filter fun n => !actions.any fun a => a.name == n
  if missing.isEmpty then .ok () else .error (badRequest ("Unknown actions: " ++ ", ".intercalate missing))

namespace Administration

/-- What the authorization check reads. -/
def stores (s : Administration) : AclStores := s.grants.stores s.roles

/-- `invalidateAll`, on the instance that mutates. -/
def invalidateAll (s : Administration) (weather : ManagementWeather) : Administration :=
  { s with acl := { cache := s.acl.cache.invalidate weather.invalidate none, rolesCache := none } }

/-- `upsertAction`. -/
def upsertAction (s : Administration) (weather : ManagementWeather) (name : String) (description : Value) :
    Except Thrown (Option AclAction) × Administration :=
  if name = "" then (.error (badRequest "name is required"), s)
  else match weather.write with
    | .error e => (.error e, s)
    | .ok _ =>
        let actions := AclActionRepository.upsertOne s.actions { name, description }
        (.ok (actions.find? fun a => a.name == name), { s with actions }.invalidateAll weather)

/-- `deleteAction`. -/
def deleteAction (s : Administration) (weather : ManagementWeather) (name : String) :
    Except Thrown (Option AclAction) × Administration :=
  if name = "" then (.error (badRequest "name is required"), s)
  else match weather.write with
    | .error e => (.error e, s)
    | .ok _ =>
        (.ok (s.actions.find? fun a => a.name == name),
          { s with actions := AclActionRepository.removeOne s.actions name }.invalidateAll weather)

/-- `upsertRole`. -/
def upsertRole (s : Administration) (weather : ManagementWeather) (role : AclRole) :
    Except Thrown (Option AclRole) × Administration :=
  if role.name = "" then (.error (badRequest "name is required"), s)
  else if role.actions.isEmpty then (.error (badRequest "actions are required"), s)
  else match assertActionsExist s.actions role.actions, weather.write with
    | .error e, _ => (.error e, s)
    | .ok _, .error e => (.error e, s)
    | .ok _, .ok _ =>
        let roles := upsertOne s.roles role
        (.ok (roles.find? fun r => r.name == role.name), { s with roles }.invalidateAll weather)

/-- `deleteRole`. -/
def deleteRole (s : Administration) (weather : ManagementWeather) (name : String) :
    Except Thrown (Option AclRole) × Administration :=
  if name = "" then (.error (badRequest "name is required"), s)
  else match weather.write with
    | .error e => (.error e, s)
    | .ok _ =>
        (.ok (s.roles.find? fun r => r.name == name),
          { s with roles := removeOne s.roles name }.invalidateAll weather)

end Administration

/-- A call, and what it meets. -/
inductive AdministrationCall where
  | upsertAction (weather : ManagementWeather) (name : String) (description : Value)
  | deleteAction (weather : ManagementWeather) (name : String)
  | upsertRole (weather : ManagementWeather) (role : AclRole)
  | deleteRole (weather : ManagementWeather) (name : String)
  | adminGrant (weather : ManagementWeather) (body : GrantBody)
  | adminRevoke (weather : ManagementWeather) (body : GrantBody)

/-- One call. -/
def Administration.step (s : Administration) : AdministrationCall → Administration
  | .upsertAction weather name description => (s.upsertAction weather name description).2
  | .deleteAction weather name => (s.deleteAction weather name).2
  | .upsertRole weather role => (s.upsertRole weather role).2
  | .deleteRole weather name => (s.deleteRole weather name).2
  | .adminGrant weather body =>
      { s with toAclManagement := (s.toAclManagement.adminGrant s.roles weather body).2 }
  | .adminRevoke weather body =>
      { s with toAclManagement := (s.toAclManagement.adminRevoke weather body).2 }

/-- The service over empty stores, with or without a shared cache. -/
def startAdministration (shared : Bool) : Administration where
  toAclManagement := { acl := startService shared, grants := .empty }

/-! ## Consistency -/

namespace Administration

/-- An action of this name exists. -/
def HasAction (s : Administration) (name : String) : Prop := name ∈ NamedRecords.names AclAction.name s.actions

/-- A role of this name exists. -/
def HasRole (s : Administration) (name : String) : Prop := name ∈ NamedRecords.names AclRole.name s.roles

/-- Every role that a grant names exists, and every action that a role names. -/
structure Referential (s : Administration) : Prop where
  roles : ∀ g ∈ s.grants.records, ∀ r ∈ g.roles, s.HasRole r
  actions : ∀ role ∈ s.roles, ∀ a ∈ role.actions, s.HasAction a

/-- The authorization check allows the request, whatever it meets on its way. -/
def Authorizes (options : AclModuleOptions) (s : Administration) (request : AclRequest) : Prop :=
  ∃ weather, (s.acl.checkAction options s.stores weather request).1 = .ok true

/-- The stores are consistent, and actions that do not exist are authorized for nobody. -/
structure Consistent (options : AclModuleOptions) (s : Administration) : Prop extends Referential s where
  unknown : ∀ request, (∀ a ∈ request.actions, ¬ s.HasAction a) → ¬ s.Authorizes options request

/-- A step that creates an action or a role of a new name authorizes nothing that was not authorized
before it. -/
def RevivesNothing (options : AclModuleOptions) (s s' : Administration) : Prop :=
  ((∃ a, ¬ s.HasAction a ∧ s'.HasAction a) ∨ ∃ r, ¬ s.HasRole r ∧ s'.HasRole r) →
    ∀ request, s'.Authorizes options request → s.Authorizes options request

/-- A delete that is carried out takes a record that nothing names. -/
def DeletesUnnamed (s : Administration) : AdministrationCall → Prop
  | .deleteAction weather name =>
      name = "" ∨ weather.write.isOk = false ∨ ∀ role ∈ s.roles, name ∉ role.actions
  | .deleteRole weather name =>
      name = "" ∨ weather.write.isOk = false ∨ ∀ g ∈ s.grants.records, name ∉ g.roles
  | _ => True

/-! ## What one call does -/

/-- The stores behind a call. -/
inductive Stepped (s s' : Administration) : AdministrationCall → Prop
  | kept (call : AdministrationCall) (hactions : s'.actions = s.actions) (hroles : s'.roles = s.roles)
      (hgrants : s'.grants = s.grants) (hplain : s.DeletesUnnamed call) : Stepped s s' call
  | upsertAction (weather : ManagementWeather) (name : String) (description : Value)
      (hactions : s'.actions = AclActionRepository.upsertOne s.actions { name, description })
      (hroles : s'.roles = s.roles) (hgrants : s'.grants = s.grants) :
      Stepped s s' (.upsertAction weather name description)
  | deleteAction (weather : ManagementWeather) (name : String) (hnamed : name ≠ "")
      (hwrite : weather.write.isOk = true)
      (hactions : s'.actions = AclActionRepository.removeOne s.actions name)
      (hroles : s'.roles = s.roles) (hgrants : s'.grants = s.grants) :
      Stepped s s' (.deleteAction weather name)
  | upsertRole (weather : ManagementWeather) (role : AclRole) (hknown : ∀ a ∈ role.actions, s.HasAction a)
      (hactions : s'.actions = s.actions) (hroles : s'.roles = upsertOne s.roles role)
      (hgrants : s'.grants = s.grants) : Stepped s s' (.upsertRole weather role)
  | deleteRole (weather : ManagementWeather) (name : String) (hnamed : name ≠ "")
      (hwrite : weather.write.isOk = true) (hactions : s'.actions = s.actions)
      (hroles : s'.roles = Acl.removeOne s.roles name) (hgrants : s'.grants = s.grants) :
      Stepped s s' (.deleteRole weather name)
  | grants (call : AdministrationCall) (hactions : s'.actions = s.actions) (hroles : s'.roles = s.roles)
      (hknown : ∀ g ∈ s'.grants.records, ∀ r ∈ g.roles,
        s.HasRole r ∨ ∃ g₀ ∈ s.grants.records, r ∈ g₀.roles)
      (hplain : s.DeletesUnnamed call) : Stepped s s' call

/-- The caches behind a call: what they hold, they held before. -/
structure Forgets (s s' : Administration) : Prop where
  decisions : ∀ k v, s'.acl.cache.Caches k v → s.acl.cache.Caches k v
  memo : s'.acl.rolesCache = s.acl.rolesCache ∨ s'.acl.rolesCache = none

theorem Forgets.refl (s : Administration) : Forgets s s := ⟨fun _ _ h => h, .inl rfl⟩

theorem forgets_invalidate {s s' : Administration} {weather : CacheWeather} {userId : Option String}
    (hcache : s'.acl.cache = s.acl.cache.invalidate weather userId)
    (hroles : s'.acl.rolesCache = s.acl.rolesCache ∨ s'.acl.rolesCache = none) : Forgets s s' := by
  refine ⟨fun k v hcached => ?_, hroles⟩
  rw [hcache] at hcached
  exact AclCacheService.Caches.of_invalidate hcached

theorem hasAction_of_assert {s : Administration} {names : List String} {u : Unit}
    (h : assertActionsExist s.actions names = .ok u) : ∀ a ∈ names, s.HasAction a := by
  unfold assertActionsExist at h
  dsimp only at h
  split at h
  next hnone =>
    intro a ha
    have hfound := List.filter_eq_nil_iff.mp (List.isEmpty_iff.mp hnone) a ha
    simp only [Bool.not_eq_true', Bool.not_eq_false] at hfound
    obtain ⟨action, haction, hname⟩ := List.any_eq_true.mp hfound
    exact NamedRecords.mem_names.mpr ⟨action, haction, beq_iff_eq.mp hname⟩
  next => cases h

/-- What a write of grants leaves in the records. -/
theorem roles_of_touches {userId : String} {t : Target} {roles : List String} {records records' : List AclGrant}
    (h : Touches userId t roles records records') {g : AclGrant} (hg : g ∈ records') {r : String}
    (hr : r ∈ g.roles) : r ∈ roles ∨ ∃ g₀ ∈ records, r ∈ g₀.roles := by
  rcases h.records g hg with hold | ⟨-, -, hroles⟩
  · exact .inr ⟨g, hold, hr⟩
  · rcases hroles r hr with hnew | ⟨g₀, hg₀, -, -, hr₀⟩
    · exact .inl hnew
    · exact .inr ⟨g₀, hg₀, hr₀⟩

/-- What a call does to the stores and to the caches. -/
def Does (s : Administration) (call : AdministrationCall) (s' : Administration) : Prop :=
  Stepped s s' call ∧ Forgets s s'

/-- **One call.** -/
theorem step_spec (s : Administration) (call : AdministrationCall) : s.Does call (s.step call) := by
  -- what fails, or names nothing, leaves the administration as it was
  have hsame (hplain : s.DeletesUnnamed call) : s.Does call s := ⟨.kept call rfl rfl rfl hplain, .refl s⟩
  rcases call with ⟨weather, name, description⟩ | ⟨weather, name⟩ | ⟨weather, role⟩ | ⟨weather, name⟩ |
    ⟨weather, body⟩ | ⟨weather, body⟩
  · show s.Does _ (s.upsertAction weather name description).2
    unfold Administration.upsertAction
    split
    · exact hsame trivial
    · split
      · exact hsame trivial
      · exact ⟨.upsertAction _ _ _ rfl rfl rfl, forgets_invalidate rfl (.inr rfl)⟩
  · show s.Does _ (s.deleteAction weather name).2
    unfold Administration.deleteAction
    split
    next hempty => exact hsame (.inl hempty)
    next hnamed =>
      split
      next hwrite => exact hsame (.inr (.inl (by rw [hwrite]; rfl)))
      next hwrite =>
        exact ⟨.deleteAction _ _ hnamed (by rw [hwrite]; rfl) rfl rfl rfl, forgets_invalidate rfl (.inr rfl)⟩
  · show s.Does _ (s.upsertRole weather role).2
    unfold Administration.upsertRole
    split
    · exact hsame trivial
    · split
      · exact hsame trivial
      · split
        · exact hsame trivial
        · exact hsame trivial
        next hknown _ =>
          exact ⟨.upsertRole _ _ (hasAction_of_assert hknown) rfl rfl rfl, forgets_invalidate rfl (.inr rfl)⟩
  · show s.Does _ (s.deleteRole weather name).2
    unfold Administration.deleteRole
    split
    next hempty => exact hsame (.inl hempty)
    next hnamed =>
      split
      next hwrite => exact hsame (.inr (.inl (by rw [hwrite]; rfl)))
      next hwrite =>
        exact ⟨.deleteRole _ _ hnamed (by rw [hwrite]; rfl) rfl rfl rfl, forgets_invalidate rfl (.inr rfl)⟩
  · show s.Does _ { s with toAclManagement := (s.toAclManagement.adminGrant s.roles weather body).2 }
    unfold AclManagement.adminGrant
    split
    · exact hsame trivial
    · exact hsame trivial
    next result grants _ hgrant _ =>
      refine ⟨.grants _ rfl rfl (fun g hg r hr => ?_) trivial, forgets_invalidate rfl (.inl rfl)⟩
      -- a role of the new grant was checked, one of an old grant was there
      rcases roles_of_touches (applyGrant_touches hgrant) hg hr with hnew | hold
      · obtain ⟨role, hrole, hname⟩ := assertRolesExist_isOk_iff.mp (applyGrant_rolesExist hgrant) r hnew
        exact .inl (NamedRecords.mem_names.mpr ⟨role, hrole, hname⟩)
      · exact .inr hold
  · show s.Does _ { s with toAclManagement := (s.toAclManagement.adminRevoke weather body).2 }
    unfold AclManagement.adminRevoke
    split
    · exact hsame trivial
    · exact hsame trivial
    · exact hsame trivial
    next result grants _ hrevoke _ =>
      refine ⟨.grants _ rfl rfl (fun g hg r hr => ?_) trivial, forgets_invalidate rfl (.inl rfl)⟩
      exact .inr ((roles_of_touches (applyRevoke_touches hrevoke) hg hr).resolve_left List.not_mem_nil)

/-! ## Checks without a cached decision -/

/-- Nothing is cached: no decision, and no list of roles. -/
structure Uncached (s : Administration) : Prop where
  decisions : ∀ k v, ¬ s.acl.cache.Caches k v
  memo : s.acl.rolesCache = none

theorem Uncached.forgets {s s' : Administration} (h : s.Uncached) (hforgets : Forgets s s') : s'.Uncached where
  decisions k v hcached := h.decisions k v (hforgets.decisions k v hcached)
  memo := hforgets.memo.elim (fun heq => heq.trans h.memo) id

/-- Without a cached decision the check answers by the stores. -/
theorem Uncached.authorizes_iff {s : Administration} (h : s.Uncached) (options : AclModuleOptions)
    (request : AclRequest) :
    s.Authorizes options request ↔ request.asks = true ∧ s.stores.decision request = true := by
  have hcurrent : AclService.RolesCurrent s.stores s.acl := by
    intro memo hmemo
    rw [h.memo] at hmemo
    cases hmemo
  constructor
  · rintro ⟨weather, hanswer⟩
    cases hasks : request.asks with
    | false =>
        rw [AclService.checkAction_of_not_asks hasks] at hanswer
        cases hanswer
    | true =>
        obtain ⟨-, hdecided, -⟩ := AclService.checkAction_spec options weather request hcurrent
        rcases hdecided true hasks hanswer with hdecision | hcached
        · exact ⟨rfl, hdecision.symm⟩
        · exact absurd hcached (h.decisions _ _)
  · rintro ⟨hasks, hdecision⟩
    refine ⟨{}, ?_⟩
    obtain ⟨hhit, -⟩ := AclCacheService.get_spec options.cache s.acl.cache {} request.userId request.cacheAction
    rcases hget : s.acl.cache.get options.cache {} request.userId request.cacheAction with ⟨cached | v, cache⟩
    · rw [AclService.checkAction_of_miss hasks hget rfl]
      have hcurrent' : AclService.RolesCurrent s.stores { s.acl with cache } := hcurrent
      exact congrArg Except.ok ((AclService.resolveAllowed_spec options request hcurrent' _).1.trans hdecision)
    · rw [hget] at hhit
      exact absurd (hhit v rfl) (h.decisions _ _)

/-! ## Every run -/

/-- What a run of consistent states keeps: nothing is cached, and every name is one record's. -/
structure Maintained (s : Administration) : Prop extends Referential s, Uncached s where
  actionNames : (NamedRecords.names AclAction.name s.actions).Nodup
  roleNames : (NamedRecords.names AclRole.name s.roles).Nodup

/-- The roles are put and removed by name. -/
theorem upsertOne_eq (roles : List AclRole) (role : AclRole) :
    upsertOne roles role = NamedRecords.upsert AclRole.name (fun r =>
      { r with
        actions := role.actions
        description := match role.description with
          | .undefined => r.description
          | description => description }) roles role := rfl

section Step

variable {s s' : Administration} {call : AdministrationCall} {options : AclModuleOptions} {request : AclRequest}

theorem Maintained.start (shared : Bool) : (startAdministration shared).Maintained where
  roles _ hg := (List.not_mem_nil hg).elim
  actions _ hrole := (List.not_mem_nil hrole).elim
  decisions := startService_caches shared
  memo := rfl
  actionNames := List.nodup_nil
  roleNames := List.nodup_nil

/-- Consistent stores authorize no action that does not exist. -/
theorem Maintained.consistent (h : s.Maintained) (options : AclModuleOptions) : s.Consistent options where
  toReferential := h.toReferential
  unknown request hunknown hauthorizes := by
    obtain ⟨-, hdecision⟩ := (h.toUncached.authorizes_iff options request).mp hauthorizes
    obtain ⟨g, -, -, name, -, a, ha, role, hrole, -, har⟩ := allowedBy_iff.mp hdecision
    exact hunknown a ha (h.actions role hrole a har)

/-- A role behind an upsert is an old one, or has the new actions. -/
theorem actions_of_upsertOne {roles : List AclRole} {role r : AclRole} (h : r ∈ upsertOne roles role) :
    r ∈ roles ∨ r.actions = role.actions := by
  rw [upsertOne_eq] at h
  rcases NamedRecords.mem_upsert h with hold | rfl | ⟨a, -, -, rfl⟩
  · exact .inl hold
  · exact .inr rfl
  · exact .inr rfl

/-- The records are as they were. -/
theorem Maintained.kept (h : s.Maintained) (huncached : s'.Uncached) (hactions : s'.actions = s.actions)
    (hroles : s'.roles = s.roles) (hgrants : s'.grants = s.grants) : s'.Maintained where
  toUncached := huncached
  roles := by simpa only [HasRole, hgrants, hroles] using h.roles
  actions := by simpa only [HasAction, hactions, hroles] using h.actions
  actionNames := by simpa only [hactions] using h.actionNames
  roleNames := by simpa only [hroles] using h.roleNames

theorem Maintained.upsertAction (h : s.Maintained) (huncached : s'.Uncached) {action : AclAction}
    (hactions : s'.actions = AclActionRepository.upsertOne s.actions action)
    (hroles : s'.roles = s.roles) (hgrants : s'.grants = s.grants) : s'.Maintained where
  toUncached := huncached
  roles := by simpa only [HasRole, hgrants, hroles] using h.roles
  actions role hrole a ha := by
    rw [hroles] at hrole
    unfold HasAction
    rw [hactions]
    refine (NamedRecords.mem_names_upsert ?_).mpr (.inl (h.actions role hrole a ha))
    exact fun _ => rfl
  actionNames := by
    rw [hactions]
    exact NamedRecords.nodup_upsert (fun _ => rfl) h.actionNames
  roleNames := by simpa only [hroles] using h.roleNames

/-- No role names the action. -/
theorem Maintained.deleteAction (h : s.Maintained) (huncached : s'.Uncached) {name : String}
    (hunnamed : ∀ role ∈ s.roles, name ∉ role.actions)
    (hactions : s'.actions = AclActionRepository.removeOne s.actions name)
    (hroles : s'.roles = s.roles) (hgrants : s'.grants = s.grants) : s'.Maintained where
  toUncached := huncached
  roles := by simpa only [HasRole, hgrants, hroles] using h.roles
  actions role hrole a ha := by
    rw [hroles] at hrole
    unfold HasAction
    rw [hactions]
    refine (NamedRecords.mem_names_remove h.actionNames).mpr ⟨h.actions role hrole a ha, ?_⟩
    rintro rfl
    exact hunnamed role hrole ha
  actionNames := by
    rw [hactions]
    exact NamedRecords.nodup_remove h.actionNames
  roleNames := by simpa only [hroles] using h.roleNames

/-- The actions of the role exist. -/
theorem Maintained.upsertRole (h : s.Maintained) (huncached : s'.Uncached) {role : AclRole}
    (hknown : ∀ a ∈ role.actions, s.HasAction a) (hactions : s'.actions = s.actions)
    (hroles : s'.roles = upsertOne s.roles role) (hgrants : s'.grants = s.grants) : s'.Maintained where
  toUncached := huncached
  roles g hg r hr := by
    rw [hgrants] at hg
    unfold HasRole
    rw [hroles, upsertOne_eq]
    refine (NamedRecords.mem_names_upsert ?_).mpr (.inl (h.roles g hg r hr))
    exact fun _ => rfl
  actions r hr a ha := by
    unfold HasAction
    rw [hactions]
    rw [hroles] at hr
    rcases actions_of_upsertOne hr with hold | hnew
    · exact h.actions r hold a ha
    · exact hknown a (hnew ▸ ha)
  actionNames := by simpa only [hactions] using h.actionNames
  roleNames := by
    rw [hroles, upsertOne_eq]
    exact NamedRecords.nodup_upsert (fun _ => rfl) h.roleNames

/-- No grant names the role. -/
theorem Maintained.deleteRole (h : s.Maintained) (huncached : s'.Uncached) {name : String}
    (hunnamed : ∀ g ∈ s.grants.records, name ∉ g.roles) (hactions : s'.actions = s.actions)
    (hroles : s'.roles = Acl.removeOne s.roles name) (hgrants : s'.grants = s.grants) : s'.Maintained where
  toUncached := huncached
  roles g hg r hr := by
    rw [hgrants] at hg
    unfold HasRole
    rw [hroles]
    refine (NamedRecords.mem_names_remove h.roleNames).mpr ⟨h.roles g hg r hr, ?_⟩
    rintro rfl
    exact hunnamed g hg hr
  actions role hrole a ha := by
    unfold HasAction
    rw [hactions]
    rw [hroles] at hrole
    exact h.actions role (NamedRecords.mem_remove hrole) a ha
  actionNames := by simpa only [hactions] using h.actionNames
  roleNames := by
    rw [hroles]
    exact NamedRecords.nodup_remove h.roleNames

/-- The roles that grants name exist, or were named before. -/
theorem Maintained.grants (h : s.Maintained) (huncached : s'.Uncached) (hactions : s'.actions = s.actions)
    (hroles : s'.roles = s.roles) (hknown : ∀ g ∈ s'.grants.records, ∀ r ∈ g.roles,
      s.HasRole r ∨ ∃ g₀ ∈ s.grants.records, r ∈ g₀.roles) : s'.Maintained where
  toUncached := huncached
  roles g hg r hr := by
    unfold HasRole
    rw [hroles]
    rcases hknown g hg r hr with hrole | ⟨g₀, hg₀, hr₀⟩
    · exact hrole
    · exact h.roles g₀ hg₀ r hr₀
  actions := by simpa only [HasAction, hactions, hroles] using h.actions
  actionNames := by simpa only [hactions] using h.actionNames
  roleNames := by simpa only [hroles] using h.roleNames

/-- **One call keeps the stores consistent** when it deletes no record that another one names. -/
theorem Maintained.step (h : s.Maintained) (hdeletes : s.DeletesUnnamed call) : (s.step call).Maintained := by
  obtain ⟨hstepped, hforgets⟩ := step_spec s call
  have huncached := h.toUncached.forgets hforgets
  generalize s.step call = s' at hstepped huncached ⊢
  cases hstepped with
  | kept _ hactions hroles hgrants => exact h.kept huncached hactions hroles hgrants
  | upsertAction weather name description hactions hroles hgrants =>
      exact h.upsertAction huncached hactions hroles hgrants
  | upsertRole weather role hknown hactions hroles hgrants =>
      exact h.upsertRole huncached hknown hactions hroles hgrants
  | grants _ hactions hroles hknown => exact h.grants huncached hactions hroles hknown
  -- a delete that was carried out: the condition leaves the case that nothing names the record
  | deleteAction weather name hnamed hwrite hactions hroles hgrants =>
      have hdone : ¬ (name = "" ∨ weather.write.isOk = false) := by simp [hnamed, hwrite]
      exact h.deleteAction huncached ((or_assoc.mpr hdeletes).resolve_left hdone) hactions hroles hgrants
  | deleteRole weather name hnamed hwrite hactions hroles hgrants =>
      have hdone : ¬ (name = "" ∨ weather.write.isOk = false) := by simp [hnamed, hwrite]
      exact h.deleteRole huncached ((or_assoc.mpr hdeletes).resolve_left hdone) hactions hroles hgrants

/-- A delete of a record that another one names leaves the other's reference behind. -/
theorem Maintained.broken (h : s.Maintained) (hdeletes : ¬ s.DeletesUnnamed call) :
    ¬ (s.step call).Referential := by
  intro hreferential
  obtain ⟨hstepped, -⟩ := step_spec s call
  generalize s.step call = s' at hstepped hreferential
  cases hstepped with
  | kept _ _ _ _ hplain => exact hdeletes hplain
  | upsertAction => exact hdeletes trivial
  | deleteAction weather name hnamed hwrite hactions hroles hgrants =>
      apply hdeletes
      refine .inr (.inr fun role hrole ha => ?_)
      have hstill := hreferential.actions role (hroles ▸ hrole) name ha
      unfold HasAction at hstill
      rw [hactions] at hstill
      exact ((NamedRecords.mem_names_remove h.actionNames).mp hstill).2 rfl
  | upsertRole => exact hdeletes trivial
  | deleteRole weather name hnamed hwrite hactions hroles hgrants =>
      apply hdeletes
      refine .inr (.inr fun g hg hr => ?_)
      have hstill := hreferential.roles g (hgrants ▸ hg) name hr
      unfold HasRole at hstill
      rw [hroles] at hstill
      exact ((NamedRecords.mem_names_remove h.roleNames).mp hstill).2 rfl
  | grants _ _ _ _ hplain => exact hdeletes hplain

/-- A role of a new name changes no decision: nobody was granted it. -/
theorem Maintained.decision_upsertRole (h : s.Maintained) {role : AclRole} (hnew : ¬ s.HasRole role.name)
    (hroles : s'.roles = upsertOne s.roles role) (hgrants : s'.grants = s.grants)
    (hdecision : s'.stores.decision request = true) : s.stores.decision request = true := by
  have hadded : s'.roles = s.roles ++ [role] := by
    rw [hroles, upsertOne_eq]
    exact NamedRecords.upsert_of_not_mem hnew
  obtain ⟨g, hg, happlies, name, hname, a, ha, r, hr, hrname, har⟩ := allowedBy_iff.mp hdecision
  have hg₀ : g ∈ s.grants.records := by
    rw [← hgrants]
    exact hg
  refine allowedBy_iff.mpr ⟨g, hg₀, happlies, name, hname, a, ha, r, ?_, hrname, har⟩
  change r ∈ s'.roles at hr
  rw [hadded] at hr
  rcases List.mem_append.mp hr with hold | hlast
  · exact hold
  · rw [List.mem_singleton.mp hlast] at hrname
    exact absurd (hrname ▸ h.roles g hg₀ name hname) hnew

/-- **One call revives nothing.** -/
theorem Maintained.revivesNothing (h : s.Maintained) (options : AclModuleOptions) (call : AdministrationCall) :
    s.RevivesNothing options (s.step call) := by
  obtain ⟨hstepped, hforgets⟩ := step_spec s call
  have huncached := h.toUncached.forgets hforgets
  intro hcreates request hauthorizes
  obtain ⟨hasks, hdecision⟩ := (huncached.authorizes_iff options request).mp hauthorizes
  refine (h.toUncached.authorizes_iff options request).mpr ⟨hasks, ?_⟩
  generalize s.step call = s' at hstepped hcreates hdecision
  have hsame (hroles : s'.roles = s.roles) (hgrants : s'.grants = s.grants) :
      s.stores.decision request = true := by
    unfold stores
    rw [← hroles, ← hgrants]
    exact hdecision
  cases hstepped with
  | kept _ _ hroles hgrants => exact hsame hroles hgrants
  | upsertAction _ _ _ _ hroles hgrants => exact hsame hroles hgrants
  | deleteAction _ _ _ _ _ hroles hgrants => exact hsame hroles hgrants
  | upsertRole weather role hknown hactions hroles hgrants =>
      by_cases hexists : s.HasRole role.name
      · -- The role was there, so the call creates no name.
        exfalso
        rcases hcreates with ⟨a, hno, hyes⟩ | ⟨r, hno, hyes⟩
        · exact hno (by simpa only [HasAction, hactions] using hyes)
        · apply hno
          unfold HasRole at hyes ⊢
          rw [hroles, upsertOne_eq, NamedRecords.names_upsert_of_mem ?_ hexists] at hyes
          · exact hyes
          · exact fun _ => rfl
      · exact h.decision_upsertRole hexists hroles hgrants hdecision
  | deleteRole weather name _ _ hactions hroles _ =>
      exfalso
      rcases hcreates with ⟨a, hno, hyes⟩ | ⟨r, hno, hyes⟩
      · exact hno (by simpa only [HasAction, hactions] using hyes)
      · unfold HasRole at hyes
        rw [hroles] at hyes
        exact hno ((NamedRecords.mem_names_remove h.roleNames).mp hyes).1
  | grants _ hactions hroles =>
      exfalso
      rcases hcreates with ⟨a, hno, hyes⟩ | ⟨r, hno, hyes⟩
      · exact hno (by simpa only [HasAction, hactions] using hyes)
      · exact hno (by simpa only [HasRole, hroles] using hyes)

end Step

/-- **Referential integrity.**  In a run from empty stores, every state is consistent and no creation
revives an authorization exactly when every delete that is carried out takes a record that nothing
names. -/
theorem referential_integrity (options : AclModuleOptions) (shared : Bool) (calls : List AdministrationCall) :
    ((∀ s, Reaches step (startAdministration shared) calls s → s.Consistent options) ∧
      Along step (fun s call => s.RevivesNothing options (s.step call)) (startAdministration shared) calls) ↔
    Along step DeletesUnnamed (startAdministration shared) calls := by
  have hkeeps (s : Administration) (call : AdministrationCall) (hs : s.Maintained)
      (hdeletes : s.DeletesUnnamed call) : (s.step call).Maintained := hs.step hdeletes
  have hbreaks (s : Administration) (call : AdministrationCall) (hs : s.Maintained)
      (hdeletes : ¬ s.DeletesUnnamed call) : ¬ (s.step call).Consistent options :=
    fun hconsistent => hs.broken hdeletes hconsistent.toReferential
  have hstates (s : Administration) (hs : s.Maintained) : s.Consistent options := hs.consistent options
  have hconsistent := Along.iff_forall_reaches hstates hkeeps hbreaks (Maintained.start shared) calls
  rw [hconsistent]
  refine and_iff_left_of_imp fun hdeletes => ?_
  exact Along.of_invariant hkeeps (fun s call hs _ => hs.revivesNothing options call) (Maintained.start shared)
    hdeletes

section Examples

/-- A user who may read by a role. -/
def viewing : List AdministrationCall :=
  [.upsertAction {} "read" .undefined, .upsertRole {} { name := "viewer", actions := ["read"] },
    .adminGrant {} { userId := "u1", roles := ["viewer"] }]

/-- The deleted action is still in the role, and still authorized. -/
theorem not_referential_deletedAction :
    ¬ ∀ (options : AclModuleOptions) (shared : Bool) (calls : List AdministrationCall),
      (∀ s, Reaches step (startAdministration shared) calls s → s.Consistent options) ∧
      Along step (fun s call => s.RevivesNothing options (s.step call)) (startAdministration shared) calls := by
  intro h
  have hconsistent := (h {} false (viewing ++ [.deleteAction {} "read"])).1 _ (reaches_run _ _ _)
  refine hconsistent.unknown { userId := "u1", ctx := none, action := .one "read" } ?_ ⟨{}, rfl⟩
  intro a ha hhas
  obtain ⟨action, haction, -⟩ := NamedRecords.mem_names.mp hhas
  exact List.not_mem_nil haction

end Examples

end Administration

end NestAmqp.Acl
