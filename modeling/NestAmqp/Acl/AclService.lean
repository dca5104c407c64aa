/-
# NestAmqp.Acl.AclService — the authorization check.

`checkAction` answers whether a user holds one of some actions on a target: from the decision cache, or
by `resolveAllowed` over the roles and the grants, whose answer it then caches.  The roles are memoized
in turn.  The second half says what one check can do: what it can answer, and what it leaves in the cache.
-/
import NestAmqp.Acl.AuthMatch
import NestAmqp.Acl.CacheService
import NestAmqp.Js.Thrown

namespace NestAmqp.Acl

open NestAmqp.Js

/-- `AclModuleOptions`. -/
structure AclModuleOptions where
  cache : AclCacheOptions := {}
  roleManagementAction : Option String := none
  roleSystemAction : Option String := none
  checkTimeoutMs : Option Int := none

def AclModuleOptions.checkTimeout (options : AclModuleOptions) : Int := options.checkTimeoutMs.getD 5000

/-- The arguments of one `checkAction`. -/
structure AclRequest where
  userId : String
  ctx : Option AclResourceContext
  action : OneOrMany

/-- `this.toList(action)`. -/
def AclRequest.actions (request : AclRequest) : List String := request.action.toList

/-- The roles and the grants behind the service.  `applyGrant` refuses an empty user id, so no grant has
one. -/
structure AclStores where
  roles : List AclRole
  grants : List AclGrant
  named : ∀ g ∈ grants, g.userId ≠ ""

/-- `rolesCache`. -/
structure RolesMemo where
  data : List AclRole
  exp : Int

/-- The state of the service. -/
structure AclService where
  cache : AclCacheService := {}
  rolesCache : Option RolesMemo := none

/-- What the repositories do while a decision is resolved. -/
inductive Database where
  | answers
  | fails (e : Thrown)
  | stalls

/-- What one check meets. -/
structure Weather where
  cache : CacheWeather := {}
  listedAt : Int := 0
  database : Database := .answers

/-- `withTimeout`: without a deadline a stalled read is waited for. -/
def withTimeout (database : Database) (ms : Int) (label : String) : Except Thrown Unit :=
  match database with
  | .answers => .ok ()
  | .fails e => .error e
  | .stalls =>
      if ms ≤ 0 then .ok ()
      else .error (.error
        { name := "Error", message := "ACL " ++ label ++ " timed out after " ++ toString ms ++ "ms" })

/-! ## The decision -/

/-- The names of the roles that include one of the actions. -/
def roleNames (roles : List AclRole) (actions : List String) : List String :=
  (roles.filter fun r => r.actions.any actions.contains).map (·.name)

/-- The grants `ctx` leaves: an undefined context is no restriction. -/
def scopedGrants (grants : List AclGrant) : Option AclResourceContext → List AclGrant
  | none => grants
  | some ctx => grants.filter fun g => grantMatchesResource g (some ctx)

/-- The body of `resolveAllowed`, given the roles. -/
def allowedBy (roles : List AclRole) (grants : List AclGrant) (request : AclRequest) : Bool :=
  let names := roleNames roles request.actions
  if names.isEmpty then false
  else
    (scopedGrants (grants.filter fun g => g.userId == request.userId) request.ctx).any fun g =>
      g.roles.any names.contains

/-- What `resolveAllowed` returns for its own arguments. -/
def AclStores.decision (stores : AclStores) (request : AclRequest) : Bool :=
  allowedBy stores.roles stores.grants request

/-- A grant is for the user, on the target the context names. -/
def AclGrant.AppliesTo (g : AclGrant) (userId : String) (ctx : Option AclResourceContext) : Prop :=
  g.userId = userId ∧ ∀ c, ctx = some c → g.target = c.target

/-- A role of the catalogue is behind the name and includes the action. -/
def Grants (roles : List AclRole) (roleName action : String) : Prop :=
  ∃ r ∈ roles, r.name = roleName ∧ action ∈ r.actions

theorem mem_roleNames {roles : List AclRole} {actions : List String} {name : String} :
    name ∈ roleNames roles actions ↔ ∃ a ∈ actions, Grants roles name a := by
  unfold roleNames Grants
  simp only [List.mem_map, List.mem_filter, List.any_eq_true, List.contains_iff_mem]
  constructor
  · rintro ⟨r, ⟨hr, a, har, ha⟩, rfl⟩
    exact ⟨a, ha, r, hr, rfl, har⟩
  · rintro ⟨a, ha, r, hr, rfl, har⟩
    exact ⟨r, ⟨hr, a, har, ha⟩, rfl⟩

theorem mem_scopedGrants {grants : List AclGrant} {request : AclRequest} {g : AclGrant} :
    g ∈ scopedGrants (grants.filter fun g => g.userId == request.userId) request.ctx ↔
      g ∈ grants ∧ g.AppliesTo request.userId request.ctx := by
  unfold scopedGrants AclGrant.AppliesTo
  cases request.ctx with
  | none => simp
  | some ctx =>
      simp only [List.mem_filter, grantMatchesResource_iff, beq_iff_eq, Option.some.injEq, forall_eq']
      rw [and_assoc]

/-- **The decision.**  Some grant of the user on the target carries a role that includes an action. -/
theorem allowedBy_iff {roles : List AclRole} {grants : List AclGrant} {request : AclRequest} :
    allowedBy roles grants request = true ↔
      ∃ g ∈ grants, g.AppliesTo request.userId request.ctx ∧
        ∃ role ∈ g.roles, ∃ a ∈ request.actions, Grants roles role a := by
  unfold allowedBy
  dsimp only
  have hany (names : List String) :
      ((scopedGrants (grants.filter fun g => g.userId == request.userId) request.ctx).any fun g =>
        g.roles.any names.contains) = true ↔
      ∃ g ∈ grants, g.AppliesTo request.userId request.ctx ∧ ∃ role ∈ g.roles, role ∈ names := by
    simp only [List.any_eq_true, List.contains_iff_mem, mem_scopedGrants, and_assoc]
  split
  next hempty =>
    have hnil := List.isEmpty_iff.mp hempty
    refine iff_of_false Bool.false_ne_true ?_
    rintro ⟨g, -, -, role, -, a, ha, hgrants⟩
    have hmem := mem_roleNames.mpr ⟨a, ha, hgrants⟩
    rw [hnil] at hmem
    cases hmem
  next =>
    rw [hany]
    simp only [mem_roleNames]

/-! ## The check -/

/-- `scopeKey`. -/
def scopeKey : Option AclResourceContext → String
  | none => "agnostic"
  | some ctx =>
      (ctx.companyId.coalesce (.str "*")).toStr ++ "|" ++ (ctx.resourceId.coalesce (.str "*")).toStr

/-- `cacheAction`. -/
def AclRequest.cacheAction (request : AclRequest) : String :=
  "act:" ++ scopeKey request.ctx ++ ":" ++ joinComma (sortTexts request.actions)

/-- The key of the cached decision. -/
def AclRequest.key (request : AclRequest) : String := cacheKey request.userId request.cacheAction

/-- `!userId || !actions.length` is false. -/
def AclRequest.asks (request : AclRequest) : Bool := request.userId != "" && !request.actions.isEmpty

namespace AclService

variable (options : AclModuleOptions) (stores : AclStores)

/-- `listRolesCached`. -/
def listRolesCached (s : AclService) (now : Int) : List AclRole × AclService :=
  let fresh : List AclRole × AclService :=
    (stores.roles, { s with rolesCache := some { data := stores.roles, exp := now + options.cache.ramTtl } })
  match s.rolesCache with
  | some memo => if memo.exp > now then (memo.data, s) else fresh
  | none => fresh

/-- `resolveAllowed`. -/
def resolveAllowed (s : AclService) (now : Int) (request : AclRequest) : Bool × AclService :=
  let (allRoles, s) := s.listRolesCached options stores now
  (allowedBy allRoles stores.grants request, s)

/-- `checkAction`. -/
def checkAction (s : AclService) (weather : Weather) (request : AclRequest) :
    Except Thrown Bool × AclService :=
  if request.asks then
    match s.cache.get options.cache weather.cache request.userId request.cacheAction with
    | (some cached, cache) => (.ok cached, { s with cache })
    | (none, cache) =>
        -- read before the database, so that an invalidation in between shows
        let seenGen := cache.gen
        match withTimeout weather.database options.checkTimeout "checkAction" with
        | .error e => (.error e, { s with cache })
        | .ok _ =>
            let (allowed, s) := { s with cache }.resolveAllowed options stores weather.listedAt request
            let cache := s.cache.set options.cache weather.cache request.userId request.cacheAction allowed
              seenGen
            (.ok allowed, { s with cache })
  else (.ok false, s)

/-! ## What one check does -/

/-- The memoized roles are the stored ones. -/
def RolesCurrent (stores : AclStores) (s : AclService) : Prop :=
  ∀ memo, s.rolesCache = some memo → memo.data = stores.roles

variable {options stores} {s : AclService} {weather : Weather} {request : AclRequest}

/-- Resolving leaves the decision cache alone. -/
theorem resolveAllowed_cache (s : AclService) (now : Int) :
    (s.resolveAllowed options stores now request).2.cache = s.cache := by
  unfold resolveAllowed listRolesCached
  dsimp only
  split
  · split <;> rfl
  · rfl

/-- Resolving gives the decision. -/
theorem resolveAllowed_spec (options : AclModuleOptions) (request : AclRequest)
    (h : RolesCurrent stores s) (now : Int) :
    (s.resolveAllowed options stores now request).1 = stores.decision request ∧
      RolesCurrent stores (s.resolveAllowed options stores now request).2 := by
  have hfresh : RolesCurrent stores
      { s with rolesCache := some { data := stores.roles, exp := now + options.cache.ramTtl } } := by
    intro memo hmemo
    rw [← Option.some.inj hmemo]
  unfold resolveAllowed listRolesCached
  dsimp only
  split
  next memo hmemo =>
    split
    · refine ⟨?_, h⟩
      show allowedBy memo.data stores.grants request = _
      rw [h memo hmemo]
      rfl
    · exact ⟨rfl, hfresh⟩
  · exact ⟨rfl, hfresh⟩

/-- A request that asks nothing is refused on the spot. -/
theorem checkAction_of_not_asks (h : request.asks = false) :
    s.checkAction options stores weather request = (.ok false, s) := by
  unfold checkAction
  rw [h]
  rfl

theorem checkAction_of_hit (hasks : request.asks = true) {allowed : Bool} {cache : AclCacheService}
    (hget : s.cache.get options.cache weather.cache request.userId request.cacheAction =
      (some allowed, cache)) :
    s.checkAction options stores weather request = (.ok allowed, { s with cache }) := by
  unfold checkAction
  rw [if_pos hasks, hget]

theorem checkAction_of_failure (hasks : request.asks = true) {cache : AclCacheService}
    (hget : s.cache.get options.cache weather.cache request.userId request.cacheAction = (none, cache))
    {e : Thrown} (hdb : withTimeout weather.database options.checkTimeout "checkAction" = .error e) :
    s.checkAction options stores weather request = (.error e, { s with cache }) := by
  unfold checkAction
  rw [if_pos hasks, hget]
  dsimp only
  rw [hdb]

theorem checkAction_of_miss (hasks : request.asks = true) {cache : AclCacheService}
    (hget : s.cache.get options.cache weather.cache request.userId request.cacheAction = (none, cache))
    (hdb : withTimeout weather.database options.checkTimeout "checkAction" = .ok ()) :
    let resolved := { s with cache }.resolveAllowed options stores weather.listedAt request
    s.checkAction options stores weather request =
      (.ok resolved.1, { resolved.2 with
        cache := cache.set options.cache weather.cache request.userId request.cacheAction resolved.1
          cache.gen }) := by
  unfold checkAction
  rw [if_pos hasks, hget]
  dsimp only
  rw [hdb]
  dsimp only
  rw [resolveAllowed_cache]

/-- **One check.**  Its answer is the decision or was cached under its key; it caches the decision under
its key and nothing else. -/
theorem checkAction_spec (options : AclModuleOptions) (weather : Weather) (request : AclRequest)
    (h : RolesCurrent stores s) :
    RolesCurrent stores (s.checkAction options stores weather request).2 ∧
      (∀ allowed, request.asks = true →
        (s.checkAction options stores weather request).1 = .ok allowed →
        allowed = stores.decision request ∨ s.cache.Caches request.key allowed) ∧
      (∀ k v, (s.checkAction options stores weather request).2.cache.Caches k v →
        s.cache.Caches k v ∨
          (request.asks = true ∧ request.key = k ∧ stores.decision request = v)) := by
  cases hasks : request.asks with
  | false =>
      rw [checkAction_of_not_asks hasks]
      exact ⟨h, nofun, fun _ _ hcached => .inl hcached⟩
  | true =>
      obtain ⟨hhit, hkeep, -⟩ := AclCacheService.get_spec options.cache s.cache weather.cache
        request.userId request.cacheAction
      cases hget : s.cache.get options.cache weather.cache request.userId request.cacheAction with
      | mk answer cache =>
          rw [hget] at hhit hkeep
          cases answer with
          | some cached =>
              rw [checkAction_of_hit hasks hget]
              refine ⟨h, fun allowed _ ha => .inr ?_, fun k v hcached => .inl (hkeep k v hcached)⟩
              rw [← Except.ok.inj ha]
              exact hhit cached rfl
          | none =>
              cases hdb : withTimeout weather.database options.checkTimeout "checkAction" with
              | error e =>
                  rw [checkAction_of_failure hasks hget hdb]
                  exact ⟨h, nofun, fun k v hcached => .inl (hkeep k v hcached)⟩
              | ok _ =>
                  rw [checkAction_of_miss hasks hget hdb]
                  have h' : RolesCurrent stores { s with cache } := h
                  obtain ⟨hvalue, hroles⟩ := resolveAllowed_spec options request h' weather.listedAt
                  refine ⟨hroles, fun allowed _ ha => .inl ?_, fun k v hcached => ?_⟩
                  · rw [← Except.ok.inj ha, hvalue]
                  · rcases AclCacheService.caches_of_set hcached with hold | ⟨hkey, hv⟩
                    · exact .inl (hkeep k v hold)
                    · exact .inr ⟨rfl, hkey.symm, by rw [hv, hvalue]⟩

end AclService

end NestAmqp.Acl
