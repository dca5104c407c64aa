/-
# NestAmqp.Acl.Confinement — what a manager of one target can do to the grants of another.

One caller grants and revokes, in any order and with any arguments, while others read.  At the start the
caller may manage one target and is no system administrator.  The gate reads the store the operations
write, and it reads it through the decision cache, so two things can carry the caller past the target:
a role with the system action that he grants to himself, and a cached decision about the target that
answers for another one.  Without both, no run changes a grant elsewhere.
-/
import NestAmqp.Acl.DecisionCache
import NestAmqp.Acl.Management

namespace NestAmqp.Acl

open NestAmqp.Js
open NestAmqp.Lib
open NestAmqp.Lib.Machine

/-! ## Who holds what -/

/-- The user has a grant on `t` that carries a role with the action. -/
def HoldsOn (catalogue : List AclRole) (records : List AclGrant) (userId action : String) (t : Target) :
    Prop :=
  ∃ g ∈ records, g.userId = userId ∧ g.target = t ∧ ∃ role ∈ g.roles, Grants catalogue role action

section Confinement

variable (options : AclModuleOptions) (catalogue : List AclRole) (user : String) (t : Target)

/-- The user may manage `t` at most, and is no system administrator. -/
structure ScopedTo (records : List AclGrant) : Prop where
  manages : ∀ t', HoldsOn catalogue records user options.roleMgmtAction t' → t' = t
  system : ∀ t', ¬ HoldsOn catalogue records user options.systemAction t'

theorem scopedTo_iff {options : AclModuleOptions} {catalogue : List AclRole} {user : String} {t : Target}
    {records : List AclGrant} : ScopedTo options catalogue user t records ↔
      ∀ g ∈ records, g.userId = user → ∀ role ∈ g.roles,
        (Grants catalogue role options.roleMgmtAction → g.target = t) ∧
          ¬ Grants catalogue role options.systemAction := by
  constructor
  · intro h g hg huser role hrole
    exact ⟨fun hgrants => h.manages g.target ⟨g, hg, huser, rfl, role, hrole, hgrants⟩,
      fun hgrants => h.system g.target ⟨g, hg, huser, rfl, role, hrole, hgrants⟩⟩
  · intro h
    refine ⟨fun t' hholds => ?_, fun t' hholds => ?_⟩
    · obtain ⟨g, hg, huser, rfl, role, hrole, hgrants⟩ := hholds
      exact (h g hg huser role hrole).1 hgrants
    · obtain ⟨g, hg, huser, -, role, hrole, hgrants⟩ := hholds
      exact (h g hg huser role hrole).2 hgrants

instance (roles : List AclRole) (roleName action : String) : Decidable (Grants roles roleName action) :=
  inferInstanceAs (Decidable (∃ r ∈ roles, r.name = roleName ∧ action ∈ r.actions))

instance (records : List AclGrant) : Decidable (ScopedTo options catalogue user t records) :=
  decidable_of_iff _ scopedTo_iff.symm

/-- A check that is refused to such a user: it asks for nothing but the system action, or the management
action on another target. -/
def Refused (r : AclRequest) : Prop :=
  r.userId = user ∧ ∀ a ∈ r.actions, a = options.systemAction ∨
    (a = options.roleMgmtAction ∧ r.target ≠ none ∧ r.target ≠ some t)

instance (r : AclRequest) : Decidable (Refused options user t r) :=
  inferInstanceAs (Decidable (r.userId = user ∧ ∀ a ∈ r.actions, a = options.systemAction ∨
    (a = options.roleMgmtAction ∧ r.target ≠ none ∧ r.target ≠ some t)))

/-- No check that may be allowed prints the key of one that is refused. -/
def RefusedApart (questions : List AclRequest) : Prop :=
  ∀ r ∈ questions, ∀ f ∈ questions, Refused options user t f → r.key = f.key → Refused options user t r

instance (questions : List AclRequest) : Decidable (RefusedApart options user t questions) :=
  inferInstanceAs (Decidable (∀ r ∈ questions, ∀ f ∈ questions, Refused options user t f →
    r.key = f.key → Refused options user t r))

/-! ## The system -/

/-- What can happen next: the caller grants or revokes, anybody asks for a decision, or an invalidation
from another instance arrives. -/
inductive ManagementInput where
  | grant (body : GrantBody) (weather : ManagementWeather)
  | revoke (body : GrantBody) (weather : ManagementWeather)
  | check (request : AclRequest) (weather : Weather)
  | invalidated (userId : Option String)

/-- `apply` of the invalidation service: without a user id everything goes, the roles memo included. -/
def AclService.applyInvalidation (acl : AclService) (userId : Option String) : AclService where
  cache := acl.cache.invalidateLocalRam userId
  rolesCache := if userId.isSome then acl.rolesCache else none

/-- One step; what the operation returns goes to the caller. -/
def AclManagement.step (s : AclManagement) : ManagementInput → AclManagement
  | .grant body weather => (s.grant options catalogue weather user body).2
  | .revoke body weather => (s.revoke options catalogue weather user body).2
  | .check request weather =>
      { s with acl := (s.acl.checkAction options (s.grants.stores catalogue) weather request).2 }
  | .invalidated userId => { s with acl := s.acl.applyInvalidation userId }

/-- The questions a step may put to the decision cache. -/
def ManagementInput.questions : ManagementInput → List AclRequest
  | .grant body _ | .revoke body _ => [manageQuestion options user body.ctx, systemQuestion options user]
  | .check request _ => [request]
  | .invalidated _ => []

/-- The questions of a run. -/
def askedBy (inputs : List ManagementInput) : List AclRequest :=
  inputs.flatMap fun i => i.questions options user

/-- The step grants the caller himself, on `t`, a role with the system action, and the roles it names
and its write are in order. -/
def ManagementInput.SelfPromotes : ManagementInput → Prop
  | .grant body weather => (assertRolesExist catalogue body.roles).isOk ∧ weather.write.isOk ∧
      body.userId = user ∧ body.ctx.target = t ∧
      ∃ role ∈ body.roles, Grants catalogue role options.systemAction
  | _ => False

instance : ∀ i : ManagementInput, Decidable (i.SelfPromotes options catalogue user t)
  | .grant body weather =>
      inferInstanceAs (Decidable ((assertRolesExist catalogue body.roles).isOk ∧ weather.write.isOk ∧
        body.userId = user ∧ body.ctx.target = t ∧
        ∃ role ∈ body.roles, Grants catalogue role options.systemAction))
  | .revoke _ _ | .check _ _ | .invalidated _ => .isFalse id

/-- The step is a call of the caller. -/
def ManagementInput.IsCall : ManagementInput → Prop
  | .grant _ _ | .revoke _ _ => True
  | .check _ _ | .invalidated _ => False

/-! ## The invariant -/

/-- The cache allows nothing but what one of the questions asked for and what is not refused. -/
structure SafeService (questions : List AclRequest) (acl : AclService) : Prop where
  cached : ∀ k, acl.cache.Caches k true → ∃ r ∈ questions, r.key = k ∧ ¬ Refused options user t r
  current : ∀ memo, acl.rolesCache = some memo → memo.data = catalogue

/-- The caller is where he started, and so is every grant outside his target. -/
structure Confined (questions : List AclRequest) (records : List AclGrant) (s : AclManagement) : Prop where
  holds : ScopedTo options catalogue user t s.grants.records
  safe : SafeService options catalogue user t questions s.acl
  outside : outside t s.grants.records = outside t records

variable {options catalogue user t} {questions : List AclRequest} {acl : AclService}
  {grants : GrantStore}

/-- **A refused check has the decision its name says.** -/
theorem decision_of_refused (hscoped : ScopedTo options catalogue user t grants.records) {r : AclRequest}
    (h : Refused options user t r) : (grants.stores catalogue).decision r = false := by
  by_contra hd
  obtain ⟨g, hg, happlies, role, hrole, a, ha, hgrants⟩ :=
    allowedBy_iff.mp (eq_true_of_ne_false hd)
  rw [appliesTo_iff, h.1] at happlies
  rcases h.2 a ha with rfl | ⟨rfl, hsome, hother⟩
  · exact hscoped.system g.target ⟨g, hg, happlies.1, rfl, role, hrole, hgrants⟩
  · obtain ⟨t', ht'⟩ := Option.ne_none_iff_exists'.mp hsome
    have hown := hscoped.manages g.target ⟨g, hg, happlies.1, rfl, role, hrole, hgrants⟩
    rw [happlies.2 t' ht'] at hown
    rw [ht', hown] at hother
    exact hother rfl

/-- **One check.**  The cache stays safe, and a refused check is not allowed. -/
theorem SafeService.checkAction (hscoped : ScopedTo options catalogue user t grants.records)
    (happart : RefusedApart options user t questions)
    (h : SafeService options catalogue user t questions acl) {r : AclRequest} (hr : r ∈ questions)
    (weather : Weather) :
    SafeService options catalogue user t questions
        (acl.checkAction options (grants.stores catalogue) weather r).2 ∧
      (Refused options user t r →
        (acl.checkAction options (grants.stores catalogue) weather r).1 ≠ .ok true) := by
  have hcurrent : AclService.RolesCurrent (grants.stores catalogue) acl := h.current
  obtain ⟨hmemo, hanswer, hcached⟩ :=
    AclService.checkAction_spec options weather r hcurrent
  refine ⟨⟨fun k hk => ?_, hmemo⟩, fun hrefused hallowed => ?_⟩
  · rcases hcached k true hk with hold | ⟨-, hkey, hdecision⟩
    · exact h.cached k hold
    · refine ⟨r, hr, hkey, fun hrefused => ?_⟩
      rw [decision_of_refused hscoped hrefused] at hdecision
      cases hdecision
  · cases hasks : r.asks with
    | false =>
        rw [AclService.checkAction_of_not_asks hasks] at hallowed
        cases hallowed
    | true =>
        rcases hanswer true hasks hallowed with hdecision | hhit
        · rw [decision_of_refused hscoped hrefused] at hdecision
          cases hdecision
        · obtain ⟨r', hr', hkey, hallowed'⟩ := h.cached r.key hhit
          exact hallowed' (happart r' hr' r hr hrefused hkey)

theorem eq_of_mem_one {a action : String} (h : a ∈ (OneOrMany.one action).toList) : a = action := by
  have hmem : a ∈ if action = "" then [] else [action] := h
  split at hmem
  · cases hmem
  · exact List.mem_singleton.mp hmem

theorem refused_systemQuestion (options : AclModuleOptions) (user : String) (t : Target) :
    Refused options user t (systemQuestion options user) :=
  ⟨rfl, fun _ ha => .inl (eq_of_mem_one ha)⟩

theorem refused_manageQuestion (options : AclModuleOptions) (user : String) {t : Target}
    {ctx : AclResourceContext} (h : ctx.target ≠ t) :
    Refused options user t (manageQuestion options user ctx) :=
  ⟨rfl, fun _ ha => .inr ⟨eq_of_mem_one ha, Option.some_ne_none _, fun heq => h (Option.some.inj heq)⟩⟩

/-- **The gate.**  It lets the caller through on his own target only. -/
theorem SafeService.assertCanManage (hscoped : ScopedTo options catalogue user t grants.records)
    (happart : RefusedApart options user t questions)
    (h : SafeService options catalogue user t questions acl) {ctx : AclResourceContext}
    (hmanage : manageQuestion options user ctx ∈ questions)
    (hsystem : systemQuestion options user ∈ questions) (weather : ManagementWeather) (verb : String) :
    SafeService options catalogue user t questions
        (Acl.assertCanManage options (grants.stores catalogue) acl weather user ctx verb).2 ∧
      ((Acl.assertCanManage options (grants.stores catalogue) acl weather user ctx verb).1 = .ok () →
        ctx.target = t) := by
  obtain ⟨hsafe, hrefused⟩ := h.checkAction hscoped happart hmanage weather.manage
  unfold Acl.assertCanManage
  cases hmgmt : acl.checkAction options (grants.stores catalogue) weather.manage
      (manageQuestion options user ctx) with
  | mk answer acl' =>
      rw [hmgmt] at hsafe hrefused
      cases answer with
      | error e => exact ⟨hsafe, nofun⟩
      | ok allowed =>
          cases allowed with
          | true =>
              refine ⟨hsafe, fun _ => ?_⟩
              by_contra hother
              exact hrefused (refused_manageQuestion options user hother) rfl
          | false =>
              obtain ⟨hsafe', hrefused'⟩ := hsafe.checkAction hscoped happart hsystem weather.system
              dsimp only at hsafe' hrefused' ⊢
              cases hsys : acl'.checkAction options (grants.stores catalogue) weather.system
                  (systemQuestion options user) with
              | mk answer' acl'' =>
                  rw [hsys] at hsafe' hrefused'
                  cases answer' with
                  | error e => exact ⟨hsafe', nofun⟩
                  | ok allowed' =>
                      cases allowed' with
                      | true => exact absurd rfl (hrefused' (refused_systemQuestion options user t))
                      | false => exact ⟨hsafe', nofun⟩

/-- **One write on the own target.**  It promotes nobody unless it grants the caller the system action. -/
theorem ScopedTo.touches {records records' : List AclGrant} {userId : String} {roles : List String}
    (h : ScopedTo options catalogue user t records) (htouches : Touches userId t roles records records')
    (hself : userId = user → ∀ role ∈ roles, ¬ Grants catalogue role options.systemAction) :
    ScopedTo options catalogue user t records' := by
  constructor
  · rintro t' ⟨g, hg, huser, rfl, hrole⟩
    rcases htouches.records g hg with hold | ⟨-, htarget, -⟩
    · exact h.manages g.target ⟨g, hold, huser, rfl, hrole⟩
    · exact htarget
  · rintro t' ⟨g, hg, huser, rfl, role, hrole, hgrants⟩
    rcases htouches.records g hg with hold | ⟨huser', -, hroles⟩
    · exact h.system g.target ⟨g, hold, huser, rfl, role, hrole, hgrants⟩
    · rcases hroles role hrole with hnew | ⟨g₀, hg₀, huser₀, -, hrole₀⟩
      · exact hself (huser'.symm.trans huser) role hnew hgrants
      · exact h.system g₀.target
          ⟨g₀, hg₀, huser₀.trans (huser'.symm.trans huser), rfl, role, hrole₀, hgrants⟩

theorem SafeService.written (h : SafeService options catalogue user t questions acl)
    (weather : ManagementWeather) (userId : String) (grants : GrantStore) :
    SafeService options catalogue user t questions
      (AclManagement.written acl weather userId grants).acl where
  cached k hk := h.cached k (AclCacheService.Caches.of_invalidate hk)
  current := h.current

/-- What the gate let through, and the write it leads to. -/
theorem Confined.written {records : List AclGrant} {s : AclManagement} {userId : String}
    {roles : List String} {grants' : GrantStore}
    (h : Confined options catalogue user t questions records s)
    (hsafe : SafeService options catalogue user t questions acl)
    (htouches : Touches userId t roles s.grants.records grants'.records)
    (hself : userId = user → ∀ role ∈ roles, ¬ Grants catalogue role options.systemAction)
    (weather : ManagementWeather) :
    Confined options catalogue user t questions records
      (AclManagement.written acl weather userId grants') where
  holds := h.holds.touches htouches hself
  safe := hsafe.written weather userId grants'
  outside := htouches.outside.trans h.outside

/-- A call that throws, or has nothing to do. -/
theorem Confined.unwritten {records : List AclGrant} {s : AclManagement}
    (h : Confined options catalogue user t questions records s)
    (hsafe : SafeService options catalogue user t questions acl) :
    Confined options catalogue user t questions records { s with acl } where
  holds := h.holds
  safe := hsafe
  outside := h.outside

/-- **One grant.** -/
theorem Confined.grant {records : List AclGrant} {s : AclManagement}
    (happart : RefusedApart options user t questions)
    (h : Confined options catalogue user t questions records s) {body : GrantBody}
    (hmanage : manageQuestion options user body.ctx ∈ questions)
    (hsystem : systemQuestion options user ∈ questions) (weather : ManagementWeather)
    (hself : ¬ (ManagementInput.grant body weather).SelfPromotes options catalogue user t) :
    Confined options catalogue user t questions records
      (s.grant options catalogue weather user body).2 := by
  obtain ⟨hsafe, hgate⟩ := h.safe.assertCanManage h.holds happart hmanage hsystem weather "grant"
  unfold AclManagement.grant
  cases hcan : assertCanManage options (s.grants.stores catalogue) s.acl weather user body.ctx "grant" with
  | mk answer acl =>
      rw [hcan] at hsafe hgate
      cases answer with
      | error e => exact h.unwritten hsafe
      | ok _ =>
          have htarget : body.ctx.target = t := hgate rfl
          cases happly : applyGrant catalogue s.grants body with
          | error e => exact h.unwritten hsafe
          | ok result =>
              cases hwrite : weather.write with
              | error e => exact h.unwritten hsafe
              | ok _ =>
                  have htouches := applyGrant_touches happly
                  rw [htarget] at htouches
                  refine h.written hsafe htouches (fun huser role hrole hgrants => hself ?_) weather
                  exact ⟨applyGrant_rolesExist happly, by rw [hwrite]; rfl, huser, htarget, role, hrole,
                    hgrants⟩

/-- **One revocation.** -/
theorem Confined.revoke {records : List AclGrant} {s : AclManagement}
    (happart : RefusedApart options user t questions)
    (h : Confined options catalogue user t questions records s) {body : GrantBody}
    (hmanage : manageQuestion options user body.ctx ∈ questions)
    (hsystem : systemQuestion options user ∈ questions) (weather : ManagementWeather) :
    Confined options catalogue user t questions records
      (s.revoke options catalogue weather user body).2 := by
  obtain ⟨hsafe, hgate⟩ := h.safe.assertCanManage h.holds happart hmanage hsystem weather "revoke"
  unfold AclManagement.revoke
  cases hcan : assertCanManage options (s.grants.stores catalogue) s.acl weather user body.ctx "revoke" with
  | mk answer acl =>
      rw [hcan] at hsafe hgate
      cases answer with
      | error e => exact h.unwritten hsafe
      | ok _ =>
          have htarget : body.ctx.target = t := hgate rfl
          cases happly : applyRevoke s.grants body with
          | error e => exact h.unwritten hsafe
          | ok result =>
              cases result with
              | none => exact h.unwritten hsafe
              | some result =>
                  cases weather.write with
                  | error e => exact h.unwritten hsafe
                  | ok _ =>
                      have htouches := applyRevoke_touches happly
                      rw [htarget] at htouches
                      exact h.written hsafe htouches (fun _ => nofun) weather

theorem SafeService.applyInvalidation (h : SafeService options catalogue user t questions acl)
    (userId : Option String) :
    SafeService options catalogue user t questions (acl.applyInvalidation userId) where
  cached k hk := h.cached k (AclCacheService.Caches.of_invalidateLocalRam hk)
  current memo hmemo := by
    have hif : (if userId.isSome then acl.rolesCache else none) = some memo := hmemo
    split at hif
    · exact h.current memo hif
    · cases hif

/-- **One step.** -/
theorem Confined.step {records : List AclGrant} {s : AclManagement}
    (happart : RefusedApart options user t questions)
    (h : Confined options catalogue user t questions records s) {i : ManagementInput}
    (hasked : ∀ r ∈ i.questions options user, r ∈ questions)
    (hself : ¬ i.SelfPromotes options catalogue user t) :
    Confined options catalogue user t questions records (s.step options catalogue user i) := by
  cases i with
  | grant body weather =>
      exact h.grant happart (hasked _ (.head _)) (hasked _ (.tail _ (.head _))) weather hself
  | revoke body weather =>
      exact h.revoke happart (hasked _ (.head _)) (hasked _ (.tail _ (.head _))) weather
  | check request weather =>
      exact h.unwritten (h.safe.checkAction h.holds happart (hasked request (.head _)) weather).1
  | invalidated userId => exact h.unwritten (h.safe.applyInvalidation userId)

/-! ## Every run -/

/-- The services as they start, over a collection of grants. -/
def startManagement (shared : Bool) (grants : GrantStore) : AclManagement :=
  { acl := startService shared, grants }

theorem Confined.start (h : ScopedTo options catalogue user t grants.records) (shared : Bool) :
    Confined options catalogue user t questions grants.records (startManagement shared grants) where
  holds := h
  safe := ⟨fun k hk => absurd hk (startService_caches shared k true), nofun⟩
  outside := rfl

variable (options catalogue user t)

/-- **Management confinement.**  A caller who at the start manages at most `t` and is no system
administrator leaves every grant outside `t` as it is, in every state of every run in which he does not
grant himself the system action on `t` and in which no check that may be allowed prints the key of one
that is refused to him. -/
theorem grants_confined (hscoped : ScopedTo options catalogue user t grants.records) (shared : Bool)
    (inputs : List ManagementInput) (hself : ∀ i ∈ inputs, ¬ i.SelfPromotes options catalogue user t)
    (happart : RefusedApart options user t (askedBy options user inputs)) :
    ∀ s', Reaches (AclManagement.step options catalogue user) (startManagement shared grants) inputs s' →
      outside t s'.grants.records = outside t grants.records := by
  intro s' hs'
  have hsteps : Along (AclManagement.step options catalogue user) (fun _ i => i ∈ inputs)
      (startManagement shared grants) inputs := along_of_forall fun _ hi => hi
  have hstart : Confined options catalogue user t (askedBy options user inputs) grants.records
    (startManagement shared grants) := .start hscoped shared
  have hend : Confined options catalogue user t (askedBy options user inputs) grants.records s' := by
    refine hsteps.invariant (fun s i h hi => ?_) hstart hs'
    exact h.step happart (fun r hr => List.mem_flatMap.mpr ⟨i, hi, hr⟩) (hself i hi)
  exact hend.outside

end Confinement

/-- A role that manages grants, one that manages the system, and one that does neither. -/
def sampleCatalogue : List AclRole :=
  [{ name := "manager", actions := ["role-management"] },
   { name := "superadmin", actions := ["role-system"] },
   { name := "viewer", actions := ["booking-read"] }]

/-- Ann manages one target. -/
def managedBy (ctx : AclResourceContext) : GrantStore where
  records := [{ _id := 1, userId := "ann", roles := ["manager"], companyId := ctx.companyId,
                resourceId := ctx.resourceId }]
  ids := List.nodup_singleton _
  named := by simp

/-- Ann's target. -/
def ownContext : AclResourceContext := { companyId := .str "c1", resourceId := .str "r1" }

/-- Ann makes Bob a viewer on her target, and tries to make him one elsewhere. -/
def tryingElsewhere : List ManagementInput :=
  [.grant { userId := "bob", roles := ["viewer"], resourceId := .str "r1", companyId := .str "c1" } {},
   .grant { userId := "bob", roles := ["viewer"], resourceId := .str "r2", companyId := .str "c1" } {}]

theorem grants_confined_tryingElsewhere :
    outside ownContext.target (run (AclManagement.step {} sampleCatalogue "ann")
      (startManagement false (managedBy ownContext)) tryingElsewhere).grants.records =
      outside ownContext.target (managedBy ownContext).records :=
  grants_confined {} sampleCatalogue "ann" ownContext.target (by decide) false tryingElsewhere (by decide)
    (by decide) _ (reaches_run _ _ _)

/-- Ann makes herself a system administrator on her own target, and goes on to another. -/
def promotingHerself : List ManagementInput :=
  [.grant { userId := "ann", roles := ["superadmin"], resourceId := .str "r1", companyId := .str "c1" } {},
   .grant { userId := "bob", roles := ["viewer"], resourceId := .str "r2", companyId := .str "c2" } {}]

/-- The second call writes a grant outside her target. -/
theorem not_grants_confined_promotingHerself :
    ¬ ∀ (options : AclModuleOptions) (catalogue : List AclRole) (user : String) (t : Target)
      (grants : GrantStore), ScopedTo options catalogue user t grants.records →
      ∀ (shared : Bool) (inputs : List ManagementInput), (∀ i ∈ inputs, i.IsCall) →
      ∀ s', Reaches (AclManagement.step options catalogue user) (startManagement shared grants) inputs s' →
        outside t s'.grants.records = outside t grants.records := by
  intro h
  have hcalls : ∀ i ∈ promotingHerself, i.IsCall := by
    simp [promotingHerself, ManagementInput.IsCall]
  have hsame := h {} sampleCatalogue "ann" ownContext.target (managedBy ownContext) (by decide) false
    promotingHerself hcalls _ (reaches_run _ _ _)
  have hlength := congrArg List.length hsame
  revert hlength
  decide

end NestAmqp.Acl
