/-
# NestAmqp.Acl.Management — granting and revoking roles.

`AclManagementService`: `grant` and `revoke` are dual operations on the one record of a user and a
target, and both first ask the authorization check about the caller.  The grants live in a collection
keyed by an id of its own.  The lemmas say what the two operations can do to that collection: they touch
one user's records on one target.
-/
import NestAmqp.Acl.AclService

namespace NestAmqp.Acl

open NestAmqp.Js

/-! ## The collection of grants -/

/-- A collection of grants in insertion order.  Ids identify records, and every record has a user. -/
structure GrantStore where
  records : List AclGrant
  ids : (records.map AclGrant._id).Nodup
  named : ∀ g ∈ records, g.userId ≠ ""

/-- The fields a patch sets; the others keep their value. -/
structure GrantPatch where
  roles : List String
  companyId : Option Value := none
  friendlyName : Option Value := none

/-- `{ ...record, ...patch }`. -/
def GrantPatch.apply (patch : GrantPatch) (g : AclGrant) : AclGrant :=
  { g with
    roles := patch.roles
    companyId := patch.companyId.getD g.companyId
    friendlyName := patch.friendlyName.getD g.friendlyName }

/-- An id no record has. -/
def nextId (records : List AclGrant) : Nat := (records.map AclGrant._id).foldr max 0 + 1

theorem lt_nextId {records : List AclGrant} {g : AclGrant} (h : g ∈ records) : g._id < nextId records := by
  have hle : ∀ ids : List Nat, ∀ n ∈ ids, n ≤ ids.foldr max 0 := by
    intro ids
    induction ids with
    | nil => exact nofun
    | cons m ids ih =>
        intro n hn
        rcases List.mem_cons.mp hn with rfl | hn
        · exact Nat.le_max_left _ _
        · exact (ih n hn).trans (Nat.le_max_right _ _)
  exact Nat.lt_succ_of_le (hle _ _ (List.mem_map_of_mem h))

namespace GrantStore

variable (store : GrantStore)

/-- `filter({ userId })`. -/
def filterByUser (userId : String) : List AclGrant := store.records.filter fun g => g.userId == userId

/-- `insert(model)`. -/
def insert (model : AclGrant) (hnamed : model.userId ≠ "") : GrantStore where
  records := store.records ++ [{ model with _id := nextId store.records }]
  ids := by
    rw [List.map_append, List.nodup_append]
    refine ⟨store.ids, List.nodup_singleton _, ?_⟩
    intro id hid id' hid' heq
    obtain ⟨g, hg, rfl⟩ := List.mem_map.mp hid
    rw [List.mem_singleton.mp hid'] at heq
    exact Nat.ne_of_lt (lt_nextId hg) heq
  named := by
    intro g hg
    rcases List.mem_append.mp hg with hg | hg
    · exact store.named g hg
    · rw [List.mem_singleton.mp hg]
      exact hnamed

/-- `updateById(id, patch)`. -/
def updateById (id : Nat) (patch : GrantPatch) : GrantStore where
  records := store.records.map fun g => if g._id = id then patch.apply g else g
  ids := by
    have hsame : AclGrant._id ∘ (fun g => if g._id = id then patch.apply g else g) = AclGrant._id := by
      funext g
      show (if g._id = id then patch.apply g else g)._id = g._id
      split <;> rfl
    rw [List.map_map, hsame]
    exact store.ids
  named := by
    intro g hg
    obtain ⟨g₀, hg₀, rfl⟩ := List.mem_map.mp hg
    split
    · exact store.named g₀ hg₀
    · exact store.named g₀ hg₀

/-- `removeById(id)`. -/
def removeById (id : Nat) : GrantStore where
  records := store.records.filter fun g => g._id != id
  ids := store.ids.sublist (List.filter_sublist.map _)
  named g hg := store.named g (List.mem_filter.mp hg).1

end GrantStore

/-! ## Errors -/

/-- `new BadRequestError(message)` and its siblings. -/
def badRequest (message : String) : Thrown := .error { name := "BadRequestError", message }

/-- What `assertCanManage` throws. -/
def forbidden (roleMgmtAction roleSystemAction verb : String) : Thrown := .error
  { name := "ForbiddenError"
    message := "'" ++ roleMgmtAction ++ "' on the target resource, or the system-level '" ++
      roleSystemAction ++ "', is required to " ++ verb }

namespace AclModuleOptions

variable (options : AclModuleOptions)

/-- `roleMgmtAction`. -/
def roleMgmtAction : String := options.roleManagementAction.getD "role-management"

/-- `roleSystemAction`. -/
def systemAction : String := options.roleSystemAction.getD "role-system"

end AclModuleOptions

/-! ## Writing -/

/-- The body of a `grant` or `revoke` message; a revoke has no `friendlyName`. -/
structure GrantBody where
  userId : String
  roles : List String
  resourceId : Value := .undefined
  companyId : Value := .undefined
  friendlyName : Value := .undefined

/-- The target as a context. -/
def GrantBody.ctx (body : GrantBody) : AclResourceContext :=
  { companyId := body.companyId, resourceId := body.resourceId }

/-- `Array.from(new Set(roles))`: first occurrences, in order. -/
def distinct (roles : List String) : List String :=
  roles.foldl (fun seen r => if seen.contains r then seen else seen ++ [r]) []

section Writing

variable (catalogue : List AclRole) (store : GrantStore)

/-- `assertRolesExist`. -/
def assertRolesExist (names : List String) : Except Thrown Unit :=
  let missing := names.filter fun n => !catalogue.any fun r => r.name == n
  if missing.isEmpty then .ok () else .error (badRequest ("Unknown roles: " ++ ", ".intercalate missing))

/-- `findGrant`. -/
def findGrant (body : GrantBody) : Option AclGrant :=
  (store.filterByUser body.userId).find? fun g => grantMatchesResource g (some body.ctx)

/-- The record `applyGrant` inserts; the collection gives it its id. -/
def newGrant (body : GrantBody) : AclGrant where
  _id := 0
  userId := body.userId
  roles := distinct body.roles
  resourceId := body.resourceId
  companyId := body.companyId
  friendlyName := body.friendlyName

/-- `applyGrant`, up to the invalidation: merge into the record of the target, or create it. -/
def applyGrant (body : GrantBody) : Except Thrown (AclGrant × GrantStore) :=
  if hnamed : body.userId = "" then .error (badRequest "userId is required")
  else if body.roles.isEmpty then .error (badRequest "roles are required")
  else match assertRolesExist catalogue body.roles with
    | .error e => .error e
    | .ok _ => match findGrant store body with
      | some existing =>
          -- company and name are filled in, never taken away
          let patch : GrantPatch :=
            { roles := distinct (existing.roles ++ body.roles)
              companyId := some (body.companyId.coalesce existing.companyId)
              friendlyName := some (body.friendlyName.coalesce existing.friendlyName) }
          .ok (patch.apply existing, store.updateById existing._id patch)
      | none =>
          .ok ({ newGrant body with _id := nextId store.records }, store.insert (newGrant body) hnamed)

/-- `applyRevoke`, up to the invalidation: take the roles out of the record, and delete it once it has
none left.  Without a record there is nothing to do, and nothing to invalidate. -/
def applyRevoke (body : GrantBody) : Except Thrown (Option (AclGrant × GrantStore)) :=
  if body.userId = "" then .error (badRequest "userId is required")
  else if body.roles.isEmpty then .error (badRequest "roles are required")
  else match findGrant store body with
    | none => .ok none
    | some existing =>
        let patch : GrantPatch := { roles := existing.roles.filter fun r => !body.roles.contains r }
        if patch.roles.isEmpty then .ok (some (existing, store.removeById existing._id))
        else .ok (some (patch.apply existing, store.updateById existing._id patch))

end Writing

/-! ## What writing can do -/

/-- The records on targets other than `t`. -/
def outside (t : Target) (records : List AclGrant) : List AclGrant :=
  records.filter fun g => g.target ≠ t

/-- A change that only touches the records of `userId` on `t`, and puts no roles into them but
`roles`. -/
structure Touches (userId : String) (t : Target) (roles : List String)
    (records records' : List AclGrant) : Prop where
  outside : outside t records' = outside t records
  records : ∀ g ∈ records', g ∈ records ∨
    (g.userId = userId ∧ g.target = t ∧
      ∀ r ∈ g.roles, r ∈ roles ∨ ∃ g₀ ∈ records, g₀.userId = userId ∧ g₀.target = t ∧ r ∈ g₀.roles)

theorem mem_distinct {roles : List String} {r : String} (h : r ∈ distinct roles) : r ∈ roles := by
  have hfold : ∀ seen, r ∈ roles.foldl (fun seen r => if seen.contains r then seen else seen ++ [r]) seen →
      r ∈ seen ∨ r ∈ roles := by
    clear h
    induction roles with
    | nil => exact fun _ h => .inl h
    | cons r' roles ih =>
        intro seen h
        rcases ih _ h with h | h
        · dsimp only at h
          split at h
          · exact .inl h
          · rcases List.mem_append.mp h with h | h
            · exact .inl h
            · rw [List.mem_singleton.mp h]
              exact .inr (.head _)
        · exact .inr (.tail _ h)
  exact (hfold [] h).resolve_left List.not_mem_nil

/-- The record that is found is the user's own on the target. -/
theorem findGrant_spec {store : GrantStore} {body : GrantBody} {g : AclGrant}
    (h : findGrant store body = some g) :
    g ∈ store.records ∧ g.userId = body.userId ∧ g.target = body.ctx.target := by
  have hmem := List.mem_filter.mp (List.mem_of_find?_eq_some h)
  have hmatch := List.find?_some h
  exact ⟨hmem.1, beq_iff_eq.mp hmem.2, (grantMatchesResource_iff g body.ctx).mp hmatch⟩

/-- A map that moves nothing in or out of `p`, and changes nothing in it. -/
theorem filter_map_eq {α : Type} {p : α → Bool} {f : α → α} {l : List α}
    (h : ∀ a ∈ l, f a = a ∨ (p a = false ∧ p (f a) = false)) : (l.map f).filter p = l.filter p := by
  induction l with
  | nil => rfl
  | cons a l ih =>
      have htail := ih fun a ha => h a (.tail _ ha)
      rw [List.map_cons, List.filter_cons, List.filter_cons, htail]
      rcases h a (.head _) with heq | ⟨hp, hpf⟩
      · rw [heq]
      · rw [hp, hpf]
        rfl

section Touching

variable {store : GrantStore} {body : GrantBody} {existing : AclGrant}

theorem GrantStore.eq_of_id {g g' : AclGrant} (hg : g ∈ store.records) (hg' : g' ∈ store.records)
    (h : g._id = g'._id) : g = g' := List.inj_on_of_nodup_map store.ids hg hg' h

/-- Updating the record that was found. -/
theorem touches_updateById (h : findGrant store body = some existing) {patch : GrantPatch}
    {roles : List String} (htarget : (patch.apply existing).target = existing.target)
    (hroles : ∀ r ∈ patch.roles, r ∈ roles ∨ r ∈ existing.roles) :
    Touches body.userId body.ctx.target roles store.records
      (store.updateById existing._id patch).records := by
  obtain ⟨hmem, huser, htgt⟩ := findGrant_spec h
  refine ⟨filter_map_eq fun g hg => ?_, fun g hg => ?_⟩
  · by_cases hid : g._id = existing._id
    · obtain rfl := GrantStore.eq_of_id hg hmem hid
      rw [if_pos rfl]
      exact .inr ⟨by simp [htgt], by simp [htarget, htgt]⟩
    · rw [if_neg hid]
      exact .inl rfl
  · obtain ⟨g₀, hg₀, rfl⟩ := List.mem_map.mp hg
    by_cases hid : g₀._id = existing._id
    · obtain rfl := GrantStore.eq_of_id hg₀ hmem hid
      rw [if_pos rfl]
      refine .inr ⟨huser, htarget.trans htgt, fun r hr => ?_⟩
      exact (hroles r hr).imp_right fun hold => ⟨g₀, hg₀, huser, htgt, hold⟩
    · rw [if_neg hid]
      exact .inl hg₀

/-- Removing it. -/
theorem touches_removeById (h : findGrant store body = some existing) (roles : List String) :
    Touches body.userId body.ctx.target roles store.records
      (store.removeById existing._id).records := by
  obtain ⟨hmem, -, htgt⟩ := findGrant_spec h
  refine ⟨?_, fun g hg => .inl (List.mem_filter.mp hg).1⟩
  show List.filter _ (List.filter _ _) = List.filter _ _
  rw [List.filter_filter]
  refine List.filter_congr fun g hg => ?_
  by_cases hid : g._id = existing._id
  · obtain rfl := GrantStore.eq_of_id hg hmem hid
    simp [htgt]
  · simp [hid]

/-- Creating the record of a target. -/
theorem touches_insert (hnamed : (newGrant body).userId ≠ "") :
    Touches body.userId body.ctx.target body.roles store.records
      (store.insert (newGrant body) hnamed).records := by
  have htarget : AclGrant.target { newGrant body with _id := nextId store.records } =
    body.ctx.target := rfl
  refine ⟨?_, fun g hg => ?_⟩
  · show List.filter _ (store.records ++ [_]) = _
    rw [List.filter_append, List.filter_cons, htarget]
    simp [outside]
  · rcases List.mem_append.mp hg with hg | hg
    · exact .inl hg
    · rw [List.mem_singleton.mp hg]
      exact .inr ⟨rfl, htarget, fun r hr => .inl (mem_distinct hr)⟩

/-- A present company id of the request matches the record's, so storing it moves nothing. -/
theorem norm_coalesce {a b : Value} (h : norm b = norm a) : norm (a.coalesce b) = norm b := by
  unfold Value.coalesce
  split
  · rfl
  · exact h.symm

/-- **Granting** touches the user's record on the target, and adds the roles of the request. -/
theorem applyGrant_touches {catalogue : List AclRole} {g : AclGrant} {store' : GrantStore}
    (h : applyGrant catalogue store body = .ok (g, store')) :
    Touches body.userId body.ctx.target body.roles store.records store'.records := by
  unfold applyGrant at h
  split at h
  · cases h
  · split at h
    · cases h
    · split at h
      · cases h
      · split at h
        next existing hfound =>
          obtain ⟨-, rfl⟩ := Prod.mk.inj (Except.ok.inj h)
          obtain ⟨-, -, htgt⟩ := findGrant_spec hfound
          refine touches_updateById hfound ?_ fun r hr => ?_
          · have hcompany : norm existing.companyId = norm body.companyId := congrArg Prod.fst htgt
            exact Prod.ext (norm_coalesce hcompany) rfl
          · exact (List.mem_append.mp (mem_distinct hr)).symm
        next =>
          obtain ⟨-, rfl⟩ := Prod.mk.inj (Except.ok.inj h)
          exact touches_insert _

/-- Every role that is granted exists. -/
theorem applyGrant_rolesExist {catalogue : List AclRole} {result : AclGrant × GrantStore}
    (h : applyGrant catalogue store body = .ok result) : (assertRolesExist catalogue body.roles).isOk := by
  unfold applyGrant at h
  split at h
  · cases h
  · split at h
    · cases h
    · split at h
      · cases h
      next hroles =>
        rw [hroles]
        rfl

/-- **Revoking** touches the user's record on the target, and adds nothing. -/
theorem applyRevoke_touches {g : AclGrant} {store' : GrantStore}
    (h : applyRevoke store body = .ok (some (g, store'))) :
    Touches body.userId body.ctx.target [] store.records store'.records := by
  unfold applyRevoke at h
  split at h
  · cases h
  · split at h
    · cases h
    · split at h
      · cases h
      next existing hfound =>
        dsimp only at h
        split at h
        · obtain ⟨-, rfl⟩ := Prod.mk.inj (Option.some.inj (Except.ok.inj h))
          exact touches_removeById hfound []
        · obtain ⟨-, rfl⟩ := Prod.mk.inj (Option.some.inj (Except.ok.inj h))
          exact touches_updateById hfound rfl fun r hr => .inr (List.mem_filter.mp hr).1

end Touching

/-! ## The gated operations -/

/-- The service over its collection of grants. -/
structure AclManagement where
  acl : AclService := {}
  grants : GrantStore

/-- What one operation meets: at each of its two checks, at its write and at the invalidation after it. -/
structure ManagementWeather where
  manage : Weather := {}
  system : Weather := {}
  write : Except Thrown Unit := .ok ()
  invalidate : CacheWeather := {}

/-- The stores the authorization check reads. -/
def GrantStore.stores (grants : GrantStore) (catalogue : List AclRole) : AclStores where
  roles := catalogue
  grants := grants.records
  named := grants.named

section Gate

variable (options : AclModuleOptions)

/-- The check of the management action on the target. -/
def manageQuestion (currentUser : String) (ctx : AclResourceContext) : AclRequest where
  userId := currentUser
  ctx := some ctx
  action := .one options.roleMgmtAction

/-- The resource-agnostic check of the system action. -/
def systemQuestion (currentUser : String) : AclRequest where
  userId := currentUser
  ctx := none
  action := .one options.systemAction

/-- `assertCanManage`. -/
def assertCanManage (stores : AclStores) (acl : AclService) (weather : ManagementWeather)
    (currentUser : String) (ctx : AclResourceContext) (verb : String) : Except Thrown Unit × AclService :=
  match acl.checkAction options stores weather.manage (manageQuestion options currentUser ctx) with
  | (.error e, acl) => (.error e, acl)
  | (.ok true, acl) => (.ok (), acl)
  | (.ok false, acl) =>
      -- the system question leaves the target out: the role counts wherever it is held
      match acl.checkAction options stores weather.system (systemQuestion options currentUser) with
      | (.error e, acl) => (.error e, acl)
      | (.ok true, acl) => (.ok (), acl)
      | (.ok false, acl) =>
          (.error (forbidden options.roleMgmtAction options.systemAction verb), acl)

variable (catalogue : List AclRole)

/-- A successful write: the user's cached decisions are dropped, and the new collection takes over. -/
def AclManagement.written (acl : AclService) (weather : ManagementWeather) (userId : String)
    (grants : GrantStore) : AclManagement :=
  { acl := { acl with cache := acl.cache.invalidate weather.invalidate (some userId) }, grants }

/-- `grant`. -/
def AclManagement.grant (s : AclManagement) (weather : ManagementWeather) (currentUser : String)
    (body : GrantBody) : Except Thrown AclGrant × AclManagement :=
  match assertCanManage options (s.grants.stores catalogue) s.acl weather currentUser body.ctx "grant" with
  | (.error e, acl) => (.error e, { s with acl })
  | (.ok _, acl) => match applyGrant catalogue s.grants body, weather.write with
    | .error e, _ => (.error e, { s with acl })
    | .ok _, .error e => (.error e, { s with acl })
    | .ok (result, grants), .ok _ => (.ok result, written acl weather body.userId grants)

/-- `revoke`. -/
def AclManagement.revoke (s : AclManagement) (weather : ManagementWeather) (currentUser : String)
    (body : GrantBody) : Except Thrown (Option AclGrant) × AclManagement :=
  match assertCanManage options (s.grants.stores catalogue) s.acl weather currentUser body.ctx "revoke" with
  | (.error e, acl) => (.error e, { s with acl })
  | (.ok _, acl) => match applyRevoke s.grants body, weather.write with
    | .error e, _ => (.error e, { s with acl })
    -- nothing was written, so nothing is invalidated
    | .ok none, _ => (.ok none, { s with acl })
    | .ok (some _), .error e => (.error e, { s with acl })
    | .ok (some (result, grants)), .ok _ => (.ok (some result), written acl weather body.userId grants)

end Gate

end NestAmqp.Acl
