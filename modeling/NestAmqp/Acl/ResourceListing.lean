/-
# NestAmqp.Acl.ResourceListing — what a user is shown, and what a user may do.

`listResourcesByUser` folds the grants of a user into groups by company, each with its resources and the
actions they allow.  `checkAction` filters the same grants by the ids of a request.  The two agree wherever
the groups can be built: they are kept in a plain object, where a company whose id is a name of
`Object.prototype` is found before it is there.
-/
import NestAmqp.Acl.AclService
import NestAmqp.Js.PlainObject

namespace NestAmqp.Acl

open NestAmqp.Js

/-! ## `listResourcesByUser` -/

/-- `AclResource`. -/
structure AclResource where
  resourceId : Value
  actions : List String
  friendlyName : Value

/-- `AclResourceGroup`. -/
structure AclResourceGroup where
  companyId : Value
  resources : List AclResource

/-- `actionsByRole.get(name) || []`: the last role of a name has been put into the map. -/
def actionsByRole (roles : List AclRole) (name : String) : List String :=
  ((roles.reverse.find? fun r => r.name == name).map (·.actions)).getD []

/-- The first resource with the grant's id gets the actions, without duplicates; or a new one does. -/
def addToResource (item : AclGrant) (actions : List String) : List AclResource → List AclResource
  | [] => [{ resourceId := item.resourceId, actions := actions.eraseDups, friendlyName := item.friendlyName }]
  | r :: rs =>
      if strictEq r.resourceId item.resourceId then { r with actions := (r.actions ++ actions).eraseDups } :: rs
      else r :: addToResource item actions rs

/-- `item.companyId ?? ''`, as a property key. -/
def companyKey (item : AclGrant) : String := (item.companyId.coalesce (.str "")).toStr

/-- The groups so far, by company key. -/
abbrev Grouped := List (String × AclResourceGroup)

/-- One pass of the loop over the grants.  An inherited name is no group, and has no resources. -/
def groupGrant (roles : List AclRole) (grouped : Grouped) (item : AclGrant) : Except Thrown Grouped :=
  let key := companyKey item
  let actions := item.roles.flatMap (actionsByRole roles)
  if grouped.any fun entry => entry.1 == key then
    .ok (grouped.map fun entry =>
      if entry.1 = key then (key, { entry.2 with resources := addToResource item actions entry.2.resources })
      else entry)
  else if key ∈ objectPrototype then
    .error (.typeError "Cannot read properties of undefined (reading 'find')")
  else .ok (grouped ++ [(key, { companyId := item.companyId, resources := addToResource item actions [] })])

namespace AclService

/-- `listResourcesByUser(userId)`, with repositories that answer. -/
def listResourcesByUser (options : AclModuleOptions) (stores : AclStores) (s : AclService) (now : Int)
    (userId : String) : Except Thrown (List AclResourceGroup) × AclService :=
  if userId = "" then (.error (.error { name := "UnauthorizedError", message := "User ID is required" }), s)
  else
    let acls := stores.grants.filter fun g => g.userId == userId
    let (roles, s) := s.listRolesCached options stores now
    ((acls.foldlM (groupGrant roles) []).map objectValues, s)

/-- `checkAction`, with no decision cached and repositories that answer. -/
def uncachedCheck (options : AclModuleOptions) (stores : AclStores) (s : AclService) (now : Int)
    (request : AclRequest) : Except Thrown Bool :=
  (({ s with cache := {} } : AclService).checkAction options stores { listedAt := now } request).1

end AclService

/-- The action is listed under an entry with these ids. -/
def Listed (groups : List AclResourceGroup) (target : Target) (action : String) : Prop :=
  ∃ group ∈ groups, norm group.companyId = target.1 ∧
    ∃ resource ∈ group.resources, norm resource.resourceId = target.2 ∧ action ∈ resource.actions

/-! ## The loop -/

section Loop

variable {roles : List AclRole} {items : List AclGrant} {item : AclGrant} {grouped grouped' : Grouped}
  {actions : List String} {target : Target} {action : String}

/-- Identical values are the same. -/
theorem eq_of_strictEq {v w : Value} (h : strictEq v w = true) : v = w := by
  cases v <;> cases w <;> simp_all [strictEq]

/-- **One resource gets the actions.** -/
theorem mem_addToResource {rs : List AclResource} {r : Option String} :
    (∃ resource ∈ addToResource item actions rs, norm resource.resourceId = r ∧ action ∈ resource.actions) ↔
      (∃ resource ∈ rs, norm resource.resourceId = r ∧ action ∈ resource.actions) ∨
        norm item.resourceId = r ∧ action ∈ actions := by
  induction rs with
  | nil => simp [addToResource, List.mem_eraseDups]
  | cons resource rs ih =>
      unfold addToResource
      split
      next hsame =>
        have hid := eq_of_strictEq hsame
        simp only [List.exists_mem_cons_iff, List.mem_eraseDups, List.mem_append, ← hid]
        constructor
        · rintro (⟨hr, hold | hnew⟩ | hrest)
          · exact .inl (.inl ⟨hr, hold⟩)
          · exact .inr ⟨hr, hnew⟩
          · exact .inl (.inr hrest)
        · rintro ((⟨hr, hold⟩ | hrest) | ⟨hr, hnew⟩)
          · exact .inl ⟨hr, .inl hold⟩
          · exact .inr hrest
          · exact .inl ⟨hr, .inr hnew⟩
      next =>
        rw [List.exists_mem_cons_iff, List.exists_mem_cons_iff, ih, or_assoc]

/-- A company id is a text, or there is none. -/
def IsId (v : Value) : Prop := v.nullish = true ∨ ∃ s, v = .str s

/-- The company of a key. -/
def companyOf (key : String) : Option String := if key = "" then none else some key

theorem norm_companyId (h : IsId item.companyId) : norm item.companyId = companyOf (companyKey item) := by
  unfold companyKey companyOf
  rcases h with hmissing | ⟨s, hs⟩
  · rw [Value.coalesce_of_nullish hmissing, norm_of_nullish hmissing]
    rfl
  · rw [hs, norm_str]
    rfl

/-- A grant puts the action under the target. -/
def Shows (roles : List AclRole) (item : AclGrant) (target : Target) (action : String) : Prop :=
  item.target = target ∧ action ∈ item.roles.flatMap (actionsByRole roles)

/-- The groups behind these grants. -/
structure GroupedFrom (roles : List AclRole) (items : List AclGrant) (grouped : Grouped) : Prop where
  keys : ∀ key, (∃ group, (key, group) ∈ grouped) ↔ ∃ item ∈ items, companyKey item = key
  plain : ∀ item ∈ items, companyKey item ∉ objectPrototype
  company : ∀ entry ∈ grouped, norm entry.2.companyId = companyOf entry.1
  listed : ∀ target action, Listed (grouped.map Prod.snd) target action ↔
    ∃ item ∈ items, Shows roles item target action

theorem listed_map_snd : Listed (grouped.map Prod.snd) target action ↔
    ∃ entry ∈ grouped, norm entry.2.companyId = target.1 ∧
      ∃ resource ∈ entry.2.resources, norm resource.resourceId = target.2 ∧ action ∈ resource.actions := by
  unfold Listed
  constructor
  · rintro ⟨group, hgroup, h⟩
    obtain ⟨entry, hentry, rfl⟩ := List.mem_map.mp hgroup
    exact ⟨entry, hentry, h⟩
  · rintro ⟨entry, hentry, h⟩
    exact ⟨entry.2, List.mem_map_of_mem hentry, h⟩

/-- Replacing what stands under a key changes no key. -/
theorem exists_mem_replace {β : Type} {l : List (String × β)} {k : String} (f : String × β → β) (key : String) :
    (∃ b, (key, b) ∈ l.map fun entry => if entry.1 = k then (k, f entry) else entry) ↔ ∃ b, (key, b) ∈ l := by
  constructor
  · rintro ⟨b, hmem⟩
    obtain ⟨entry, hentry, heq⟩ := List.mem_map.mp hmem
    split at heq
    next hkey =>
      obtain rfl := congrArg Prod.fst heq
      exact ⟨entry.2, hkey ▸ hentry⟩
    next => exact ⟨b, heq ▸ hentry⟩
  · rintro ⟨b, hmem⟩
    by_cases hkey : key = k
    · exact ⟨_, List.mem_map.mpr ⟨(key, b), hmem, by rw [if_pos hkey, ← hkey]⟩⟩
    · exact ⟨b, List.mem_map.mpr ⟨(key, b), hmem, if_neg hkey⟩⟩

/-- A grant of a company that has a group. -/
theorem GroupedFrom.extend (h : GroupedFrom roles items grouped) (hid : IsId item.companyId)
    (hknown : ∃ group, (companyKey item, group) ∈ grouped) :
    GroupedFrom roles (items ++ [item]) (grouped.map fun entry =>
      if entry.1 = companyKey item then (companyKey item, { entry.2 with
        resources := addToResource item (item.roles.flatMap (actionsByRole roles)) entry.2.resources })
      else entry) := by
  have hcompany := norm_companyId hid
  refine ⟨fun key => ?_, fun i hi => ?_, fun entry hentry => ?_, fun target action => ?_⟩
  · -- the keys stay those that are there
    rw [exists_mem_replace, h.keys]
    constructor
    · rintro ⟨i, hi, hkey⟩
      exact ⟨i, List.mem_append_left _ hi, hkey⟩
    · rintro ⟨i, hi, hkey⟩
      rcases List.mem_append.mp hi with hi | hi
      · exact ⟨i, hi, hkey⟩
      · rw [List.mem_singleton.mp hi] at hkey
        exact (h.keys key).mp (hkey ▸ hknown)
  · rcases List.mem_append.mp hi with hi | hi
    · exact h.plain i hi
    · obtain ⟨j, hj, hkey⟩ := (h.keys _).mp hknown
      rw [List.mem_singleton.mp hi, ← hkey]
      exact h.plain j hj
  · obtain ⟨old, hold, rfl⟩ := List.mem_map.mp hentry
    split
    next hkey => exact (h.company old hold).trans (congrArg companyOf hkey)
    next => exact h.company old hold
  · rw [listed_map_snd]
    simp only [List.mem_append, List.mem_singleton, or_and_right, exists_or, exists_eq_left, ← h.listed,
      listed_map_snd, List.mem_map, exists_exists_and_eq_and]
    constructor
    · -- what is listed in the group of the grant was there, or is of the grant
      rintro ⟨entry, hentry, hgroup⟩
      split at hgroup
      next hkey =>
        obtain ⟨hnorm, hresource⟩ := hgroup
        rcases mem_addToResource.mp hresource with hold | ⟨hid, hmem⟩
        · exact .inl ⟨entry, hentry, hnorm, hold⟩
        · refine .inr ⟨Prod.ext ?_ hid, hmem⟩
          rw [← hnorm, h.company entry hentry, hkey]
          exact hcompany
      next => exact .inl ⟨entry, hentry, hgroup⟩
    · -- what was listed stays listed, and the new grant is listed in its group
      rintro (⟨entry, hentry, hnorm, hresource⟩ | ⟨htarget, hmem⟩)
      · refine ⟨entry, hentry, ?_⟩
        split
        · exact ⟨hnorm, mem_addToResource.mpr (.inl hresource)⟩
        · exact ⟨hnorm, hresource⟩
      · obtain ⟨group, hgroup⟩ := hknown
        refine ⟨(companyKey item, group), hgroup, ?_⟩
        rw [if_pos rfl]
        refine ⟨?_, mem_addToResource.mpr (.inr ⟨congrArg Prod.snd htarget, hmem⟩)⟩
        exact (h.company _ hgroup).trans (hcompany.symm.trans (congrArg Prod.fst htarget))

/-- The first grant of a company. -/
theorem GroupedFrom.insert (h : GroupedFrom roles items grouped) (hid : IsId item.companyId)
    (hplain : companyKey item ∉ objectPrototype) :
    GroupedFrom roles (items ++ [item]) (grouped ++ [(companyKey item,
      { companyId := item.companyId
        resources := addToResource item (item.roles.flatMap (actionsByRole roles)) [] })]) := by
  have hcompany := norm_companyId hid
  refine ⟨fun key => ?_, fun i hi => ?_, fun entry hentry => ?_, fun target action => ?_⟩
  · simp only [List.mem_append, List.mem_singleton, exists_or, or_and_right, exists_eq_left, h.keys,
      Prod.mk.injEq, exists_and_left, exists_eq, and_true, eq_comm (a := key)]
  · rcases List.mem_append.mp hi with hi | hi
    · exact h.plain i hi
    · exact List.mem_singleton.mp hi ▸ hplain
  · rcases List.mem_append.mp hentry with hentry | hentry
    · exact h.company entry hentry
    · rw [List.mem_singleton.mp hentry]
      exact hcompany
  · rw [listed_map_snd]
    simp only [List.mem_append, List.mem_singleton, or_and_right, exists_or, exists_eq_left, ← h.listed,
      listed_map_snd]
    refine or_congr_right ?_
    rw [mem_addToResource, or_iff_right (by simp)]
    constructor
    · rintro ⟨hnorm, hr, hmem⟩
      exact ⟨Prod.ext hnorm hr, hmem⟩
    · rintro ⟨htarget, hmem⟩
      exact ⟨congrArg Prod.fst htarget, congrArg Prod.snd htarget, hmem⟩

/-- **The groups of all grants.** -/
theorem groupedFrom_foldlM (hids : ∀ item ∈ items, IsId item.companyId)
    (h : items.foldlM (groupGrant roles) [] = .ok grouped) : GroupedFrom roles items grouped := by
  induction items using List.reverseRecOn generalizing grouped with
  | nil =>
      obtain rfl := Except.ok.inj h
      refine ⟨fun key => ⟨nofun, nofun⟩, nofun, nofun, fun target action => ⟨nofun, nofun⟩⟩
  | append_singleton items item ih =>
      rw [List.foldlM_append] at h
      cases hbefore : items.foldlM (groupGrant roles) [] with
      | error e =>
          rw [hbefore] at h
          cases h
      | ok before =>
          rw [hbefore] at h
          have hstep : groupGrant roles before item = .ok grouped := by
            have hrun : (groupGrant roles before item >>= fun s => pure s) = .ok grouped := h
            rwa [bind_pure] at hrun
          have hfrom := ih (fun i hi => hids i (List.mem_append_left _ hi)) hbefore
          have hid := hids item (List.mem_append_right _ (.head _))
          unfold groupGrant at hstep
          dsimp only at hstep
          split at hstep
          next hany =>
            obtain rfl := Except.ok.inj hstep
            obtain ⟨entry, hentry, hkey⟩ := List.any_eq_true.mp hany
            exact hfrom.extend hid ⟨entry.2, beq_iff_eq.mp hkey ▸ hentry⟩
          next =>
            split at hstep
            next => cases hstep
            next hplain =>
              obtain rfl := Except.ok.inj hstep
              exact hfrom.insert hid hplain

/-- The groups can be built when no company is an inherited name. -/
theorem exists_foldlM (hplain : ∀ item ∈ items, companyKey item ∉ objectPrototype) (grouped : Grouped) :
    ∃ grouped', items.foldlM (groupGrant roles) grouped = .ok grouped' := by
  induction items generalizing grouped with
  | nil => exact ⟨grouped, rfl⟩
  | cons item items ih =>
      obtain ⟨hitem, hitems⟩ := List.forall_mem_cons.mp hplain
      rw [List.foldlM_cons]
      unfold groupGrant
      dsimp only
      rw [if_neg hitem]
      split
      · exact ih hitems _
      · exact ih hitems _

end Loop

/-! ## What is listed -/

/-- With one role of each name, the map finds it. -/
theorem mem_actionsByRole {roles : List AclRole} (hunique : (roles.map (·.name)).Nodup) {name action : String} :
    action ∈ actionsByRole roles name ↔ Grants roles name action := by
  unfold actionsByRole Grants
  constructor
  · intro h
    cases hfind : roles.reverse.find? fun r => r.name == name with
    | none =>
        rw [hfind] at h
        cases h
    | some role =>
        rw [hfind] at h
        exact ⟨role, List.mem_reverse.mp (List.mem_of_find?_eq_some hfind),
          by simpa using List.find?_some hfind, h⟩
  · rintro ⟨role, hrole, hname, haction⟩
    obtain ⟨found, hfind⟩ : ∃ found, (roles.reverse.find? fun r => r.name == name) = some found := by
      rw [← Option.isSome_iff_exists, List.find?_isSome]
      exact ⟨role, List.mem_reverse.mpr hrole, beq_iff_eq.mpr hname⟩
    have hfound : found.name = name := by simpa using List.find?_some hfind
    have hsame : found = role := List.inj_on_of_nodup_map hunique
      (List.mem_reverse.mp (List.mem_of_find?_eq_some hfind)) hrole (hfound.trans hname.symm)
    rw [hfind, hsame]
    exact haction

/-- A grant shows the actions of its roles. -/
theorem shows_iff {roles : List AclRole} (hunique : (roles.map (·.name)).Nodup) {item : AclGrant}
    {target : Target} {action : String} :
    Shows roles item target action ↔ item.target = target ∧ ∃ name ∈ item.roles, Grants roles name action := by
  unfold Shows
  simp only [List.mem_flatMap, mem_actionsByRole hunique]

namespace AclService

variable {options : AclModuleOptions} {stores : AclStores} {s : AclService} {now : Int} {userId : String}

/-- The roles do not depend on the decision cache. -/
theorem listRolesCached_fst (cache : AclCacheService) :
    (({ s with cache } : AclService).listRolesCached options stores now).1 =
      (s.listRolesCached options stores now).1 := by
  unfold listRolesCached
  dsimp only
  split
  · split <;> rfl
  · rfl

/-- **A check with nothing cached** resolves its request. -/
theorem uncachedCheck_eq (request : AclRequest) : s.uncachedCheck options stores now request =
    .ok (request.asks && allowedBy (s.listRolesCached options stores now).1 stores.grants request) := by
  unfold uncachedCheck
  cases hasks : request.asks with
  | false => rw [checkAction_of_not_asks hasks, Bool.false_and]
  | true =>
      have hmiss : ({} : AclCacheService).get options.cache {} request.userId request.cacheAction =
        (none, {}) := rfl
      rw [checkAction_of_miss hasks hmiss rfl, Bool.true_and]
      unfold resolveAllowed
      dsimp only
      rw [listRolesCached_fst]

/-- What is allowed on one target with one action. -/
theorem uncachedCheck_one {c r : Value} {action : String} (huser : userId ≠ "") :
    s.uncachedCheck options stores now ⟨userId, some ⟨c, r⟩, .one action⟩ = .ok true ↔
      action ≠ "" ∧ ∃ g ∈ stores.grants, g.userId = userId ∧ g.target = (norm c, norm r) ∧
        ∃ name ∈ g.roles, Grants (s.listRolesCached options stores now).1 name action := by
  rw [uncachedCheck_eq, Except.ok.injEq, Bool.and_eq_true, allowedBy_iff]
  unfold AclRequest.asks AclRequest.actions AclGrant.AppliesTo OneOrMany.toList
  dsimp only
  split
  next hempty => simp [hempty]
  next haction =>
    simp only [bne_iff_ne, ne_eq, huser, haction, not_false_eq_true, List.isEmpty_cons, Bool.not_false,
      true_and, List.mem_singleton, exists_eq_left, Option.some.injEq, forall_eq',
      and_assoc, AclResourceContext.target, Bool.and_true]

/-- The groups show under every target what a check would allow there. -/
def ListingAgrees (options : AclModuleOptions) (stores : AclStores) (s : AclService) (now : Int)
    (userId : String) : Prop :=
  ∃ groups, (s.listResourcesByUser options stores now userId).1 = .ok groups ∧
    ∀ (c r : Value) (action : String), Listed groups (norm c, norm r) action ↔
      s.uncachedCheck options stores now ⟨userId, some ⟨c, r⟩, .one action⟩ = .ok true

/-- The grants of the user can be listed as they are checked: none of their companies is a name of
`Object.prototype`, and none of their roles includes the empty action, which no check allows. -/
def Listable (options : AclModuleOptions) (stores : AclStores) (s : AclService) (now : Int)
    (userId : String) : Prop :=
  ∀ g ∈ stores.grants, g.userId = userId → companyKey g ∉ objectPrototype ∧
    ∀ name ∈ g.roles, ¬ Grants (s.listRolesCached options stores now).1 name ""

/-- What `listResourcesByUser` returns. -/
theorem listResourcesByUser_fst (huser : userId ≠ "") : (s.listResourcesByUser options stores now userId).1 =
    ((stores.grants.filter fun g => g.userId == userId).foldlM
      (groupGrant (s.listRolesCached options stores now).1) []).map objectValues := by
  unfold listResourcesByUser
  rw [if_neg huser]

theorem listed_objectValues {grouped : Grouped} {target : Target} {action : String} :
    Listed (objectValues grouped) target action ↔ Listed (grouped.map Prod.snd) target action := by
  unfold Listed
  simp only [mem_objectValues, List.mem_map, Prod.exists, exists_eq_right]

/-- **What a user is shown is what a user may do**, if and only if the user's grants can be listed. -/
theorem listResourcesByUser_agrees_iff
    (hunique : ((s.listRolesCached options stores now).1.map (·.name)).Nodup)
    (hids : ∀ g ∈ stores.grants, IsId g.companyId) :
    s.ListingAgrees options stores now userId ↔ userId ≠ "" ∧ s.Listable options stores now userId := by
  have hitems : ∀ item ∈ stores.grants.filter (fun g => g.userId == userId), IsId item.companyId :=
    fun item hitem => hids item (List.mem_filter.mp hitem).1
  have hmem (g : AclGrant) : g ∈ stores.grants.filter (fun g => g.userId == userId) ↔
      g ∈ stores.grants ∧ g.userId = userId := by
    rw [List.mem_filter, beq_iff_eq]
  constructor
  · rintro ⟨groups, hlist, hagrees⟩
    have huser : userId ≠ "" := by
      rintro rfl
      cases hlist
    refine ⟨huser, fun g hg howner => ?_⟩
    rw [listResourcesByUser_fst huser] at hlist
    cases hfold : (stores.grants.filter fun g => g.userId == userId).foldlM
        (groupGrant (s.listRolesCached options stores now).1) [] with
    | error e =>
        rw [hfold] at hlist
        cases hlist
    | ok grouped =>
        rw [hfold] at hlist
        obtain rfl := Except.ok.inj hlist
        have hfrom := groupedFrom_foldlM hitems hfold
        refine ⟨hfrom.plain g ((hmem g).mpr ⟨hg, howner⟩), fun name hname hgrants => ?_⟩
        -- the empty action is shown for the grant, and no check asks for it
        have hlisted : Listed (objectValues grouped) g.target "" := listed_objectValues.mpr
          ((hfrom.listed _ _).mpr
          ⟨g, (hmem g).mpr ⟨hg, howner⟩, (shows_iff hunique).mpr ⟨rfl, name, hname, hgrants⟩⟩)
        have hcheck := (hagrees g.companyId g.resourceId "").mp hlisted
        exact ((uncachedCheck_one huser).mp hcheck).1 rfl
  · rintro ⟨huser, hlistable⟩
    have hplain : ∀ item ∈ stores.grants.filter (fun g => g.userId == userId),
        companyKey item ∉ objectPrototype := fun item hitem =>
      (hlistable item ((hmem item).mp hitem).1 ((hmem item).mp hitem).2).1
    obtain ⟨grouped, hfold⟩ : ∃ grouped, (stores.grants.filter fun g => g.userId == userId).foldlM
        (groupGrant (s.listRolesCached options stores now).1) [] = .ok grouped := exists_foldlM hplain []
    refine ⟨objectValues grouped, by rw [listResourcesByUser_fst huser, hfold]; rfl, fun c r action => ?_⟩
    have hfrom := groupedFrom_foldlM hitems hfold
    rw [listed_objectValues, hfrom.listed, uncachedCheck_one huser]
    simp only [shows_iff hunique, hmem, and_assoc]
    refine ⟨fun ⟨g, hg, howner, htarget, name, hname, hgrants⟩ =>
      ⟨?_, g, hg, howner, htarget, name, hname, hgrants⟩,
      And.right⟩
    rintro rfl
    exact (hlistable g hg howner).2 name hname hgrants

/-- One grant of `ada` in a company, with a role that reads. -/
def oneGrant (companyId : String) : AclStores where
  roles := [{ name := "reader", actions := ["read"] }]
  grants := [{ _id := 1, userId := "ada", companyId := .str companyId, resourceId := .str "door", roles := ["reader"] }]
  named := by
    intro g hg
    rw [List.mem_singleton.mp hg]
    exact (by decide : "ada" ≠ "")

theorem oneGrant_unique (companyId : String) :
    ((({} : AclService).listRolesCached {} (oneGrant companyId) 0).1.map (·.name)).Nodup :=
  List.nodup_singleton _

theorem oneGrant_ids (companyId : String) : ∀ g ∈ (oneGrant companyId).grants, IsId g.companyId := by
  intro g hg
  rw [List.mem_singleton.mp hg]
  exact .inr ⟨companyId, rfl⟩

theorem listResourcesByUser_agrees_iff_acme :
    ({} : AclService).ListingAgrees {} (oneGrant "acme") 0 "ada" ↔
      "ada" ≠ "" ∧ ({} : AclService).Listable {} (oneGrant "acme") 0 "ada" :=
  listResourcesByUser_agrees_iff (oneGrant_unique "acme") (oneGrant_ids "acme")

/-- A grant in the company `constructor` makes the listing fail. -/
theorem not_listResourcesByUser_agrees_constructor :
    (({} : AclService).listResourcesByUser {} (oneGrant "constructor") 0 "ada").1 =
        .error (.typeError "Cannot read properties of undefined (reading 'find')") ∧
      ¬ ({} : AclService).ListingAgrees {} (oneGrant "constructor") 0 "ada" := by
  have hfails : (({} : AclService).listResourcesByUser {} (oneGrant "constructor") 0 "ada").1 =
      .error (.typeError "Cannot read properties of undefined (reading 'find')") := rfl
  refine ⟨hfails, ?_⟩
  rintro ⟨groups, hlist, -⟩
  rw [hfails] at hlist
  cases hlist

end AclService

end NestAmqp.Acl
