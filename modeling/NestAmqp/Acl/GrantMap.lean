/-
# NestAmqp.Acl.GrantMap — the grant records as a map.

One record per user and target: the collection of grants is a map from those keys to sets of roles.
Granting adds to the set of a key and revoking takes away from it; a key whose set is empty has no
record.  The first half splits the two writes off the lookups before them, which is where other requests
run; the second half runs them one after another.
-/
import NestAmqp.Acl.Management
import NestAmqp.Lib.KeyedRecords
import NestAmqp.Lib.Machine
import Mathlib.Data.Finset.Lattice.Lemmas
import Mathlib.Data.Finset.SDiff

namespace NestAmqp.Acl

open NestAmqp.Js
open NestAmqp.Lib
open NestAmqp.Lib.Machine

/-! ## The abstract map -/

/-- A user and a target. -/
abbrev GrantKey := String × Target

/-- The roles of every user on every target. -/
abbrev RoleMap := GrantKey → Finset String

namespace RoleMap

/-- Granting adds roles. -/
def grant (M : RoleMap) (k : GrantKey) (roles : List String) : RoleMap :=
  Function.update M k (M k ∪ roles.toFinset)

/-- Revoking takes roles away. -/
def revoke (M : RoleMap) (k : GrantKey) (roles : List String) : RoleMap :=
  Function.update M k (M k \ roles.toFinset)

end RoleMap

/-- The key of a record. -/
def AclGrant.key (g : AclGrant) : GrantKey := (g.userId, g.target)

/-- The set a record carries. -/
def AclGrant.roleSet (g : AclGrant) : Finset String := g.roles.toFinset

/-- The key an operation is about. -/
def GrantBody.key (body : GrantBody) : GrantKey := (body.userId, body.ctx.target)

/-- The collection is the map, and no record lists a role twice. -/
structure GrantStore.Represents (store : GrantStore) (M : RoleMap) : Prop where
  map : Lib.Represents AclGrant.key AclGrant.roleSet store.records M
  distinct : ∀ g ∈ store.records, g.roles.Nodup

/-- The empty collection. -/
def GrantStore.empty : GrantStore where
  records := []
  ids := List.nodup_nil
  named := nofun

theorem GrantStore.represents_empty : GrantStore.empty.Represents fun _ => ∅ := ⟨.nil, nofun⟩

/-! ## The two writes -/

/-- The patch `applyGrant` merges into a record. -/
def mergePatch (existing : AclGrant) (body : GrantBody) : GrantPatch where
  roles := distinct (existing.roles ++ body.roles)
  companyId := some (body.companyId.coalesce existing.companyId)
  friendlyName := some (body.friendlyName.coalesce existing.friendlyName)

/-- The roles `applyRevoke` leaves. -/
def remaining (existing : AclGrant) (body : GrantBody) : List String :=
  existing.roles.filter fun r => !body.roles.contains r

/-- The write of `applyGrant`, given what `findGrant` found. -/
def writeGrant (store : GrantStore) (body : GrantBody) (hnamed : body.userId ≠ "") :
    Option AclGrant → AclGrant × GrantStore
  | some existing =>
      ((mergePatch existing body).apply existing, store.updateById existing._id (mergePatch existing body))
  | none => ({ newGrant body with _id := nextId store.records }, store.insert (newGrant body) hnamed)

/-- The write of `applyRevoke`, given the record `findGrant` found. -/
def writeRevoke (store : GrantStore) (body : GrantBody) (existing : AclGrant) : AclGrant × GrantStore :=
  if (remaining existing body).isEmpty then (existing, store.removeById existing._id)
  else
    (GrantPatch.apply { roles := remaining existing body } existing,
      store.updateById existing._id { roles := remaining existing body })

/-- `applyGrant` is its checks, the lookup and the write. -/
theorem applyGrant_eq (catalogue : List AclRole) (store : GrantStore) (body : GrantBody) :
    applyGrant catalogue store body =
      if hnamed : body.userId = "" then .error (badRequest "userId is required")
      else if body.roles.isEmpty then .error (badRequest "roles are required")
      else match assertRolesExist catalogue body.roles with
        | .error e => .error e
        | .ok _ => .ok (writeGrant store body hnamed (findGrant store body)) := by
  unfold applyGrant
  split
  · rfl
  · split
    · rfl
    · cases assertRolesExist catalogue body.roles with
      | error e => rfl
      | ok _ => cases findGrant store body <;> rfl

/-- `applyRevoke` is its checks, the lookup and the write. -/
theorem applyRevoke_eq (store : GrantStore) (body : GrantBody) :
    applyRevoke store body =
      if body.userId = "" then .error (badRequest "userId is required")
      else if body.roles.isEmpty then .error (badRequest "roles are required")
      else .ok ((findGrant store body).map (writeRevoke store body)) := by
  unfold applyRevoke
  split
  · rfl
  · split
    · rfl
    · cases findGrant store body with
      | none => rfl
      | some existing =>
          dsimp only
          show (if (remaining existing body).isEmpty then _ else _) = _
          unfold writeRevoke
          dsimp only [Option.map_some]
          split <;> rfl

/-! ## What the writes do to the map -/

theorem mem_distinct_iff {roles : List String} {r : String} : r ∈ distinct roles ↔ r ∈ roles := by
  refine ⟨mem_distinct, fun h => ?_⟩
  have hfold : ∀ seen, r ∈ seen ∨ r ∈ roles →
      r ∈ roles.foldl (fun seen r => if seen.contains r then seen else seen ++ [r]) seen := by
    clear h
    induction roles with
    | nil => exact fun _ h => h.resolve_right List.not_mem_nil
    | cons r' roles ih =>
        intro seen h
        apply ih
        dsimp only
        -- a role that is skipped was there already
        split
        next hseen =>
          rcases h with h | h
          · exact .inl h
          · rcases List.mem_cons.mp h with rfl | h
            · exact .inl (List.contains_iff_mem.mp hseen)
            · exact .inr h
        next =>
          rcases h with h | h
          · exact .inl (List.mem_append_left _ h)
          · rcases List.mem_cons.mp h with rfl | h
            · exact .inl (List.mem_append_right _ (List.mem_singleton_self r))
            · exact .inr h
  exact hfold [] (.inr h)

theorem nodup_distinct (roles : List String) : (distinct roles).Nodup := by
  have hfold : ∀ seen : List String, seen.Nodup →
      (roles.foldl (fun seen r => if seen.contains r then seen else seen ++ [r]) seen).Nodup := by
    induction roles with
    | nil => exact fun _ h => h
    | cons r roles ih =>
        intro seen h
        apply ih
        dsimp only
        split
        · exact h
        next hseen =>
          rw [List.nodup_append]
          refine ⟨h, List.nodup_singleton r, fun a ha b hb heq => hseen ?_⟩
          rw [List.mem_singleton.mp hb] at heq
          rw [List.contains_iff_mem, ← heq]
          exact ha
  exact hfold [] List.nodup_nil

theorem toFinset_distinct (roles : List String) : (distinct roles).toFinset = roles.toFinset := by
  ext r
  rw [List.mem_toFinset, List.mem_toFinset, mem_distinct_iff]

/-- Nothing is found when no record has the key. -/
theorem findGrant_eq_none_iff {store : GrantStore} {body : GrantBody} :
    findGrant store body = none ↔ ∀ g ∈ store.records, g.key ≠ body.key := by
  unfold findGrant GrantStore.filterByUser AclGrant.key GrantBody.key
  rw [List.find?_eq_none]
  simp only [List.mem_filter, beq_iff_eq, grantMatchesResource_iff, Prod.mk.injEq, ne_eq, not_and,
    and_imp]

theorem key_of_findGrant {store : GrantStore} {body : GrantBody} {g : AclGrant}
    (h : findGrant store body = some g) : g ∈ store.records ∧ g.key = body.key := by
  obtain ⟨hmem, huser, htarget⟩ := findGrant_spec h
  exact ⟨hmem, Prod.ext huser htarget⟩

/-- Two lookups of one key, between which nothing happened that an operation on `roles` would undo: both
find nothing, or both find one record, whose other roles are the same. -/
inductive SameLookup (roles : List String) : Option AclGrant → Option AclGrant → Prop
  | neither : SameLookup roles none none
  | both {e current : AclGrant} (hid : e._id = current._id)
      (hothers : ∀ r, r ∉ roles → (r ∈ e.roles ↔ r ∈ current.roles)) :
      SameLookup roles (some e) (some current)

theorem SameLookup.refl (roles : List String) (existing : Option AclGrant) :
    SameLookup roles existing existing := by
  cases existing with
  | none => exact .neither
  | some e => exact .both rfl fun _ _ => Iff.rfl

instance (roles : List String) : ∀ existing current, Decidable (SameLookup roles existing current)
  | none, none => .isTrue .neither
  | none, some _ => .isFalse nofun
  | some _, none => .isFalse nofun
  | some e, some current => decidable_of_iff
      (e._id = current._id ∧
        ∀ r ∈ e.roles ++ current.roles, r ∉ roles → (r ∈ e.roles ↔ r ∈ current.roles))
      (by
        constructor
        · intro h
          refine .both h.1 fun r hr => ?_
          by_cases hmem : r ∈ e.roles ++ current.roles
          · exact h.2 r hmem hr
          · rw [List.mem_append, not_or] at hmem
            exact iff_of_false hmem.1 hmem.2
        · intro h
          cases h with
          | both hid hothers => exact ⟨hid, fun r _ hr => hothers r hr⟩)

section Writes

variable {store : GrantStore} {M : RoleMap} {body : GrantBody}

/-- A patch of one record that keeps its target. -/
theorem GrantStore.Represents.updateById (h : store.Represents M) {existing : AclGrant}
    (hmem : existing ∈ store.records) {patch : GrantPatch}
    (htarget : (patch.apply existing).target = existing.target) (hroles : patch.roles ≠ [])
    (hnodup : patch.roles.Nodup) :
    (store.updateById existing._id patch).Represents
      (Function.update M existing.key patch.roles.toFinset) := by
  have hpatched : (if existing._id = existing._id then patch.apply existing else existing) =
      patch.apply existing := if_pos rfl
  have hmap := h.map.modify hmem (f := fun g => if g._id = existing._id then patch.apply g else g)
    (by
      rw [hpatched]
      exact Prod.ext rfl htarget)
    (by
      intro g hg hne
      exact if_neg fun hid => hne (GrantStore.eq_of_id hg hmem hid))
    (by
      rw [hpatched]
      exact (List.toFinset_nonempty_iff _).mpr hroles)
  refine ⟨?_, fun g hg => ?_⟩
  · rw [hpatched] at hmap
    exact hmap
  · obtain ⟨g₀, hg₀, rfl⟩ := List.mem_map.mp hg
    split
    · exact hnodup
    · exact h.distinct g₀ hg₀

/-- **A grant's write** adds its roles at its key, also when the lookup it goes by is not of now. -/
theorem writeGrant_represents (h : store.Represents M) (hnamed : body.userId ≠ "")
    (hroles : body.roles ≠ []) {existing : Option AclGrant} (hkey : ∀ e ∈ existing, e.key = body.key)
    (hsame : SameLookup body.roles existing (findGrant store body)) :
    (writeGrant store body hnamed existing).2.Represents (M.grant body.key body.roles) := by
  generalize hfound : findGrant store body = found at hsame
  cases hsame with
  | neither =>
      have hnew := findGrant_eq_none_iff.mp hfound
      let created : AclGrant := { newGrant body with _id := nextId store.records }
      have hset : created.roleSet = body.roles.toFinset := toFinset_distinct body.roles
      have hmap := h.map.concat (a := created) hnew
        (by
          rw [hset]
          exact (List.toFinset_nonempty_iff _).mpr hroles)
      refine ⟨?_, fun g hg => ?_⟩
      · unfold RoleMap.grant
        rw [h.map.absent _ hnew, Finset.empty_union, ← hset]
        exact hmap
      · rcases List.mem_append.mp hg with hg | hg
        · exact h.distinct g hg
        · rw [List.mem_singleton.mp hg]
          exact nodup_distinct body.roles
  | @both e current hid hothers =>
      obtain ⟨hmem, hcurrentKey⟩ := key_of_findGrant hfound
      have hcompany (g : AclGrant) (hg : g.key = body.key) : norm g.companyId = norm body.companyId :=
        congrArg (fun k : GrantKey => k.2.1) hg
      have hset : (mergePatch e body).roles.toFinset = M current.key ∪ body.roles.toFinset := by
        rw [h.map.value current hmem]
        show (distinct (e.roles ++ body.roles)).toFinset = current.roles.toFinset ∪ _
        rw [toFinset_distinct]
        ext r
        have hr := hothers r
        simp only [List.mem_toFinset, List.mem_append, Finset.mem_union]
        tauto
      have hsome : (mergePatch e body).roles ≠ [] := by
        obtain ⟨r, hr⟩ := List.exists_mem_of_ne_nil _ hroles
        exact List.ne_nil_of_mem (mem_distinct_iff.mpr (List.mem_append_right e.roles hr))
      have htarget : ((mergePatch e body).apply current).target = current.target := by
        refine Prod.ext ?_ rfl
        show norm (body.companyId.coalesce e.companyId) = norm current.companyId
        rw [norm_coalesce (hcompany e (hkey e rfl)), hcompany e (hkey e rfl), hcompany current hcurrentKey]
      show (store.updateById e._id (mergePatch e body)).Represents _
      unfold RoleMap.grant
      rw [← hcurrentKey, ← hset, hid]
      exact h.updateById hmem htarget hsome (nodup_distinct _)

/-- **A revoke's write** takes its roles away at its key. -/
theorem writeRevoke_represents (h : store.Represents M) {e : AclGrant} (hnodup : e.roles.Nodup)
    (hsame : SameLookup body.roles (some e) (findGrant store body)) :
    (writeRevoke store body e).2.Represents (M.revoke body.key body.roles) := by
  generalize hfound : findGrant store body = found at hsame
  cases hsame with
  | @both _ current hid hothers =>
      obtain ⟨hmem, hkey⟩ := key_of_findGrant hfound
      have hset : (remaining e body).toFinset = M current.key \ body.roles.toFinset := by
        rw [h.map.value current hmem]
        ext r
        have hr := hothers r
        simp only [remaining, AclGrant.roleSet, List.mem_toFinset, List.mem_filter, Finset.mem_sdiff,
          Bool.not_eq_true', List.contains_eq_mem, decide_eq_false_iff_not]
        tauto
      unfold RoleMap.revoke
      rw [← hkey, ← hset]
      unfold writeRevoke
      rw [hid]
      split
      next hempty =>
        rw [List.isEmpty_iff.mp hempty, List.toFinset_nil]
        refine ⟨h.map.remove hmem fun g hg => ?_, fun g hg => h.distinct g (List.mem_filter.mp hg).1⟩
        rw [bne_iff_ne]
        exact not_congr ⟨GrantStore.eq_of_id hg hmem, congrArg AclGrant._id⟩
      next hsome =>
        refine h.updateById hmem rfl ?_ (hnodup.filter _)
        exact fun hnil => hsome (List.isEmpty_iff.mpr hnil)

/-- Without a record there is nothing to take away. -/
theorem revoke_absent (h : store.Represents M) (hnone : findGrant store body = none) :
    M.revoke body.key body.roles = M := by
  unfold RoleMap.revoke
  rw [h.map.absent _ (findGrant_eq_none_iff.mp hnone), Finset.empty_sdiff,
    ← h.map.absent _ (findGrant_eq_none_iff.mp hnone), Function.update_eq_self]

end Writes

/-! ## Calls, one after another -/

/-- A call of the service, and what it meets. -/
inductive ManagementCall where
  | grant (currentUser : String) (body : GrantBody) (weather : ManagementWeather)
  | revoke (currentUser : String) (body : GrantBody) (weather : ManagementWeather)
  | adminGrant (body : GrantBody) (weather : ManagementWeather)
  | adminRevoke (body : GrantBody) (weather : ManagementWeather)

/-- What every write asks of its arguments. -/
def GrantBody.Valid (body : GrantBody) : Prop := body.userId ≠ "" ∧ body.roles ≠ []

/-- What `assertRolesExist` asks. -/
def RolesExist (catalogue : List AclRole) (roles : List String) : Prop :=
  ∀ r ∈ roles, ∃ role ∈ catalogue, role.name = r

theorem assertRolesExist_isOk_iff {catalogue : List AclRole} {roles : List String} :
    (assertRolesExist catalogue roles).isOk = true ↔ RolesExist catalogue roles := by
  have hmissing : (roles.filter fun n => !catalogue.any fun r => r.name == n).isEmpty = true ↔
      RolesExist catalogue roles := by
    rw [List.isEmpty_iff, List.filter_eq_nil_iff]
    simp [RolesExist]
  rw [← hmissing]
  unfold assertRolesExist
  dsimp only
  split
  next h => exact iff_of_true rfl h
  next h => exact iff_of_false nofun h

section Calls

variable (options : AclModuleOptions) (catalogue : List AclRole)

/-- `adminGrant`. -/
def AclManagement.adminGrant (s : AclManagement) (weather : ManagementWeather) (body : GrantBody) :
    Except Thrown AclGrant × AclManagement :=
  match applyGrant catalogue s.grants body, weather.write with
  | .error e, _ => (.error e, s)
  | .ok _, .error e => (.error e, s)
  | .ok (result, grants), .ok _ => (.ok result, written s.acl weather body.userId grants)

/-- `adminRevoke`. -/
def AclManagement.adminRevoke (s : AclManagement) (weather : ManagementWeather) (body : GrantBody) :
    Except Thrown (Option AclGrant) × AclManagement :=
  match applyRevoke s.grants body, weather.write with
  | .error e, _ => (.error e, s)
  | .ok none, _ => (.ok none, s)
  | .ok (some _), .error e => (.error e, s)
  | .ok (some (result, grants)), .ok _ => (.ok (some result), written s.acl weather body.userId grants)

/-- One call. -/
def AclManagement.handle (s : AclManagement) :
    ManagementCall → Except Thrown (Option AclGrant) × AclManagement
  | .grant currentUser body weather =>
      let (result, s) := s.grant options catalogue weather currentUser body
      (result.map some, s)
  | .revoke currentUser body weather => s.revoke options catalogue weather currentUser body
  | .adminGrant body weather =>
      let (result, s) := s.adminGrant catalogue weather body
      (result.map some, s)
  | .adminRevoke body weather => s.adminRevoke weather body

/-- The gate lets the caller through. -/
def AclManagement.Authorised (s : AclManagement) (weather : ManagementWeather) (currentUser : String)
    (body : GrantBody) (verb : String) : Prop :=
  (assertCanManage options (s.grants.stores catalogue) s.acl weather currentUser body.ctx verb).1.isOk

/-- The call is carried out: its caller and its arguments are in order, and the collection takes the
write.  A revoke at an absent key writes nothing. -/
def ManagementCall.Admitted (s : AclManagement) (M : RoleMap) : ManagementCall → Prop
  | .grant currentUser body weather =>
      s.Authorised options catalogue weather currentUser body "grant" ∧
        body.Valid ∧ RolesExist catalogue body.roles ∧ weather.write.isOk
  | .revoke currentUser body weather =>
      s.Authorised options catalogue weather currentUser body "revoke" ∧
        body.Valid ∧ (M body.key = ∅ ∨ weather.write.isOk)
  | .adminGrant body weather => body.Valid ∧ RolesExist catalogue body.roles ∧ weather.write.isOk
  | .adminRevoke body weather => body.Valid ∧ (M body.key = ∅ ∨ weather.write.isOk)

/-- What a call that is carried out does to the map. -/
def ManagementCall.effect (M : RoleMap) : ManagementCall → RoleMap
  | .grant _ body _ | .adminGrant body _ => M.grant body.key body.roles
  | .revoke _ body _ | .adminRevoke body _ => M.revoke body.key body.roles

/-- What a call did is an update of the map: it succeeded when it was admitted, and then the collection is
the updated map; when it threw, the collection is what it was. -/
structure Performs {α : Type} (grants : GrantStore) (admitted : Prop) (M' : RoleMap)
    (out : Except Thrown α × AclManagement) : Prop where
  succeeds : out.1.isOk = true ↔ admitted
  updated : out.1.isOk = true → out.2.grants.Represents M'
  unchanged : out.1.isOk = false → out.2.grants = grants

variable {options catalogue} {s : AclManagement} {M M' : RoleMap}

theorem Performs.refuse {α : Type} {grants : GrantStore} {admitted : Prop} {e : Thrown}
    (h : ¬ admitted) (hs : s.grants = grants) :
    Performs (α := α) grants admitted M' (.error e, s) :=
  ⟨iff_of_false nofun h, nofun, fun _ => hs⟩

theorem Performs.accept {α : Type} {grants : GrantStore} {admitted : Prop} {result : α}
    (h : admitted) (hs : s.grants.Represents M') : Performs grants admitted M' (.ok result, s) :=
  ⟨iff_of_true rfl h, fun _ => hs, nofun⟩

theorem Performs.mapSome {grants : GrantStore} {admitted : Prop} {out : Except Thrown AclGrant × AclManagement}
    (h : Performs grants admitted M' out) : Performs grants admitted M' (out.1.map some, out.2) := by
  obtain ⟨result, s⟩ := out
  cases result with
  | error e => exact ⟨h.succeeds, nofun, h.unchanged⟩
  | ok result => exact ⟨h.succeeds, h.updated, nofun⟩

/-- A gate before a call adds one condition. -/
theorem Performs.gated {α : Type} {gate : Except Thrown Unit} {acl : AclService} {admitted : Prop}
    {out : Except Thrown α × AclManagement} (h : Performs s.grants admitted M' out) :
    Performs s.grants (gate.isOk = true ∧ admitted) M'
      (match gate with
        | .error e => (.error e, { s with acl })
        | .ok _ => out) := by
  cases gate with
  | error e => exact .refuse (fun h => Bool.false_ne_true h.1) rfl
  | ok _ => exact ⟨h.succeeds.trans (iff_and_self.mpr fun _ => rfl), h.updated, h.unchanged⟩

/-- **`adminGrant`.** -/
theorem adminGrant_performs (h : s.grants.Represents M) (weather : ManagementWeather) (body : GrantBody) :
    Performs s.grants (body.Valid ∧ RolesExist catalogue body.roles ∧ weather.write.isOk)
      (M.grant body.key body.roles) (s.adminGrant catalogue weather body) := by
  unfold AclManagement.adminGrant
  rw [applyGrant_eq]
  by_cases huser : body.userId = ""
  · rw [dif_pos huser]
    exact .refuse (fun hadm => hadm.1.1 huser) rfl
  · rw [dif_neg huser]
    cases hempty : body.roles.isEmpty with
    | true => exact .refuse (fun hadm => hadm.1.2 (List.isEmpty_iff.mp hempty)) rfl
    | false =>
        have hroles : body.roles ≠ [] := by
          rw [ne_eq, ← List.isEmpty_iff, hempty]
          exact Bool.false_ne_true
        rw [if_neg Bool.false_ne_true, ← assertRolesExist_isOk_iff]
        cases assertRolesExist catalogue body.roles with
        | error e => exact .refuse (fun hadm => Bool.false_ne_true hadm.2.1) rfl
        | ok _ =>
            cases weather.write with
            | error e => exact .refuse (fun hadm => Bool.false_ne_true hadm.2.2) rfl
            | ok _ =>
                refine .accept ⟨⟨huser, hroles⟩, rfl, rfl⟩ ?_
                have hkey : ∀ e ∈ findGrant s.grants body, e.key = body.key :=
                  fun e he => (key_of_findGrant he).2
                exact writeGrant_represents h huser hroles hkey (.refl _ _)

/-- **`adminRevoke`.** -/
theorem adminRevoke_performs (h : s.grants.Represents M) (weather : ManagementWeather) (body : GrantBody) :
    Performs s.grants (body.Valid ∧ (M body.key = ∅ ∨ weather.write.isOk))
      (M.revoke body.key body.roles) (s.adminRevoke weather body) := by
  unfold AclManagement.adminRevoke
  rw [applyRevoke_eq]
  by_cases huser : body.userId = ""
  · rw [if_pos huser]
    exact .refuse (fun hadm => hadm.1.1 huser) rfl
  · rw [if_neg huser]
    cases hempty : body.roles.isEmpty with
    | true => exact .refuse (fun hadm => hadm.1.2 (List.isEmpty_iff.mp hempty)) rfl
    | false =>
        have hroles : body.roles ≠ [] := by
          rw [ne_eq, ← List.isEmpty_iff, hempty]
          exact Bool.false_ne_true
        rw [if_neg Bool.false_ne_true]
        cases hfound : findGrant s.grants body with
        | none =>
            have habsent := h.map.absent _ (findGrant_eq_none_iff.mp hfound)
            refine .accept ⟨⟨huser, hroles⟩, .inl habsent⟩ ?_
            rw [revoke_absent h hfound]
            exact h
        | some existing =>
            have hpresent : M body.key ≠ ∅ := by
              obtain ⟨hmem, hkey⟩ := key_of_findGrant hfound
              intro hnone
              exact h.map.eq_empty_iff.mp hnone existing hmem hkey
            cases weather.write with
            | error e =>
                exact .refuse (fun hadm => hadm.2.elim hpresent fun h => Bool.false_ne_true h) rfl
            | ok _ =>
                refine .accept ⟨⟨huser, hroles⟩, .inr rfl⟩ ?_
                have hdistinct := h.distinct existing (key_of_findGrant hfound).1
                refine writeRevoke_represents h hdistinct ?_
                rw [hfound]
                exact .refl body.roles (some existing)

/-- `grant` is the gate before `adminGrant`. -/
theorem grant_eq (weather : ManagementWeather) (currentUser : String) (body : GrantBody) :
    s.grant options catalogue weather currentUser body =
      let gate := assertCanManage options (s.grants.stores catalogue) s.acl weather currentUser body.ctx
        "grant"
      match gate.1 with
      | .error e => (.error e, { s with acl := gate.2 })
      | .ok _ => { s with acl := gate.2 }.adminGrant catalogue weather body := by
  unfold AclManagement.grant AclManagement.adminGrant
  dsimp only
  generalize assertCanManage options _ s.acl weather currentUser body.ctx "grant" = gate
  obtain ⟨_ | _, acl⟩ := gate <;> rfl

/-- `revoke` is the gate before `adminRevoke`. -/
theorem revoke_eq (weather : ManagementWeather) (currentUser : String) (body : GrantBody) :
    s.revoke options catalogue weather currentUser body =
      let gate := assertCanManage options (s.grants.stores catalogue) s.acl weather currentUser body.ctx
        "revoke"
      match gate.1 with
      | .error e => (.error e, { s with acl := gate.2 })
      | .ok _ => { s with acl := gate.2 }.adminRevoke weather body := by
  unfold AclManagement.revoke AclManagement.adminRevoke
  dsimp only
  generalize assertCanManage options _ s.acl weather currentUser body.ctx "revoke" = gate
  obtain ⟨_ | _, acl⟩ := gate <;> rfl

/-- **One call** does to the map what its name says, or nothing. -/
theorem handle_performs (h : s.grants.Represents M) (call : ManagementCall) :
    Performs s.grants (call.Admitted options catalogue s M) (call.effect M)
      (s.handle options catalogue call) := by
  cases call with
  | grant currentUser body weather =>
      apply Performs.mapSome
      show Performs _ _ _ (s.grant options catalogue weather currentUser body)
      rw [grant_eq]
      apply Performs.gated
      exact adminGrant_performs (s := ⟨(assertCanManage options _ s.acl weather currentUser body.ctx _).2,
        s.grants⟩) h weather body
  | revoke currentUser body weather =>
      show Performs _ _ _ (s.revoke options catalogue weather currentUser body)
      rw [revoke_eq]
      apply Performs.gated
      exact adminRevoke_performs (s := ⟨(assertCanManage options _ s.acl weather currentUser body.ctx _).2,
        s.grants⟩) h weather body
  | adminGrant body weather => exact (adminGrant_performs h weather body).mapSome
  | adminRevoke body weather => exact adminRevoke_performs h weather body

end Calls

/-! ## Runs -/

section Runs

variable (options : AclModuleOptions) (catalogue : List AclRole)

/-- One call, next to what it means for the map when it succeeds. -/
def refinedStep (st : AclManagement × RoleMap) (call : ManagementCall) : AclManagement × RoleMap :=
  let (result, s) := st.1.handle options catalogue call
  (s, if result.isOk then call.effect st.2 else st.2)

variable {options catalogue}

theorem refinedStep_represents {st : AclManagement × RoleMap} (h : st.1.grants.Represents st.2)
    (call : ManagementCall) :
    (refinedStep options catalogue st call).1.grants.Represents (refinedStep options catalogue st call).2 := by
  have hcall : Performs st.1.grants (call.Admitted options catalogue st.1 st.2) (call.effect st.2)
      (st.1.handle options catalogue call) := handle_performs h call
  unfold refinedStep
  dsimp only
  cases hok : (st.1.handle options catalogue call).1.isOk with
  | true => exact hcall.updated hok
  | false =>
      show (st.1.handle options catalogue call).2.grants.Represents st.2
      rw [hcall.unchanged hok]
      exact h

/-- **The collection is a map.**  After any calls from the empty collection it is the map the calls that
succeeded make, and so it is at the next call: that call succeeds when it is admitted, updates the map as
its name says, and leaves the collection alone when it throws. -/
theorem managementRuns_refine_roleMap (options : AclModuleOptions) (catalogue : List AclRole)
    (acl : AclService) (calls : List ManagementCall) :
    let st := run (refinedStep options catalogue) ({ acl, grants := .empty }, fun _ => ∅) calls
    st.1.grants.Represents st.2 ∧
      ∀ call, Performs st.1.grants (call.Admitted options catalogue st.1 st.2) (call.effect st.2)
        (st.1.handle options catalogue call) := by
  intro st
  have hrun : st.1.grants.Represents st.2 :=
    run_invariant (I := fun st : AclManagement × RoleMap => st.1.grants.Represents st.2)
      (fun _ call h => refinedStep_represents h call) GrantStore.represents_empty calls
  exact ⟨hrun, handle_performs hrun⟩

end Runs

end NestAmqp.Acl
