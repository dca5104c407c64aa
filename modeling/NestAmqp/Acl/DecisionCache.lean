/-
# NestAmqp.Acl.DecisionCache — when a cached decision is the decision.

The cache key of a check is text: user, scope and sorted actions between separators that may occur inside
them.  A decision depends on the user, the normalised target and the set of actions.  Two checks whose
keys are equal although they ask about different things share an answer; this module shows that these
collisions are all that can go wrong, and that each of them does for some roles and grants.
-/
import NestAmqp.Acl.AclService
import NestAmqp.Lib.Memo

namespace NestAmqp.Acl

open NestAmqp.Js
open NestAmqp.Lib
open NestAmqp.Lib.Machine

/-! ## What a decision depends on -/

/-- The target of the check; none when the check is resource-agnostic. -/
def AclRequest.target (request : AclRequest) : Option Target :=
  request.ctx.map AclResourceContext.target

/-- Two checks ask the same: the same user, the same target after normalisation, the same actions. -/
structure SameQuestion (r r' : AclRequest) : Prop where
  user : r.userId = r'.userId
  target : r.target = r'.target
  actions : ∀ a, a ∈ r.actions ↔ a ∈ r'.actions

theorem appliesTo_iff (g : AclGrant) (r : AclRequest) :
    g.AppliesTo r.userId r.ctx ↔ g.userId = r.userId ∧ ∀ t, r.target = some t → g.target = t := by
  unfold AclGrant.AppliesTo AclRequest.target
  refine and_congr Iff.rfl ⟨?_, fun h c hc => h c.target (by rw [hc]; rfl)⟩
  intro h t ht
  obtain ⟨c, hc, rfl⟩ := Option.map_eq_some_iff.mp ht
  exact h c hc

theorem SameQuestion.symm {r r' : AclRequest} (h : SameQuestion r r') : SameQuestion r' r :=
  ⟨h.user.symm, h.target.symm, fun a => (h.actions a).symm⟩

theorem SameQuestion.decision_of {r r' : AclRequest} (h : SameQuestion r r') {stores : AclStores}
    (hr : stores.decision r = true) : stores.decision r' = true := by
  obtain ⟨g, hg, happlies, role, hrole, a, ha, hgrants⟩ := allowedBy_iff.mp hr
  refine allowedBy_iff.mpr ⟨g, hg, ?_, role, hrole, a, (h.actions a).mp ha, hgrants⟩
  rw [appliesTo_iff] at happlies ⊢
  rw [← h.user, ← h.target]
  exact happlies

/-- Checks that ask the same have the same decision. -/
theorem SameQuestion.decision {r r' : AclRequest} (h : SameQuestion r r') (stores : AclStores) :
    stores.decision r = stores.decision r' :=
  Bool.eq_iff_iff.mpr ⟨h.decision_of, h.symm.decision_of⟩

/-! ## Telling different questions apart -/

/-- One user with one grant, of one role. -/
def oneGrant (userId : String) (hnamed : userId ≠ "") (ctx : AclResourceContext)
    (actions : List String) : AclStores where
  roles := [{ name := "role", actions }]
  grants := [{ _id := 0, userId, companyId := ctx.companyId, resourceId := ctx.resourceId,
               roles := ["role"] }]
  named := by simpa using hnamed

theorem oneGrant_decision {userId : String} {hnamed : userId ≠ ""} {ctx : AclResourceContext}
    {actions : List String} {r : AclRequest} :
    (oneGrant userId hnamed ctx actions).decision r = true ↔
      userId = r.userId ∧ (∀ t, r.target = some t → ctx.target = t) ∧ ∃ a ∈ r.actions, a ∈ actions := by
  unfold AclStores.decision
  rw [allowedBy_iff]
  simp only [appliesTo_iff]
  simp [oneGrant, Grants, AclGrant.target, AclResourceContext.target, and_assoc]

/-- Some target is not this one. -/
theorem exists_other_target (t : Target) : ∃ ctx : AclResourceContext, ctx.target ≠ t := by
  by_cases h : t.2 = none
  · refine ⟨{ resourceId := .str "a" }, fun heq => ?_⟩
    rw [← heq] at h
    exact absurd h (by decide)
  · refine ⟨{}, fun heq => h ?_⟩
    rw [← heq]
    rfl

theorem AclRequest.asks_iff {r : AclRequest} : r.asks = true ↔ r.userId ≠ "" ∧ r.actions ≠ [] := by
  simp [AclRequest.asks]

/-- A check that is allowed wherever another one is has its user, its actions, and no target that the
other could miss. -/
theorem narrower_of_implies {r r' : AclRequest} (hr : r.asks = true)
    (h : ∀ stores : AclStores, stores.decision r = true → stores.decision r' = true) :
    r.userId = r'.userId ∧ (∀ t', r'.target = some t' → r.target = some t') ∧
      ∀ a ∈ r.actions, a ∈ r'.actions := by
  obtain ⟨hnamed, hsome⟩ := AclRequest.asks_iff.mp hr
  obtain ⟨a₀, ha₀⟩ := List.exists_mem_of_ne_nil _ hsome
  have hask (ctx : AclResourceContext) (hctx : ∀ t, r.target = some t → ctx.target = t) {a : String}
      (ha : a ∈ r.actions) : r.userId = r'.userId ∧ (∀ t, r'.target = some t → ctx.target = t) ∧
        ∃ a' ∈ r'.actions, a' ∈ [a] :=
    oneGrant_decision.mp (h (oneGrant r.userId hnamed ctx [a])
      (oneGrant_decision.mpr ⟨rfl, hctx, a, ha, .head _⟩))
  have hown : ∃ ctx : AclResourceContext, ∀ t, r.target = some t → ctx.target = t := by
    unfold AclRequest.target
    cases r.ctx with
    | none => exact ⟨{}, nofun⟩
    | some c => exact ⟨c, fun t ht => Option.some.inj ht⟩
  obtain ⟨own, hown⟩ := hown
  refine ⟨(hask own hown ha₀).1, fun t' ht' => ?_, fun a ha => ?_⟩
  · cases ht : r.target with
    | some t => rw [← hown t ht, (hask own hown ha₀).2.1 t' ht']
    | none =>
        -- an agnostic check is allowed on any target, the other one only on its own
        obtain ⟨other, hother⟩ := exists_other_target t'
        exact absurd ((hask other (by rw [ht]; exact nofun) ha₀).2.1 t' ht') hother
  · obtain ⟨a', ha', hmem⟩ := (hask own hown ha).2.2
    rwa [List.mem_singleton.mp hmem] at ha'

/-- **Different questions have different answers somewhere.** -/
theorem sameQuestion_of_decision {r r' : AclRequest} (hr : r.asks = true) (hr' : r'.asks = true)
    (h : ∀ stores : AclStores, stores.decision r = stores.decision r') : SameQuestion r r' := by
  obtain ⟨huser, htarget', hactions⟩ := narrower_of_implies hr fun stores hd => (h stores).symm.trans hd
  obtain ⟨-, htarget, hactions'⟩ := narrower_of_implies hr' fun stores hd => (h stores).trans hd
  refine ⟨huser, ?_, fun a => ⟨hactions a, hactions' a⟩⟩
  cases ht : r.target with
  | some t => exact (htarget t ht).symm
  | none =>
      cases ht' : r'.target with
      | none => rfl
      | some t' =>
          rw [htarget' t' ht'] at ht
          cases ht

/-! ## The service behind its cache -/

/-- What a check puts to the cache: nothing when it is refused on the spot. -/
def asked (request : AclRequest) : Option AclRequest := if request.asks then some request else none

theorem asked_eq_some {request q : AclRequest} :
    asked request = some q ↔ request.asks = true ∧ request = q := by
  unfold asked
  split
  next h => simp [h]
  next h => simp [h]

/-- `checkAction` as a service. -/
def checkService (options : AclModuleOptions) (stores : AclStores) :
    Memo.Service AclService (AclRequest × Weather) AclRequest Bool where
  call s i :=
    let (answer, s') := s.checkAction options stores i.2 i.1
    (answer.toOption, s')
  question i := asked i.1

/-- One check of a sequence. -/
def checkStep (options : AclModuleOptions) (stores : AclStores) (s : AclService)
    (i : AclRequest × Weather) : AclService := (s.checkAction options stores i.2 i.1).2

/-- The check returns what `resolveAllowed` returns for its own arguments, if it returns. -/
def ExactCheck (options : AclModuleOptions) (stores : AclStores) (s : AclService)
    (i : AclRequest × Weather) : Prop :=
  ∀ allowed, (s.checkAction options stores i.2 i.1).1 = .ok allowed → allowed = stores.decision i.1

theorem toOption_eq_some {α ε : Type} {r : Except ε α} {a : α} : r.toOption = some a ↔ r = .ok a := by
  cases r with
  | ok b => exact ⟨fun h => congrArg _ (Option.some.inj h), fun h => congrArg _ (Except.ok.inj h)⟩
  | error e => exact ⟨nofun, nofun⟩

/-- What is refused on the spot is refused by the decision too. -/
theorem decision_of_not_asks {r : AclRequest} (h : r.asks = false) (stores : AclStores) :
    stores.decision r = false := by
  by_contra hd
  obtain ⟨g, hg, happlies, -, -, a, ha, -⟩ := allowedBy_iff.mp (eq_true_of_ne_false hd)
  have hasks : r.asks = true := by
    rw [AclRequest.asks_iff]
    refine ⟨?_, List.ne_nil_of_mem ha⟩
    rw [← happlies.1]
    exact stores.named g hg
  rw [h] at hasks
  cases hasks

theorem checkService_exact (options : AclModuleOptions) (stores : AclStores) :
    (checkService options stores).Exact stores.decision = ExactCheck options stores := by
  funext s i
  apply propext
  unfold Memo.Service.Exact ExactCheck
  show (∀ q a, asked i.1 = some q → _ → a = stores.decision q) ↔ _
  simp only [asked_eq_some]
  constructor
  · intro h allowed hallowed
    cases hasks : i.1.asks with
    | true => exact h i.1 allowed ⟨hasks, rfl⟩ (toOption_eq_some.mpr hallowed)
    | false =>
        rw [AclService.checkAction_of_not_asks hasks] at hallowed
        rw [decision_of_not_asks hasks, ← Except.ok.inj hallowed]
  · rintro h q a ⟨-, rfl⟩ ha
    exact h a (toOption_eq_some.mp ha)

/-- **The service is lawful**, whatever its options and whatever happens around it. -/
theorem checkService_lawful (options : AclModuleOptions) (stores : AclStores) :
    (checkService options stores).Lawful AclRequest.key stores.decision
      (AclService.RolesCurrent stores) fun s k v => s.cache.Caches k v where
  inv s i h := (AclService.checkAction_spec options i.2 i.1 h).1
  answered s i q a h hq ha := by
    obtain ⟨hasks, rfl⟩ := asked_eq_some.mp hq
    exact (AclService.checkAction_spec options i.2 i.1 h).2.1 a hasks (toOption_eq_some.mp ha)
  cached s i k a h hcached := by
    rcases (AclService.checkAction_spec options i.2 i.1 h).2.2 k a hcached with hold | ⟨hasks, hkey, hdecision⟩
    · exact .inl hold
    · exact .inr ⟨i.1, asked_eq_some.mpr ⟨hasks, rfl⟩, hkey, hdecision⟩

/-! ## A cache that keeps everything -/

/-- A time to live, no cap, and a clock that stands still. -/
def keepingOptions : AclModuleOptions := { cache := { ramTtlMs := some 1, maxRamEntries := some 0 } }

/-- The memory tier answers with this decision. -/
def AclCacheService.Keeps (cache : AclCacheService) (key : String) (value : Bool) : Prop :=
  ∃ entry, cache.ram.lookup key = some entry ∧ entry.v = value ∧ 0 < entry.exp

theorem lookup_mapDelete {β : Type} (map : List (String × β)) (key k : String) :
    (mapDelete map key).lookup k = if k = key then none else map.lookup k := by
  induction map with
  | nil => simp [mapDelete]
  | cons entry map ih =>
      obtain ⟨k', b⟩ := entry
      unfold mapDelete at ih ⊢
      rw [List.filter_cons]
      by_cases hk' : k' = key
      · subst hk'
        rw [if_neg (by simp), ih, lookup_cons]
        split <;> rfl
      · rw [if_pos (by simpa using hk'), lookup_cons, lookup_cons, ih]
        split
        next hk =>
          rw [hk, if_neg hk']
        next => rfl

namespace AclCacheService

theorem lookup_ramSet (cache : AclCacheService) (key k : String) (entry : RamEntry) :
    (cache.ramSet keepingOptions.cache key entry).ram.lookup k =
      if k = key then some entry else cache.ram.lookup k := by
  show (mapDelete cache.ram key ++ [(key, entry)]).lookup k = _
  rw [List.lookup_append, lookup_mapDelete, lookup_cons]
  split
  · rfl
  · exact Option.or_none

theorem keeps_ramSet (cache : AclCacheService) (key : String) (value : Bool) :
    (cache.ramSet keepingOptions.cache key { v := value, exp := 0 + 1 }).Keeps key value :=
  ⟨_, by rw [lookup_ramSet, if_pos rfl], rfl, Int.one_pos⟩

theorem Keeps.ramSet {cache : AclCacheService} {k key : String} {value : Bool}
    (h : cache.Keeps k value) (hk : k ≠ key) (entry : RamEntry) :
    (cache.ramSet keepingOptions.cache key entry).Keeps k value := by
  obtain ⟨e, he, hrest⟩ := h
  exact ⟨e, by rw [lookup_ramSet, if_neg hk, he], hrest⟩

/-- The store tier keeps what it returns. -/
theorem getStored_keeps (cache : AclCacheService) {key : String} (hmiss : ∀ v, ¬ cache.Keeps key v) :
    (∀ v, (cache.getStored keepingOptions.cache {} key).1 = some v →
        (cache.getStored keepingOptions.cache {} key).2.Keeps key v) ∧
      ∀ k v, cache.Keeps k v → (cache.getStored keepingOptions.cache {} key).2.Keeps k v := by
  have hnone : (∀ v, (none : Option Bool) = some v → cache.Keeps key v) ∧
      ∀ k v, cache.Keeps k v → cache.Keeps k v := ⟨nofun, fun _ _ h => h⟩
  unfold getStored
  split
  · exact hnone
  · split
    · split
      · split
        · refine ⟨fun v hv => ?_, fun k v hkeeps => ?_⟩
          · rw [← Option.some.inj hv]
            exact keeps_ramSet cache key _
          · refine hkeeps.ramSet ?_ _
            rintro rfl
            exact hmiss v hkeeps
        · exact hnone
      · exact hnone
    · exact hnone

/-- **Reading a cache that keeps everything.** -/
theorem get_keeps (cache : AclCacheService) (userId action : String) :
    (∀ v, cache.Keeps (cacheKey userId action) v →
        (cache.get keepingOptions.cache {} userId action).1 = some v) ∧
      (∀ v, (cache.get keepingOptions.cache {} userId action).1 = some v →
        (cache.get keepingOptions.cache {} userId action).2.Keeps (cacheKey userId action) v) ∧
      ∀ k v, cache.Keeps k v → (cache.get keepingOptions.cache {} userId action).2.Keeps k v := by
  generalize hkey : cacheKey userId action = key
  unfold get
  rw [hkey]
  dsimp only
  cases hlookup : cache.ram.lookup key with
  | none =>
      have hmiss : ∀ v, ¬ cache.Keeps key v := by
        rintro v ⟨entry, hentry, -⟩
        rw [hlookup] at hentry
        cases hentry
      obtain ⟨hhit, hkeep⟩ := getStored_keeps cache hmiss
      exact ⟨fun v hv => absurd hv (hmiss v), hhit, hkeep⟩
  | some entry =>
      dsimp only
      by_cases hfresh : entry.exp > 0
      · rw [if_pos hfresh]
        refine ⟨?_, fun v hv => ?_, fun _ _ h => h⟩
        · rintro v ⟨entry', hentry', hv, -⟩
          rw [hlookup] at hentry'
          rw [Option.some.inj hentry', hv]
        · exact ⟨entry, hlookup, Option.some.inj hv, hfresh⟩
      · rw [if_neg hfresh]
        have hnot : ∀ v, ¬ cache.Keeps key v := by
          rintro v ⟨entry', hentry', -, hexp⟩
          rw [hlookup] at hentry'
          rw [← Option.some.inj hentry'] at hexp
          exact hfresh hexp
        have hmiss : ∀ v, ¬ Keeps { cache with ram := mapDelete cache.ram key } key v := by
          rintro v ⟨entry', hentry', -⟩
          rw [lookup_mapDelete, if_pos rfl] at hentry'
          cases hentry'
        obtain ⟨hhit, hkeep⟩ := getStored_keeps _ hmiss
        refine ⟨fun v hv => absurd hv (hnot v), hhit, fun k v hkeeps => hkeep k v ?_⟩
        obtain ⟨e, he, hrest⟩ := hkeeps
        refine ⟨e, ?_, hrest⟩
        rw [lookup_mapDelete, if_neg, he]
        rintro rfl
        exact hnot v ⟨e, he, hrest⟩

/-- Writing to it. -/
theorem set_keeps (cache : AclCacheService) (userId action : String) (value : Bool) :
    (cache.set keepingOptions.cache {} userId action value cache.gen).Keeps (cacheKey userId action)
        value ∧
      ∀ k v, k ≠ cacheKey userId action → cache.Keeps k v →
        (cache.set keepingOptions.cache {} userId action value cache.gen).Keeps k v := by
  have hself := keeps_ramSet cache (cacheKey userId action) value
  unfold set
  rw [if_neg (not_not_intro rfl)]
  dsimp only
  split
  · exact ⟨hself, fun k v hk hkeeps => hkeeps.ramSet hk _⟩
  · exact ⟨hself, fun k v hk hkeeps => hkeeps.ramSet hk _⟩

end AclCacheService

/-- **A check against a cache that keeps everything.** -/
theorem checkAction_keeps (stores : AclStores) (s : AclService) (request : AclRequest) :
    (request.asks = true → ∃ a, (s.checkAction keepingOptions stores {} request).1 = .ok a ∧
        (s.checkAction keepingOptions stores {} request).2.cache.Keeps request.key a) ∧
      (∀ a, request.asks = true → s.cache.Keeps request.key a →
        (s.checkAction keepingOptions stores {} request).1 = .ok a) ∧
      ∀ k a, s.cache.Keeps k a → (s.checkAction keepingOptions stores {} request).2.cache.Keeps k a := by
  cases hasks : request.asks with
  | false =>
      rw [AclService.checkAction_of_not_asks hasks]
      exact ⟨nofun, nofun, fun _ _ h => h⟩
  | true =>
      obtain ⟨hhit, hkept, hkeep⟩ := s.cache.get_keeps request.userId request.cacheAction
      cases hget : s.cache.get keepingOptions.cache {} request.userId request.cacheAction with
      | mk answer cache =>
          rw [hget] at hhit hkept hkeep
          cases answer with
          | some cached =>
              rw [AclService.checkAction_of_hit hasks hget]
              refine ⟨fun _ => ⟨cached, rfl, hkept cached rfl⟩, fun a _ hkeeps => ?_, hkeep⟩
              exact congrArg Except.ok (Option.some.inj (hhit a hkeeps))
          | none =>
              rw [AclService.checkAction_of_miss hasks hget rfl]
              obtain ⟨hself, hother⟩ := cache.set_keeps request.userId request.cacheAction
                (AclService.resolveAllowed keepingOptions stores { s with cache } 0 request).1
              refine ⟨fun _ => ⟨_, rfl, hself⟩, fun a _ hkeeps => ?_, fun k a hkeeps => ?_⟩
              · cases hhit a hkeeps
              · refine hother k a ?_ (hkeep k a hkeeps)
                rintro rfl
                cases hhit a hkeeps

/-- The service with such a cache, where nothing happens around the checks. -/
def keepingService (stores : AclStores) : Memo.Service AclService AclRequest AclRequest Bool where
  call s request := (checkService keepingOptions stores).call s (request, {})
  question := asked

theorem keepingService_sticky (stores : AclStores) :
    (keepingService stores).Sticky AclRequest.key fun s k a => s.cache.Keeps k a where
  stored s request q hq := by
    obtain ⟨hasks, rfl⟩ := asked_eq_some.mp hq
    obtain ⟨a, ha, hkeeps⟩ := (checkAction_keeps stores s request).1 hasks
    exact ⟨a, toOption_eq_some.mpr ha, hkeeps⟩
  reused s request q a hq hkeeps := by
    obtain ⟨hasks, rfl⟩ := asked_eq_some.mp hq
    exact toOption_eq_some.mpr ((checkAction_keeps stores s request).2.1 a hasks hkeeps)
  kept s request k a hkeeps := (checkAction_keeps stores s request).2.2 k a hkeeps

/-! ## Every sequence of checks -/

/-- The service as it starts, with or without a shared store. -/
def startService (shared : Bool) : AclService :=
  { cache := { store := if shared then some [] else none } }

/-- No two checks print the same key and ask different questions. -/
def CollisionFree (requests : List AclRequest) : Prop :=
  ∀ r ∈ requests, ∀ r' ∈ requests, r.asks = true → r'.asks = true → r.key = r'.key → SameQuestion r r'

theorem startService_caches (shared : Bool) (k : String) (v : Bool) :
    ¬ (startService shared).cache.Caches k v := by
  rintro (⟨exp, hmem⟩ | ⟨store, exp, hstore, hmem⟩)
  · cases hmem
  · cases shared with
    | false => cases hstore
    | true =>
        rw [← Option.some.inj hstore] at hmem
        cases hmem

/-- Without collisions the decisions are separated, whatever the roles and grants. -/
theorem CollisionFree.separated {requests : List AclRequest} (h : CollisionFree requests)
    (stores : AclStores) :
    Memo.Separated AclRequest.key stores.decision (requests.filter AclRequest.asks) := by
  intro r hr r' hr' hkey
  obtain ⟨hmem, hasks⟩ := List.mem_filter.mp hr
  obtain ⟨hmem', hasks'⟩ := List.mem_filter.mp hr'
  exact (h r hmem r' hmem' hasks hasks' hkey).decision stores

/-- **When cached decisions are the decisions.**  For every sequence of checks: with any roles and
grants, any options, with or without a shared store, and whatever the clock, the store and the database
do on the way, each check that returns gives what `resolveAllowed` gives for its own arguments, exactly
when no two checks of the sequence print one key for different questions. -/
theorem checkAction_exact_iff (requests : List AclRequest) :
    (∀ (options : AclModuleOptions) (stores : AclStores) (shared : Bool)
      (inputs : List (AclRequest × Weather)), inputs.map Prod.fst = requests →
      Along (checkStep options stores) (ExactCheck options stores) (startService shared) inputs) ↔
    CollisionFree requests := by
  constructor
  · intro h r hr r' hr' hasks hasks' hkey
    refine sameQuestion_of_decision hasks hasks' fun stores => ?_
    have hexact := h keepingOptions stores false (requests.map fun r => (r, {}))
      (by rw [List.map_map]; exact List.map_id _)
    rw [along_map, ← checkService_exact] at hexact
    have hsep := (keepingService_sticky stores).separated hexact
    have hmem {q : AclRequest} (hq : q ∈ requests) (hasks : q.asks = true) :
        q ∈ requests.filterMap (keepingService stores).question :=
      List.mem_filterMap.mpr ⟨q, hq, asked_eq_some.mpr ⟨hasks, rfl⟩⟩
    exact hsep r (hmem hr hasks) r' (hmem hr' hasks') hkey
  · intro h options stores shared inputs hinputs
    have hlawful := checkService_lawful options stores
    rw [← checkService_exact]
    refine hlawful.exact (h.separated stores) (fun _ hmemo => by cases hmemo)
      (fun k v hcached => absurd hcached (startService_caches shared k v)) fun i hi q hq => ?_
    obtain ⟨hasks, rfl⟩ := asked_eq_some.mp hq
    refine List.mem_filter.mpr ⟨?_, hasks⟩
    rw [← hinputs]
    exact List.mem_map_of_mem hi

/-- A user with a grant that names no resource. -/
def globalViewer : AclStores where
  roles := [{ name := "viewer", actions := ["booking-read"] }]
  grants := [{ _id := 0, userId := "u1", roles := ["viewer"] }]
  named := by decide

/-- A check without ids, and one for the company and the resource called `*`. -/
def starRequests : List AclRequest :=
  [{ userId := "u1", ctx := some {}, action := .one "booking-read" },
   { userId := "u1", ctx := some { companyId := .str "*", resourceId := .str "*" },
     action := .one "booking-read" }]

/-- The second check is answered with the decision of the first. -/
theorem not_checkAction_exact_star :
    ¬ ∀ (requests : List AclRequest) (options : AclModuleOptions) (stores : AclStores) (shared : Bool)
      (inputs : List (AclRequest × Weather)), inputs.map Prod.fst = requests →
      Along (checkStep options stores) (ExactCheck options stores) (startService shared) inputs := by
  intro h
  have hexact := h starRequests {} globalViewer false (starRequests.map fun r => (r, {})) rfl
  have hwrong := hexact.2.1 true rfl
  cases hwrong

end NestAmqp.Acl
