/-
# NestAmqp.Acl.Instances — checks and mutations that run at the same time, on several instances.

Every instance of the service has a decision cache and a roles memo in memory; the grants, the roles and
the optional second cache tier are shared.  A task is one call, between two of its asynchronous
operations, and a step lets one task take its next one, so a run is an interleaving.

A decision is kept together with the times at which the roles and the grants behind it were read, and an
instance with the changes it has dropped its cache for.  No step looks at either: they are what the
freshness of a decision is about.
-/
import NestAmqp.Acl.GrantRaces

namespace NestAmqp.Acl

open NestAmqp.Js
open NestAmqp.Lib.Machine

/-! ## Reads and changes -/

/-- When the roles and the grants behind a decision were read.  When no role has the action, no grants
are. -/
structure ReadTimes where
  rolesAt : Nat
  grantsAt : Option Nat

/-- What a mutation writes to. -/
inductive Subject where
  | grants
  | roles
  deriving DecidableEq, Repr

/-- A write that took effect: one user's grants, or the roles, which are everybody's. -/
structure Change where
  subject : Subject
  userId : Option String
  writtenAt : Nat
  named : userId ≠ some ""

/-- The roles were read before the change. -/
def RolesMiss (rolesAt : Nat) (change : Change) : Prop :=
  change.subject = .roles ∧ rolesAt < change.writtenAt

/-- A decision was computed from reads before the change. -/
def ReadTimes.Misses (reads : ReadTimes) (change : Change) : Prop :=
  RolesMiss reads.rolesAt change ∨
    (change.subject = .grants ∧ ∃ time, reads.grantsAt = some time ∧ time < change.writtenAt)

namespace Change

variable (change : Change)

/-- What the keys of the decisions it is about start with. -/
def keysStart : String :=
  match change.userId with
  | some userId => "acl/" ++ userId ++ "/"
  | none => "acl/"

/-- The key is of a decision the change is about. -/
def Covers (key : String) : Prop := startsWith key change.keysStart = true

/-- The change is about the user's decisions. -/
def Concerns (userId : String) : Prop := ∀ u, change.userId = some u → u = userId

end Change

/-! ## Instances and the shared store -/

/-- The memory of one instance. -/
structure Instance where
  ram : List (String × RamEntry) := []
  gen : Nat := 0
  rolesCache : Option RolesMemo := none
  reads : String → ReadTimes := fun _ => { rolesAt := 0, grantsAt := none }
  memoReadAt : Nat := 0
  dropped : List Change := []
  forgotten : List Change := []

namespace Instance

variable (node : Instance)

/-- Its cache service, apart from the second tier. -/
def cache : AclCacheService := { ram := node.ram, gen := node.gen }

/-- `ramSet`, of a decision with its reads. -/
def ramSet (options : AclCacheOptions) (key : String) (entry : RamEntry) (reads : ReadTimes) : Instance :=
  { node with
    ram := (node.cache.ramSet options key entry).ram
    reads := Function.update node.reads key reads }

/-- `invalidateLocalRam`. -/
def invalidateLocalRam (change : Change) : Instance :=
  let cache := node.cache.invalidateLocalRam change.userId
  { node with ram := cache.ram, gen := cache.gen, dropped := change :: node.dropped }

/-- `invalidateRolesCache`. -/
def invalidateRolesCache (change : Change) : Instance :=
  { node with rolesCache := none, forgotten := change :: node.forgotten }

/-- `apply` of the invalidation service: a change of the roles clears the memo too. -/
def applyInvalidation (change : Change) : Instance :=
  match change.subject with
  | .grants => node.invalidateLocalRam change
  | .roles => (node.invalidateLocalRam change).invalidateRolesCache change

end Instance

/-- The second tier. -/
structure SharedStore where
  entries : List (String × StoreEntry) := []
  reads : String → ReadTimes := fun _ => { rolesAt := 0, grantsAt := none }

namespace SharedStore

variable (store : SharedStore)

/-- `get`: anything but the two texts is a miss. -/
def get (key : String) (time : Int) : Option (Bool × ReadTimes) :=
  match AclCacheService.storeGet store.entries key time with
  | some cached => if cached = "1" ∨ cached = "0" then some (cached == "1", store.reads key) else none
  | none => none

/-- `set`. -/
def set (key : String) (entry : StoreEntry) (reads : ReadTimes) : SharedStore where
  entries := mapDelete store.entries key ++ [(key, entry)]
  reads := Function.update store.reads key reads

/-- `keys(pattern)`. -/
def keys (pattern : String) : List String := (store.entries.map Prod.fst).filter (globKeys pattern)

/-- `del(keys)`. -/
def del (keys : List String) : SharedStore :=
  { store with entries := store.entries.filter fun entry => !keys.contains entry.1 }

end SharedStore

/-! ## Tasks -/

/-- Where a check is; a decision goes with its reads. -/
inductive CheckStage where
  -- `get` waits for the second tier
  | asking
  -- `get` is about to return
  | answered (cached : Option (Bool × ReadTimes))
  -- `listRolesCached` waits for the roles; it took the time before
  | listing (seenGen : Nat) (time : Int)
  | listed (seenGen : Nat) (time : Int) (roles : List AclRole) (rolesAt : Nat)
  -- `resolveAllowed` has the roles
  | resolving (seenGen : Nat) (roles : List AclRole) (rolesAt : Nat)
  | decided (seenGen : Nat) (allowed : Bool) (reads : ReadTimes)
  -- `set` waits for the second tier
  | saving (allowed : Bool) (reads : ReadTimes)
  | returned (answer : Bool) (reads : Option ReadTimes)
  | threw

/-- One `checkAction`.  Past its deadline the caller has its error, but the resolution runs on. -/
structure CheckTask where
  node : Nat
  request : AclRequest
  stage : CheckStage
  timedOut : Bool := false

/-- A call that writes. -/
inductive Mutation where
  | apply (op : GrantOp)
  | upsertRole (role : AclRole)
  | deleteRole (name : String)

/-- Where a mutation is. -/
inductive MutationStage where
  -- `applyGrant` or `applyRevoke`, up to its write
  | applying (stage : GrantStage)
  -- `upsertRole`, before `assertActionsExist`
  | checking
  | writing
  | written (change : Change)
  -- in `invalidate`
  | dropped (change : Change)
  | listed (change : Change) (keys : List String)
  -- after it
  | cleared (change : Change)
  | published (change : Change)
  | resolved (change : Option Change)
  | threw

structure MutationTask where
  node : Nat
  mutation : Mutation
  stage : MutationStage

/-- What an asynchronous operation meets: the clock, its outcome, and whether the actions of a role
exist. -/
structure Meets where
  time : Int := 0
  outcome : Except Thrown Unit := .ok ()
  actionsExist : Bool := true

/-- The system. -/
structure World where
  grants : GrantStore
  roles : List AclRole
  shared : Option SharedStore := none
  nodes : List Instance
  checks : List CheckTask := []
  mutations : List MutationTask := []
  now : Nat := 0

/-- What happens next: a call, the next operation of a call, a deadline, or the arrival of a broadcast. -/
inductive WorldInput where
  | check (node : Nat) (request : AclRequest) (time : Int)
  | resumeCheck (i : Nat) (meets : Meets)
  | deadline (i : Nat)
  | mutate (node : Nat) (mutation : Mutation)
  | resumeMutation (i : Nat) (meets : Meets)
  | deliver (i node : Nat)

/-! ## Checks -/

section Checks

variable (options : AclModuleOptions)

/-- The memo is there and has not expired. -/
def Instance.memo (node : Instance) (time : Int) : Option (List AclRole) :=
  node.rolesCache.bind fun memo => if memo.exp > time then some memo.data else none

/-- What a check changes besides its stage. -/
structure CheckEffect where
  stage : CheckStage
  node : Instance
  shared : Option SharedStore

/-- The call of a check, up to its first wait: the memory tier is read at once. -/
def beginCheck (w : World) (node : Instance) (request : AclRequest) (time : Int) : CheckEffect :=
  if request.asks then
    match node.cache.get options.cache { readAt := time } request.userId request.cacheAction with
    | (some cached, cache) =>
        { stage := .returned cached (some (node.reads request.key))
          node := { node with ram := cache.ram }
          shared := w.shared }
    | (none, cache) =>
        { stage := if w.shared.isSome then .asking else .answered none
          node := { node with ram := cache.ram }
          shared := w.shared }
  else { stage := .returned false none, node, shared := w.shared }

/-- The next operation of a check, and the code up to the one after it. -/
def CheckTask.resume (w : World) (node : Instance) (task : CheckTask) (meets : Meets) : CheckEffect :=
  let stay (stage : CheckStage) : CheckEffect := { stage, node, shared := w.shared }
  let key := task.request.key
  match task.stage with
  | .asking =>
      stay (.answered (if meets.outcome.isOk then w.shared.bind fun store => store.get key meets.time
        else none))
  | .answered (some (value, reads)) =>
      { stage := .returned value (some reads)
        node := node.ramSet options.cache key
          { v := value, exp := meets.time + options.cache.ramTtl } reads
        shared := w.shared }
  | .answered none =>
      match node.memo meets.time with
      | some roles => stay (.resolving node.gen roles node.memoReadAt)
      | none => stay (.listing node.gen meets.time)
  | .listing seenGen time => match meets.outcome with
      | .ok _ => stay (.listed seenGen time w.roles w.now)
      | .error _ => stay .threw
  | .listed seenGen time roles rolesAt =>
      { stage := .resolving seenGen roles rolesAt
        node := { node with
          rolesCache := some { data := roles, exp := time + options.cache.ramTtl }
          memoReadAt := rolesAt }
        shared := w.shared }
  | .resolving seenGen roles rolesAt =>
      if (roleNames roles task.request.actions).isEmpty then
        stay (.decided seenGen false { rolesAt, grantsAt := none })
      else match meets.outcome with
        | .ok _ =>
            stay (.decided seenGen (allowedBy roles w.grants.records task.request)
              { rolesAt, grantsAt := some w.now })
        | .error _ => stay .threw
  | .decided seenGen allowed reads =>
      if task.timedOut then stay .threw
      else if seenGen ≠ node.gen then stay (.returned allowed (some reads))
      else
        { stage := if w.shared.isSome then .saving allowed reads else .returned allowed (some reads)
          node := node.ramSet options.cache key
            { v := allowed, exp := meets.time + options.cache.ramTtl } reads
          shared := w.shared }
  | .saving allowed reads =>
      { stage := .returned allowed (some reads)
        node
        shared := if meets.outcome.isOk then
            w.shared.map fun store => store.set key
              { value := decisionText allowed, exp := meets.time + options.cache.l2Ttl * 1000 } reads
          else w.shared }
  | .returned answer reads => stay (.returned answer reads)
  | .threw => stay .threw

/-- The deadline of `withTimeout` counts while the decision is resolved. -/
def CheckTask.pastDeadline (task : CheckTask) : CheckTask :=
  match task.stage with
  | .listing _ _ | .listed _ _ _ _ | .resolving _ _ _ =>
      if options.checkTimeout > 0 then { task with timedOut := true } else task
  | _ => task

end Checks

/-! ## Mutations -/

/-- `upsertOne({ name }, model)`. -/
def upsertOne (roles : List AclRole) (role : AclRole) : List AclRole :=
  if roles.any fun r => r.name == role.name then
    roles.map fun r =>
      if r.name == role.name then
        { r with
          actions := role.actions
          description := match role.description with
            | .undefined => r.description
            | description => description }
      else r
  else roles ++ [role]

/-- `removeOne({ name })`. -/
def removeOne (roles : List AclRole) (name : String) : List AclRole := roles.eraseP fun r => r.name == name

/-- The call of a mutation, up to its first wait. -/
def Mutation.begin : Mutation → MutationStage
  | .apply _ => .applying .called
  | .upsertRole role => if role.name = "" ∨ role.actions.isEmpty then .threw else .checking
  | .deleteRole name => if name = "" then .threw else .writing

/-- What `invalidate` asks the second tier for. -/
def Change.pattern (change : Change) : String :=
  if truthyText change.userId then "acl/" ++ template change.userId ++ "/*" else "acl/*"

/-- What a mutation changes besides its stage. -/
structure MutationEffect where
  stage : MutationStage
  grants : GrantStore
  roles : List AclRole
  node : Instance
  shared : Option SharedStore

/-- The next operation of a mutation, and the code up to the one after it. -/
def MutationTask.resume (w : World) (node : Instance) (task : MutationTask) (meets : Meets) :
    MutationEffect :=
  let stay (stage : MutationStage) : MutationEffect :=
    { stage, grants := w.grants, roles := w.roles, node, shared := w.shared }
  match task.stage, task.mutation with
  | .applying stage, .apply op =>
      let (next, grants) := op.resume w.grants w.now { roles := w.roles, outcome := meets.outcome } stage
      let change : Change :=
        { subject := .grants
          userId := some op.body.userId
          writtenAt := w.now
          named := fun h => op.valid.1 (Option.some.inj h) }
      { stay (match next with
          | .written => .written change
          | .returned _ => .resolved none
          | .threw _ => .threw
          | next => .applying next) with grants }
  | .checking, _ =>
      if meets.outcome.isOk && meets.actionsExist then stay .writing else stay .threw
  | .writing, mutation =>
      let change : Change := { subject := .roles, userId := none, writtenAt := w.now, named := nofun }
      match meets.outcome, mutation with
      | .ok _, .upsertRole role => { stay (.written change) with roles := upsertOne w.roles role }
      | .ok _, .deleteRole name => { stay (.written change) with roles := removeOne w.roles name }
      | _, _ => stay .threw
  | .written change, _ => { stay (.dropped change) with node := node.invalidateLocalRam change }
  | .dropped change, _ => match w.shared with
      | none => stay (.cleared change)
      | some store =>
          if meets.outcome.isOk then stay (.listed change (store.keys change.pattern))
          else stay (.cleared change)
  | .listed change keys, _ =>
      { stay (.cleared change) with
        shared := if meets.outcome.isOk then w.shared.map fun store => store.del keys else w.shared }
  | .cleared change, _ => match change.subject with
      | .grants => stay (.published change)
      | .roles => { stay (.published change) with node := node.invalidateRolesCache change }
  | .published change, _ => stay (.resolved (some change))
  | stage, _ => stay stage

/-- The change a broadcast that is out is about. -/
def MutationStage.announced : MutationStage → Option Change
  | .published change | .resolved (some change) => some change
  | _ => none

/-! ## One step -/

/-- One step. -/
def World.step (options : AclModuleOptions) (w : World) : WorldInput → World
  | .check i request time => match w.nodes[i]? with
      | none => { w with now := w.now + 1 }
      | some node =>
          let out := beginCheck options w node request time
          { w with
            nodes := w.nodes.set i out.node
            checks := w.checks ++ [{ node := i, request, stage := out.stage }]
            now := w.now + 1 }
  | .resumeCheck i meets => match w.checks[i]? with
      | none => { w with now := w.now + 1 }
      | some task => match w.nodes[task.node]? with
          | none => { w with now := w.now + 1 }
          | some node =>
              let out := task.resume options w node meets
              { w with
                nodes := w.nodes.set task.node out.node
                shared := out.shared
                checks := w.checks.set i { task with stage := out.stage }
                now := w.now + 1 }
  | .deadline i => match w.checks[i]? with
      | none => { w with now := w.now + 1 }
      | some task =>
          { w with checks := w.checks.set i (task.pastDeadline options), now := w.now + 1 }
  | .mutate i mutation => match w.nodes[i]? with
      | none => { w with now := w.now + 1 }
      | some _ =>
          { w with
            mutations := w.mutations ++ [{ node := i, mutation, stage := mutation.begin }]
            now := w.now + 1 }
  | .resumeMutation i meets => match w.mutations[i]? with
      | none => { w with now := w.now + 1 }
      | some task => match w.nodes[task.node]? with
          | none => { w with now := w.now + 1 }
          | some node =>
              let out := task.resume w node meets
              { grants := out.grants
                roles := out.roles
                shared := out.shared
                nodes := w.nodes.set task.node out.node
                checks := w.checks
                mutations := w.mutations.set i { task with stage := out.stage }
                now := w.now + 1 }
  | .deliver i j => match w.mutations[i]?.bind fun task => task.stage.announced, w.nodes[j]? with
      | some change, some node =>
          { w with nodes := w.nodes.set j (node.applyInvalidation change), now := w.now + 1 }
      | _, _ => { w with now := w.now + 1 }

/-- Nothing has been called yet; the caches may hold anything. -/
structure World.Starts (w : World) : Prop where
  checks : w.checks = []
  mutations : w.mutations = []
  dropped : ∀ node ∈ w.nodes, node.dropped = []
  forgotten : ∀ node ∈ w.nodes, node.forgotten = []

/-! ## A check on its own -/

section Alone

variable (options : AclModuleOptions) (w : World) (request : AclRequest) (time : Int)

/-- The steps of one check with nothing in between. -/
def soloCheck (out : CheckEffect) : Nat → CheckEffect
  | 0 => out
  | n + 1 =>
      soloCheck (CheckTask.resume options w out.node { node := 0, request, stage := out.stage } { time }) n

/-- The service an instance runs, without a second tier. -/
def Instance.service (node : Instance) : AclService := { cache := node.cache, rolesCache := node.rolesCache }

/-- The check has returned the answer, and left the service as it is. -/
def CheckEffect.Ends (out : CheckEffect) (answer : Bool) (service : AclService) : Prop :=
  (∃ reads, out.stage = .returned answer reads) ∧ out.node.service = service

theorem soloCheck_returned {out : CheckEffect} {answer : Bool} {reads : Option ReadTimes}
    (hstage : out.stage = .returned answer reads) (n : Nat) :
    (soloCheck options w request time out n).Ends answer out.node.service := by
  induction n generalizing out with
  | zero => exact ⟨⟨reads, hstage⟩, rfl⟩
  | succ n ih =>
      have hnext : CheckTask.resume options w out.node { node := 0, request, stage := out.stage } { time } =
          { stage := .returned answer reads, node := out.node, shared := w.shared } := by
        rw [hstage]
        rfl
      unfold soloCheck
      rw [hnext]
      exact ih rfl

theorem soloCheck_decided (hshared : w.shared = none) {node : Instance} {allowed : Bool}
    {reads : ReadTimes} (shared : Option SharedStore) (n : Nat) :
    (soloCheck options w request time ⟨.decided node.gen allowed reads, node, shared⟩ (n + 1)).Ends allowed
      { cache := node.cache.set options.cache { writtenAt := time } request.userId request.cacheAction
          allowed node.gen
        rolesCache := node.rolesCache } := by
  unfold soloCheck CheckTask.resume
  rw [hshared]
  dsimp only
  rw [if_neg Bool.false_ne_true, if_neg (not_not.mpr rfl)]
  have hset : node.cache.set options.cache { writtenAt := time } request.userId request.cacheAction allowed
      node.gen = node.cache.ramSet options.cache request.key
        { v := allowed, exp := time + options.cache.ramTtl } := by
    unfold AclCacheService.set
    rw [if_neg fun hmoved => hmoved rfl]
    rfl
  rw [hset]
  exact soloCheck_returned options w request time rfl n

theorem soloCheck_resolving (hshared : w.shared = none) (node : Instance) {roles : List AclRole}
    {rolesAt : Nat} (shared : Option SharedStore) (n : Nat) :
    (soloCheck options w request time ⟨.resolving node.gen roles rolesAt, node, shared⟩ (n + 2)).Ends
      (allowedBy roles w.grants.records request)
      { cache := node.cache.set options.cache { writtenAt := time } request.userId request.cacheAction
          (allowedBy roles w.grants.records request) node.gen
        rolesCache := node.rolesCache } := by
  rw [soloCheck]
  unfold CheckTask.resume
  dsimp only
  split
  next hempty =>
    have hfalse : allowedBy roles w.grants.records request = false := by
      unfold allowedBy
      dsimp only
      rw [if_pos hempty]
    rw [hfalse]
    exact soloCheck_decided options w request time hshared w.shared n
  next => exact soloCheck_decided options w request time hshared w.shared n

/-- Reading leaves the generation alone, and needs the clock alone. -/
theorem Instance.cache_of_get (node : Instance) (options : AclCacheOptions) (weather : CacheWeather)
    (userId action : String) :
    Instance.cache { node with ram := (node.cache.get options weather userId action).2.ram } =
        (node.cache.get options weather userId action).2 ∧
      node.cache.get options { readAt := weather.readAt } userId action =
        node.cache.get options weather userId action := by
  refine ⟨?_, rfl⟩
  unfold AclCacheService.get
  dsimp only
  split
  · split <;> rfl
  · rfl

/-- `listRolesCached` answers from the memo of the instance, or fills it. -/
theorem Instance.listRolesCached_service (node : Instance) (stores : AclStores) :
    node.service.listRolesCached options stores time =
      match node.memo time with
      | some roles => (roles, node.service)
      | none => (stores.roles,
          { node.service with
            rolesCache := some { data := stores.roles, exp := time + options.cache.ramTtl } }) := by
  unfold AclService.listRolesCached Instance.memo
  cases hmemo : node.rolesCache with
  | none =>
      have hnone : node.service.rolesCache = none := hmemo
      rw [hnone]
      rfl
  | some memo =>
      have hsome : node.service.rolesCache = some memo := hmemo
      rw [hsome]
      dsimp only [Option.bind_some]
      split
      · rfl
      · rfl

/-- The steps of a check that found nothing: it goes by the memo, or fills it. -/
theorem soloCheck_missed (hshared : w.shared = none) (node : Instance) (shared : Option SharedStore) :
    let resolved := node.service.resolveAllowed options (w.grants.stores w.roles) time request
    (soloCheck options w request time ⟨.answered none, node, shared⟩ 5).Ends resolved.1
      { resolved.2 with
        cache := node.cache.set options.cache { writtenAt := time } request.userId request.cacheAction
          resolved.1 node.gen } := by
  unfold AclService.resolveAllowed
  rw [Instance.listRolesCached_service options time, soloCheck]
  unfold CheckTask.resume
  dsimp only
  cases node.memo time with
  | some roles => exact soloCheck_resolving options w request time hshared node w.shared 2
  | none =>
      let filled : Instance := { node with
        rolesCache := some { data := w.roles, exp := time + options.cache.ramTtl }
        memoReadAt := w.now }
      exact soloCheck_resolving options w request time hshared filled w.shared 0

/-- **A check on its own** is `checkAction`. -/
theorem soloCheck_eq (hshared : w.shared = none) (node : Instance) :
    let alone := node.service.checkAction options (w.grants.stores w.roles)
      { cache := { readAt := time, writtenAt := time }, listedAt := time } request
    ∃ answer, alone.1 = .ok answer ∧
      (soloCheck options w request time (beginCheck options w node request time) 5).Ends answer alone.2 := by
  intro alone
  cases hasks : request.asks with
  | false =>
      have halone : alone = (.ok false, node.service) := AclService.checkAction_of_not_asks hasks
      have hbegin : beginCheck options w node request time =
          { stage := .returned false none, node, shared := w.shared } := by
        unfold beginCheck
        rw [hasks]
        rfl
      rw [halone, hbegin]
      exact ⟨false, rfl, soloCheck_returned options w request time rfl 5⟩
  | true =>
      obtain ⟨hcache, hread⟩ := node.cache_of_get options.cache { readAt := time, writtenAt := time }
        request.userId request.cacheAction
      unfold beginCheck
      rw [if_pos hasks, hshared]
      dsimp only at hread
      rw [hread]
      generalize hget : node.cache.get options.cache { readAt := time, writtenAt := time } request.userId
        request.cacheAction = out at hcache
      obtain ⟨cached, cache⟩ := out
      dsimp only at hcache
      cases cached with
      | some value =>
          have halone : alone = (.ok value, { node.service with cache }) :=
            AclService.checkAction_of_hit hasks hget
          rw [halone, ← hcache]
          exact ⟨value, rfl, soloCheck_returned options w request time rfl 5⟩
      | none =>
          have halone : alone = _ := AclService.checkAction_of_miss hasks hget rfl
          have hmissed := soloCheck_missed options w request time hshared { node with ram := cache.ram } none
          have hservice : Instance.service { node with ram := cache.ram } = { node.service with cache } :=
            congrArg (fun cache => { node.service with cache }) hcache
          have hgen : node.gen = cache.gen := congrArg AclCacheService.gen hcache
          dsimp only at hmissed
          rw [hservice, hcache] at hmissed
          rw [halone, ← hgen]
          exact ⟨_, rfl, hmissed⟩

end Alone
end NestAmqp.Acl
