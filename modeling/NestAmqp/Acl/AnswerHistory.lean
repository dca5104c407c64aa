/-
# NestAmqp.Acl.AnswerHistory — every answer is the decision of roles and grants that were there.

A decision is computed from the roles as one operation read them and the grants as another did, is kept in
the memory of an instance and in the second tier, and is found there by checks of any instance.  With
changes in between, an answer need not be the decision of any one moment.  What is left is proved here
over all interleavings: the answer of a check is the decision on the roles of one moment of the run and
the grants of one moment of the run, and for a check that begins after a settled change these moments
are after the change.  So what was taken away everywhere stays denied.
-/
import NestAmqp.Acl.DecisionCache
import NestAmqp.Acl.OneInstance
import NestAmqp.Lib.History

namespace NestAmqp.Acl

open NestAmqp.Js
open NestAmqp.Lib
open NestAmqp.Lib.Machine

/-- The states of a run and what it took. -/
abbrev WorldHistory := History World WorldInput

namespace WorldHistory

variable (history : WorldHistory)

/-- A check read something at the time. -/
def ReadAt (time : Nat) : Prop := ∃ i meets, history.input time = some (.resumeCheck i meets)

/-- A mutation wrote something at the time. -/
def WrittenAt (time : Nat) : Prop := ∃ i meets, history.input time = some (.resumeMutation i meets)

/-- The answer is the decision on what the reads found.  Where no grants were read, it is the decision
whatever the grants. -/
structure Justifies (reads : ReadTimes) (request : AclRequest) (answer : Bool) : Prop where
  rolesAt : history.ReadAt reads.rolesAt
  grantsAt : ∀ time, reads.grantsAt = some time → history.ReadAt time
  decides : ∀ grants : GrantStore,
    (∀ time, reads.grantsAt = some time → grants = (history.state time).grants) →
      answer = (grants.stores (history.state reads.rolesAt).roles).decision request

/-- The roles are those of the moment they were read at. -/
structure Lists (roles : List AclRole) (rolesAt : Nat) : Prop where
  readAt : history.ReadAt rolesAt
  roles : roles = (history.state rolesAt).roles

variable (requests : List AclRequest)

/-- An answer under a key is justified for every request that may find it there. -/
def Knows (key : String) (answer : Bool) (reads : ReadTimes) : Prop :=
  ∀ request ∈ requests, request.asks = true → request.key = key → history.Justifies reads request answer

/-- What a stage carries has its moment. -/
def Carries (request : AclRequest) : CheckStage → Prop
  | .answered (some (answer, reads)) | .decided _ answer reads | .saving answer reads
  | .returned answer (some reads) => history.Knows requests request.key answer reads
  | .listed _ _ roles rolesAt | .resolving _ roles rolesAt => history.Lists roles rolesAt
  | .returned answer none => answer = false ∧ request.asks = false
  | .asking | .answered none | .listing _ _ | .threw => True

end WorldHistory

variable {history : WorldHistory} {requests : List AclRequest}

/-- One question, one justification: what a check decided holds for all that print its key. -/
theorem WorldHistory.Justifies.knows {reads : ReadTimes} {request : AclRequest} {answer : Bool}
    (h : history.Justifies reads request answer) (hfree : CollisionFree requests)
    (hmem : request ∈ requests) (hasks : request.asks = true) :
    history.Knows requests request.key answer reads := by
  intro other hother hotherAsks hkey
  have hsame : SameQuestion request other := hfree request hmem other hother hasks hotherAsks hkey.symm
  refine ⟨h.rolesAt, h.grantsAt, fun grants hgrants => ?_⟩
  rw [← hsame.decision]
  exact h.decides grants hgrants

/-! ## The memory of an instance -/

/-- What an instance has in memory has its moments. -/
structure Instance.Recalls (history : WorldHistory) (requests : List AclRequest) (node : Instance) :
    Prop where
  ram : ∀ key answer, node.cache.Caches key answer → history.Knows requests key answer (node.reads key)
  memo : ∀ memo, node.rolesCache = some memo → history.Lists memo.data node.memoReadAt

section Node

variable {node : Instance} {key : String} {options : AclCacheOptions}

/-- The entry of a key is the one that was set last. -/
theorem AclCacheService.caches_ramSet_self {cache : AclCacheService} (hstore : cache.store = none)
    {entry : RamEntry} {answer : Bool} (h : (cache.ramSet options key entry).Caches key answer) :
    answer = entry.v := by
  rcases h with ⟨exp, hmem⟩ | ⟨store, exp, hsome, -⟩
  · have hadded : (key, { v := answer, exp }) ∈ mapDelete cache.ram key ++ [(key, entry)] := by
      unfold ramSet at hmem
      dsimp only at hmem
      split at hmem
      · exact mem_of_mem_evict hmem
      · exact hmem
    rcases List.mem_append.mp hadded with hold | hnew
    · have hother := (List.mem_filter.mp hold).2
      simp at hother
    · rw [← (Prod.mk.inj (List.mem_singleton.mp hnew)).2]
  · rw [show (cache.ramSet options key entry).store = cache.store from rfl, hstore] at hsome
    cases hsome

theorem Instance.Recalls.ramSet (h : node.Recalls history requests) {entry : RamEntry} {reads : ReadTimes}
    (hknows : history.Knows requests key entry.v reads) :
    (node.ramSet options key entry reads).Recalls history requests where
  ram := by
    intro k answer hcaches
    show history.Knows requests k answer (Function.update node.reads key reads k)
    by_cases hkey : k = key
    · subst hkey
      have hset : (node.cache.ramSet options k entry).Caches k answer := hcaches
      have hanswer : answer = entry.v := AclCacheService.caches_ramSet_self rfl hset
      rw [Function.update_self, hanswer]
      exact hknows
    · rw [Function.update_of_ne hkey]
      rcases AclCacheService.caches_of_ramSet hcaches with hold | hnew
      · exact h.ram k answer hold
      · exact absurd hnew.1 hkey
  memo := h.memo

/-- Entries go from the memory tier. -/
theorem Instance.Recalls.shrink (h : node.Recalls history requests) {ram : List (String × RamEntry)}
    (hram : ∀ key answer, (Instance.cache { node with ram }).Caches key answer →
      node.cache.Caches key answer) : Instance.Recalls history requests { node with ram } :=
  ⟨fun key answer hcaches => h.ram key answer (hram key answer hcaches), h.memo⟩

theorem Instance.Recalls.memoize (h : node.Recalls history requests) {memo : RolesMemo} {rolesAt : Nat}
    (hlists : history.Lists memo.data rolesAt) :
    Instance.Recalls history requests { node with rolesCache := some memo, memoReadAt := rolesAt } :=
  ⟨h.ram, fun _ hmemo => by rw [← Option.some.inj hmemo]; exact hlists⟩

theorem Instance.Recalls.invalidateLocalRam (h : node.Recalls history requests) (change : Change) :
    (node.invalidateLocalRam change).Recalls history requests where
  ram := by
    intro key answer hcaches
    have hdropped : (node.cache.invalidateLocalRam change.userId).Caches key answer := hcaches
    exact h.ram key answer hdropped.of_invalidateLocalRam
  memo := h.memo

theorem Instance.Recalls.invalidateRolesCache (h : node.Recalls history requests) (change : Change) :
    (node.invalidateRolesCache change).Recalls history requests :=
  ⟨h.ram, fun _ hmemo => by cases hmemo⟩

theorem Instance.Recalls.applyInvalidation (h : node.Recalls history requests) (change : Change) :
    (node.applyInvalidation change).Recalls history requests := by
  unfold Instance.applyInvalidation
  split
  · exact h.invalidateLocalRam change
  · exact (h.invalidateLocalRam change).invalidateRolesCache change

end Node

/-! ## One step of a check -/

/-- What the second tier answers has its moments. -/
def SharedStore.Recalls (history : WorldHistory) (requests : List AclRequest) (store : SharedStore) : Prop :=
  ∀ key entry, (key, entry) ∈ store.entries → ∀ answer, entry.value = decisionText answer →
    history.Knows requests key answer (store.reads key)

section Shared

variable {store : SharedStore} {key : String}

theorem SharedStore.Recalls.of_get (h : store.Recalls history requests) {time : Int} {answer : Bool}
    {reads : ReadTimes} (hget : store.get key time = some (answer, reads)) :
    history.Knows requests key answer reads := by
  unfold SharedStore.get AclCacheService.storeGet at hget
  cases hlookup : store.entries.lookup key with
  | none =>
      rw [hlookup] at hget
      cases hget
  | some entry =>
      rw [hlookup] at hget
      dsimp only at hget
      split at hget
      next cached hcached =>
        split at hget
        next htext =>
          obtain ⟨rfl, rfl⟩ := Prod.mk.inj (Option.some.inj hget)
          refine h key entry (AssocList.mem_of_lookup hlookup) _ ?_
          split at hcached
          · rw [Option.some.inj hcached]
            rcases htext with rfl | rfl <;> rfl
          · cases hcached
        next => cases hget
      next => cases hget

theorem SharedStore.Recalls.set (h : store.Recalls history requests) {answer : Bool} {exp : Int}
    {reads : ReadTimes} (hknows : history.Knows requests key answer reads) :
    (store.set key { value := decisionText answer, exp } reads).Recalls history requests := by
  intro k entry hmem found hfound
  show history.Knows requests k found (Function.update store.reads key reads k)
  rcases List.mem_append.mp hmem with hold | hnew
  · obtain ⟨hold, hother⟩ := List.mem_filter.mp hold
    have hkey : k ≠ key := by simpa using hother
    rw [Function.update_of_ne hkey]
    exact h k entry hold found hfound
  · obtain ⟨rfl, rfl⟩ := Prod.mk.inj (List.mem_singleton.mp hnew)
    rw [Function.update_self, ← decisionText_inj hfound]
    exact hknows

theorem SharedStore.Recalls.del (h : store.Recalls history requests) (keys : List String) :
    (store.del keys).Recalls history requests :=
  fun key entry hmem => h key entry (List.mem_filter.mp hmem).1

end Shared

/-- A check that is under way was asked, and what it carries has its moments. -/
structure CheckTask.Recalls (history : WorldHistory) (requests : List AclRequest) (task : CheckTask) :
    Prop where
  asked : task.request ∈ requests
  asks : task.request.asks = true ∨ task.stage = .returned false none
  carries : history.Carries requests task.request task.stage

/-- What a check returned is justified for its own request. -/
theorem CheckTask.Recalls.justified {task : CheckTask} (h : task.Recalls history requests) {answer : Bool}
    {reads : ReadTimes} (hreturned : task.stage = .returned answer (some reads)) :
    history.Justifies reads task.request answer := by
  have hcarries := h.carries
  rw [hreturned] at hcarries
  rcases h.asks with hasks | hrefused
  · exact hcarries task.request h.asked hasks rfl
  · rw [hreturned] at hrefused
    cases hrefused

/-- Without reads it was refused on the spot. -/
theorem CheckTask.Recalls.refused {task : CheckTask} (h : task.Recalls history requests) {answer : Bool}
    (hreturned : task.stage = .returned answer none) : answer = false ∧ task.request.asks = false := by
  have hcarries := h.carries
  rw [hreturned] at hcarries
  exact hcarries

/-- What an operation leaves has its moments. -/
structure CheckEffect.Recalls (history : WorldHistory) (requests : List AclRequest) (request : AclRequest)
    (out : CheckEffect) : Prop where
  asks : request.asks = true ∨ out.stage = .returned false none
  carries : history.Carries requests request out.stage
  node : out.node.Recalls history requests
  shared : ∀ store, out.shared = some store → store.Recalls history requests

section Check

variable {w : World} {node : Instance} {options : AclModuleOptions}

/-- **The call of a check** finds what is known under its key. -/
theorem beginCheck_recalls (options : AclModuleOptions) (hnode : node.Recalls history requests)
    (hshared : ∀ store, w.shared = some store → store.Recalls history requests) (request : AclRequest)
    (time : Int) : (beginCheck options w node request time).Recalls history requests request := by
  unfold beginCheck
  split
  next hasks =>
    obtain ⟨hhit, hkeep, -⟩ := AclCacheService.get_spec options.cache node.cache { readAt := time }
      request.userId request.cacheAction
    generalize node.cache.get options.cache { readAt := time } request.userId request.cacheAction = out
      at hhit hkeep
    obtain ⟨cached, cache⟩ := out
    have hshrink : Instance.Recalls history requests { node with ram := cache.ram } := by
      refine hnode.shrink fun key answer hcaches => ?_
      rcases hcaches with ⟨exp, hmem⟩ | ⟨store, exp, hstore, -⟩
      · exact hkeep key answer (.inl ⟨exp, hmem⟩)
      · cases hstore
    cases cached with
    | some answer => exact ⟨.inl hasks, hnode.ram request.key answer (hhit answer rfl), hshrink, hshared⟩
    | none =>
        refine ⟨.inl hasks, ?_, hshrink, hshared⟩
        dsimp only
        split <;> trivial
  next hasks => exact ⟨.inr rfl, ⟨rfl, eq_false_of_ne_true hasks⟩, hnode, hshared⟩

/-- **The decision**, from roles read before and the grants as they are now. -/
theorem WorldHistory.Lists.justifies {roles : List AclRole} {rolesAt i : Nat} {meets : Meets}
    (hlists : history.Lists roles rolesAt) (hrecords : history.Records World.now w (.resumeCheck i meets))
    (request : AclRequest) :
    history.Justifies { rolesAt, grantsAt := some w.now } request
      (allowedBy roles w.grants.records request) := by
  refine ⟨hlists.readAt, fun time htime => ?_, fun grants hgrants => ?_⟩
  · rw [← Option.some.inj htime]
    exact ⟨i, meets, hrecords.input⟩
  · rw [hgrants w.now rfl, hrecords.state, hlists.roles]
    rfl

/-- No role has the action: the decision is the same whatever the grants. -/
theorem WorldHistory.Lists.justifies_none {roles : List AclRole} {rolesAt : Nat}
    (hlists : history.Lists roles rolesAt) {request : AclRequest}
    (hempty : (roleNames roles request.actions).isEmpty = true) :
    history.Justifies { rolesAt, grantsAt := none } request false := by
  refine ⟨hlists.readAt, fun _ htime => absurd htime (Option.some_ne_none _).symm, fun grants _ => ?_⟩
  rw [← hlists.roles]
  show false = allowedBy roles grants.records request
  unfold allowedBy
  dsimp only
  rw [if_pos hempty]

/-- **The next operation of a check.** -/
theorem CheckTask.Recalls.resume (options : AclModuleOptions) (hfree : CollisionFree requests)
    {task : CheckTask} (h : task.Recalls history requests) (hnode : node.Recalls history requests)
    (hshared : ∀ store, w.shared = some store → store.Recalls history requests) {i : Nat} {meets : Meets}
    (hrecords : history.Records World.now w (.resumeCheck i meets)) :
    (task.resume options w node meets).Recalls history requests task.request := by
  obtain ⟨home, request, stage, timedOut⟩ := task
  obtain ⟨hasked, hasks, hcarries⟩ := h
  dsimp only at hasked hasks hcarries
  have hread : history.ReadAt w.now := ⟨i, meets, hrecords.input⟩
  -- a check that was refused on the spot stays where it is
  rcases hasks with hasks | rfl
  swap
  · exact ⟨.inr rfl, hcarries, hnode, hshared⟩
  have hstays {stage : CheckStage} (hstage : history.Carries requests request stage) :
      (⟨stage, node, w.shared⟩ : CheckEffect).Recalls history requests request :=
    ⟨.inl hasks, hstage, hnode, hshared⟩
  unfold CheckTask.resume
  cases stage with
  | asking =>
      refine hstays ?_
      cases hfound : (if meets.outcome.isOk then w.shared.bind fun store => store.get request.key meets.time
        else none) with
      | none => trivial
      | some found =>
          split at hfound
          · obtain ⟨store, hstore, hget⟩ := Option.bind_eq_some_iff.mp hfound
            exact (hshared store hstore).of_get hget
          · cases hfound
  | answered cached =>
      cases cached with
      | some found => exact ⟨.inl hasks, hcarries, hnode.ramSet hcarries, hshared⟩
      | none =>
          dsimp only
          split
          next roles hmemo =>
            obtain ⟨memo, hmemo, hroles⟩ := Option.bind_eq_some_iff.mp hmemo
            refine hstays ?_
            split at hroles
            · rw [← Option.some.inj hroles]
              exact hnode.memo memo hmemo
            · cases hroles
          next => exact hstays trivial
  | listing seenGen time =>
      dsimp only
      split
      · exact hstays ⟨hread, by rw [hrecords.state]⟩
      · exact hstays trivial
  | listed seenGen time roles rolesAt => exact ⟨.inl hasks, hcarries, hnode.memoize hcarries, hshared⟩
  | resolving seenGen roles rolesAt =>
      have hlists : history.Lists roles rolesAt := hcarries
      dsimp only
      split
      next hempty => exact hstays ((hlists.justifies_none hempty).knows hfree hasked hasks)
      next =>
        split
        · exact hstays ((hlists.justifies hrecords request).knows hfree hasked hasks)
        · exact hstays trivial
  | decided seenGen allowed reads =>
      dsimp only
      split
      · exact hstays trivial
      · split
        · exact hstays hcarries
        · refine ⟨.inl hasks, ?_, hnode.ramSet hcarries, hshared⟩
          dsimp only
          split <;> exact hcarries
  | saving allowed reads =>
      refine ⟨.inl hasks, hcarries, hnode, fun store hstore => ?_⟩
      dsimp only at hstore
      split at hstore
      · obtain ⟨old, hold, rfl⟩ := Option.map_eq_some_iff.mp hstore
        exact (hshared old hold).set hcarries
      · exact hshared store hstore
  | returned answer reads => exact hstays hcarries
  | threw => exact hstays trivial

end Check

/-! ## The invariant -/

/-- Everything in the system has its moments: what is cached, what a check carries on, and the writes. -/
structure World.Recalls (history : WorldHistory) (requests : List AclRequest) (w : World) : Prop where
  nodes : ∀ node ∈ w.nodes, node.Recalls history requests
  shared : ∀ store, w.shared = some store → store.Recalls history requests
  checks : ∀ task ∈ w.checks, task.Recalls history requests
  written : ∀ m ∈ w.mutations, ∀ change, m.stage.change = some change →
    history.WrittenAt change.writtenAt

/-- The requests of the run. -/
def WorldInput.Asks (requests : List AclRequest) : WorldInput → Prop
  | .check _ request _ => request ∈ requests
  | .resumeCheck _ _ | .deadline _ | .mutate _ _ | .resumeMutation _ _ | .deliver _ _ => True

section Step

variable {w : World} {options : AclModuleOptions}

theorem World.Recalls.tick (h : w.Recalls history requests) :
    World.Recalls history requests { w with now := w.now + 1 } :=
  ⟨h.nodes, h.shared, h.checks, h.written⟩

theorem MutationStep.node_recalls {node : Instance} {task : MutationTask} {meets : Meets}
    {out : MutationEffect} (hstep : MutationStep w node task meets out)
    (hnode : node.Recalls history requests) : out.node.Recalls history requests := by
  cases hstep with
  | drops change hstage => exact hnode.invalidateLocalRam change
  | forgets change hstage hsubject => exact hnode.invalidateRolesCache change
  | before stage hchange grants roles => exact hnode
  | wrote change hnow grants roles => exact hnode
  | lists change hstage store hshared => exact hnode
  | skips change hstage hnothing => exact hnode
  | deletes change keys hstage store hshared => exact hnode
  | publishes change hstage hsubject => exact hnode
  | resolves change hstage => exact hnode
  | ended change hstage => exact hnode

theorem MutationStep.shared_recalls {node : Instance} {task : MutationTask} {meets : Meets}
    {out : MutationEffect} (hstep : MutationStep w node task meets out)
    (hshared : ∀ store, w.shared = some store → store.Recalls history requests) :
    ∀ store, out.shared = some store → store.Recalls history requests := by
  cases hstep with
  | deletes change keys hstage old hold =>
      intro store hstore
      rw [← Option.some.inj hstore]
      exact (hshared old hold).del keys
  | drops change hstage => exact hshared
  | forgets change hstage hsubject => exact hshared
  | before stage hchange grants roles => exact hshared
  | wrote change hnow grants roles => exact hshared
  | lists change hstage store hstore => exact hshared
  | skips change hstage hnothing => exact hshared
  | publishes change hstage hsubject => exact hshared
  | resolves change hstage => exact hshared
  | ended change hstage => exact hshared

/-- **One step.** -/
theorem World.Recalls.step (h : w.Recalls history requests) (hfree : CollisionFree requests)
    {input : WorldInput} (hasks : input.Asks requests) (hrecords : history.Records World.now w input) :
    (w.step options input).Recalls history requests := by
  cases input with
  | check i request time =>
      unfold World.step
      dsimp only
      cases hnode : w.nodes[i]? with
      | none => exact h.tick
      | some node =>
          have hbegin := beginCheck_recalls options
            (h.nodes node (List.mem_of_getElem? hnode)) h.shared request time
          refine ⟨Tasks.forall_set h.nodes hbegin.node, h.shared, ?_, h.written⟩
          exact Tasks.forall_concat h.checks ⟨hasks, hbegin.asks, hbegin.carries⟩
  | resumeCheck i meets =>
      unfold World.step
      dsimp only
      cases htask : w.checks[i]? with
      | none => exact h.tick
      | some task =>
          dsimp only
          cases hnode : w.nodes[task.node]? with
          | none => exact h.tick
          | some node =>
              have hrecalls := h.checks task (List.mem_of_getElem? htask)
              have hresume := hrecalls.resume options hfree
                (h.nodes node (List.mem_of_getElem? hnode)) h.shared hrecords
              refine ⟨Tasks.forall_set h.nodes hresume.node, hresume.shared, ?_, h.written⟩
              exact Tasks.forall_set h.checks ⟨hrecalls.asked, hresume.asks, hresume.carries⟩
  | deadline i =>
      unfold World.step
      dsimp only
      cases htask : w.checks[i]? with
      | none => exact h.tick
      | some task =>
          obtain ⟨hstage, -, hrequest⟩ := task.pastDeadline_spec options
          obtain ⟨hasked, htaskAsks, hcarries⟩ := h.checks task (List.mem_of_getElem? htask)
          refine ⟨h.nodes, h.shared, Tasks.forall_set h.checks ⟨?_, ?_, ?_⟩, h.written⟩
          · rw [hrequest]
            exact hasked
          · rw [hrequest, hstage]
            exact htaskAsks
          · rw [hrequest, hstage]
            exact hcarries
  | mutate i mutation =>
      unfold World.step
      dsimp only
      cases w.nodes[i]? with
      | none => exact h.tick
      | some node =>
          refine ⟨h.nodes, h.shared, h.checks, Tasks.forall_concat h.written fun change hchange => ?_⟩
          -- nothing is written yet
          cases mutation with
          | apply op => cases hchange
          | upsertRole role =>
              unfold Mutation.begin at hchange
              dsimp only at hchange
              split at hchange <;> cases hchange
          | deleteRole name =>
              unfold Mutation.begin at hchange
              dsimp only at hchange
              split at hchange <;> cases hchange
  | resumeMutation i meets =>
      unfold World.step
      dsimp only
      cases htask : w.mutations[i]? with
      | none => exact h.tick
      | some task =>
          dsimp only
          cases hnode : w.nodes[task.node]? with
          | none => exact h.tick
          | some node =>
              have hstep := task.resume_spec w node meets
              have hnodes := hstep.node_recalls (h.nodes node (List.mem_of_getElem? hnode))
              refine ⟨Tasks.forall_set h.nodes hnodes, hstep.shared_recalls h.shared, h.checks, ?_⟩
              refine Tasks.forall_set h.written fun change hchange => ?_
              rcases hstep.change hchange with hnow | hold
              · rw [hnow]
                exact ⟨i, meets, hrecords.input⟩
              · exact h.written task (List.mem_of_getElem? htask) change hold
  | deliver i j =>
      unfold World.step
      dsimp only
      split
      next change node _ hnode =>
        have hnodes := (h.nodes node (List.mem_of_getElem? hnode)).applyInvalidation change
        exact ⟨Tasks.forall_set h.nodes hnodes, h.shared, h.checks, h.written⟩
      · exact h.tick

end Step

/-! ## Every run -/

/-- Nothing has been called, and nothing is cached. -/
structure World.Blank (w : World) : Prop extends w.Starts where
  ram : ∀ node ∈ w.nodes, node.ram = []
  memo : ∀ node ∈ w.nodes, node.rolesCache = none
  shared : ∀ store, w.shared = some store → store.entries = []

/-- The requests of the checks of a run. -/
def requestsOf (inputs : List WorldInput) : List AclRequest :=
  inputs.filterMap fun
    | .check _ request _ => some request
    | .resumeCheck _ _ | .deadline _ | .mutate _ _ | .resumeMutation _ _ | .deliver _ _ => none

section Runs

variable {w : World} {options : AclModuleOptions}

theorem World.now_step (options : AclModuleOptions) (w : World) (input : WorldInput) :
    (w.step options input).now = w.now + 1 := by
  unfold World.step
  split
  · split <;> rfl
  · split
    · rfl
    · split <;> rfl
  · split <;> rfl
  · split <;> rfl
  · split
    · rfl
    · split <;> rfl
  · split <;> rfl

theorem World.Blank.recalls (h : w.Blank) (history : WorldHistory) (requests : List AclRequest) :
    w.Recalls history requests where
  nodes := by
    intro node hnode
    refine ⟨fun key answer hcaches => ?_, fun memo hmemo => ?_⟩
    · rcases hcaches with ⟨exp, hmem⟩ | ⟨store, exp, hstore, -⟩
      · rw [show node.cache.ram = node.ram from rfl, h.ram node hnode] at hmem
        cases hmem
      · cases hstore
    · rw [h.memo node hnode] at hmemo
      cases hmemo
  shared := by
    intro store hstore key entry hmem
    rw [h.shared store hstore] at hmem
    cases hmem
  checks := by
    rw [h.checks]
    exact fun _ htask => absurd htask List.not_mem_nil
  written := by
    rw [h.mutations]
    exact fun _ hm => absurd hm List.not_mem_nil

theorem asks_requestsOf (inputs : List WorldInput) : ∀ input ∈ inputs, input.Asks (requestsOf inputs) := by
  intro input hinput
  cases input with
  | check i request time => exact List.mem_filterMap.mpr ⟨_, hinput, rfl⟩
  | resumeCheck i meets => trivial
  | deadline i => trivial
  | mutate i mutation => trivial
  | resumeMutation i meets => trivial
  | deliver i j => trivial

/-- **Every run** from empty caches. -/
theorem World.Blank.recalls_run (options : AclModuleOptions) (hblank : w.Blank) {inputs : List WorldInput}
    (hfree : CollisionFree (requestsOf inputs)) :
    (run (World.step options) w inputs).Recalls (.ofRun (World.step options) World.now w inputs)
      (requestsOf inputs) :=
  History.invariant_run (World.now_step options)
    (fun _ _ (h : World.Recalls _ _ _) hasks hrecords => h.step hfree hasks hrecords)
    (hblank.recalls _ _) (along_of_forall (asks_requestsOf inputs))

/-- The states a decision was read in; where no grants were read, any state will do. -/
theorem WorldHistory.Justifies.states {inputs : List WorldInput} {reads : ReadTimes} {request : AclRequest}
    {answer : Bool}
    (h : WorldHistory.Justifies (.ofRun (World.step options) World.now w inputs) reads request answer)
    {last : World} (hlast : Reaches (World.step options) w inputs last) :
    ∃ listed read, Reaches (World.step options) w inputs listed ∧ listed.now = reads.rolesAt ∧
      Reaches (World.step options) w inputs read ∧ (read = last ∨ reads.grantsAt = some read.now) ∧
        answer = (read.grants.stores listed.roles).decision request := by
  obtain ⟨i, meets, hlisted⟩ := h.rolesAt
  obtain ⟨hlistedReaches, hlistedNow, -⟩ := History.reaches_of_input (World.now_step options) hlisted
  cases hgrantsAt : reads.grantsAt with
  | none =>
      refine ⟨_, last, hlistedReaches, hlistedNow, hlast, .inl rfl, ?_⟩
      refine h.decides last.grants fun time htime => ?_
      rw [hgrantsAt] at htime
      cases htime
  | some time =>
      obtain ⟨j, weather, hread⟩ := h.grantsAt time hgrantsAt
      obtain ⟨hreadReaches, hreadNow, -⟩ := History.reaches_of_input (World.now_step options) hread
      refine ⟨_, _, hlistedReaches, hlistedNow, hreadReaches, .inr (congrArg some hreadNow.symm), ?_⟩
      refine h.decides _ fun t ht => ?_
      rw [hgrantsAt] at ht
      rw [Option.some.inj ht]

/-- Nothing is read at a time at which something is written. -/
theorem WorldHistory.ReadAt.ne {readAt writtenAt : Nat} (hread : history.ReadAt readAt)
    (hwritten : history.WrittenAt writtenAt) : readAt ≠ writtenAt := by
  rintro rfl
  obtain ⟨i, meets, hinput⟩ := hread
  obtain ⟨j, weather, hother⟩ := hwritten
  rw [hinput] at hother
  cases hother

/-- What the check returned. -/
def CheckStage.answer : CheckStage → Option Bool
  | .returned answer _ => some answer
  | .asking | .answered _ | .listing _ _ | .listed _ _ _ _ | .resolving _ _ _ | .decided _ _ _ | .saving _ _
  | .threw => none

theorem CheckStage.answer_eq_some {stage : CheckStage} {answer : Bool} (h : stage.answer = some answer) :
    ∃ reads, stage = .returned answer reads := by
  cases stage with
  | returned found reads => exact ⟨reads, by rw [Option.some.inj h]⟩
  | asking => cases h
  | answered cached => cases h
  | listing seenGen time => cases h
  | listed seenGen time roles rolesAt => cases h
  | resolving seenGen roles rolesAt => cases h
  | decided seenGen allowed reads => cases h
  | saving allowed reads => cases h
  | threw => cases h

/-- **Answers are decisions.**  In every run from empty caches, however the checks, the changes and the
broadcasts of all instances interleave, a check that returns gives the decision on the roles of one state
of the run and the grants of one. -/
theorem answers_stood (hblank : w.Blank) {inputs : List WorldInput}
    (hfree : CollisionFree (requestsOf inputs)) :
    ∀ task ∈ (run (World.step options) w inputs).checks, ∀ answer, task.stage.answer = some answer →
      ∃ listed read : World, Reaches (World.step options) w inputs listed ∧
        Reaches (World.step options) w inputs read ∧
          answer = (read.grants.stores listed.roles).decision task.request := by
  intro task htask answer hanswer
  obtain ⟨reads, hreturned⟩ := CheckStage.answer_eq_some hanswer
  have hrecalls := (hblank.recalls_run options hfree).checks task htask
  have hlast := reaches_run (World.step options) w inputs
  cases reads with
  | none =>
      obtain ⟨rfl, hasks⟩ := hrecalls.refused hreturned
      exact ⟨_, _, hlast, hlast, (decision_of_not_asks hasks _).symm⟩
  | some reads =>
      obtain ⟨listed, read, hlisted, -, hread, -, hanswer⟩ := (hrecalls.justified hreturned).states hlast
      exact ⟨listed, read, hlisted, hread, hanswer⟩

/-- A settled change stays settled. -/
theorem World.Settled.run {change : Change} (h : w.Settled change) (inputs : List WorldInput) :
    (Machine.run (World.step options) w inputs).Settled change :=
  run_invariant (fun s input (h : s.Settled change) => h.grows (s.grows_step options input)) h inputs

/-- **Answers after a settled change.**  In a quiet run from empty caches, a check that begins once a
change is settled gives the decision on roles and grants of the run, of which those that the change is
about are from after it. -/
theorem answer_stood_since {subject : Subject} (hblank : w.Blank) {before after : List WorldInput}
    (hfree : CollisionFree (requestsOf (before ++ after)))
    (hquiet : Along (World.step options) (Quiet subject) w (before ++ after)) {change : Change}
    (hsubject : change.subject = subject) (hsettled : (run (World.step options) w before).Settled change)
    {k : Nat} {task : CheckTask} (hk : (run (World.step options) w before).checks.length ≤ k)
    (htask : (run (World.step options) w (before ++ after)).checks[k]? = some task)
    (hconcerns : change.Concerns task.request.userId) {answer : Bool}
    (hreturned : task.stage.answer = some answer) :
    ∃ listed read : World, Reaches (World.step options) w (before ++ after) listed ∧
      Reaches (World.step options) w (before ++ after) read ∧
        (subject = .roles → change.writtenAt < listed.now) ∧
        (subject = .grants → change.writtenAt < read.now) ∧
          answer = (read.grants.stores listed.roles).decision task.request := by
  obtain ⟨reads, hreturned⟩ := CheckStage.answer_eq_some hreturned
  have hinv := hblank.recalls_run options hfree
  have hrecalls := hinv.checks task (List.mem_of_getElem? htask)
  have hlast := reaches_run (World.step options) w (before ++ after)
  -- the write is in the history, so it is before the end and no read is at its time
  obtain ⟨m, hm, hcleans⟩ : ∃ m ∈ (run (World.step options) w (before ++ after)).mutations,
      m.stage.cleans = some (change, []) := by
    rw [run_append]
    exact (hsettled.run after).cleaned
  have hwritten := hinv.written m hm change (MutationStage.change_of_cleans hcleans)
  obtain ⟨j, weather, hinput⟩ := hwritten
  have hbefore := (History.reaches_of_input (World.now_step options) hinput).2.2
  have havoids := avoids_of_settled hblank.toStarts hquiet hsubject hsettled hk htask hconcerns
  cases reads with
  | none =>
      obtain ⟨rfl, hasks⟩ := hrecalls.refused hreturned
      exact ⟨_, _, hlast, hlast, fun _ => hbefore, fun _ => hbefore, (decision_of_not_asks hasks _).symm⟩
  | some reads =>
      have hjustified := hrecalls.justified hreturned
      rw [hreturned] at havoids
      obtain ⟨listed, read, hlisted, hlistedAt, hread, hreadAt, hanswer⟩ := hjustified.states hlast
      refine ⟨listed, read, hlisted, hread, fun hroles => ?_, fun hgrants => ?_, hanswer⟩
      · have hne := hjustified.rolesAt.ne ⟨j, weather, hinput⟩
        have hnot : ¬ reads.rolesAt < change.writtenAt := fun hlt =>
          havoids (.inl ⟨hsubject.trans hroles, hlt⟩)
        omega
      · rcases hreadAt with rfl | hreadAt
        · exact hbefore
        · have hne := (hjustified.grantsAt _ hreadAt).ne ⟨j, weather, hinput⟩
          have hnot : ¬ read.now < change.writtenAt := fun hlt =>
            havoids (.inr ⟨hsubject.trans hgrants, read.now, hreadAt, hlt⟩)
          omega

/-- **Grants and revokes without a second tier.**  On any number of instances, a check that begins once
every instance has dropped its cache for a grant or a revoke gives the decision on grants from after it:
what a revoke took away is denied everywhere until it is granted again. -/
theorem answers_stood_since_grants (hblank : w.Blank) (hshared : w.shared = none)
    {before after : List WorldInput} (hfree : CollisionFree (requestsOf (before ++ after)))
    {change : Change} (hsubject : change.subject = .grants)
    (hsettled : (run (World.step options) w before).Settled change) {k : Nat} {task : CheckTask}
    (hk : (run (World.step options) w before).checks.length ≤ k)
    (htask : (run (World.step options) w (before ++ after)).checks[k]? = some task)
    (hconcerns : change.Concerns task.request.userId) {answer : Bool}
    (hreturned : task.stage.answer = some answer) :
    ∃ listed read : World, Reaches (World.step options) w (before ++ after) listed ∧
      Reaches (World.step options) w (before ++ after) read ∧ change.writtenAt < read.now ∧
        answer = (read.grants.stores listed.roles).decision task.request := by
  have hmemory : w.InMemory := by
    refine ⟨hshared, ?_⟩
    rw [hblank.checks]
    exact fun _ htask => absurd htask List.not_mem_nil
  have hquiet : Along (World.step options) (Quiet .grants) w (before ++ after) :=
    along_of_invariant (I := World.InMemory) (fun _ input h => h.step input)
      (fun w input h => ⟨h.quietStore .grants input, quietMemo_grants w input⟩) hmemory (before ++ after)
  obtain ⟨listed, read, hlisted, hread, -, hsince, hanswer⟩ :=
    answer_stood_since hblank hfree hquiet hsubject hsettled hk htask hconcerns hreturned
  exact ⟨listed, read, hlisted, hread, hsince rfl, hanswer⟩

end Runs

section Examples

/-- Two instances without a second tier. -/
def twoInstances : World := { oneTier with nodes := [{}, {}] }

theorem blank_twoInstances : twoInstances.Blank where
  toStarts := ⟨rfl, rfl, by decide, by decide⟩
  ram := by decide
  memo := by decide
  shared := nofun

/-- The user may read on one instance; then the other one takes the role back and tells it. -/
def revokedOnOther : List WorldInput :=
  .check 1 mayBobRead 0 :: List.replicate 5 (.resumeCheck 0 {}) ++
    .mutate 0 (.apply revokeBob) :: List.replicate 6 (.resumeMutation 0 {}) ++ [.deliver 0 1]

/-- The instance is asked again. -/
def askedAgain : List WorldInput := .check 1 mayBobRead 0 :: List.replicate 3 (.resumeCheck 1 {})

theorem collisionFree_mayBobRead : CollisionFree (requestsOf (revokedOnOther ++ askedAgain)) := by
  have hone : ∀ request ∈ requestsOf (revokedOnOther ++ askedAgain), request = mayBobRead := by
    intro request hmem
    have hmem : request ∈ [mayBobRead, mayBobRead] := hmem
    simpa using hmem
  intro r hr r' hr' _ _ _
  rw [hone r hr, hone r' hr']
  exact ⟨rfl, rfl, fun _ => Iff.rfl⟩

/-- The second check, after the revoke, at the end of the run. -/
theorem deniedAgain : ∃ task,
    (run (World.step {}) twoInstances (revokedOnOther ++ askedAgain)).checks[1]? = some task ∧
      task.request.userId = "bob" ∧ task.stage.answer = some false := by
  have hfound : (run (World.step {}) twoInstances (revokedOnOther ++ askedAgain)).checks[1]?.map
      (fun task => (task.request.userId, task.stage.answer)) = some ("bob", some false) := by decide +kernel
  obtain ⟨task, htask, hpair⟩ := Option.map_eq_some_iff.mp hfound
  exact ⟨task, htask, congrArg Prod.fst hpair, congrArg Prod.snd hpair⟩

theorem answers_stood_askedAgain :
    ∃ task ∈ (run (World.step {}) twoInstances (revokedOnOther ++ askedAgain)).checks,
      ∃ listed read : World, Reaches (World.step {}) twoInstances (revokedOnOther ++ askedAgain) listed ∧
        Reaches (World.step {}) twoInstances (revokedOnOther ++ askedAgain) read ∧
          false = (read.grants.stores listed.roles).decision task.request := by
  obtain ⟨task, htask, -, hanswer⟩ := deniedAgain
  have hmem := List.mem_of_getElem? htask
  exact ⟨task, hmem, answers_stood blank_twoInstances collisionFree_mayBobRead task hmem false hanswer⟩

/-- The revoke, once it is written. -/
def bobRevoked : Change where
  subject := .grants
  userId := some "bob"
  writtenAt := 8
  named := by decide

theorem answers_stood_since_grants_askedAgain :
    ∃ task ∈ (run (World.step {}) twoInstances (revokedOnOther ++ askedAgain)).checks,
      ∃ listed read : World, Reaches (World.step {}) twoInstances (revokedOnOther ++ askedAgain) listed ∧
        Reaches (World.step {}) twoInstances (revokedOnOther ++ askedAgain) read ∧ 8 < read.now ∧
          false = (read.grants.stores listed.roles).decision task.request := by
  obtain ⟨task, htask, huser, hanswer⟩ := deniedAgain
  have hsettled : (run (World.step {}) twoInstances revokedOnOther).Settled bobRevoked := by
    refine ⟨⟨⟨0, .apply revokeBob, .resolved (some bobRevoked)⟩, .head _, rfl⟩, fun node hnode => ?_,
      nofun⟩
    rcases List.mem_cons.mp hnode with rfl | hnode
    · exact .head _
    · rw [List.mem_singleton.mp hnode]
      exact .head _
  have hbegun : (run (World.step {}) twoInstances revokedOnOther).checks.length ≤ 1 := by decide +kernel
  have hconcerns : bobRevoked.Concerns task.request.userId := by
    intro u hu
    rw [huser]
    exact (Option.some.inj hu).symm
  exact ⟨task, List.mem_of_getElem? htask, answers_stood_since_grants blank_twoInstances rfl
    collisionFree_mayBobRead rfl hsettled hbegun htask hconcerns hanswer⟩

end Examples

end NestAmqp.Acl
