/-
# NestAmqp.Acl.Freshness — when a check may answer from before a change.

A change drops the cached decisions of an instance and moves its generation, so a check that resolved
before it can no longer write to the memory tier.  Three writes are not guarded by the generation: a
decision on its way to the second tier, a decision on its way back from it, and the roles on their way
to the memo.  The invariant below holds in every run in which none of these carries anything from before
a change past the point where the change has cleared what it writes to; then no check that begins after
a change is settled answers from before it.
-/
import NestAmqp.Acl.Instances

namespace NestAmqp.Acl

open NestAmqp.Js
open NestAmqp.Lib
open NestAmqp.Lib.Machine

/-! ## What a stage carries -/

/-- What the stage carries was not read before the change. -/
def CheckStage.Avoids (change : Change) : CheckStage → Prop
  | .answered (some (_, reads)) | .decided _ _ reads | .saving _ reads | .returned _ (some reads) =>
      ¬ reads.Misses change
  | .listed _ _ _ rolesAt | .resolving _ _ rolesAt => ¬ RolesMiss rolesAt change
  | .asking | .answered none | .listing _ _ | .returned _ none | .threw => True

/-- The generation the check goes by when it writes. -/
def CheckStage.seenGen : CheckStage → Option Nat
  | .listing seenGen _ | .listed seenGen _ _ _ | .resolving seenGen _ _ | .decided seenGen _ _ =>
      some seenGen
  | .asking | .answered _ | .saving _ _ | .returned _ _ | .threw => none

/-- The change, once it is written. -/
def MutationStage.change : MutationStage → Option Change
  | .written change | .dropped change | .listed change _ | .cleared change | .published change => some change
  | .resolved change => change
  | .applying _ | .checking | .writing | .threw => none

/-- The change, once the second tier was asked for its keys, with the keys that are still to be
deleted. -/
def MutationStage.cleans : MutationStage → Option (Change × List String)
  | .listed change keys => some (change, keys)
  | .cleared change | .published change | .resolved (some change) => some (change, [])
  | .applying _ | .checking | .writing | .written _ | .dropped _ | .resolved none | .threw => none

theorem MutationStage.change_of_cleans {stage : MutationStage} {change : Change} {keys : List String}
    (h : stage.cleans = some (change, keys)) : stage.change = some change := by
  cases stage with
  | listed change keys => exact congrArg (Option.map Prod.fst) h
  | cleared change => exact congrArg (Option.map Prod.fst) h
  | published change => exact congrArg (Option.map Prod.fst) h
  | resolved change =>
      cases change with
      | none => cases h
      | some change => exact congrArg (Option.map Prod.fst) h
  | applying _ => cases h
  | checking => cases h
  | writing => cases h
  | written _ => cases h
  | dropped _ => cases h
  | threw => cases h

/-! ## The two conditions -/

section Conditions

variable (subject : Subject) (w : World)

/-- The second tier is quiet: what a check promotes from it was not read before a change its instance
has dropped, what a check saves to it was not read before a change that will not delete it, and no
invalidation of it fails. -/
def QuietStore : WorldInput → Prop
  | .resumeCheck i meets => ∀ task, w.checks[i]? = some task → ∀ node, w.nodes[task.node]? = some node →
      (∀ value reads, task.stage = .answered (some (value, reads)) →
        ∀ change ∈ node.dropped, change.subject = subject → change.Covers task.request.key →
          ¬ reads.Misses change) ∧
      (∀ allowed reads, task.stage = .saving allowed reads → meets.outcome.isOk = true →
        ∀ m ∈ w.mutations, ∀ change keys, m.stage.cleans = some (change, keys) →
          change.subject = subject → change.Covers task.request.key → task.request.key ∉ keys →
            ¬ reads.Misses change)
  | .resumeMutation i meets => ∀ task, w.mutations[i]? = some task → ∀ change,
      change.subject = subject → (task.stage = .dropped change ∨ ∃ keys, task.stage = .listed change keys) →
        w.shared.isSome = true → meets.outcome.isOk = true
  | _ => True

/-- The roles memo is quiet: a check that snapshots the generation does not go by a memo from before a
change its instance has dropped the cache for, and what a check memoizes was not read before a change
its instance has cleared the memo for. -/
def QuietMemo : WorldInput → Prop
  | .resumeCheck i meets => ∀ task, w.checks[i]? = some task → ∀ node, w.nodes[task.node]? = some node →
      (task.stage = .answered none → (node.memo meets.time).isSome = true →
        ∀ change ∈ node.dropped, change.subject = subject → ¬ RolesMiss node.memoReadAt change) ∧
      (∀ seenGen time roles rolesAt, task.stage = .listed seenGen time roles rolesAt →
        ∀ change ∈ node.forgotten, change.subject = subject → ¬ RolesMiss rolesAt change)
  | _ => True

/-- Both. -/
def Quiet (input : WorldInput) : Prop := QuietStore subject w input ∧ QuietMemo subject w input

end Conditions

/-! ## One instance -/

/-- The memory tier has an entry for the key. -/
def Instance.Holds (node : Instance) (key : String) : Prop := ∃ value, node.cache.Caches key value

/-- Nothing in the memory of the instance is from before a change it was cleared for. -/
structure Instance.Fresh (subject : Subject) (now : Nat) (node : Instance) : Prop where
  dropped : ∀ change ∈ node.dropped, change.writtenAt < now
  ram : ∀ key, node.Holds key → ∀ change ∈ node.dropped, change.subject = subject → change.Covers key →
    ¬ (node.reads key).Misses change
  memo : node.rolesCache ≠ none → ∀ change ∈ node.forgotten, change.subject = subject →
    ¬ RolesMiss node.memoReadAt change

/-- A check that could still write has nothing from before a change that was dropped. -/
def CheckStage.Guarded (subject : Subject) (node : Instance) (stage : CheckStage) : Prop :=
  ∀ seenGen, stage.seenGen = some seenGen → seenGen ≤ node.gen ∧
    (seenGen = node.gen → ∀ change ∈ node.dropped, change.subject = subject → stage.Avoids change)

section Node

variable {subject : Subject} {now : Nat} {node : Instance} {key : String} {options : AclCacheOptions}

/-- Dropping leaves no entry the change covers. -/
theorem not_covers_of_invalidateLocalRam {change : Change}
    (h : (node.invalidateLocalRam change).Holds key) : node.Holds key ∧ ¬ change.Covers key := by
  obtain ⟨value, hcaches⟩ := h
  refine ⟨⟨value, AclCacheService.Caches.of_invalidateLocalRam hcaches⟩, fun hcovers => ?_⟩
  rcases hcaches with ⟨exp, hmem⟩ | ⟨store, exp, hstore, -⟩
  · obtain ⟨subject, userId, writtenAt, named⟩ := change
    unfold Instance.cache Instance.invalidateLocalRam AclCacheService.invalidateLocalRam at hmem
    dsimp only at hmem
    split at hmem
    next htruthy =>
      cases userId with
      | none => cases htruthy
      | some u =>
          have hkept := (List.mem_filter.mp hmem).2
          dsimp only at hkept
          rw [Bool.not_eq_true'] at hkept
          have hstarts : startsWith key ("acl/" ++ u ++ "/") = true := hcovers
          rw [show template (some u) = u from rfl, hstarts] at hkept
          cases hkept
    next => cases hmem
  · cases hstore

/-- Later, the same memory is as fresh. -/
theorem Instance.Fresh.later (h : node.Fresh subject now) {now' : Nat} (hle : now ≤ now') :
    node.Fresh subject now' :=
  ⟨fun change hchange => (h.dropped change hchange).trans_le hle, h.ram, h.memo⟩

/-- A decision goes to the memory tier. -/
theorem Instance.Fresh.ramSet (h : node.Fresh subject now) {entry : RamEntry} {reads : ReadTimes}
    (hreads : ∀ change ∈ node.dropped, change.subject = subject → change.Covers key →
      ¬ reads.Misses change) : (node.ramSet options key entry reads).Fresh subject now where
  dropped := h.dropped
  ram := by
    intro k hk change hchange hsubject hcovers
    show ¬ (Function.update node.reads key reads k).Misses change
    by_cases hkey : k = key
    · subst hkey
      rw [Function.update_self]
      exact hreads change hchange hsubject hcovers
    · rw [Function.update_of_ne hkey]
      obtain ⟨value, hcaches⟩ := hk
      have hheld : node.Holds k := by
        rcases AclCacheService.caches_of_ramSet hcaches with hold | hnew
        · exact ⟨value, hold⟩
        · exact absurd hnew.1 hkey
      exact h.ram k hheld change hchange hsubject hcovers
  memo := h.memo

/-- The roles go to the memo. -/
theorem Instance.Fresh.memoize (h : node.Fresh subject now) {memo : RolesMemo} {rolesAt : Nat}
    (hroles : ∀ change ∈ node.forgotten, change.subject = subject → ¬ RolesMiss rolesAt change) :
    Instance.Fresh subject now { node with rolesCache := some memo, memoReadAt := rolesAt } :=
  ⟨h.dropped, h.ram, fun _ => hroles⟩

/-- Entries go from the memory tier. -/
theorem Instance.Fresh.shrink (h : node.Fresh subject now) {ram : List (String × RamEntry)}
    (hram : ∀ key, Instance.Holds { node with ram } key → node.Holds key) :
    Instance.Fresh subject now { node with ram } :=
  ⟨h.dropped, fun key hkey => h.ram key (hram key hkey), h.memo⟩

theorem Instance.Fresh.invalidateLocalRam (h : node.Fresh subject now) {change : Change}
    (hwritten : change.writtenAt < now) : (node.invalidateLocalRam change).Fresh subject now where
  dropped := by
    intro c hc
    rcases List.mem_cons.mp hc with rfl | hc
    · exact hwritten
    · exact h.dropped c hc
  ram := by
    intro key hkey c hc hsubject hcovers
    obtain ⟨hheld, hnot⟩ := not_covers_of_invalidateLocalRam hkey
    rcases List.mem_cons.mp hc with rfl | hc
    · exact absurd hcovers hnot
    · exact h.ram key hheld c hc hsubject hcovers
  memo := h.memo

theorem Instance.Fresh.invalidateRolesCache (h : node.Fresh subject now) (change : Change) :
    (node.invalidateRolesCache change).Fresh subject now :=
  ⟨h.dropped, h.ram, fun hsome => absurd rfl hsome⟩

theorem Instance.Fresh.applyInvalidation (h : node.Fresh subject now) {change : Change}
    (hwritten : change.writtenAt < now) : (node.applyInvalidation change).Fresh subject now := by
  unfold Instance.applyInvalidation
  split
  · exact h.invalidateLocalRam hwritten
  · exact (h.invalidateLocalRam hwritten).invalidateRolesCache change

/-- The guard looks at the generation and the changes that were dropped. -/
theorem CheckStage.Guarded.congr {node' : Instance} {stage : CheckStage} (h : stage.Guarded subject node)
    (hgen : node'.gen = node.gen) (hdropped : node'.dropped = node.dropped) :
    stage.Guarded subject node' := by
  intro seenGen hseen
  rw [hgen, hdropped]
  exact h seenGen hseen

/-- **The guard.**  After an invalidation no check that resolved before it can write. -/
theorem CheckStage.Guarded.invalidateLocalRam {stage : CheckStage} (h : stage.Guarded subject node)
    (change : Change) : stage.Guarded subject (node.invalidateLocalRam change) := by
  intro seenGen hseen
  have hle := (h seenGen hseen).1
  have hgen : (node.invalidateLocalRam change).gen = node.gen + 1 := rfl
  rw [hgen]
  exact ⟨Nat.le_succ_of_le hle, fun heq => by omega⟩

theorem CheckStage.Guarded.applyInvalidation {stage : CheckStage} (h : stage.Guarded subject node)
    (change : Change) : stage.Guarded subject (node.applyInvalidation change) := by
  unfold Instance.applyInvalidation
  split
  · exact h.invalidateLocalRam change
  · exact (h.invalidateLocalRam change).congr rfl rfl

end Node

/-! ## One step of a check -/

/-- What the next operation of a check can do. -/
inductive CheckStep (options : AclModuleOptions) (w : World) (node : Instance) (task : CheckTask)
    (meets : Meets) : CheckEffect → Prop
  | asked (hstage : task.stage = .asking) (cached : Option (Bool × ReadTimes))
      (hcached : ∀ value reads, cached = some (value, reads) →
        ∃ store, w.shared = some store ∧ store.get task.request.key meets.time = some (value, reads)) :
      CheckStep options w node task meets ⟨.answered cached, node, w.shared⟩
  | promoted (value : Bool) (reads : ReadTimes) (hstage : task.stage = .answered (some (value, reads)))
      (entry : RamEntry) :
      CheckStep options w node task meets
        ⟨.returned value (some reads), node.ramSet options.cache task.request.key entry reads, w.shared⟩
  | remembered (hstage : task.stage = .answered none) (roles : List AclRole)
      (hmemo : node.memo meets.time = some roles) :
      CheckStep options w node task meets ⟨.resolving node.gen roles node.memoReadAt, node, w.shared⟩
  | lists (hstage : task.stage = .answered none) :
      CheckStep options w node task meets ⟨.listing node.gen meets.time, node, w.shared⟩
  | listed (seenGen : Nat) (time : Int) (hstage : task.stage = .listing seenGen time) :
      CheckStep options w node task meets ⟨.listed seenGen time w.roles w.now, node, w.shared⟩
  | memoized (seenGen : Nat) (time : Int) (roles : List AclRole) (rolesAt : Nat)
      (hstage : task.stage = .listed seenGen time roles rolesAt) (memo : RolesMemo) :
      CheckStep options w node task meets ⟨.resolving seenGen roles rolesAt,
        { node with rolesCache := some memo, memoReadAt := rolesAt }, w.shared⟩
  | resolved (seenGen : Nat) (roles : List AclRole) (rolesAt : Nat)
      (hstage : task.stage = .resolving seenGen roles rolesAt) (allowed : Bool) (grantsAt : Option Nat)
      (hgrantsAt : ∀ time, grantsAt = some time → time = w.now) :
      CheckStep options w node task meets
        ⟨.decided seenGen allowed { rolesAt, grantsAt }, node, w.shared⟩
  | outdated (seenGen : Nat) (allowed : Bool) (reads : ReadTimes)
      (hstage : task.stage = .decided seenGen allowed reads) :
      CheckStep options w node task meets ⟨.returned allowed (some reads), node, w.shared⟩
  | cached (allowed : Bool) (reads : ReadTimes) (hstage : task.stage = .decided node.gen allowed reads)
      (entry : RamEntry) (stage : CheckStage)
      (hnext : stage = .saving allowed reads ∧ w.shared.isSome = true ∨
        stage = .returned allowed (some reads)) :
      CheckStep options w node task meets
        ⟨stage, node.ramSet options.cache task.request.key entry reads, w.shared⟩
  | saved (allowed : Bool) (reads : ReadTimes) (hstage : task.stage = .saving allowed reads)
      (hok : meets.outcome.isOk = true) (entry : StoreEntry) :
      CheckStep options w node task meets ⟨.returned allowed (some reads), node,
        w.shared.map fun store => store.set task.request.key entry reads⟩
  | unsaved (allowed : Bool) (reads : ReadTimes) (hstage : task.stage = .saving allowed reads) :
      CheckStep options w node task meets ⟨.returned allowed (some reads), node, w.shared⟩
  | failed : CheckStep options w node task meets ⟨.threw, node, w.shared⟩
  | ended (answer : Bool) (reads : Option ReadTimes) (hstage : task.stage = .returned answer reads) :
      CheckStep options w node task meets ⟨.returned answer reads, node, w.shared⟩

/-- **The next operation of a check.** -/
theorem CheckTask.resume_spec (options : AclModuleOptions) (w : World) (node : Instance) (task : CheckTask)
    (meets : Meets) : CheckStep options w node task meets (task.resume options w node meets) := by
  unfold CheckTask.resume
  cases hstage : task.stage with
  | asking =>
      refine .asked hstage _ fun value reads hcached => ?_
      split at hcached
      · obtain ⟨store, hstore, hget⟩ := Option.bind_eq_some_iff.mp hcached
        exact ⟨store, hstore, hget⟩
      · cases hcached
  | answered cached =>
      cases cached with
      | some found => exact .promoted found.1 found.2 hstage _
      -- nothing is cached: the roles come from the memo, or are listed
      | none =>
          dsimp only
          split
          next roles hmemo => exact .remembered hstage roles hmemo
          next => exact .lists hstage
  | listing seenGen time =>
      dsimp only
      split
      · exact .listed seenGen time hstage
      · exact .failed
  | listed seenGen time roles rolesAt => exact .memoized seenGen time roles rolesAt hstage _
  | resolving seenGen roles rolesAt =>
      dsimp only
      split
      · exact .resolved seenGen roles rolesAt hstage false none nofun
      · split
        · exact .resolved seenGen roles rolesAt hstage _ (some w.now) fun _ h => (Option.some.inj h).symm
        · exact .failed
  | decided seenGen allowed reads =>
      dsimp only
      split
      · exact .failed
      · -- an answer is cached only in the generation it was read in
        split
        · exact .outdated seenGen allowed reads hstage
        next hgen =>
          obtain rfl := not_not.mp hgen
          refine .cached allowed reads hstage _ _ ?_
          split
          next hsome => exact .inl ⟨rfl, hsome⟩
          next => exact .inr rfl
  | saving allowed reads =>
      dsimp only
      split
      next hok => exact .saved allowed reads hstage hok _
      next => exact .unsaved allowed reads hstage
  | returned answer reads => exact .ended answer reads hstage
  | threw => exact .failed

section CheckStep

variable {options : AclModuleOptions} {w : World} {node : Instance} {task : CheckTask} {meets : Meets}
  {out : CheckEffect} {subject : Subject} {change : Change}

/-- A check does not invalidate. -/
theorem CheckStep.keeps (h : CheckStep options w node task meets out) :
    out.node.gen = node.gen ∧ out.node.dropped = node.dropped ∧ out.node.forgotten = node.forgotten := by
  cases h <;> exact ⟨rfl, rfl, rfl⟩

/-- **What a check carries on** is from after a change, when what it carried was, and what it takes from
the second tier and the memo is. -/
theorem CheckStep.avoids (h : CheckStep options w node task meets out) (hstage : task.stage.Avoids change)
    (hwritten : change.writtenAt < w.now)
    (hshared : task.stage = .asking → ∀ store value reads, w.shared = some store →
      store.get task.request.key meets.time = some (value, reads) → ¬ reads.Misses change)
    (hmemo : task.stage = .answered none → (node.memo meets.time).isSome = true →
      ¬ RolesMiss node.memoReadAt change) : out.stage.Avoids change := by
  have hnow : ¬ RolesMiss w.now change := fun h => absurd h.2 (Nat.lt_asymm hwritten)
  cases h with
  | asked hasking cached hcached =>
      cases cached with
      | none => trivial
      | some found =>
          obtain ⟨store, hstore, hget⟩ := hcached found.1 found.2 rfl
          exact hshared hasking store found.1 found.2 hstore hget
  | promoted value reads hanswered entry => rw [hanswered] at hstage; exact hstage
  | remembered hanswered roles hfound => exact hmemo hanswered (by rw [hfound]; rfl)
  | lists hanswered => trivial
  | listed seenGen time hlisting => exact hnow
  | memoized seenGen time roles rolesAt hlisted memo => rw [hlisted] at hstage; exact hstage
  | resolved seenGen roles rolesAt hresolving allowed grantsAt hgrantsAt =>
      rw [hresolving] at hstage
      intro hmisses
      rcases hmisses with hroles | ⟨-, time, htime, hlt⟩
      · exact hstage hroles
      · rw [hgrantsAt time htime] at hlt
        exact absurd hlt (Nat.lt_asymm hwritten)
  | outdated seenGen allowed reads hdecided => rw [hdecided] at hstage; exact hstage
  | cached allowed reads hdecided entry stage hnext =>
      rw [hdecided] at hstage
      rcases hnext with ⟨rfl, -⟩ | rfl
      · exact hstage
      · exact hstage
  | saved allowed reads hsaving hok entry => rw [hsaving] at hstage; exact hstage
  | unsaved allowed reads hsaving => rw [hsaving] at hstage; exact hstage
  | failed => trivial
  | ended answer reads hreturned => rw [hreturned] at hstage; exact hstage

/-- The generation a check goes by is the one of the instance when it takes it, and then stays. -/
theorem CheckStep.seenGen (h : CheckStep options w node task meets out) {seenGen : Nat}
    (hseen : out.stage.seenGen = some seenGen) :
    task.stage.seenGen = some seenGen ∨ (task.stage = .answered none ∧ seenGen = node.gen) := by
  cases h with
  | asked hasking cached hcached => cases hseen
  | promoted value reads hanswered entry => cases hseen
  | remembered hanswered roles hfound => exact .inr ⟨hanswered, (Option.some.inj hseen).symm⟩
  | lists hanswered => exact .inr ⟨hanswered, (Option.some.inj hseen).symm⟩
  | listed g time hlisting => rw [hlisting]; exact .inl hseen
  | memoized g time roles rolesAt hlisted memo => rw [hlisted]; exact .inl hseen
  | resolved g roles rolesAt hresolving allowed grantsAt hgrantsAt => rw [hresolving]; exact .inl hseen
  | outdated g allowed reads hdecided => cases hseen
  | cached allowed reads hdecided entry stage hnext =>
      rcases hnext with ⟨rfl, -⟩ | rfl
      · cases hseen
      · cases hseen
  | saved allowed reads hsaving hok entry => cases hseen
  | unsaved allowed reads hsaving => cases hseen
  | failed => cases hseen
  | ended answer reads hreturned => cases hseen

end CheckStep

/-! ## One step of a mutation -/

/-- What the next operation of a mutation can do; what it writes to the grants and the roles does not
matter here. -/
inductive MutationStep (w : World) (node : Instance) (task : MutationTask) (meets : Meets) :
    MutationEffect → Prop
  | before (stage : MutationStage) (hchange : stage.change = none) (grants : GrantStore)
      (roles : List AclRole) : MutationStep w node task meets ⟨stage, grants, roles, node, w.shared⟩
  | wrote (change : Change) (hnow : change.writtenAt = w.now) (grants : GrantStore)
      (roles : List AclRole) :
      MutationStep w node task meets ⟨.written change, grants, roles, node, w.shared⟩
  | drops (change : Change) (hstage : task.stage = .written change) :
      MutationStep w node task meets
        ⟨.dropped change, w.grants, w.roles, node.invalidateLocalRam change, w.shared⟩
  | lists (change : Change) (hstage : task.stage = .dropped change) (store : SharedStore)
      (hshared : w.shared = some store) :
      MutationStep w node task meets
        ⟨.listed change (store.keys change.pattern), w.grants, w.roles, node, w.shared⟩
  | skips (change : Change)
      (hstage : task.stage = .dropped change ∨ ∃ keys, task.stage = .listed change keys)
      (hnothing : w.shared = none ∨ meets.outcome.isOk = false) :
      MutationStep w node task meets ⟨.cleared change, w.grants, w.roles, node, w.shared⟩
  | deletes (change : Change) (keys : List String) (hstage : task.stage = .listed change keys)
      (store : SharedStore) (hshared : w.shared = some store) :
      MutationStep w node task meets
        ⟨.cleared change, w.grants, w.roles, node, some (store.del keys)⟩
  | publishes (change : Change) (hstage : task.stage = .cleared change) (hsubject : change.subject = .grants) :
      MutationStep w node task meets ⟨.published change, w.grants, w.roles, node, w.shared⟩
  | forgets (change : Change) (hstage : task.stage = .cleared change) (hsubject : change.subject = .roles) :
      MutationStep w node task meets
        ⟨.published change, w.grants, w.roles, node.invalidateRolesCache change, w.shared⟩
  | resolves (change : Change) (hstage : task.stage = .published change) :
      MutationStep w node task meets ⟨.resolved (some change), w.grants, w.roles, node, w.shared⟩
  | ended (change : Change) (hstage : task.stage = .resolved (some change)) :
      MutationStep w node task meets ⟨.resolved (some change), w.grants, w.roles, node, w.shared⟩

/-- **The next operation of a mutation.** -/
theorem MutationTask.resume_spec (w : World) (node : Instance) (task : MutationTask) (meets : Meets) :
    MutationStep w node task meets (task.resume w node meets) := by
  unfold MutationTask.resume
  obtain ⟨home, mutation, stage⟩ := task
  cases stage with
  | applying stage =>
      cases mutation with
      | apply op =>
          dsimp only
          generalize op.resume w.grants w.now _ stage = next
          obtain ⟨stage, grants⟩ := next
          cases stage with
          | written => exact .wrote _ rfl grants w.roles
          | returned time => exact .before _ rfl grants w.roles
          | threw time => exact .before _ rfl grants w.roles
          | called => exact .before _ rfl grants w.roles
          | rolesChecked => exact .before _ rfl grants w.roles
          | found existing => exact .before _ rfl grants w.roles
      | upsertRole role => exact .before _ rfl _ _
      | deleteRole name => exact .before _ rfl _ _
  | checking =>
      dsimp only
      split
      · exact .before _ rfl _ _
      · exact .before _ rfl _ _
  | writing =>
      dsimp only
      split
      · exact .wrote _ rfl _ _
      · exact .wrote _ rfl _ _
      · exact .before _ rfl _ _
  | written change => exact .drops change rfl
  -- the shared tier is asked for the keys of the change, where there is one that answers
  | dropped change =>
      dsimp only
      split
      next hshared => exact .skips change (.inl rfl) (.inl hshared)
      next store hshared =>
        split
        · exact .lists change rfl store hshared
        next hfailed => exact .skips change (.inl rfl) (.inr (eq_false_of_ne_true hfailed))
  | listed change keys =>
      dsimp only
      split
      · cases hshared : w.shared with
        -- there is no shared tier, so nothing is deleted
        | none =>
            have hskips : MutationStep w node ⟨home, mutation, .listed change keys⟩ meets
                ⟨.cleared change, w.grants, w.roles, node, w.shared⟩ :=
              .skips change (.inr ⟨keys, rfl⟩) (.inl hshared)
            rw [hshared] at hskips
            exact hskips
        | some store => exact .deletes change keys rfl store hshared
      next hfailed => exact .skips change (.inr ⟨keys, rfl⟩) (.inr (eq_false_of_ne_true hfailed))
  | cleared change =>
      dsimp only
      split
      next hsubject => exact .publishes change rfl hsubject
      next hsubject => exact .forgets change rfl hsubject
  | published change => exact .resolves change rfl
  | resolved change =>
      cases change with
      | none => exact .before _ rfl _ _
      | some change => exact .ended change rfl
  | threw => exact .before _ rfl _ _

/-! ## The second tier -/

/-- Nothing in the second tier is from before a change that will not delete it. -/
def SharedStore.Fresh (subject : Subject) (mutations : List MutationTask) (store : SharedStore) : Prop :=
  ∀ m ∈ mutations, ∀ change keys, m.stage.cleans = some (change, keys) → change.subject = subject →
    ∀ key, key ∈ store.entries.map Prod.fst → change.Covers key → key ∉ keys →
      ¬ (store.reads key).Misses change

section Shared

variable {subject : Subject} {store : SharedStore} {mutations : List MutationTask} {key : String}
  {change : Change}

/-- A hit is in the store. -/
theorem SharedStore.mem_of_get {time : Int} {value : Bool} {reads : ReadTimes}
    (h : store.get key time = some (value, reads)) :
    key ∈ store.entries.map Prod.fst ∧ reads = store.reads key := by
  unfold SharedStore.get AclCacheService.storeGet at h
  cases hlookup : store.entries.lookup key with
  | none =>
      rw [hlookup] at h
      cases h
  | some entry =>
      refine ⟨List.mem_map.mpr ⟨_, AssocList.mem_of_lookup hlookup, rfl⟩, ?_⟩
      rw [hlookup] at h
      dsimp only at h
      split at h
      · split at h
        · exact (Prod.mk.inj (Option.some.inj h)).2.symm
        · cases h
      · cases h

/-- A decision is saved that no change will miss. -/
theorem SharedStore.Fresh.set (h : store.Fresh subject mutations) {entry : StoreEntry} {reads : ReadTimes}
    (hreads : ∀ m ∈ mutations, ∀ change keys, m.stage.cleans = some (change, keys) →
      change.subject = subject → change.Covers key → key ∉ keys → ¬ reads.Misses change) :
    (store.set key entry reads).Fresh subject mutations := by
  intro m hm change keys hcleans hsubject k hk hcovers hnot
  show ¬ (Function.update store.reads key reads k).Misses change
  by_cases hkey : k = key
  · subst hkey
    rw [Function.update_self]
    exact hreads m hm change keys hcleans hsubject hcovers hnot
  · rw [Function.update_of_ne hkey]
    have hold : k ∈ store.entries.map Prod.fst := by
      obtain ⟨e, he, rfl⟩ := List.mem_map.mp hk
      rcases List.mem_append.mp he with he | he
      · exact List.mem_map_of_mem (List.mem_filter.mp he).1
      · rw [List.mem_singleton.mp he] at hkey
        exact absurd rfl hkey
    exact h m hm change keys hcleans hsubject k hold hcovers hnot

/-- The keys of a pattern are all that start with what is before the star. -/
theorem globKeys_star {start key : String} (h : startsWith key start = true) :
    globKeys (start ++ "*") key = true := by
  unfold globKeys
  rw [String.toList_append, show "*".toList = ['*'] from rfl, List.dropLast_concat]
  exact h

theorem Change.globKeys_pattern (change : Change) {key : String} (h : change.Covers key) :
    globKeys change.pattern key = true := by
  obtain ⟨subject, userId, writtenAt, named⟩ := change
  unfold Change.pattern
  cases userId with
  | none => exact globKeys_star h
  | some u =>
      have htruthy : truthyText (some u) = true := by
        show (u != "") = true
        rw [bne_iff_ne]
        exact fun hempty => named (congrArg some hempty)
      rw [if_pos htruthy]
      have hpattern : "acl/" ++ template (some u) ++ "/*" = "acl/" ++ u ++ "/" ++ "*" := by
        have hstar : "/*" = "/" ++ "*" := rfl
        rw [show template (some u) = u from rfl, hstar, ← String.append_assoc]
      rw [hpattern]
      exact globKeys_star h

/-- All keys a change covers are listed for it. -/
theorem SharedStore.mem_keys (h : key ∈ store.entries.map Prod.fst) (hcovers : change.Covers key) :
    key ∈ store.keys change.pattern := List.mem_filter.mpr ⟨h, change.globKeys_pattern hcovers⟩

/-- What is deleted is gone. -/
theorem SharedStore.mem_del {keys : List String} (h : key ∈ (store.del keys).entries.map Prod.fst) :
    key ∈ store.entries.map Prod.fst ∧ key ∉ keys := by
  obtain ⟨e, he, rfl⟩ := List.mem_map.mp h
  obtain ⟨hmem, hkept⟩ := List.mem_filter.mp he
  rw [Bool.not_eq_true', ← Bool.not_eq_true, List.contains_iff_mem] at hkept
  exact ⟨List.mem_map_of_mem hmem, hkept⟩

end Shared

/-! ## The invariant -/

/-- No cache has anything from before a change that has cleared it, and no check will write any there. -/
structure World.Fresh (subject : Subject) (w : World) : Prop where
  nodes : ∀ node ∈ w.nodes, node.Fresh subject w.now
  checks : ∀ task ∈ w.checks, ∀ node, w.nodes[task.node]? = some node → task.stage.Guarded subject node
  mutations : ∀ m ∈ w.mutations, ∀ change, m.stage.change = some change → change.writtenAt < w.now
  shared : ∀ store, w.shared = some store → store.Fresh subject w.mutations

theorem World.Starts.fresh {w : World} (h : w.Starts) (subject : Subject) : w.Fresh subject where
  nodes := by
    intro node hnode
    refine ⟨fun change hchange => ?_, fun key hkey change hchange => ?_, fun _ change hchange => ?_⟩
    · rw [h.dropped node hnode] at hchange
      cases hchange
    · rw [h.dropped node hnode] at hchange
      cases hchange
    · rw [h.forgotten node hnode] at hchange
      cases hchange
  checks := by
    rw [h.checks]
    exact fun _ htask => absurd htask List.not_mem_nil
  mutations := by
    rw [h.mutations]
    exact fun _ hm => absurd hm List.not_mem_nil
  shared := by
    intro store _
    rw [h.mutations]
    exact nofun

/-- One instance changes: the others are who they were. -/
theorem getElem?_set_cases {α : Type} {l : List α} {i j : Nat} {a b : α} (h : (l.set i a)[j]? = some b) :
    (j = i ∧ b = a) ∨ (j ≠ i ∧ l[j]? = some b) := by
  by_cases hij : i = j
  · subst hij
    rw [List.getElem?_set_self'] at h
    cases hl : l[i]? with
    | none =>
        rw [hl] at h
        cases h
    | some _ =>
        rw [hl] at h
        exact .inl ⟨rfl, (Option.some.inj h).symm⟩
  · rw [List.getElem?_set_ne hij] at h
    exact .inr ⟨fun heq => hij heq.symm, h⟩

section Step

variable {subject : Subject} {w : World} {options : AclModuleOptions}

theorem World.Fresh.tick (h : w.Fresh subject) : World.Fresh subject { w with now := w.now + 1 } :=
  ⟨fun node hnode => (h.nodes node hnode).later (Nat.le_succ w.now), h.checks,
    fun m hm change hchange => Nat.lt_succ_of_lt (h.mutations m hm change hchange), h.shared⟩

/-- One instance changes in a way the guards of all checks bear. -/
theorem World.Fresh.setNode (h : w.Fresh subject) {i : Nat} {node node' : Instance}
    (hnode : w.nodes[i]? = some node) (hfresh : node'.Fresh subject w.now)
    (hguarded : ∀ stage : CheckStage, stage.Guarded subject node → stage.Guarded subject node') :
    World.Fresh subject { w with nodes := w.nodes.set i node' } where
  nodes := Tasks.forall_set h.nodes hfresh
  checks := by
    intro task htask n hn
    rcases getElem?_set_cases hn with ⟨hi, rfl⟩ | ⟨-, hn⟩
    · rw [← hi] at hnode
      exact hguarded task.stage (h.checks task htask node hnode)
    · exact h.checks task htask n hn
  mutations := h.mutations
  shared := h.shared

/-- A check is called. -/
theorem World.Fresh.addCheck (h : w.Fresh subject) (task : CheckTask) (hseen : task.stage.seenGen = none) :
    World.Fresh subject { w with checks := w.checks ++ [task] } where
  nodes := h.nodes
  checks := by
    apply Tasks.forall_concat h.checks
    intro node _ seenGen hsome
    rw [hseen] at hsome
    cases hsome
  mutations := h.mutations
  shared := h.shared

/-- What `get` of the memory tier leaves is what it found. -/
theorem holds_of_get (options : AclModuleOptions) (node : Instance) (weather : CacheWeather)
    (userId action key : String)
    (h : Instance.Holds { node with ram := (node.cache.get options.cache weather userId action).2.ram } key) :
    node.Holds key := by
  obtain ⟨value, hcaches⟩ := h
  obtain ⟨-, hkeep, -⟩ :=
    AclCacheService.get_spec options.cache node.cache weather userId action
  rcases hcaches with ⟨exp, hmem⟩ | ⟨store, exp, hstore, -⟩
  · exact ⟨value, hkeep key value (.inl ⟨exp, hmem⟩)⟩
  · cases hstore

/-- The call of a check reads the memory tier. -/
theorem beginCheck_spec (options : AclModuleOptions) (w : World) (node : Instance) (request : AclRequest)
    (time : Int) :
    let out := beginCheck options w node request time
    (∃ ram, out.node = { node with ram } ∧
        ∀ key, Instance.Holds { node with ram } key → node.Holds key) ∧
      out.stage.seenGen = none ∧ out.shared = w.shared ∧
      ((∀ change, out.stage.Avoids change) ∨
        (∃ value, out.stage = .returned value (some (node.reads request.key)) ∧
          node.Holds request.key)) := by
  unfold beginCheck
  have hget := AclCacheService.get_spec options.cache node.cache { readAt := time } request.userId
    request.cacheAction
  have hholds := holds_of_get options node { readAt := time } request.userId request.cacheAction
  dsimp only
  split
  · generalize node.cache.get options.cache { readAt := time } request.userId request.cacheAction = out
      at hget hholds
    obtain ⟨cached, cache⟩ := out
    cases cached with
    | some value =>
        refine ⟨⟨cache.ram, rfl, hholds⟩, rfl, rfl, .inr ⟨value, rfl, value, hget.1 value rfl⟩⟩
    | none =>
        refine ⟨⟨cache.ram, rfl, hholds⟩, ?_, rfl, .inl fun change => ?_⟩
        · dsimp only
          split <;> rfl
        · dsimp only
          split <;> trivial
  · exact ⟨⟨node.ram, rfl, fun _ h => h⟩, rfl, rfl, .inl fun _ => trivial⟩

/-- The instance of a check that takes a step. -/
theorem CheckStep.node_fresh {node : Instance} {task : CheckTask} {meets : Meets} {out : CheckEffect}
    (hstep : CheckStep options w node task meets out) (hfresh : node.Fresh subject w.now)
    (hguarded : task.stage.Guarded subject node)
    (hpromoted : ∀ value reads, task.stage = .answered (some (value, reads)) →
      ∀ change ∈ node.dropped, change.subject = subject → change.Covers task.request.key →
        ¬ reads.Misses change)
    (hmemoized : ∀ seenGen time roles rolesAt, task.stage = .listed seenGen time roles rolesAt →
      ∀ change ∈ node.forgotten, change.subject = subject → ¬ RolesMiss rolesAt change) :
    out.node.Fresh subject w.now := by
  cases hstep with
  | promoted value reads hstage entry => exact hfresh.ramSet (hpromoted value reads hstage)
  | memoized seenGen time roles rolesAt hstage memo =>
      exact hfresh.memoize (hmemoized seenGen time roles rolesAt hstage)
  | cached allowed reads hstage entry stage hnext =>
      -- the generation has not moved, so nothing was dropped since the decision was resolved
      refine hfresh.ramSet fun change hchange hsubject _ => ?_
      rw [hstage] at hguarded
      exact (hguarded node.gen rfl).2 rfl change hchange hsubject
  | asked hstage cached hcached => exact hfresh
  | remembered hstage roles hmemo => exact hfresh
  | lists hstage => exact hfresh
  | listed seenGen time hstage => exact hfresh
  | resolved seenGen roles rolesAt hstage allowed grantsAt hgrantsAt => exact hfresh
  | outdated seenGen allowed reads hstage => exact hfresh
  | saved allowed reads hstage hok entry => exact hfresh
  | unsaved allowed reads hstage => exact hfresh
  | failed => exact hfresh
  | ended answer reads hstage => exact hfresh

/-- Its own guard. -/
theorem CheckStep.guarded {node : Instance} {task : CheckTask} {meets : Meets} {out : CheckEffect}
    (hstep : CheckStep options w node task meets out) (hfresh : node.Fresh subject w.now)
    (hguarded : task.stage.Guarded subject node)
    (hmemo : task.stage = .answered none → (node.memo meets.time).isSome = true →
      ∀ change ∈ node.dropped, change.subject = subject → ¬ RolesMiss node.memoReadAt change) :
    out.stage.Guarded subject out.node := by
  obtain ⟨hgen, hdropped, -⟩ := hstep.keeps
  refine CheckStage.Guarded.congr (fun seenGen hseen => ?_) hgen hdropped
  rcases hstep.seenGen hseen with hold | ⟨hanswered, rfl⟩
  · obtain ⟨hle, havoids⟩ := hguarded seenGen hold
    refine ⟨hle, fun heq change hchange hsubject => ?_⟩
    refine hstep.avoids (havoids heq change hchange hsubject) (hfresh.dropped change hchange) ?_ ?_
    · intro hasking
      rw [hasking] at hold
      cases hold
    · intro hanswered
      rw [hanswered] at hold
      cases hold
  · refine ⟨Nat.le_refl _, fun _ change hchange hsubject => ?_⟩
    have hstage : task.stage.Avoids change := by
      rw [hanswered]
      trivial
    refine hstep.avoids hstage (hfresh.dropped change hchange) ?_ ?_
    · intro hasking
      rw [hanswered] at hasking
      cases hasking
    · exact fun _ hsome => hmemo hanswered hsome change hchange hsubject

/-- The second tier. -/
theorem CheckStep.shared_fresh {node : Instance} {task : CheckTask} {meets : Meets} {out : CheckEffect}
    (hstep : CheckStep options w node task meets out)
    (hfresh : ∀ store, w.shared = some store → store.Fresh subject w.mutations)
    (hsaved : ∀ allowed reads, task.stage = .saving allowed reads → meets.outcome.isOk = true →
      ∀ m ∈ w.mutations, ∀ change keys, m.stage.cleans = some (change, keys) →
        change.subject = subject → change.Covers task.request.key → task.request.key ∉ keys →
          ¬ reads.Misses change) :
    ∀ store, out.shared = some store → store.Fresh subject w.mutations := by
  cases hstep with
  | saved allowed reads hstage hok entry =>
      intro store hstore
      obtain ⟨old, hold, rfl⟩ := Option.map_eq_some_iff.mp hstore
      exact (hfresh old hold).set (hsaved allowed reads hstage hok)
  | asked hstage cached hcached => exact hfresh
  | promoted value reads hstage entry => exact hfresh
  | remembered hstage roles hmemo => exact hfresh
  | lists hstage => exact hfresh
  | listed seenGen time hstage => exact hfresh
  | memoized seenGen time roles rolesAt hstage memo => exact hfresh
  | resolved seenGen roles rolesAt hstage allowed grantsAt hgrantsAt => exact hfresh
  | outdated seenGen allowed reads hstage => exact hfresh
  | cached allowed reads hstage entry stage hnext => exact hfresh
  | unsaved allowed reads hstage => exact hfresh
  | failed => exact hfresh
  | ended answer reads hstage => exact hfresh

/-- **A check takes a step.** -/
theorem World.Fresh.resumeCheck (h : w.Fresh subject) {i : Nat} {task : CheckTask}
    (htask : w.checks[i]? = some task) {node : Instance} (hnode : w.nodes[task.node]? = some node)
    {meets : Meets} (hquiet : Quiet subject w (.resumeCheck i meets)) {out : CheckEffect}
    (hstep : CheckStep options w node task meets out) :
    World.Fresh subject
      { w with
        nodes := w.nodes.set task.node out.node
        shared := out.shared
        checks := w.checks.set i { task with stage := out.stage } } := by
  obtain ⟨hpromoted, hsaved⟩ := hquiet.1 task htask node hnode
  obtain ⟨hmemo, hmemoized⟩ := hquiet.2 task htask node hnode
  have hold := h.nodes node (List.mem_of_getElem? hnode)
  have hguarded := h.checks task (List.mem_of_getElem? htask) node hnode
  obtain ⟨hgen, hdropped, -⟩ := hstep.keeps
  have hset := h.setNode hnode (hstep.node_fresh hold hguarded hpromoted hmemoized)
    fun stage hstage => hstage.congr hgen hdropped
  refine ⟨hset.nodes, ?_, h.mutations, hstep.shared_fresh h.shared hsaved⟩
  apply Tasks.forall_set hset.checks
  intro n hn
  rcases getElem?_set_cases hn with ⟨-, rfl⟩ | ⟨hne, -⟩
  · exact hstep.guarded hold hguarded hmemo
  · exact absurd rfl hne

/-- The instance of a mutation that takes a step, and the guards of its checks. -/
theorem MutationStep.node_fresh {node : Instance} {task : MutationTask} {meets : Meets}
    {out : MutationEffect} (hstep : MutationStep w node task meets out)
    (hfresh : node.Fresh subject w.now)
    (hwritten : ∀ change, task.stage.change = some change → change.writtenAt < w.now) :
    out.node.Fresh subject w.now ∧
      ∀ stage : CheckStage, stage.Guarded subject node → stage.Guarded subject out.node := by
  cases hstep with
  | drops change hstage =>
      have hchange := hwritten change (by rw [hstage]; rfl)
      exact ⟨hfresh.invalidateLocalRam hchange, fun stage hguarded => hguarded.invalidateLocalRam change⟩
  | forgets change hstage hsubject =>
      exact ⟨hfresh.invalidateRolesCache change, fun stage hguarded => hguarded.congr rfl rfl⟩
  | before stage hchange grants roles => exact ⟨hfresh, fun _ h => h⟩
  | wrote change hnow grants roles => exact ⟨hfresh, fun _ h => h⟩
  | lists change hstage store hshared => exact ⟨hfresh, fun _ h => h⟩
  | skips change hstage hnothing => exact ⟨hfresh, fun _ h => h⟩
  | deletes change keys hstage store hshared => exact ⟨hfresh, fun _ h => h⟩
  | publishes change hstage hsubject => exact ⟨hfresh, fun _ h => h⟩
  | resolves change hstage => exact ⟨hfresh, fun _ h => h⟩
  | ended change hstage => exact ⟨hfresh, fun _ h => h⟩

/-- A mutation is about one change, which it has written by now. -/
theorem MutationStep.change {node : Instance} {task : MutationTask} {meets : Meets}
    {out : MutationEffect} (hstep : MutationStep w node task meets out) {change : Change}
    (hchange : out.stage.change = some change) :
    change.writtenAt = w.now ∨ task.stage.change = some change := by
  cases hstep with
  | before stage hnone grants roles =>
      rw [hnone] at hchange
      cases hchange
  | wrote written hnow grants roles =>
      rw [← Option.some.inj hchange]
      exact .inl hnow
  | drops written hstage => rw [hstage]; exact .inr hchange
  | lists written hstage store hshared => rw [hstage]; exact .inr hchange
  | skips written hstage hnothing =>
      rcases hstage with hstage | ⟨keys, hstage⟩
      · rw [hstage]; exact .inr hchange
      · rw [hstage]; exact .inr hchange
  | deletes written keys hstage store hshared => rw [hstage]; exact .inr hchange
  | publishes written hstage hsubject => rw [hstage]; exact .inr hchange
  | forgets written hstage hsubject => rw [hstage]; exact .inr hchange
  | resolves written hstage => rw [hstage]; exact .inr hchange
  | ended written hstage => rw [hstage]; exact .inr hchange

/-- A mutation only deletes from the second tier. -/
theorem MutationStep.shared_subset {node : Instance} {task : MutationTask} {meets : Meets}
    {out : MutationEffect} (hstep : MutationStep w node task meets out) {store : SharedStore}
    (hstore : out.shared = some store) :
    ∃ old, w.shared = some old ∧ store.reads = old.reads ∧
      ∀ key, key ∈ store.entries.map Prod.fst → key ∈ old.entries.map Prod.fst := by
  cases hstep with
  | deletes change keys hstage old hshared =>
      obtain rfl := Option.some.inj hstore
      exact ⟨old, hshared, rfl, fun key hkey => (SharedStore.mem_del hkey).1⟩
  | before stage hchange grants roles => exact ⟨store, hstore, rfl, fun _ h => h⟩
  | wrote change hnow grants roles => exact ⟨store, hstore, rfl, fun _ h => h⟩
  | drops change hstage => exact ⟨store, hstore, rfl, fun _ h => h⟩
  | lists change hstage old hshared => exact ⟨store, hstore, rfl, fun _ h => h⟩
  | skips change hstage hnothing => exact ⟨store, hstore, rfl, fun _ h => h⟩
  | publishes change hstage hsubject => exact ⟨store, hstore, rfl, fun _ h => h⟩
  | forgets change hstage hsubject => exact ⟨store, hstore, rfl, fun _ h => h⟩
  | resolves change hstage => exact ⟨store, hstore, rfl, fun _ h => h⟩
  | ended change hstage => exact ⟨store, hstore, rfl, fun _ h => h⟩

/-- What a mutation that takes a step will not delete is not from before its change. -/
theorem MutationStep.cleans {node : Instance} {task : MutationTask} {meets : Meets}
    {out : MutationEffect} (hstep : MutationStep w node task meets out)
    (hfresh : ∀ store, w.shared = some store → store.Fresh subject [task])
    (hworks : ∀ change, change.subject = subject →
      (task.stage = .dropped change ∨ ∃ keys, task.stage = .listed change keys) →
        w.shared.isSome = true → meets.outcome.isOk = true)
    {store : SharedStore} (hstore : out.shared = some store) {change : Change} {keys : List String}
    (hcleans : out.stage.cleans = some (change, keys)) (hsubject : change.subject = subject) {key : String}
    (hkey : key ∈ store.entries.map Prod.fst) (hcovers : change.Covers key) (hnot : key ∉ keys) :
    ¬ (store.reads key).Misses change := by
  -- as before, when the step leaves the store and what is to be deleted alone
  have hsame : w.shared = some store → task.stage.cleans = some (change, keys) →
      ¬ (store.reads key).Misses change := fun hshared hold =>
    hfresh store hshared task (List.mem_singleton_self task) change keys hold hsubject key hkey hcovers hnot
  cases hstep with
  | before stage hnone grants roles =>
      have hchange := MutationStage.change_of_cleans hcleans
      rw [hnone] at hchange
      cases hchange
  | wrote written hnow grants roles => cases hcleans
  | drops written hstage => cases hcleans
  | lists written hstage old hshared =>
      obtain ⟨rfl, rfl⟩ := Prod.mk.inj (Option.some.inj hcleans)
      rw [hshared] at hstore
      obtain rfl := Option.some.inj hstore
      exact absurd (SharedStore.mem_keys hkey hcovers) hnot
  | skips written hstage hnothing =>
      obtain ⟨rfl, rfl⟩ := Prod.mk.inj (Option.some.inj hcleans)
      have hsome : w.shared = some store := hstore
      rcases hnothing with hnone | hfailed
      · rw [hnone] at hsome
        cases hsome
      · have hok := hworks written hsubject hstage (by rw [hsome]; rfl)
        rw [hfailed] at hok
        cases hok
  | deletes written listed hstage old hshared =>
      obtain ⟨rfl, rfl⟩ := Prod.mk.inj (Option.some.inj hcleans)
      obtain rfl := Option.some.inj hstore
      obtain ⟨hold, hgone⟩ := SharedStore.mem_del hkey
      exact hfresh old hshared task (List.mem_singleton_self task) written listed (by rw [hstage]; rfl)
        hsubject key hold hcovers hgone
  | publishes written hstage hgrants => exact hsame hstore (by rw [hstage]; exact hcleans)
  | forgets written hstage hroles => exact hsame hstore (by rw [hstage]; exact hcleans)
  | resolves written hstage => exact hsame hstore (by rw [hstage]; exact hcleans)
  | ended written hstage => exact hsame hstore (by rw [hstage]; exact hcleans)

/-- **A mutation takes a step.** -/
theorem World.Fresh.resumeMutation (h : w.Fresh subject) {i : Nat} {task : MutationTask}
    (htask : w.mutations[i]? = some task) {node : Instance} (hnode : w.nodes[task.node]? = some node)
    {meets : Meets} (hquiet : Quiet subject w (.resumeMutation i meets)) {out : MutationEffect}
    (hstep : MutationStep w node task meets out) :
    World.Fresh subject
      { grants := out.grants
        roles := out.roles
        shared := out.shared
        nodes := w.nodes.set task.node out.node
        checks := w.checks
        mutations := w.mutations.set i { task with stage := out.stage }
        now := w.now + 1 } := by
  have hmem := List.mem_of_getElem? htask
  obtain ⟨hfresh, hguards⟩ := hstep.node_fresh (h.nodes node (List.mem_of_getElem? hnode))
    (h.mutations task hmem)
  have hset := (h.setNode hnode hfresh hguards).tick
  refine ⟨hset.nodes, hset.checks, ?_, ?_⟩
  · apply Tasks.forall_set hset.mutations
    intro change hchange
    rcases hstep.change hchange with hnow | hold
    · rw [hnow]
      exact Nat.lt_succ_self w.now
    · exact Nat.lt_succ_of_lt (h.mutations task hmem change hold)
  · intro store hstore
    obtain ⟨old, hold, hreads, hsub⟩ := hstep.shared_subset hstore
    apply Tasks.forall_set
    · intro m hm change keys hcleans hsubject key hkey hcovers hnot
      rw [hreads]
      exact h.shared old hold m hm change keys hcleans hsubject key (hsub key hkey) hcovers hnot
    · intro change keys hcleans hsubject key hkey hcovers hnot
      have hself : ∀ store, w.shared = some store → store.Fresh subject [task] := by
        intro store hstore m hm
        rw [List.mem_singleton.mp hm]
        exact h.shared store hstore task hmem
      exact hstep.cleans hself (hquiet.1 task htask) hstore hcleans hsubject hkey hcovers hnot

/-- A deadline takes nothing from the check. -/
theorem CheckTask.pastDeadline_spec (options : AclModuleOptions) (task : CheckTask) :
    (task.pastDeadline options).stage = task.stage ∧ (task.pastDeadline options).node = task.node ∧
      (task.pastDeadline options).request = task.request := by
  unfold CheckTask.pastDeadline
  split
  · split <;> exact ⟨rfl, rfl, rfl⟩
  · split <;> exact ⟨rfl, rfl, rfl⟩
  · split <;> exact ⟨rfl, rfl, rfl⟩
  · exact ⟨rfl, rfl, rfl⟩

/-- A check begins: it reads the memory tier, and at most drops an entry that has expired. -/
theorem World.Fresh.step_check (h : w.Fresh subject) (i : Nat) (request : AclRequest) (time : Int) :
    (w.step options (.check i request time)).Fresh subject := by
  unfold World.step
  dsimp only
  cases hnode : w.nodes[i]? with
  | none => exact h.tick
  | some node =>
      obtain ⟨⟨ram, hout, hram⟩, hseen, -, -⟩ := beginCheck_spec options w node request time
      dsimp only
      rw [hout]
      have hold := h.nodes node (List.mem_of_getElem? hnode)
      have hset := h.setNode hnode (hold.shrink hram) fun stage hstage => hstage.congr rfl rfl
      exact (hset.addCheck _ hseen).tick

theorem World.Fresh.step_resumeCheck (h : w.Fresh subject) (i : Nat) (meets : Meets)
    (hquiet : Quiet subject w (.resumeCheck i meets)) :
    (w.step options (.resumeCheck i meets)).Fresh subject := by
  unfold World.step
  dsimp only
  cases htask : w.checks[i]? with
  | none => exact h.tick
  | some task =>
      dsimp only
      cases hnode : w.nodes[task.node]? with
      | none => exact h.tick
      | some node => exact (h.resumeCheck htask hnode hquiet (task.resume_spec options w node meets)).tick

/-- A deadline is of one check, and its stage stays. -/
theorem World.Fresh.step_deadline (h : w.Fresh subject) (i : Nat) :
    (w.step options (.deadline i)).Fresh subject := by
  unfold World.step
  dsimp only
  cases htask : w.checks[i]? with
  | none => exact h.tick
  | some task =>
      obtain ⟨hstage, hhome, -⟩ := task.pastDeadline_spec options
      refine World.Fresh.tick (w := { w with checks := w.checks.set i (task.pastDeadline options) })
        ⟨h.nodes, ?_, h.mutations, h.shared⟩
      apply Tasks.forall_set h.checks
      intro node hnode
      rw [hstage]
      rw [hhome] at hnode
      exact h.checks task (List.mem_of_getElem? htask) node hnode

/-- A mutation that has only begun has written nothing yet. -/
theorem Mutation.begin_unwritten (mutation : Mutation) :
    mutation.begin.change = none ∧ mutation.begin.cleans = none := by
  unfold Mutation.begin
  split
  · exact ⟨rfl, rfl⟩
  · split <;> exact ⟨rfl, rfl⟩
  · split <;> exact ⟨rfl, rfl⟩

theorem World.Fresh.step_mutate (h : w.Fresh subject) (i : Nat) (mutation : Mutation) :
    (w.step options (.mutate i mutation)).Fresh subject := by
  unfold World.step
  dsimp only
  cases hnode : w.nodes[i]? with
  | none => exact h.tick
  | some node =>
      refine World.Fresh.tick
        (w := { w with mutations := w.mutations ++ [{ node := i, mutation, stage := mutation.begin }] })
        ⟨h.nodes, h.checks, ?_, ?_⟩
      · apply Tasks.forall_concat h.mutations
        intro change hchange
        rw [mutation.begin_unwritten.1] at hchange
        cases hchange
      · intro store hstore
        apply Tasks.forall_concat (h.shared store hstore)
        intro change keys hcleans
        rw [mutation.begin_unwritten.2] at hcleans
        cases hcleans

theorem World.Fresh.step_resumeMutation (h : w.Fresh subject) (i : Nat) (meets : Meets)
    (hquiet : Quiet subject w (.resumeMutation i meets)) :
    (w.step options (.resumeMutation i meets)).Fresh subject := by
  unfold World.step
  dsimp only
  cases htask : w.mutations[i]? with
  | none => exact h.tick
  | some task =>
      dsimp only
      cases hnode : w.nodes[task.node]? with
      | none => exact h.tick
      | some node => exact h.resumeMutation htask hnode hquiet (task.resume_spec w node meets)

theorem MutationStage.change_of_announced {stage : MutationStage} {change : Change}
    (h : stage.announced = some change) : stage.change = some change := by
  unfold MutationStage.announced at h
  split at h
  next => exact h
  next => exact h
  next => cases h

/-- The instance drops what the change concerns, as the announcement of a written change says. -/
theorem World.Fresh.step_deliver (h : w.Fresh subject) (i j : Nat) :
    (w.step options (.deliver i j)).Fresh subject := by
  unfold World.step
  dsimp only
  split
  next change node hannounced hnode =>
    obtain ⟨m, hm, hstage⟩ := Option.bind_eq_some_iff.mp hannounced
    have hwritten := h.mutations m (List.mem_of_getElem? hm) change (MutationStage.change_of_announced hstage)
    have hold := h.nodes node (List.mem_of_getElem? hnode)
    exact (h.setNode hnode (hold.applyInvalidation hwritten)
      fun stage hstage => hstage.applyInvalidation change).tick
  next => exact h.tick

/-- **One step** of a quiet run. -/
theorem World.Fresh.step (h : w.Fresh subject) (input : WorldInput) (hquiet : Quiet subject w input) :
    (w.step options input).Fresh subject := by
  cases input with
  | check i request time => exact h.step_check i request time
  | resumeCheck i meets => exact h.step_resumeCheck i meets hquiet
  | deadline i => exact h.step_deadline i
  | mutate i mutation => exact h.step_mutate i mutation
  | resumeMutation i meets => exact h.step_resumeMutation i meets hquiet
  | deliver i j => exact h.step_deliver i j

end Step

end NestAmqp.Acl
