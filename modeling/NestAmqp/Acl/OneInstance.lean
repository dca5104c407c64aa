/-
# NestAmqp.Acl.OneInstance — the memory tier alone.

On one instance without a second tier the generation guards every write of a decision, so a check that
begins after a grant or a revoke has returned never answers from before it, whatever else runs.  The
roles memo has no such guard: after a change of the roles it may be filled with what was read before.
-/
import NestAmqp.Acl.FreshChecks

namespace NestAmqp.Acl

open NestAmqp.Js
open NestAmqp.Lib
open NestAmqp.Lib.Machine

/-! ## No second tier -/

/-- The check has nothing to do with a second tier. -/
def CheckStage.InMemory : CheckStage → Prop
  | .answered (some _) | .saving _ _ => False
  | .asking | .answered none | .listing _ _ | .listed _ _ _ _ | .resolving _ _ _ | .decided _ _ _
  | .returned _ _ | .threw => True

/-- No second tier, and nothing from one. -/
structure World.InMemory (w : World) : Prop where
  shared : w.shared = none
  checks : ∀ task ∈ w.checks, task.stage.InMemory

section InMemory

variable {w : World} {options : AclModuleOptions}

theorem beginCheck_inMemory (hshared : w.shared = none) (node : Instance) (request : AclRequest) (time : Int) :
    (beginCheck options w node request time).stage.InMemory := by
  unfold beginCheck
  rw [hshared]
  split
  · split
    · trivial
    · trivial
  · trivial

theorem CheckStep.inMemory {node : Instance} {task : CheckTask} {meets : Meets} {out : CheckEffect}
    (hstep : CheckStep options w node task meets out) (hshared : w.shared = none) :
    out.stage.InMemory ∧ out.shared = none := by
  cases hstep with
  | asked hstage cached hcached =>
      cases cached with
      | none => exact ⟨trivial, hshared⟩
      | some found =>
          obtain ⟨store, hstore, -⟩ := hcached found.1 found.2 rfl
          rw [hshared] at hstore
          cases hstore
  | cached allowed reads hstage entry stage hnext =>
      rcases hnext with ⟨-, hsome⟩ | rfl
      · rw [hshared] at hsome
        cases hsome
      · exact ⟨trivial, hshared⟩
  | saved allowed reads hstage hok entry =>
      refine ⟨trivial, ?_⟩
      show w.shared.map _ = none
      rw [hshared]
      rfl
  | promoted value reads hstage entry => exact ⟨trivial, hshared⟩
  | remembered hstage roles hmemo => exact ⟨trivial, hshared⟩
  | lists hstage => exact ⟨trivial, hshared⟩
  | listed seenGen time hstage => exact ⟨trivial, hshared⟩
  | memoized seenGen time roles rolesAt hstage memo => exact ⟨trivial, hshared⟩
  | resolved seenGen roles rolesAt hstage allowed grantsAt hgrantsAt => exact ⟨trivial, hshared⟩
  | outdated seenGen allowed reads hstage => exact ⟨trivial, hshared⟩
  | unsaved allowed reads hstage => exact ⟨trivial, hshared⟩
  | failed => exact ⟨trivial, hshared⟩
  | ended answer reads hstage => exact ⟨trivial, hshared⟩

theorem World.InMemory.step (h : w.InMemory) (input : WorldInput) : (w.step options input).InMemory := by
  cases input with
  | check i request time =>
      unfold World.step
      dsimp only
      cases w.nodes[i]? with
      | none => exact ⟨h.shared, h.checks⟩
      | some node => exact ⟨h.shared, Tasks.forall_concat h.checks
            (beginCheck_inMemory h.shared node request time)⟩
  | resumeCheck i meets =>
      unfold World.step
      dsimp only
      cases w.checks[i]? with
      | none => exact ⟨h.shared, h.checks⟩
      | some task =>
          dsimp only
          cases w.nodes[task.node]? with
          | none => exact ⟨h.shared, h.checks⟩
          | some node =>
              obtain ⟨hstage, hshared⟩ := (task.resume_spec options w node meets).inMemory h.shared
              exact ⟨hshared, Tasks.forall_set h.checks hstage⟩
  | deadline i =>
      unfold World.step
      dsimp only
      cases htask : w.checks[i]? with
      | none => exact ⟨h.shared, h.checks⟩
      | some task =>
          refine ⟨h.shared, Tasks.forall_set h.checks ?_⟩
          rw [(task.pastDeadline_spec options).1]
          exact h.checks task (List.mem_of_getElem? htask)
  | mutate i mutation =>
      unfold World.step
      dsimp only
      cases w.nodes[i]? with
      | none => exact ⟨h.shared, h.checks⟩
      | some node => exact ⟨h.shared, h.checks⟩
  | resumeMutation i meets =>
      unfold World.step
      dsimp only
      cases w.mutations[i]? with
      | none => exact ⟨h.shared, h.checks⟩
      | some task =>
          dsimp only
          cases w.nodes[task.node]? with
          | none => exact ⟨h.shared, h.checks⟩
          | some node =>
              refine ⟨?_, h.checks⟩
              -- no operation of a mutation opens a shared tier where there is none
              cases hstore : (task.resume w node meets).shared with
              | none => exact hstore
              | some store =>
                  obtain ⟨old, hold, -⟩ := (task.resume_spec w node meets).shared_subset hstore
                  rw [h.shared] at hold
                  cases hold
  | deliver i j =>
      unfold World.step
      dsimp only
      split
      · exact ⟨h.shared, h.checks⟩
      · exact ⟨h.shared, h.checks⟩

/-- Without a second tier there is no noise from it. -/
theorem World.InMemory.quietStore (h : w.InMemory) (subject : Subject) (input : WorldInput) :
    QuietStore subject w input := by
  cases input with
  | resumeCheck i meets =>
      intro task htask node _
      have hstage := h.checks task (List.mem_of_getElem? htask)
      refine ⟨fun value reads hanswered => ?_, fun allowed reads hsaving => ?_⟩
      · rw [hanswered] at hstage
        cases hstage
      · rw [hsaving] at hstage
        cases hstage
  | resumeMutation i meets =>
      intro task _ change _ _ hsome
      rw [h.shared] at hsome
      cases hsome
  | check i request time => trivial
  | deadline i => trivial
  | mutate i mutation => trivial
  | deliver i j => trivial

end InMemory

/-! ## What a mutation has cleared -/

/-- The change, once its instance has dropped its cache for it. -/
def MutationStage.drops : MutationStage → Option Change
  | .dropped change | .listed change _ | .cleared change | .published change => some change
  | .resolved change => change
  | .applying _ | .checking | .writing | .written _ | .threw => none

/-- A mutation at a stage that marks its change has cleared its own instance for it. -/
def World.Marks (marks : MutationStage → Change → Prop) (cleared : Instance → List Change) (w : World) :
    Prop :=
  ∀ m ∈ w.mutations, ∀ change, marks m.stage change → ∀ node, w.nodes[m.node]? = some node →
    change ∈ cleared node

/-- A mutation has cleared the caches of its own instance for its change. -/
structure World.Accounted (w : World) : Prop where
  homes : ∀ m ∈ w.mutations, m.node < w.nodes.length
  dropped : w.Marks (fun stage change => stage.drops = some change) Instance.dropped
  forgotten : w.Marks (fun stage change => stage.announced = some change ∧ change.subject = .roles)
    Instance.forgotten

section Accounted

variable {w : World} {options : AclModuleOptions}

theorem MutationStep.dropped_of_drops {node : Instance} {task : MutationTask} {meets : Meets}
    {out : MutationEffect}
    (hstep : MutationStep w node task meets out) {change : Change}
    (hdrops : out.stage.drops = some change) :
    change ∈ out.node.dropped ∨ task.stage.drops = some change := by
  cases hstep with
  | before stage hchange grants roles =>
      cases stage with
      | resolved written =>
          rw [show written = none from hchange] at hdrops
          cases hdrops
      | applying _ => cases hdrops
      | checking => cases hdrops
      | writing => cases hdrops
      | written _ => cases hdrops
      | dropped _ => cases hchange
      | listed _ _ => cases hchange
      | cleared _ => cases hchange
      | published _ => cases hchange
      | threw => cases hdrops
  | wrote written hnow grants roles => cases hdrops
  | drops written hstage =>
      rw [← Option.some.inj hdrops]
      exact .inl (.head _)
  | lists written hstage store hshared => rw [hstage]; exact .inr hdrops
  | skips written hstage hnothing =>
      rcases hstage with hstage | ⟨keys, hstage⟩
      · rw [hstage]; exact .inr hdrops
      · rw [hstage]; exact .inr hdrops
  | deletes written keys hstage store hshared => rw [hstage]; exact .inr hdrops
  | publishes written hstage hsubject => rw [hstage]; exact .inr hdrops
  | forgets written hstage hsubject => rw [hstage]; exact .inr hdrops
  | resolves written hstage => rw [hstage]; exact .inr hdrops
  | ended written hstage => rw [hstage]; exact .inr hdrops

theorem MutationStep.forgotten_of_announced {node : Instance} {task : MutationTask} {meets : Meets}
    {out : MutationEffect} (hstep : MutationStep w node task meets out) {change : Change}
    (hannounced : out.stage.announced = some change) (hroles : change.subject = .roles) :
    change ∈ out.node.forgotten ∨ task.stage.announced = some change := by
  cases hstep with
  | before stage hchange grants roles =>
      cases stage with
      | resolved written =>
          rw [show written = none from hchange] at hannounced
          cases hannounced
      | published written => cases hchange
      | applying _ => cases hannounced
      | checking => cases hannounced
      | writing => cases hannounced
      | written _ => cases hannounced
      | dropped _ => cases hannounced
      | listed _ _ => cases hannounced
      | cleared _ => cases hannounced
      | threw => cases hannounced
  | publishes written hstage hsubject =>
      rw [Option.some.inj hannounced] at hsubject
      rw [hsubject] at hroles
      cases hroles
  | forgets written hstage hsubject =>
      rw [← Option.some.inj hannounced]
      exact .inl (.head _)
  | resolves written hstage => rw [hstage]; exact .inr hannounced
  | ended written hstage => rw [hstage]; exact .inr hannounced
  | wrote written hnow grants roles => cases hannounced
  | drops written hstage => cases hannounced
  | lists written hstage store hshared => cases hannounced
  | skips written hstage hnothing => cases hannounced
  | deletes written keys hstage store hshared => cases hannounced

/-- A mutation of the list takes a step, is new, or all are as they were. -/
theorem World.mutations_step (options : AclModuleOptions) (w : World) (input : WorldInput) :
    (w.step options input).mutations = w.mutations ∨
      (∃ (home : Nat) (mutation : Mutation), home < w.nodes.length ∧
        (w.step options input).mutations = w.mutations ++ [⟨home, mutation, mutation.begin⟩]) ∨
      ∃ (i : Nat) (task : MutationTask) (node : Instance) (meets : Meets),
        w.mutations[i]? = some task ∧ w.nodes[task.node]? = some node ∧
          (w.step options input).mutations =
            w.mutations.set i { task with stage := (task.resume w node meets).stage } ∧
          (w.step options input).nodes = w.nodes.set task.node (task.resume w node meets).node := by
  cases input with
  | mutate i mutation =>
      cases hnode : w.nodes[i]? with
      | none => exact .inl (by unfold World.step; dsimp only; rw [hnode])
      | some node =>
          refine .inr (.inl ⟨i, mutation, (List.getElem?_eq_some_iff.mp hnode).1, ?_⟩)
          unfold World.step
          dsimp only
          rw [hnode]
  | resumeMutation i meets =>
      cases htask : w.mutations[i]? with
      | none => exact .inl (by unfold World.step; dsimp only; rw [htask])
      | some task =>
          cases hnode : w.nodes[task.node]? with
          | none => exact .inl (by unfold World.step; dsimp only; rw [htask]; dsimp only; rw [hnode])
          | some node =>
              refine .inr (.inr ⟨i, task, node, meets, htask, hnode, ?_⟩)
              unfold World.step
              dsimp only
              rw [htask]
              dsimp only
              rw [hnode]
              exact ⟨rfl, rfl⟩
  | check i request time =>
      refine .inl ?_
      unfold World.step
      dsimp only
      split <;> rfl
  | resumeCheck i meets =>
      refine .inl ?_
      unfold World.step
      dsimp only
      split
      · rfl
      · split <;> rfl
  | deadline i =>
      refine .inl ?_
      unfold World.step
      dsimp only
      split <;> rfl
  | deliver i j =>
      refine .inl ?_
      unfold World.step
      dsimp only
      split <;> rfl

/-- **Marks stay true**: they come with the clearing, and what was cleared stays so. -/
theorem World.Marks.step {marks : MutationStage → Change → Prop} {cleared : Instance → List Change}
    (h : w.Marks marks cleared)
    (hgrows : ∀ node node' : Instance, node.dropped ⊆ node'.dropped → node.forgotten ⊆ node'.forgotten →
      cleared node ⊆ cleared node')
    (hbegin : ∀ (mutation : Mutation) change, ¬ marks mutation.begin change)
    (hresume : ∀ (task : MutationTask) (node : Instance) (meets : Meets) change,
      marks (task.resume w node meets).stage change →
        change ∈ cleared (task.resume w node meets).node ∨ marks task.stage change)
    (input : WorldInput) : (w.step options input).Marks marks cleared := by
  have hkept : ∀ m ∈ w.mutations, ∀ change, marks m.stage change → ∀ node',
      (w.step options input).nodes[m.node]? = some node' → change ∈ cleared node' := by
    intro m hm change hmarks node' hnode'
    obtain ⟨node, hnode, hdropped, hforgotten⟩ :=
      (w.grows_step options input).cleared m.node node' hnode'
    exact hgrows node node' hdropped hforgotten (h m hm change hmarks node hnode)
  unfold World.Marks
  rcases w.mutations_step options input with hsame | ⟨home, mutation, -, hnew⟩ |
    ⟨i, task, node, meets, htask, hnode, hset, hnodes⟩
  · rw [hsame]
    exact hkept
  · rw [hnew]
    apply Tasks.forall_concat hkept
    exact fun change hmarks => absurd hmarks (hbegin mutation change)
  · rw [hset]
    apply Tasks.forall_set hkept
    intro change hmarks node' hnode'
    rcases hresume task node meets change hmarks with hnow | hold
    · rw [hnodes] at hnode'
      rcases getElem?_set_cases hnode' with ⟨-, rfl⟩ | ⟨hne, -⟩
      · exact hnow
      · exact absurd rfl hne
    · exact hkept task (List.mem_of_getElem? htask) change hold node' hnode'

theorem Mutation.begin_fresh (mutation : Mutation) :
    mutation.begin.drops = none ∧ mutation.begin.announced = none := by
  unfold Mutation.begin
  split
  · exact ⟨rfl, rfl⟩
  · split <;> exact ⟨rfl, rfl⟩
  · split <;> exact ⟨rfl, rfl⟩

theorem World.Accounted.step (h : w.Accounted) (input : WorldInput) :
    (w.step options input).Accounted where
  homes := by
    rw [(w.grows_step options input).nodes]
    rcases w.mutations_step options input with hsame | ⟨home, mutation, hhome, hnew⟩ |
      ⟨i, task, node, meets, htask, hnode, hset, -⟩
    · rw [hsame]
      exact h.homes
    · rw [hnew]
      exact Tasks.forall_concat h.homes hhome
    · rw [hset]
      exact Tasks.forall_set h.homes (h.homes task (List.mem_of_getElem? htask))
  dropped := by
    refine h.dropped.step (fun _ _ hdropped _ => hdropped) (fun mutation change hdrops => ?_) ?_ input
    · rw [mutation.begin_fresh.1] at hdrops
      cases hdrops
    · exact fun task node meets change hdrops => (task.resume_spec w node meets).dropped_of_drops hdrops
  forgotten := by
    refine h.forgotten.step (fun _ _ _ hforgotten => hforgotten) (fun mutation change hmarks => ?_) ?_ input
    · have hannounced := hmarks.1
      rw [mutation.begin_fresh.2] at hannounced
      cases hannounced
    · intro task node meets change hmarks
      rcases (task.resume_spec w node meets).forgotten_of_announced hmarks.1 hmarks.2 with hnow | hold
      · exact .inl hnow
      · exact .inr ⟨hold, hmarks.2⟩

theorem World.Starts.accounted (h : w.Starts) : w.Accounted := by
  have hnone : ∀ m, m ∉ w.mutations := by
    rw [h.mutations]
    exact fun _ => List.not_mem_nil
  exact ⟨fun m hm => absurd hm (hnone m), fun m hm => absurd hm (hnone m), fun m hm => absurd hm (hnone m)⟩

/-- **On one instance** a change whose call has returned is settled. -/
theorem World.Accounted.settled (h : w.Accounted) (hone : w.nodes.length = 1) {m : MutationTask}
    (hm : m ∈ w.mutations) {change : Change} (hresolved : m.stage = .resolved (some change)) :
    w.Settled change := by
  have hhome : m.node = 0 := by
    have hlt := h.homes m hm
    omega
  have honly : ∀ node ∈ w.nodes, w.nodes[m.node]? = some node := by
    intro node hnode
    obtain ⟨i, hi⟩ := List.mem_iff_getElem?.mp hnode
    have hlt := (List.getElem?_eq_some_iff.mp hi).1
    have hzero : i = m.node := by omega
    rw [← hzero]
    exact hi
  refine ⟨⟨m, hm, by rw [hresolved]; rfl⟩, fun node hnode => ?_, fun hroles node hnode => ?_⟩
  · exact h.dropped m hm change (by rw [hresolved]; rfl) node (honly node hnode)
  · exact h.forgotten m hm change ⟨by rw [hresolved]; rfl, hroles⟩ node (honly node hnode)

end Accounted

/-! ## What is asked -/

/-- The checks from the `n`-th on, of the users the change is about, do not answer from before it. -/
def World.AnswersSince (change : Change) (n : Nat) (w : World) : Prop :=
  ∀ k task, n ≤ k → w.checks[k]? = some task → change.Concerns task.request.userId →
    ∀ answer reads, task.stage = .returned answer (some reads) → ¬ reads.Misses change

/-- Once a change of the subject has returned to its caller, no check that begins answers from before
it. -/
def AnswersFresh (subject : Subject) (options : AclModuleOptions) (w : World)
    (before after : List WorldInput) : Prop :=
  ∀ m ∈ (run (World.step options) w before).mutations, ∀ change, m.stage = .resolved (some change) →
    change.subject = subject →
    (run (World.step options) w (before ++ after)).AnswersSince change
      (run (World.step options) w before).checks.length

/-- The memory tier has nothing from before a change of the subject it was cleared for. -/
def World.TierFresh (subject : Subject) (w : World) : Prop :=
  ∀ node ∈ w.nodes, ∀ change ∈ node.dropped, change.subject = subject →
    ∀ key, node.Holds key → change.Covers key → ¬ (node.reads key).Misses change

section Answers

variable {options : AclModuleOptions} {w : World} {subject : Subject}

/-- In a quiet run on one instance. -/
theorem answersFresh_of_quiet (hstart : w.Starts) (hone : w.nodes.length = 1) {before after : List WorldInput}
    (hquiet : Along (World.step options) (Quiet subject) w (before ++ after)) :
    AnswersFresh subject options w before after := by
  intro m hm change hresolved hsubject k task hk htask hconcerns answer reads hreturned
  have haccounted : (run (World.step options) w before).Accounted :=
    run_invariant (fun _ input h => h.step input) hstart.accounted before
  have hlength : (run (World.step options) w before).nodes.length = 1 :=
    run_invariant (I := fun w : World => w.nodes.length = 1)
      (fun w input h => (w.grows_step options input).nodes.trans h) hone before
  have hsettled := haccounted.settled hlength hm hresolved
  have havoids := avoids_of_settled hstart hquiet hsubject hsettled hk htask hconcerns
  rw [hreturned] at havoids
  exact havoids

/-- **Grants and revokes on one instance.**  A check that begins after one has returned does not answer
from before it, and no check puts anything from before one back into the memory tier. -/
theorem grants_fresh (hstart : w.Starts) (hone : w.nodes.length = 1) (hshared : w.shared = none)
    (before after : List WorldInput) :
    AnswersFresh .grants options w before after ∧
      (run (World.step options) w (before ++ after)).TierFresh .grants := by
  have hmemory : w.InMemory := by
    refine ⟨hshared, ?_⟩
    rw [hstart.checks]
    exact nofun
  have hquiet : Along (World.step options) (Quiet .grants) w (before ++ after) :=
    along_of_invariant (I := World.InMemory) (fun _ input h => h.step input)
      (fun w input h => ⟨h.quietStore .grants input, quietMemo_grants w input⟩) hmemory (before ++ after)
  refine ⟨answersFresh_of_quiet hstart hone hquiet, ?_⟩
  have hfresh : (run (World.step options) w (before ++ after)).Fresh .grants :=
    hquiet.invariant_run (fun _ input h hok => h.step input hok) (hstart.fresh .grants)
  intro node hnode change hchange hsubject key hheld hcovers
  exact (hfresh.nodes node hnode).ram key hheld change hchange hsubject hcovers

/-- **Roles on one instance.**  In every run whose memo is quiet, a check that begins after a change of
the roles has returned goes by the roles as they were after it. -/
theorem roles_fresh (hstart : w.Starts) (hone : w.nodes.length = 1) (hshared : w.shared = none)
    {before after : List WorldInput}
    (hquiet : Along (World.step options) (QuietMemo .roles) w (before ++ after)) :
    AnswersFresh .roles options w before after := by
  have hmemory : w.InMemory := by
    refine ⟨hshared, ?_⟩
    rw [hstart.checks]
    exact nofun
  have hstore : Along (World.step options) (QuietStore .roles) w (before ++ after) :=
    along_of_invariant (I := World.InMemory) (fun _ input h => h.step input)
      (fun _ input h => h.quietStore .roles input) hmemory (before ++ after)
  exact answersFresh_of_quiet hstart hone (hstore.and hquiet)

end Answers

section Examples

/-- One instance with its memory tier. -/
def oneTier : World where
  grants := bobViews
  roles := [{ name := "viewer", actions := ["read"] }]
  nodes := [{}]

theorem starts_oneTier : oneTier.Starts := ⟨rfl, rfl, by decide, by decide⟩

/-- A check has read the grants when they are revoked. -/
def revokedWhileResolving : List WorldInput :=
  .check 0 mayBobRead 0 :: List.replicate 4 (.resumeCheck 0 {}) ++
    .mutate 0 (.apply revokeBob) :: List.replicate 6 (.resumeMutation 0 {})

/-- Its decision is not cached, and a new check refuses. -/
theorem grants_fresh_revokedWhileResolving :
    AnswersFresh .grants {} oneTier revokedWhileResolving
        (.resumeCheck 0 {} :: .check 0 mayBobRead 0 :: List.replicate 5 (.resumeCheck 1 {})) ∧
      (run (World.step {}) oneTier (revokedWhileResolving ++
        .resumeCheck 0 {} :: .check 0 mayBobRead 0 :: List.replicate 5 (.resumeCheck 1 {}))).TierFresh
          .grants :=
  grants_fresh starts_oneTier rfl rfl _ _

/-- A check has read the roles, not yet memoized, when one is deleted. -/
def deletedWhileListing : List WorldInput :=
  .check 0 mayBobRead 0 :: List.replicate 2 (.resumeCheck 0 {}) ++
    .mutate 0 (.deleteRole "viewer") :: List.replicate 5 (.resumeMutation 0 {})

/-- It memoizes them, and a new check goes by them. -/
def memoizedAfterDelete : List WorldInput :=
  .resumeCheck 0 {} :: .check 0 mayBobRead 0 :: List.replicate 3 (.resumeCheck 1 {})

/-- A check that begins after a role was deleted goes by it. -/
theorem not_answersFresh_memoizedAfterDelete :
    ¬ ∀ w : World, w.Starts → w.nodes.length = 1 → w.shared = none →
      ∀ before after, AnswersFresh .roles {} w before after := by
  intro h
  have hfresh := h oneTier starts_oneTier rfl rfl deletedWhileListing memoizedAfterDelete
  let change : Change := { subject := .roles, userId := none, writtenAt := 4, named := by decide }
  refine hfresh ⟨0, .deleteRole "viewer", .resolved (some change)⟩ (.head _) change rfl rfl 1
    ⟨0, mayBobRead, .returned true (some { rolesAt := 2, grantsAt := some 12 }), false⟩ (Nat.le_refl 1)
    rfl (fun _ hnamed => by cases hnamed) true _ rfl ?_
  exact .inl ⟨rfl, by decide⟩

/-- The same calls, one after another. -/
theorem roles_fresh_deletedAlone :
    AnswersFresh .roles {} oneTier
      (.mutate 0 (.deleteRole "viewer") :: List.replicate 5 (.resumeMutation 0 {}))
      [.check 0 mayBobRead 0, .resumeCheck 0 {}] := by
  refine roles_fresh starts_oneTier rfl rfl
    ⟨trivial, trivial, trivial, trivial, trivial, trivial, trivial, ?_, trivial⟩
  intro task htask node hnode
  obtain rfl := Option.some.inj htask
  obtain rfl := Option.some.inj hnode
  exact ⟨fun _ hsome => absurd hsome (by decide), nofun⟩

end Examples

end NestAmqp.Acl
