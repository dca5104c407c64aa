/-
# NestAmqp.Acl.FreshChecks — checks that begin after a change is settled.

A change is settled when it has cleared every cache.  A check that begins then carries nothing from
before it: not from the memory tier of its instance, not from the second tier, not from the memo, and not
from what it reads itself.  With the memory tier alone, a grant or a revoke is settled when its call has
returned; the second tier and the roles memo need the conditions of `Quiet`, and at the end of the module
are the two runs that go wrong without them.
-/
import NestAmqp.Acl.Freshness

namespace NestAmqp.Acl

open NestAmqp.Js
open NestAmqp.Lib
open NestAmqp.Lib.Machine

/-! ## What only grows -/

/-- The changes an instance was cleared for, and the changes the second tier was cleaned of, are not
taken back. -/
structure World.Grows (w w' : World) : Prop where
  nodes : w'.nodes.length = w.nodes.length
  cleared : ∀ (i : Nat) (node' : Instance), w'.nodes[i]? = some node' → ∃ node : Instance,
    w.nodes[i]? = some node ∧
    node.dropped ⊆ node'.dropped ∧ node.forgotten ⊆ node'.forgotten
  cleaned : ∀ change, (∃ m ∈ w.mutations, m.stage.cleans = some (change, [])) →
    ∃ m ∈ w'.mutations, m.stage.cleans = some (change, [])

section Grows

variable {w : World} {options : AclModuleOptions}

theorem World.Grows.same {w' : World} (hnodes : w'.nodes = w.nodes) (hmutations : w'.mutations = w.mutations) :
    w.Grows w' := by
  refine ⟨by rw [hnodes], fun i node hnode => ?_, fun change h => ?_⟩
  · rw [hnodes] at hnode
    exact ⟨node, hnode, List.Subset.refl _, List.Subset.refl _⟩
  · rw [hmutations]
    exact h

/-- One instance changes. -/
theorem World.Grows.setNode {w' : World} {i : Nat} {node node' : Instance} (hnode : w.nodes[i]? = some node)
    (hnodes : w'.nodes = w.nodes.set i node') (hdropped : node.dropped ⊆ node'.dropped)
    (hforgotten : node.forgotten ⊆ node'.forgotten)
    (hcleaned : ∀ change, (∃ m ∈ w.mutations, m.stage.cleans = some (change, [])) →
      ∃ m ∈ w'.mutations, m.stage.cleans = some (change, [])) : w.Grows w' := by
  refine ⟨by rw [hnodes, List.length_set], fun j n hn => ?_, hcleaned⟩
  rw [hnodes] at hn
  rcases getElem?_set_cases hn with ⟨rfl, rfl⟩ | ⟨-, hn⟩
  · exact ⟨node, hnode, hdropped, hforgotten⟩
  · exact ⟨n, hn, List.Subset.refl _, List.Subset.refl _⟩

theorem Instance.applyInvalidation_grows (node : Instance) (change : Change) :
    node.dropped ⊆ (node.applyInvalidation change).dropped ∧
      node.forgotten ⊆ (node.applyInvalidation change).forgotten := by
  unfold Instance.applyInvalidation
  split
  · exact ⟨List.subset_cons_self _ _, List.Subset.refl _⟩
  · exact ⟨List.subset_cons_self _ _, List.subset_cons_self _ _⟩

theorem MutationStep.grows {node : Instance} {task : MutationTask} {meets : Meets} {out : MutationEffect}
    (hstep : MutationStep w node task meets out) :
    node.dropped ⊆ out.node.dropped ∧ node.forgotten ⊆ out.node.forgotten := by
  have hsame : node.dropped ⊆ node.dropped ∧ node.forgotten ⊆ node.forgotten :=
    ⟨List.Subset.refl _, List.Subset.refl _⟩
  cases hstep with
  | drops change hstage => exact ⟨List.subset_cons_self _ _, List.Subset.refl _⟩
  | forgets change hstage hsubject => exact ⟨List.Subset.refl _, List.subset_cons_self _ _⟩
  | before stage hchange grants roles => exact hsame
  | wrote change hnow grants roles => exact hsame
  | lists change hstage store hshared => exact hsame
  | skips change hstage hnothing => exact hsame
  | deletes change keys hstage store hshared => exact hsame
  | publishes change hstage hsubject => exact hsame
  | resolves change hstage => exact hsame
  | ended change hstage => exact hsame

/-- A mutation that has cleaned the second tier stays one. -/
theorem MutationTask.resume_cleans {node : Instance} {task : MutationTask} {meets : Meets} {change : Change}
    (h : task.stage.cleans = some (change, [])) :
    (task.resume w node meets).stage.cleans = some (change, []) := by
  obtain ⟨home, mutation, stage⟩ := task
  cases stage with
  | listed written keys =>
      have hchange : written = change := congrArg Prod.fst (Option.some.inj h)
      rw [← hchange]
      rfl
  | cleared written =>
      have hchange : written = change := congrArg Prod.fst (Option.some.inj h)
      rw [← hchange]
      unfold MutationTask.resume
      dsimp only
      split <;> rfl
  | published written => exact h
  | resolved written =>
      cases written with
      | none => cases h
      | some written => exact h
  | applying _ => cases h
  | checking => cases h
  | writing => cases h
  | written _ => cases h
  | dropped _ => cases h
  | threw => cases h

theorem World.grows_step (options : AclModuleOptions) (w : World) (input : WorldInput) :
    w.Grows (w.step options input) := by
  cases input with
  | check i request time =>
      unfold World.step
      dsimp only
      cases hnode : w.nodes[i]? with
      | none => exact .same rfl rfl
      | some node =>
          obtain ⟨⟨ram, hout, -⟩, -, -, -⟩ := beginCheck_spec options w node request time
          dsimp only
          rw [hout]
          exact .setNode hnode rfl (List.Subset.refl _) (List.Subset.refl _) fun _ h => h
  | resumeCheck i meets =>
      unfold World.step
      dsimp only
      cases htask : w.checks[i]? with
      | none => exact .same rfl rfl
      | some task =>
          dsimp only
          cases hnode : w.nodes[task.node]? with
          | none => exact .same rfl rfl
          | some node =>
              -- the operation of a check takes nothing back
              obtain ⟨-, hdropped, hforgotten⟩ := (task.resume_spec options w node meets).keeps
              refine .setNode hnode rfl ?_ ?_ fun _ h => h
              · rw [hdropped]
                exact List.Subset.refl _
              · rw [hforgotten]
                exact List.Subset.refl _
  | deadline i =>
      unfold World.step
      dsimp only
      cases w.checks[i]? with
      | none => exact .same rfl rfl
      | some task => exact .same rfl rfl
  | mutate i mutation =>
      unfold World.step
      dsimp only
      cases w.nodes[i]? with
      | none => exact .same rfl rfl
      | some node =>
          refine ⟨rfl, fun j n hn => ⟨n, hn, List.Subset.refl _, List.Subset.refl _⟩, fun change h => ?_⟩
          obtain ⟨m, hm, hcleans⟩ := h
          exact ⟨m, List.mem_append_left _ hm, hcleans⟩
  | resumeMutation i meets =>
      unfold World.step
      dsimp only
      cases htask : w.mutations[i]? with
      | none => exact .same rfl rfl
      | some task =>
          dsimp only
          cases hnode : w.nodes[task.node]? with
          | none => exact .same rfl rfl
          | some node =>
              -- the operation of a mutation may drop or forget a change more
              obtain ⟨hdropped, hforgotten⟩ := (task.resume_spec w node meets).grows
              refine .setNode hnode rfl hdropped hforgotten fun change h => ?_
              exact Tasks.exists_set htask (fun hold => MutationTask.resume_cleans hold) h
  | deliver i j =>
      unfold World.step
      dsimp only
      split
      next change node _ hnode =>
        obtain ⟨hdropped, hforgotten⟩ := node.applyInvalidation_grows change
        exact .setNode hnode rfl hdropped hforgotten fun _ h => h
      · exact .same rfl rfl

end Grows

/-! ## Settled changes -/

/-- The change has cleared every cache. -/
structure World.Settled (change : Change) (w : World) : Prop where
  cleaned : ∃ m ∈ w.mutations, m.stage.cleans = some (change, [])
  dropped : ∀ node ∈ w.nodes, change ∈ node.dropped
  forgotten : change.subject = .roles → ∀ node ∈ w.nodes, change ∈ node.forgotten

/-- The checks from the `n`-th on carry nothing from before the change. -/
structure World.Since (change : Change) (n : Nat) (w : World) : Prop where
  settled : w.Settled change
  begun : n ≤ w.checks.length
  avoids : ∀ k task, n ≤ k → w.checks[k]? = some task → change.Concerns task.request.userId →
    task.stage.Avoids change

section Since

variable {w : World} {options : AclModuleOptions} {change : Change} {n : Nat}

theorem World.Settled.grows {w' : World} (h : w.Settled change) (hgrows : w.Grows w') :
    w'.Settled change where
  cleaned := hgrows.cleaned change h.cleaned
  dropped := by
    intro node' hnode'
    obtain ⟨i, hi⟩ := List.mem_iff_getElem?.mp hnode'
    obtain ⟨node, hnode, hdropped, -⟩ := hgrows.cleared i node' hi
    exact hdropped (h.dropped node (List.mem_of_getElem? hnode))
  forgotten := by
    intro hroles node' hnode'
    obtain ⟨i, hi⟩ := List.mem_iff_getElem?.mp hnode'
    obtain ⟨node, hnode, -, hforgotten⟩ := hgrows.cleared i node' hi
    exact hforgotten (h.forgotten hroles node (List.mem_of_getElem? hnode))

/-- The key of a request starts with the user the change is about. -/
theorem Change.covers_key {request : AclRequest} (h : change.Concerns request.userId) :
    change.Covers request.key := by
  unfold Change.Covers Change.keysStart startsWith
  rw [List.isPrefixOf_iff_prefix]
  cases huser : change.userId with
  | none =>
      refine ⟨(request.userId ++ "/" ++ request.cacheAction).toList, ?_⟩
      show _ = ("acl/" ++ request.userId ++ "/" ++ request.cacheAction).toList
      simp only [String.toList_append, List.append_assoc]
  | some u =>
      rw [h u huser]
      refine ⟨request.cacheAction.toList, ?_⟩
      show _ = ("acl/" ++ request.userId ++ "/" ++ request.cacheAction).toList
      simp only [String.toList_append, List.append_assoc]

/-- A check that takes a step carries on nothing from before a settled change. -/
theorem World.Settled.avoids (h : w.Settled change) (hfresh : w.Fresh change.subject) {task : CheckTask}
    {node : Instance} (hnode : w.nodes[task.node]? = some node) {meets : Meets} {out : CheckEffect}
    (hstep : CheckStep options w node task meets out) (hconcerns : change.Concerns task.request.userId)
    (hstage : task.stage.Avoids change) : out.stage.Avoids change := by
  have hmem := List.mem_of_getElem? hnode
  have hnodeFresh := hfresh.nodes node hmem
  obtain ⟨m, hm, hcleans⟩ := h.cleaned
  refine hstep.avoids hstage (hnodeFresh.dropped change (h.dropped node hmem)) ?_ ?_
  · intro _ store value reads hstore hget
    obtain ⟨hkey, rfl⟩ := SharedStore.mem_of_get hget
    exact hfresh.shared store hstore m hm change [] hcleans rfl task.request.key hkey
      (Change.covers_key hconcerns) List.not_mem_nil
  · intro _ hmemo hmiss
    have hsome : node.rolesCache ≠ none := by
      intro hnone
      unfold Instance.memo at hmemo
      rw [hnone] at hmemo
      cases hmemo
    exact hnodeFresh.memo hsome change (h.forgotten hmiss.1 node hmem) rfl hmiss

/-- **One step.** -/
theorem World.Since.step (h : w.Since change n) (hfresh : w.Fresh change.subject) (input : WorldInput) :
    (w.step options input).Since change n := by
  have hsettled := h.settled.grows (w.grows_step options input)
  -- a step that leaves the checks from `n` on avoiding the change, whatever else it does
  have hlater : ∀ checks : List CheckTask, n ≤ checks.length → (∀ k task, n ≤ k →
      checks[k]? = some task → change.Concerns task.request.userId → task.stage.Avoids change) →
      (w.step options input).checks = checks → (w.step options input).Since change n := by
    intro checks hlen havoids heq
    exact ⟨hsettled, by rw [heq]; exact hlen, by rw [heq]; exact havoids⟩
  have hsame := hlater w.checks h.begun h.avoids
  cases input with
  | check i request time =>
      cases hnode : w.nodes[i]? with
      | none => exact hsame (by unfold World.step; dsimp only; rw [hnode])
      | some node =>
          refine hlater (w.checks ++ [⟨i, request, (beginCheck options w node request time).stage, false⟩])
            ?_ ?_ (by unfold World.step; dsimp only; rw [hnode])
          · rw [List.length_append]
            exact h.begun.trans (Nat.le_add_right _ _)
          · -- the new check is the last one
            intro k task hk htask hconcerns
            by_cases hlt : k < w.checks.length
            · rw [List.getElem?_append_left hlt] at htask
              exact h.avoids k task hk htask hconcerns
            · rw [List.getElem?_append_right (Nat.le_of_not_lt hlt)] at htask
              have heq := List.mem_singleton.mp (List.mem_of_getElem? htask)
              subst heq
              obtain ⟨-, -, -, hstage⟩ := beginCheck_spec options w node request time
              rcases hstage with hall | ⟨value, hreturned, hheld⟩
              · exact hall change
              · -- a hit of the memory tier, which the change has been dropped from
                show CheckStage.Avoids change (beginCheck options w node request time).stage
                rw [hreturned]
                have hmem := List.mem_of_getElem? hnode
                exact (hfresh.nodes node hmem).ram request.key hheld change
                  (h.settled.dropped node hmem) rfl (Change.covers_key hconcerns)
  | resumeCheck i meets =>
      cases htask : w.checks[i]? with
      | none => exact hsame (by unfold World.step; dsimp only; rw [htask])
      | some task =>
          cases hnode : w.nodes[task.node]? with
          | none => exact hsame (by unfold World.step; dsimp only; rw [htask]; dsimp only; rw [hnode])
          | some node =>
              refine hlater (w.checks.set i { task with stage := (task.resume options w node meets).stage })
                ?_ ?_ (by unfold World.step; dsimp only; rw [htask]; dsimp only; rw [hnode])
              · rw [List.length_set]
                exact h.begun
              · intro k task' hk htask' hconcerns
                rcases getElem?_set_cases htask' with ⟨rfl, rfl⟩ | ⟨-, hold⟩
                · exact h.settled.avoids hfresh hnode (task.resume_spec options w node meets) hconcerns
                    (h.avoids k task hk htask hconcerns)
                · exact h.avoids k task' hk hold hconcerns
  | deadline i =>
      cases htask : w.checks[i]? with
      | none => exact hsame (by unfold World.step; dsimp only; rw [htask])
      | some task =>
          refine hlater (w.checks.set i (task.pastDeadline options)) ?_ ?_
            (by unfold World.step; dsimp only; rw [htask])
          · rw [List.length_set]
            exact h.begun
          · intro k task' hk htask' hconcerns
            rcases getElem?_set_cases htask' with ⟨rfl, rfl⟩ | ⟨-, hold⟩
            · obtain ⟨hstage, -, hrequest⟩ := task.pastDeadline_spec options
              rw [hstage]
              rw [hrequest] at hconcerns
              exact h.avoids k task hk htask hconcerns
            · exact h.avoids k task' hk hold hconcerns
  -- the other inputs leave the checks as they are
  | mutate i mutation =>
      refine hsame ?_
      unfold World.step
      dsimp only
      split <;> rfl
  | resumeMutation i meets =>
      refine hsame ?_
      unfold World.step
      dsimp only
      split
      · rfl
      · split <;> rfl
  | deliver i j =>
      refine hsame ?_
      unfold World.step
      dsimp only
      split <;> rfl

/-- **Checks that begin after a settled change** carry nothing from before it, in a quiet run. -/
theorem avoids_of_settled {subject : Subject} {w : World} (hstart : w.Starts) {before after : List WorldInput}
    (hquiet : Along (World.step options) (Quiet subject) w (before ++ after)) {change : Change}
    (hsubject : change.subject = subject) (hsettled : (run (World.step options) w before).Settled change)
    {k : Nat} {task : CheckTask} (hk : (run (World.step options) w before).checks.length ≤ k)
    (htask : (run (World.step options) w (before ++ after)).checks[k]? = some task)
    (hconcerns : change.Concerns task.request.userId) : task.stage.Avoids change := by
  subst hsubject
  obtain ⟨hbefore, hafter⟩ := (along_append _ _ _ _ _).mp hquiet
  have hfresh : (run (World.step options) w before).Fresh change.subject :=
    hbefore.invariant_run (fun _ input h hok => h.step input hok) (hstart.fresh change.subject)
  have hnone : ∀ k task, (run (World.step options) w before).checks.length ≤ k →
      (run (World.step options) w before).checks[k]? = some task →
      change.Concerns task.request.userId → task.stage.Avoids change := by
    intro k task hk htask
    rw [List.getElem?_eq_none hk] at htask
    cases htask
  have hstep : ∀ (w' : World) input,
      w'.Fresh change.subject ∧ w'.Since change (run (World.step options) w before).checks.length →
      Quiet change.subject w' input →
      (w'.step options input).Fresh change.subject ∧
        (w'.step options input).Since change (run (World.step options) w before).checks.length :=
    fun _ input h hok => ⟨h.1.step input hok, h.2.step h.1 input⟩
  have hend := hafter.invariant_run hstep ⟨hfresh, hsettled, Nat.le_refl _, hnone⟩
  rw [run_append] at htask
  exact hend.2.avoids k task hk htask hconcerns

end Since

/-! ## Several instances and the second tier -/

/-- `invalidate` has resolved for the change. -/
def MutationStage.Invalidated (change : Change) (stage : MutationStage) : Prop :=
  stage = .cleared change ∨ stage = .published change ∨ stage = .resolved (some change)

theorem MutationStage.Invalidated.cleans {change : Change} {stage : MutationStage}
    (h : stage.Invalidated change) : stage.cleans = some (change, []) := by
  rcases h with rfl | rfl | rfl <;> rfl

/-- What `get` gave a check from either tier. -/
def CheckStage.Got (stage : CheckStage) (value : Bool) (reads : ReadTimes) : Prop :=
  stage = .answered (some (value, reads)) ∨ stage = .returned value (some reads)

/-- Once `invalidate` has resolved for a grant or a revoke, and every instance has dropped its cache for
it, no `get` that begins returns a decision from before it. -/
def GetsFresh (options : AclModuleOptions) (w : World) (before after : List WorldInput) : Prop :=
  ∀ m ∈ (run (World.step options) w before).mutations, ∀ change, m.stage.Invalidated change →
    change.subject = .grants →
    (∀ node ∈ (run (World.step options) w before).nodes, change ∈ node.dropped) →
    ∀ k task, (run (World.step options) w before).checks.length ≤ k →
      (run (World.step options) w (before ++ after)).checks[k]? = some task →
      change.userId = some task.request.userId →
      ∀ value reads, task.stage.Got value reads → ¬ reads.Misses change

/-- A change of the grants does not outdate the roles. -/
theorem quietMemo_grants (w : World) (input : WorldInput) : QuietMemo .grants w input := by
  have hnot : ∀ change : Change, change.subject = .grants → ∀ rolesAt, ¬ RolesMiss rolesAt change := by
    intro change hgrants rolesAt hmiss
    have hroles := hmiss.1
    rw [hgrants] at hroles
    cases hroles
  cases input with
  | resumeCheck i meets =>
      exact fun _ _ _ _ => ⟨fun _ _ change _ hsubject => hnot change hsubject _,
        fun _ _ _ rolesAt _ change _ hsubject => hnot change hsubject rolesAt⟩
  | check i request time => trivial
  | deadline i => trivial
  | mutate i mutation => trivial
  | resumeMutation i meets => trivial
  | deliver i j => trivial

/-- **Freshness across instances.**  In every run whose second tier is quiet for grants and revokes, a
decision from before one is not returned once it is invalidated everywhere. -/
theorem gets_fresh {options : AclModuleOptions} {w : World} (hstart : w.Starts)
    {before after : List WorldInput}
    (hquiet : Along (World.step options) (QuietStore .grants) w (before ++ after)) :
    GetsFresh options w before after := by
  intro m hm change hinvalidated hgrants hdropped k task hk htask huser value reads hgot
  have hboth : Along (World.step options) (Quiet .grants) w (before ++ after) :=
    Along.mono (fun w input h => ⟨h, quietMemo_grants w input⟩) hquiet
  have hsettled : (run (World.step options) w before).Settled change := by
    refine ⟨⟨m, hm, hinvalidated.cleans⟩, hdropped, fun hroles => ?_⟩
    rw [hgrants] at hroles
    cases hroles
  have hconcerns : change.Concerns task.request.userId := by
    intro u hu
    rw [huser] at hu
    exact (Option.some.inj hu).symm
  have havoids := avoids_of_settled hstart hboth hgrants hsettled hk htask hconcerns
  rcases hgot with hstage | hstage
  · rw [hstage] at havoids
    exact havoids
  · rw [hstage] at havoids
    exact havoids

section Examples

/-- One user with one role. -/
def bobViews : GrantStore where
  records := [{ _id := 1, userId := "bob", roles := ["viewer"] }]
  ids := List.nodup_singleton 1
  named := by decide

/-- One instance before a second tier. -/
def twoTiers : World where
  grants := bobViews
  roles := [{ name := "viewer", actions := ["read"] }]
  shared := some {}
  nodes := [{}]

/-- May the user read? -/
def mayBobRead : AclRequest where
  userId := "bob"
  ctx := none
  action := .one "read"

/-- The role is taken back. -/
def revokeBob : GrantOp where
  kind := .revoke
  body := { userId := "bob", roles := ["viewer"] }
  valid := by decide

/-- A check resolves and is about to save its decision; then the revoke runs, up to the end of its
invalidation. -/
def revokedWhileSaving : List WorldInput :=
  .check 0 mayBobRead 0 :: List.replicate 6 (.resumeCheck 0 {}) ++
    .mutate 0 (.apply revokeBob) :: List.replicate 5 (.resumeMutation 0 {})

/-- The decision lands in the second tier, and a new check finds it there. -/
def savedAfterRevoke : List WorldInput :=
  [.resumeCheck 0 {}, .check 0 mayBobRead 0, .resumeCheck 1 {}]

/-- A decision from before a revoke is returned after it. -/
theorem not_getsFresh_savedAfterRevoke :
    ¬ ∀ w : World, w.Starts → ∀ before after, GetsFresh {} w before after := by
  intro h
  have hstart : twoTiers.Starts := ⟨rfl, rfl, by decide, by decide⟩
  have hfresh := h twoTiers hstart revokedWhileSaving savedAfterRevoke
  let change : Change := { subject := .grants, userId := some "bob", writtenAt := 9, named := by decide }
  have hdropped : ∀ node ∈ (run (World.step {}) twoTiers revokedWhileSaving).nodes,
      change ∈ node.dropped := by
    intro node hnode
    rw [List.mem_singleton.mp hnode]
    exact .head _
  refine hfresh ⟨0, .apply revokeBob, .cleared change⟩ (.head _) change (.inl rfl) rfl hdropped 1
    ⟨0, mayBobRead, .answered (some (true, { rolesAt := 3, grantsAt := some 5 })), false⟩ (Nat.le_refl 1)
    rfl rfl true _ (.inl rfl) ?_
  exact .inr ⟨rfl, 5, rfl, by decide⟩

/-- A revoke on its own, and a check after it. -/
def revokedAlone : List WorldInput :=
  .mutate 0 (.apply revokeBob) :: List.replicate 5 (.resumeMutation 0 {})

theorem gets_fresh_revokedAlone :
    GetsFresh {} twoTiers revokedAlone [.check 0 mayBobRead 0, .resumeCheck 0 {}] := by
  refine gets_fresh ⟨rfl, rfl, by decide, by decide⟩ ⟨trivial, ?_, ?_, ?_, ?_, ?_, trivial, ?_, trivial⟩
  case refine_6 =>
    intro task htask node hnode
    obtain rfl := Option.some.inj htask
    exact ⟨nofun, nofun⟩
  all_goals exact fun _ _ _ _ _ _ => rfl

end Examples

end NestAmqp.Acl
