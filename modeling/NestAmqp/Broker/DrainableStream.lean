/-
# NestAmqp.Broker.DrainableStream — draining the pipelines of a service.

A pipeline buffers what it accepts in a `concatMap` or `mergeMap` and has `takeUntilShutdown()` behind it.
`drain()` makes every `takeUntil` complete its pipeline at once, and with it goes what the stage before it
still had: only what has been delivered by then is.  It then waits for a signal that is given once, when the
count of pipelines first comes to nothing, which may have been long ago.  So a drain keeps its promise exactly
when there is nothing to wait for: no item under way, and, after the signal, no pipeline that does not listen.

What a source and the inner observables do comes in as inputs.  What an inner observable emits passes through
at once, so an item is delivered when its inner observable has completed.
-/
import NestAmqp.Lib.Machine
import NestAmqp.Lib.Tasks

namespace NestAmqp.Broker

open NestAmqp.Lib
open NestAmqp.Lib.Machine

/-! ## Pipelines -/

/-- Where the subscription of a pipeline is. -/
inductive PipelineStage where
  | created
  /-- `takeUntil` listens to `shutdown$` unless that had completed before. -/
  | subscribed (listening : Bool)
  | finished
  deriving DecidableEq

/-- A pipeline with its `mergeMap`; `concatMap` is the one with `concurrent` 1.  Items have numbers, in the
order they are accepted. -/
structure Pipeline where
  /-- `mergeMap(project, concurrent)`; without it there is no limit. -/
  concurrent : Option Nat := none
  stage : PipelineStage := .created
  sourceDone : Bool := false
  /-- Items that wait for an inner observable. -/
  buffer : List Nat := []
  active : List Nat := []
  accepted : Nat := 0
  /-- Items whose inner observable has completed. -/
  delivered : List Nat := []

namespace Pipeline

variable (p : Pipeline)

/-- `active < concurrent`. -/
def room : Bool := p.concurrent.all fun concurrent => p.active.length < concurrent

/-- The source emits: an inner observable is subscribed to, or the item is buffered. -/
def accept : Pipeline :=
  if p.room then { p with active := p.active ++ [p.accepted], accepted := p.accepted + 1 }
  else { p with buffer := p.buffer ++ [p.accepted], accepted := p.accepted + 1 }

/-- `while (buffer.length && active < concurrent) doInnerSub(buffer.shift())`. -/
def startBuffered : Pipeline :=
  let started := match p.concurrent with
    | none => p.buffer.length
    | some concurrent => concurrent - p.active.length
  { p with active := p.active ++ p.buffer.take started, buffer := p.buffer.drop started }

/-- The inner observable of an item completes. -/
def settle (item : Nat) : Pipeline :=
  startBuffered { p with active := p.active.erase item, delivered := p.delivered ++ [item] }

/-- `isComplete && !buffer.length && !active`. -/
def complete : Bool := p.sourceDone && p.buffer.isEmpty && p.active.isEmpty

/-- The subscriptions are torn down: the inner observables are unsubscribed from, the buffer is gone. -/
def close : Pipeline := { p with stage := .finished, buffer := [], active := [] }

/-- `takeUntil`, when its notifier emits. -/
def cut : Pipeline := if p.stage = .subscribed true then p.close else p

/-- The subscription has not been torn down. -/
def unfinished : Bool := p.stage ≠ .finished

end Pipeline

/-! ## The stream -/

/-- A call of `drain()`: how many items each pipeline had accepted, and the pipelines as they were when the
call resolved, if it has.  Nothing reads either. -/
structure DrainCall where
  accepted : List Nat
  resolvedAt : Option (List Pipeline) := none

/-- The fields of `DrainableStream`, its pipelines, and the calls of `drain()`. -/
structure DrainableStream where
  pendingStreams : Int := 0
  /-- `shutdown$` has emitted and completed. -/
  shutDown : Bool := false
  /-- `drained$` has emitted and completed. -/
  drained : Bool := false
  pipelines : List Pipeline := []
  calls : List DrainCall := []

/-- A pipeline is created or subscribed to; its source emits or completes; the inner observable of one of its
items completes; or `drain()` is called. -/
inductive StreamInput where
  | create (concurrent : Option Nat)
  | subscribe (pipeline : Nat)
  | accept (pipeline : Nat)
  | settle (pipeline item : Nat)
  | sourceComplete (pipeline : Nat)
  | drain

/-- An awaiting call resolves. -/
def DrainCall.resolve (pipelines : List Pipeline) (call : DrainCall) : DrainCall :=
  { call with resolvedAt := call.resolvedAt.or (some pipelines) }

namespace DrainableStream

variable (s : DrainableStream)

def setPipeline (i : Nat) (p : Pipeline) : DrainableStream := { s with pipelines := s.pipelines.set i p }

/-- The callback of `finalize`: `drained$` is given once, and resolves every call that awaits it. -/
def finalize : DrainableStream :=
  let s := { s with pendingStreams := s.pendingStreams - 1 }
  if s.pendingStreams = 0 then
    { s with drained := true, calls := s.calls.map (DrainCall.resolve s.pipelines) }
  else s

/-- A pipeline completes. -/
def endPipeline (i : Nat) (p : Pipeline) : DrainableStream := (s.setPipeline i p.close).finalize

/-- A pipeline goes on, and completes when there is nothing more to come. -/
def goOn (i : Nat) (p : Pipeline) : DrainableStream :=
  if p.complete then s.endPipeline i p else s.setPipeline i p

/-- `shutdown$.next()`, for one pipeline. -/
def cutAt (i : Nat) : DrainableStream :=
  match s.pipelines[i]? with
  | some p => if p.stage = .subscribed true then s.endPipeline i p else s
  | none => s

/-- `shutdown$.next(); shutdown$.complete()`, the first time. -/
def shutdown : DrainableStream :=
  if s.shutDown then s
  else { (List.range s.pipelines.length).foldl cutAt s with shutDown := true }

/-- `drain()`: it awaits `drained$` as long as a pipeline is pending and the signal has not been given. -/
def drain : DrainableStream :=
  let accepted := s.pipelines.map Pipeline.accepted
  let s := s.shutdown
  let resolvedAt := if s.pendingStreams > 0 ∧ s.drained = false then none else some s.pipelines
  { s with calls := s.calls ++ [{ accepted, resolvedAt }] }

/-- One input; one that finds no pipeline in the right stage changes nothing. -/
def step : StreamInput → DrainableStream
  | .create concurrent =>
      { s with pendingStreams := s.pendingStreams + 1, pipelines := s.pipelines ++ [{ concurrent }] }
  | .subscribe i =>
      match s.pipelines[i]? with
      | some p => if p.stage = .created then s.setPipeline i { p with stage := .subscribed !s.shutDown } else s
      | none => s
  | .accept i =>
      match s.pipelines[i]? with
      | some p => match p.stage with
          | .subscribed _ => if p.sourceDone then s else s.setPipeline i p.accept
          | _ => s
      | none => s
  | .settle i item =>
      match s.pipelines[i]? with
      | some p => if item ∈ p.active then s.goOn i (p.settle item) else s
      | none => s
  | .sourceComplete i =>
      match s.pipelines[i]? with
      | some p => match p.stage with
          | .subscribed _ => s.goOn i { p with sourceDone := true }
          | _ => s
      | none => s
  | .drain => s.drain

/-! ## Drains that keep their promise -/

/-- The calls of `drain()` have kept what they promise: nothing accepted is lost, and a call resolves behind the
last item. -/
structure DrainsProperly : Prop where
  /-- No item that had been accepted when `drain()` was called is lost. -/
  kept : ∀ call ∈ s.calls, ∀ i n item : Nat, call.accepted[i]? = some n → item < n →
    ∃ p : Pipeline, s.pipelines[i]? = some p ∧ (item ∈ p.delivered ∨ item ∈ p.active ∨ item ∈ p.buffer)
  /-- When a call resolved, every pipeline had finished. -/
  finished : ∀ call ∈ s.calls, ∀ pipelines, call.resolvedAt = some pipelines →
    ∀ p ∈ pipelines, p.stage = .finished
  /-- By then every such item had been delivered. -/
  delivered : ∀ call ∈ s.calls, ∀ pipelines, call.resolvedAt = some pipelines →
    ∀ i n item : Nat, call.accepted[i]? = some n → item < n → ∃ p, pipelines[i]? = some p ∧ item ∈ p.delivered

/-- A drain finds no item under way in a pipeline that listens, and, once `drained$` has been given, no
pipeline that is pending and does not listen. -/
def NothingToDrain : StreamInput → Prop
  | .drain =>
      (∀ p ∈ s.pipelines, p.stage = .subscribed true → p.active = [] ∧ p.buffer = []) ∧
      (s.drained = true → ∀ p ∈ s.pipelines, p.stage = .finished ∨ p.stage = .subscribed true)
  | .create _ | .subscribe _ | .accept _ | .settle .. | .sourceComplete _ => True

end DrainableStream

/-! ## One pipeline -/

namespace Pipeline

variable {p : Pipeline}

/-- Every accepted item has been delivered or is under way, and none of them twice; nothing is under way
outside a subscription. -/
structure Regular (p : Pipeline) : Prop where
  items : (p.delivered ++ (p.active ++ p.buffer)).Perm (List.range p.accepted)
  idle : (∀ listening, p.stage ≠ .subscribed listening) → p.active = [] ∧ p.buffer = []

theorem Regular.known (h : p.Regular) {item : Nat} (hlt : item < p.accepted) :
    item ∈ p.delivered ∨ item ∈ p.active ∨ item ∈ p.buffer := by
  have hmem := h.items.mem_iff.mpr (List.mem_range.mpr hlt)
  rwa [List.mem_append, List.mem_append] at hmem

/-- An item under way has been accepted and has not been delivered. -/
theorem Regular.underWay (h : p.Regular) {item : Nat} (hmem : item ∈ p.active ∨ item ∈ p.buffer) :
    item < p.accepted ∧ item ∉ p.delivered := by
  have hway : item ∈ p.active ++ p.buffer := List.mem_append.mpr hmem
  refine ⟨List.mem_range.mp (h.items.mem_iff.mp (List.mem_append_right _ hway)), fun hdelivered => ?_⟩
  have hnodup := h.items.nodup_iff.mpr List.nodup_range
  exact (List.nodup_append.mp hnodup).2.2 item hdelivered item hway rfl

theorem Regular.delivered_of_idle (h : p.Regular) (hidle : p.active = [] ∧ p.buffer = []) {item : Nat}
    (hlt : item < p.accepted) : item ∈ p.delivered := by
  rcases h.known hlt with hmem | hmem | hmem
  · exact hmem
  · rw [hidle.1] at hmem
    cases hmem
  · rw [hidle.2] at hmem
    cases hmem

theorem regular_new (concurrent : Option Nat) : Regular { concurrent } := ⟨.refl _, fun _ => ⟨rfl, rfl⟩⟩

theorem Regular.subscribe (h : p.Regular) (listening : Bool) :
    Regular { p with stage := .subscribed listening } :=
  ⟨h.items, fun hno => absurd rfl (hno listening)⟩

theorem Regular.sourceDone (h : p.Regular) : Regular { p with sourceDone := true } := ⟨h.items, h.idle⟩

theorem Regular.close (h : p.Regular) (hidle : p.active = [] ∧ p.buffer = []) : p.close.Regular := by
  refine ⟨?_, fun _ => ⟨rfl, rfl⟩⟩
  have hitems := h.items
  rw [hidle.1, hidle.2] at hitems
  exact hitems

@[simp] theorem stage_accept : p.accept.stage = p.stage := by
  unfold accept
  split <;> rfl

@[simp] theorem accepted_accept : p.accept.accepted = p.accepted + 1 := by
  unfold accept
  split <;> rfl

theorem Regular.accept (h : p.Regular) {listening : Bool} (hstage : p.stage = .subscribed listening) :
    p.accept.Regular := by
  refine ⟨?_, fun hno => absurd (stage_accept.trans hstage) (hno listening)⟩
  rw [accepted_accept, List.range_succ]
  have hitems := h.items.append_right [p.accepted]
  unfold Pipeline.accept
  split
  · refine List.Perm.trans ?_ hitems
    simp only [List.append_assoc]
    exact (List.perm_append_comm.append_left p.active).append_left p.delivered
  · simpa only [List.append_assoc] using hitems

/-- The next buffered items go from the buffer to the active ones. -/
theorem underWay_startBuffered (p : Pipeline) :
    p.startBuffered.active ++ p.startBuffered.buffer = p.active ++ p.buffer := by
  unfold startBuffered
  dsimp only
  rw [List.append_assoc, List.take_append_drop]

theorem Regular.settle (h : p.Regular) {item : Nat} (hitem : item ∈ p.active) : (p.settle item).Regular := by
  have hsubscribed : ¬ ∀ listening, p.stage ≠ .subscribed listening := by
    intro hno
    rw [(h.idle hno).1] at hitem
    cases hitem
  refine ⟨?_, fun hno => absurd hno hsubscribed⟩
  unfold Pipeline.settle
  rw [underWay_startBuffered]
  refine List.Perm.trans ?_ h.items
  change ((p.delivered ++ [item]) ++ (p.active.erase item ++ p.buffer)).Perm _
  rw [List.append_assoc, List.singleton_append, ← List.cons_append]
  exact ((List.perm_cons_erase hitem).symm.append_right p.buffer).append_left p.delivered

theorem idle_of_complete (h : p.complete = true) : p.active = [] ∧ p.buffer = [] := by
  unfold complete at h
  rw [Bool.and_eq_true, Bool.and_eq_true, List.isEmpty_iff, List.isEmpty_iff] at h
  exact ⟨h.2, h.1.2⟩

theorem unfinished_close : p.close.unfinished = false := by simp [unfinished, close]

theorem stage_of_finished (h : p.unfinished = false) : p.stage = .finished := by
  simpa [unfinished] using h

@[simp] theorem accepted_cut : p.cut.accepted = p.accepted := by
  unfold cut
  split <;> rfl

theorem cut_not_listening : p.cut.stage ≠ .subscribed true := by
  unfold cut
  split
  · exact nofun
  · assumption

end Pipeline

/-! ## The count -/

namespace DrainableStream

/-- What holds as long as drains find nothing to wait for; `ahead` is the number of pipelines that have
ended and are not counted off yet. -/
structure Sound (ahead : Nat) (s : DrainableStream) : Prop where
  count : s.pendingStreams = (s.pipelines.countP Pipeline.unfinished + ahead : Nat)
  regular : ∀ p ∈ s.pipelines, p.Regular
  deaf : s.shutDown = true → ∀ p ∈ s.pipelines, p.stage ≠ .subscribed true
  grown : ∀ call ∈ s.calls, ∀ i n : Nat, call.accepted[i]? = some n →
    ∃ p : Pipeline, s.pipelines[i]? = some p ∧ n ≤ p.accepted
  finished : ∀ call ∈ s.calls, ∀ pipelines, call.resolvedAt = some pipelines →
    ∀ p ∈ pipelines, p.stage = .finished
  delivered : ∀ call ∈ s.calls, ∀ pipelines, call.resolvedAt = some pipelines →
    ∀ i n item : Nat, call.accepted[i]? = some n → item < n → ∃ p, pipelines[i]? = some p ∧ item ∈ p.delivered

variable {s : DrainableStream} {ahead i : Nat} {p q : Pipeline}

theorem Sound.drainsProperly (h : s.Sound 0) : s.DrainsProperly where
  kept call hcall i n item hn hlt := by
    obtain ⟨p, hp, hle⟩ := h.grown call hcall i n hn
    exact ⟨p, hp, (h.regular p (List.mem_of_getElem? hp)).known (Nat.lt_of_lt_of_le hlt hle)⟩
  finished := h.finished
  delivered := h.delivered

theorem sound_init : Sound 0 {} where
  count := rfl
  regular := nofun
  deaf := nofun
  grown := nofun
  finished := nofun
  delivered := nofun

/-- When all pipelines have finished, everything they accepted is delivered. -/
theorem Sound.all_delivered (h : s.Sound ahead) (hall : ∀ p ∈ s.pipelines, p.stage = .finished) {j n item : Nat}
    (hgrown : ∃ p : Pipeline, s.pipelines[j]? = some p ∧ n ≤ p.accepted) (hlt : item < n) :
    ∃ p : Pipeline, s.pipelines[j]? = some p ∧ item ∈ p.delivered := by
  obtain ⟨p, hp, hle⟩ := hgrown
  have hmem := List.mem_of_getElem? hp
  have hidle := (h.regular p hmem).idle (by rw [hall p hmem]; exact nofun)
  exact ⟨p, hp, (h.regular p hmem).delivered_of_idle hidle (Nat.lt_of_lt_of_le hlt hle)⟩

theorem grown_set (hi : s.pipelines[i]? = some p) (haccepted : p.accepted ≤ q.accepted) {j n : Nat}
    (hgrown : ∃ p : Pipeline, s.pipelines[j]? = some p ∧ n ≤ p.accepted) :
    ∃ p : Pipeline, (s.pipelines.set i q)[j]? = some p ∧ n ≤ p.accepted := by
  obtain ⟨r, hr, hle⟩ := hgrown
  by_cases hij : i = j
  · subst hij
    obtain rfl : p = r := Option.some.inj (hi.symm.trans hr)
    obtain ⟨hlt, -⟩ := List.getElem?_eq_some_iff.mp hi
    exact ⟨q, List.getElem?_set_self hlt, Nat.le_trans hle haccepted⟩
  · exact ⟨r, (List.getElem?_set_ne hij).trans hr, hle⟩

/-- A pipeline goes on: it stays pending, or it has ended and is still to be counted off. -/
theorem Sound.setPipeline (h : s.Sound ahead) (hi : s.pipelines[i]? = some p) (hregular : q.Regular)
    (haccepted : p.accepted ≤ q.accepted) (hdeaf : s.shutDown = true → q.stage ≠ .subscribed true)
    {ahead' : Nat}
    (hcount : q.unfinished.toNat + ahead' = p.unfinished.toNat + ahead) : (s.setPipeline i q).Sound ahead' where
  count := by
    obtain ⟨hlt, hget⟩ := List.getElem?_eq_some_iff.mp hi
    have hmem := List.mem_of_getElem? hi
    have hpos : p.unfinished = true → 0 < s.pipelines.countP Pipeline.unfinished := fun hp =>
      List.countP_pos_iff.mpr ⟨p, hmem, hp⟩
    change s.pendingStreams = ((s.pipelines.set i q).countP Pipeline.unfinished + ahead' : Nat)
    rw [h.count, List.countP_set hlt, hget]
    cases hp : p.unfinished with
    | true =>
        have hsome := hpos hp
        cases hq : q.unfinished <;> rw [hp, hq] at hcount <;> simp at hcount ⊢ <;> omega
    | false => cases hq : q.unfinished <;> rw [hp, hq] at hcount <;> simp at hcount ⊢ <;> omega
  regular := Tasks.forall_set h.regular hregular
  deaf hshut := Tasks.forall_set (h.deaf hshut) (hdeaf hshut)
  grown call hcall j n hn := grown_set hi haccepted (h.grown call hcall j n hn)
  finished := h.finished
  delivered := h.delivered

/-- **The signal.**  It is given when the last pipeline has ended, and then every call may resolve. -/
theorem Sound.finalize (h : s.Sound 1) : s.finalize.Sound 0 := by
  have hcount : s.pendingStreams - 1 = (s.pipelines.countP Pipeline.unfinished + 0 : Nat) := by
    rw [h.count]
    omega
  unfold DrainableStream.finalize
  dsimp only
  split
  next hzero =>
    have hall : ∀ p ∈ s.pipelines, p.stage = .finished := by
      have hnone : s.pipelines.countP Pipeline.unfinished = 0 := by omega
      intro p hp
      exact Pipeline.stage_of_finished (Bool.eq_false_iff.mpr (List.countP_eq_zero.mp hnone p hp))
    refine ⟨hcount, h.regular, h.deaf, ?_, ?_, ?_⟩
    · intro call hcall
      obtain ⟨call, hold, rfl⟩ := List.mem_map.mp hcall
      exact h.grown call hold
    · intro call hcall pipelines hresolved
      obtain ⟨call, hold, rfl⟩ := List.mem_map.mp hcall
      rcases Option.or_eq_some_iff.mp hresolved with hbefore | ⟨-, hnow⟩
      · exact h.finished call hold pipelines hbefore
      · rw [← Option.some.inj hnow]
        exact hall
    · intro call hcall pipelines hresolved j n item hn hlt
      obtain ⟨call, hold, rfl⟩ := List.mem_map.mp hcall
      rcases Option.or_eq_some_iff.mp hresolved with hbefore | ⟨-, hnow⟩
      · exact h.delivered call hold pipelines hbefore j n item hn hlt
      · rw [← Option.some.inj hnow]
        exact h.all_delivered hall (h.grown call hold j n hn) hlt
  next => exact ⟨hcount, h.regular, h.deaf, h.grown, h.finished, h.delivered⟩

/-- A pipeline with nothing under way ends. -/
theorem Sound.endPipeline (h : s.Sound 0) (hi : s.pipelines[i]? = some p) (hpending : p.unfinished = true)
    (hregular : q.Regular) (hidle : q.active = [] ∧ q.buffer = []) (haccepted : p.accepted ≤ q.accepted) :
    (s.endPipeline i q).Sound 0 := by
  refine Sound.finalize (h.setPipeline hi (hregular.close hidle) haccepted (fun _ => nofun) ?_)
  rw [hpending, Pipeline.unfinished_close]
  rfl

/-- A pipeline goes on, or ends. -/
theorem Sound.goOn (h : s.Sound 0) (hi : s.pipelines[i]? = some p) (hregular : q.Regular)
    (haccepted : p.accepted ≤ q.accepted) {listening : Bool} (hp : p.stage = .subscribed listening)
    (hq : q.stage = .subscribed listening) : (s.goOn i q).Sound 0 := by
  have hpending : ∀ {p : Pipeline}, p.stage = .subscribed listening → p.unfinished = true := by
    intro p hp
    unfold Pipeline.unfinished
    rw [hp]
    rfl
  unfold DrainableStream.goOn
  split
  next hcomplete =>
    exact h.endPipeline hi (hpending hp) hregular (Pipeline.idle_of_complete hcomplete) haccepted
  next =>
    refine h.setPipeline hi hregular haccepted (fun hshut => ?_) (by rw [hpending hp, hpending hq])
    rw [hq, ← hp]
    exact h.deaf hshut p (List.mem_of_getElem? hi)

/-! ## The shutdown -/

theorem pipelines_finalize (s : DrainableStream) : s.finalize.pipelines = s.pipelines := by
  unfold DrainableStream.finalize
  dsimp only
  split <;> rfl

/-- A pipeline that listens is cut; any other stays as it is. -/
theorem pipelines_cutAt (s : DrainableStream) (i : Nat) :
    (s.cutAt i).pipelines = s.pipelines.modify i Pipeline.cut := by
  refine List.ext_getElem? fun j => ?_
  rw [List.getElem?_modify]
  unfold cutAt
  cases hi : s.pipelines[i]? with
  | none =>
      dsimp only
      by_cases hij : i = j
      · subst hij
        rw [hi]
        rfl
      · simp [hij]
  | some p =>
      dsimp only
      split
      next hlistens =>
        unfold DrainableStream.endPipeline
        rw [pipelines_finalize]
        change (s.pipelines.set i p.close)[j]? = _
        by_cases hij : i = j
        · subst hij
          obtain ⟨hlt, -⟩ := List.getElem?_eq_some_iff.mp hi
          rw [List.getElem?_set_self hlt, hi]
          simp [Pipeline.cut, hlistens]
        · rw [List.getElem?_set_ne hij]
          simp [hij]
      next hnot =>
        by_cases hij : i = j
        · subst hij
          rw [hi]
          simp [Pipeline.cut, hnot]
        · simp [hij]

theorem pipelines_foldl_cutAt (s : DrainableStream) (n : Nat) :
    ((List.range n).foldl cutAt s).pipelines =
      s.pipelines.mapIdx fun i p => if i < n then p.cut else p := by
  induction n with
  | zero => exact List.ext_getElem? fun j => by simp
  | succ n ih =>
      rw [List.range_succ, List.foldl_append, List.foldl_cons, List.foldl_nil, pipelines_cutAt, ih]
      refine List.ext_getElem? fun j => ?_
      rw [List.getElem?_modify, List.getElem?_mapIdx, List.getElem?_mapIdx]
      cases s.pipelines[j]? with
      | none => rfl
      | some p =>
          by_cases hjn : n = j
          · subst hjn
            simp
          · have hiff : j < n + 1 ↔ j < n := by omega
            simp [hjn, hiff]

theorem pipelines_shutdown (s : DrainableStream) (hshut : s.shutDown = false) :
    s.shutdown.pipelines = s.pipelines.map Pipeline.cut := by
  unfold shutdown
  rw [hshut, if_neg Bool.false_ne_true]
  change ((List.range s.pipelines.length).foldl cutAt s).pipelines = _
  rw [pipelines_foldl_cutAt]
  refine List.ext_getElem? fun j => ?_
  rw [List.getElem?_mapIdx, List.getElem?_map]
  cases hj : s.pipelines[j]? with
  | none => rfl
  | some p =>
      obtain ⟨hlt, -⟩ := List.getElem?_eq_some_iff.mp hj
      simp [hlt]

/-- No pipeline that listens has an item under way. -/
def Quiet (s : DrainableStream) : Prop :=
  ∀ p ∈ s.pipelines, p.stage = .subscribed true → p.active = [] ∧ p.buffer = []

theorem Sound.cutAt (h : s.Sound 0) (hquiet : s.Quiet) (i : Nat) : (s.cutAt i).Sound 0 := by
  unfold DrainableStream.cutAt
  cases hi : s.pipelines[i]? with
  | none => exact h
  | some p =>
      have hmem := List.mem_of_getElem? hi
      dsimp only
      split
      next hlistens =>
        refine h.endPipeline hi ?_ (h.regular p hmem) (hquiet p hmem hlistens) (Nat.le_refl _)
        unfold Pipeline.unfinished
        rw [hlistens]
        rfl
      next => exact h

theorem Quiet.cutAt (h : s.Quiet) (i : Nat) : (s.cutAt i).Quiet := by
  unfold Quiet
  rw [pipelines_cutAt]
  intro p hp hlistens
  obtain ⟨j, hj⟩ := List.mem_iff_getElem?.mp hp
  rw [List.getElem?_modify] at hj
  obtain ⟨q, hq, rfl⟩ := Option.map_eq_some_iff.mp hj
  split at hlistens
  next => exact absurd hlistens Pipeline.cut_not_listening
  next hne =>
    rw [if_neg hne]
    exact h q (List.mem_of_getElem? hq) hlistens

/-- The shutdown gives the signal at most when it has counted off the last pipeline. -/
structure Signals (s s' : DrainableStream) : Prop where
  kept : s.drained = true → s'.drained = true
  given : s'.drained = true → s.drained = true ∨ s'.pendingStreams ≤ 0

theorem Signals.cutAt {s₀ : DrainableStream} (h : Signals s₀ s) (i : Nat) : Signals s₀ (s.cutAt i) := by
  unfold DrainableStream.cutAt
  cases hi : s.pipelines[i]? with
  | none => exact h
  | some p =>
      dsimp only
      split
      next =>
        unfold DrainableStream.endPipeline DrainableStream.finalize DrainableStream.setPipeline
        dsimp only
        split
        next hzero => exact ⟨fun _ => rfl, fun _ => .inr (Int.le_of_eq hzero)⟩
        next =>
          refine ⟨h.kept, fun hdrained => (h.given hdrained).imp_right fun hle => ?_⟩
          change s.pendingStreams - 1 ≤ 0
          omega
      next => exact h

theorem signals_shutdown (s : DrainableStream) : Signals s s.shutdown := by
  unfold shutdown
  split
  next => exact ⟨id, .inl⟩
  next =>
    have hfold : Signals s ((List.range s.pipelines.length).foldl cutAt s) :=
      run_invariant (fun _ i h => h.cutAt i) ⟨id, .inl⟩ _
    exact ⟨hfold.kept, hfold.given⟩

theorem Sound.shutdown (h : s.Sound 0) (hquiet : s.Quiet) : s.shutdown.Sound 0 := by
  cases hshut : s.shutDown with
  | true =>
      have hsame : s.shutdown = s := if_pos hshut
      rwa [hsame]
  | false =>
      have hpipelines := pipelines_shutdown s hshut
      have hfold : ((List.range s.pipelines.length).foldl DrainableStream.cutAt s).Sound 0 :=
        (run_invariant (I := fun s : DrainableStream => s.Sound 0 ∧ s.Quiet)
          (fun _ i h => ⟨h.1.cutAt h.2 i, h.2.cutAt i⟩) ⟨h, hquiet⟩ _).1
      unfold DrainableStream.shutdown at hpipelines ⊢
      rw [hshut, if_neg Bool.false_ne_true] at hpipelines ⊢
      refine ⟨hfold.count, hfold.regular, fun _ p hp => ?_, hfold.grown, hfold.finished, hfold.delivered⟩
      rw [hpipelines] at hp
      obtain ⟨q, -, rfl⟩ := List.mem_map.mp hp
      exact Pipeline.cut_not_listening

/-- A pipeline is no smaller after the shutdown. -/
theorem getElem?_shutdown (s : DrainableStream) {i : Nat} {p : Pipeline} (hi : s.pipelines[i]? = some p) :
    s.shutdown.pipelines[i]? = some p ∧ s.shutDown = true ∨
      s.shutdown.pipelines[i]? = some p.cut ∧ s.shutDown = false := by
  cases hshut : s.shutDown with
  | true =>
      have hsame : s.shutdown = s := if_pos hshut
      rw [hsame]
      exact .inl ⟨hi, rfl⟩
  | false =>
      rw [pipelines_shutdown s hshut, List.getElem?_map, hi]
      exact .inr ⟨rfl, rfl⟩

theorem calls_drain (s : DrainableStream) : s.drain.calls = s.shutdown.calls ++
    [{ accepted := s.pipelines.map Pipeline.accepted
       resolvedAt := if s.shutdown.pendingStreams > 0 ∧ s.shutdown.drained = false then none
        else some s.shutdown.pipelines }] := rfl

/-- **A drain with nothing to wait for.** -/
theorem Sound.drain (h : s.Sound 0) (hnothing : s.NothingToDrain .drain) : s.drain.Sound 0 := by
  obtain ⟨hquiet, hlisten⟩ := hnothing
  have hshut := h.shutdown hquiet
  have hgrown : ∀ i n : Nat, (s.pipelines.map Pipeline.accepted)[i]? = some n →
      ∃ p : Pipeline, s.shutdown.pipelines[i]? = some p ∧ n ≤ p.accepted := by
    intro i n hn
    rw [List.getElem?_map] at hn
    obtain ⟨p, hp, rfl⟩ := Option.map_eq_some_iff.mp hn
    rcases getElem?_shutdown s hp with ⟨hsame, -⟩ | ⟨hcut, -⟩
    · exact ⟨p, hsame, Nat.le_refl _⟩
    · exact ⟨p.cut, hcut, Nat.le_of_eq Pipeline.accepted_cut.symm⟩
  -- a call that resolves at once finds all pipelines finished
  have hresolved : ¬ (s.shutdown.pendingStreams > 0 ∧ s.shutdown.drained = false) →
      ∀ p ∈ s.shutdown.pipelines, p.stage = .finished := by
    intro hno
    by_cases hcount : s.shutdown.pendingStreams > 0
    · have hdrained : s.shutdown.drained = true := by
        cases hd : s.shutdown.drained with
        | true => rfl
        | false => exact absurd ⟨hcount, hd⟩ hno
      have hbefore : s.drained = true := (signals_shutdown s).given hdrained |>.resolve_right (by omega)
      intro p hp
      obtain ⟨j, hj⟩ := List.mem_iff_getElem?.mp hp
      cases hs : s.shutDown with
      | true =>
          have hsame : s.shutdown = s := if_pos hs
          rw [hsame] at hp
          exact (hlisten hbefore p hp).resolve_right (h.deaf hs p hp)
      | false =>
          rw [pipelines_shutdown s hs] at hp
          obtain ⟨q, hq, rfl⟩ := List.mem_map.mp hp
          unfold Pipeline.cut
          split
          next => rfl
          next hnot => exact (hlisten hbefore q hq).resolve_right hnot
    · have hnone : s.shutdown.pipelines.countP Pipeline.unfinished = 0 := by
        have := hshut.count
        omega
      intro p hp
      exact Pipeline.stage_of_finished (Bool.eq_false_iff.mpr (List.countP_eq_zero.mp hnone p hp))
  refine ⟨hshut.count, hshut.regular, hshut.deaf, ?_, ?_, ?_⟩
  · rw [calls_drain]
    exact Tasks.forall_concat hshut.grown hgrown
  · rw [calls_drain]
    refine Tasks.forall_concat hshut.finished fun pipelines heq => ?_
    dsimp only at heq
    split at heq
    next => cases heq
    next hno =>
      rw [← Option.some.inj heq]
      exact hresolved hno
  · rw [calls_drain]
    refine Tasks.forall_concat hshut.delivered fun pipelines heq i n item hn hlt => ?_
    dsimp only at heq
    split at heq
    next => cases heq
    next hno =>
      rw [← Option.some.inj heq]
      exact hshut.all_delivered (hresolved hno) (hgrown i n hn) hlt

/-- **A drain with something to wait for** loses an item, or resolves while a pipeline is pending. -/
theorem Sound.drain_breaks (h : s.Sound 0) (hsome : ¬ s.NothingToDrain .drain) : ¬ s.drain.DrainsProperly := by
  intro hproper
  refine hsome ⟨fun p hp hlistens => ?_, fun hdrained p hp => ?_⟩
  · obtain ⟨i, hi⟩ := List.mem_iff_getElem?.mp hp
    have hregular := h.regular p hp
    have hnone : ∀ item, ¬ (item ∈ p.active ∨ item ∈ p.buffer) := by
      intro item hway
      obtain ⟨hlt, hundelivered⟩ := hregular.underWay hway
      obtain ⟨resolvedAt, hcall⟩ : ∃ resolvedAt,
          (⟨s.pipelines.map Pipeline.accepted, resolvedAt⟩ : DrainCall) ∈ s.drain.calls := by
        rw [calls_drain]
        exact ⟨_, List.mem_append_right _ (.head _)⟩
      obtain ⟨q, hq, hkept⟩ := hproper.kept _ hcall i p.accepted item (by simp [hi]) hlt
      change s.shutdown.pipelines[i]? = some q at hq
      rcases getElem?_shutdown s hi with ⟨-, hshut⟩ | ⟨hcut, -⟩
      · exact h.deaf hshut p hp hlistens
      · obtain rfl : p.cut = q := Option.some.inj (hcut.symm.trans hq)
        unfold Pipeline.cut at hkept
        rw [if_pos hlistens] at hkept
        rcases hkept with hdelivered | hactive | hbuffer
        · exact hundelivered hdelivered
        · cases hactive
        · cases hbuffer
    exact ⟨List.eq_nil_iff_forall_not_mem.mpr fun item hmem => hnone item (.inl hmem),
      List.eq_nil_iff_forall_not_mem.mpr fun item hmem => hnone item (.inr hmem)⟩
  · have hsignal := (signals_shutdown s).kept hdrained
    have hcall : (⟨s.pipelines.map Pipeline.accepted, some s.shutdown.pipelines⟩ : DrainCall) ∈
        s.drain.calls := by
      rw [calls_drain, if_neg fun hno => Bool.false_ne_true (hno.2.symm.trans hsignal)]
      exact List.mem_append_right _ (.head _)
    have hall := hproper.finished _ hcall _ rfl
    obtain ⟨i, hi⟩ := List.mem_iff_getElem?.mp hp
    rcases getElem?_shutdown s hi with ⟨hsame, -⟩ | ⟨hcut, -⟩
    · exact .inl (hall p (List.mem_of_getElem? hsame))
    · have hfinished := hall _ (List.mem_of_getElem? hcut)
      unfold Pipeline.cut at hfinished
      split at hfinished
      next hlistens => exact .inr hlistens
      next => exact .inl hfinished

/-! ## Runs -/

/-- A new pipeline is pending, and no `drain()` has seen it. -/
theorem Sound.create (h : s.Sound 0) (concurrent : Option Nat) : (s.step (.create concurrent)).Sound 0 := by
  refine ⟨?_, Tasks.forall_concat h.regular (Pipeline.regular_new concurrent),
    fun hshut => Tasks.forall_concat (h.deaf hshut) nofun, ?_, h.finished, h.delivered⟩
  · change s.pendingStreams + 1 = _
    rw [h.count]
    simp [DrainableStream.step, List.countP_append, Pipeline.unfinished]
  · intro call hcall i n hn
    obtain ⟨p, hp, hle⟩ := h.grown call hcall i n hn
    exact ⟨p, (List.getElem?_append_left (List.getElem?_eq_some_iff.mp hp).1).trans hp, hle⟩

/-- A subscribed pipeline stays pending. -/
theorem Sound.subscribe (h : s.Sound 0) (i : Nat) : (s.step (.subscribe i)).Sound 0 := by
  unfold DrainableStream.step
  dsimp only
  cases hi : s.pipelines[i]? with
  | none => exact h
  | some p =>
      dsimp only
      split
      next hcreated =>
        refine h.setPipeline hi ((h.regular p (List.mem_of_getElem? hi)).subscribe _) (Nat.le_refl _)
          (fun hshut heq => ?_) ?_
        · rw [hshut] at heq
          cases heq
        · have hp : p.unfinished = true := by simp [Pipeline.unfinished, hcreated]
          rw [hp]
          rfl
      next => exact h

/-- An item is taken in only while the pipeline listens. -/
theorem Sound.accept (h : s.Sound 0) (i : Nat) : (s.step (.accept i)).Sound 0 := by
  unfold DrainableStream.step
  dsimp only
  cases hi : s.pipelines[i]? with
  | none => exact h
  | some p =>
      have hmem := List.mem_of_getElem? hi
      dsimp only
      split
      next listening hstage =>
        split
        next => exact h
        next =>
          refine h.setPipeline hi ((h.regular p hmem).accept hstage) ?_ (fun hshut => ?_) ?_
          · rw [Pipeline.accepted_accept]
            exact Nat.le_succ _
          · rw [Pipeline.stage_accept]
            exact h.deaf hshut p hmem
          · unfold Pipeline.unfinished
            rw [Pipeline.stage_accept]
      next => exact h

/-- A delivered item makes room for the next one, or ends the pipeline. -/
theorem Sound.settle (h : s.Sound 0) (i item : Nat) : (s.step (.settle i item)).Sound 0 := by
  unfold DrainableStream.step
  dsimp only
  cases hi : s.pipelines[i]? with
  | none => exact h
  | some p =>
      have hregular := h.regular p (List.mem_of_getElem? hi)
      dsimp only
      split
      next hactive =>
        obtain ⟨listening, hstage⟩ : ∃ listening, p.stage = .subscribed listening := by
          by_contra hno
          have hidle := hregular.idle fun listening heq => hno ⟨listening, heq⟩
          rw [hidle.1] at hactive
          cases hactive
        exact h.goOn hi (hregular.settle hactive) (Nat.le_refl _) hstage hstage
      next => exact h

/-- Without items the end of the source ends the pipeline. -/
theorem Sound.sourceComplete (h : s.Sound 0) (i : Nat) : (s.step (.sourceComplete i)).Sound 0 := by
  unfold DrainableStream.step
  dsimp only
  cases hi : s.pipelines[i]? with
  | none => exact h
  | some p =>
      dsimp only
      split
      next listening hstage =>
        exact h.goOn hi (h.regular p (List.mem_of_getElem? hi)).sourceDone (Nat.le_refl _) hstage hstage
      next => exact h

/-- **One input.** -/
theorem Sound.step (h : s.Sound 0) {input : StreamInput} (hnothing : s.NothingToDrain input) :
    (s.step input).Sound 0 := by
  cases input with
  | create concurrent => exact h.create concurrent
  | subscribe i => exact h.subscribe i
  | accept i => exact h.accept i
  | settle i item => exact h.settle i item
  | sourceComplete i => exact h.sourceComplete i
  | drain => exact h.drain hnothing

/-- **Drain finishes buffered work**, in every state of a run, exactly when every `drain()` finds no item
under way in a pipeline that listens and, once the signal has been given, no pending pipeline that does not
listen. -/
theorem drains_iff (inputs : List StreamInput) :
    (∀ s, Reaches step {} inputs s → s.DrainsProperly) ↔ Along step NothingToDrain {} inputs := by
  refine Along.iff_forall_reaches (fun s h => h.drainsProperly) (fun s i h hnothing => h.step hnothing)
    (fun s i h hsome => ?_) sound_init inputs
  cases i with
  | drain => exact h.drain_breaks hsome
  | create _ | subscribe _ | accept _ | settle _ _ | sourceComplete _ => exact absurd trivial hsome

/-- One item in a `concatMap` when `drain()` is called: it is lost. -/
theorem not_drains_underWay :
    ¬ ∀ (inputs : List StreamInput) (s : DrainableStream), Reaches step {} inputs s → s.DrainsProperly := by
  intro h
  have hproper := h [.create (some 1), .subscribe 0, .accept 0, .drain] _ (reaches_run _ _ _)
  obtain ⟨p, hp, hkept⟩ := hproper.kept _ (.head _) 0 1 0 rfl Nat.one_pos
  obtain rfl := Option.some.inj hp
  rcases hkept with hmem | hmem | hmem <;> cases hmem

end DrainableStream

end NestAmqp.Broker
