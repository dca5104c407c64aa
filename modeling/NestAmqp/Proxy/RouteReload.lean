/-
# NestAmqp.Proxy.RouteReload — rebuilding the gateway's route table.

`HttpHandlerService.reload` coalesces reload signals with two flags: while one call runs its loop, every
other call sets `reloadPending` and returns, and the loop makes one more pass for all of them.  A pass
(`doReload`) pulls the stored paths, builds a router from nothing and swaps it in.

A call is between two of its asynchronous operations, and an input lets one call go on or makes a new one,
so a run is an interleaving.  The times of calls and passes are kept beside the state; no step looks at
them.
-/
import NestAmqp.Lib.Machine
import NestAmqp.Lib.Tasks
import NestAmqp.Proxy.HttpAuthHandler

namespace NestAmqp.Proxy

open NestAmqp.Js
open NestAmqp.Lib NestAmqp.Lib.Machine

/-! ## The router -/

/-- The part of the gateway's configuration that `doReload` reads, and whether Express takes a route:
`router[method](path, …)` throws when the router has no such method or cannot parse the path. -/
structure RouteConfig where
  paths : List PathDefinition := []
  /-- `loadConfig.paths` is set. -/
  loadsPaths : Bool := true
  /-- `findProvider(name)` finds an auth provider. -/
  findsProvider : String → Bool := fun _ => true
  express : String → String → Except Thrown Unit := fun _ _ => .ok ()

/-- `new Error(message)`. -/
def pathError (message : String) : Thrown := .error { name := "Error", message }

/-- The lines that `registerPath` logs: about actions without an auth provider, and about a provider that is
not there.  Either prints the path's name or path. -/
def registerLines (config : RouteConfig) (path : PathDefinition) : Except Thrown Unit :=
  if (path.actions.any OneOrMany.nonEmpty && !truthyText path.auth) ||
      (truthyText path.auth && !path.auth.any config.findsProvider) then
    (printed path.label).map fun _ => ()
  else .ok ()

/-- `registerPath(path, router)`, for a router given by its routes in their order. -/
def registerPath (config : RouteConfig) (path : PathDefinition) (router : List PathDefinition) :
    Except Thrown (List PathDefinition) :=
  if path.method = "" then .error (pathError "Method is required for path definition")
  else if path.path = "" then .error (pathError "Path is required for path definition")
  else if path.topic = "" then .error (pathError "Topic is required for path definition")
  else if path.mode = .other "" then .error (pathError "Mode is required for path definition")
  else do
    -- the lines name the path, so one whose name does not print is refused
    registerLines config path
    (config.express (toLowerCase path.method) path.path).map fun _ => router ++ [path]

/-- One pass of the loop over the paths: a path that cannot be registered is skipped. -/
def registerNext (config : RouteConfig) (built : List PathDefinition × Nat) (path : PathDefinition) :
    List PathDefinition × Nat :=
  match registerPath config path built.1 with
  | .ok router => (router, built.2 + 1)
  | .error _ => built

/-- What a pull of the stored paths ends in: a failure, or a reply, which may be no list. -/
abbrev PulledPaths := Except Thrown (Option (List PathDefinition))

/-- `extPath`. -/
def extPath : PulledPaths → List PathDefinition
  | .ok (some paths) => paths
  | .ok none | .error _ => []

/-- The router that a pass builds when it ends, with the number of its routes. -/
def buildRouter (config : RouteConfig) (pulled : PulledPaths) : List PathDefinition × Nat :=
  (config.paths ++ extPath pulled).foldl (registerNext config) ([], 0)

/-- The line about a failed pull prints the error's message. -/
def pullLine : PulledPaths → Except Thrown Unit
  | .error error => (printed (error.prop "message")).map fun _ => ()
  | .ok _ => .ok ()

/-- The line about a path that is skipped prints its name or path, and the error's message.  No `try` is
around it. -/
def skipLine (path : PathDefinition) (error : Thrown) : Except Thrown Unit := do
  let _ ← printed path.label
  let _ ← printed (error.prop "message")
  return ()

/-- One pass of the loop, with the line behind it. -/
def registerLogged (config : RouteConfig) (built : List PathDefinition × Nat) (path : PathDefinition) :
    Except Thrown (List PathDefinition × Nat) :=
  match registerPath config path built.1 with
  | .ok router => .ok (router, built.2 + 1)
  | .error error => (skipLine path error).map fun _ => built

/-- `doReload`, from the answer to its pull: the router with the number of its routes, unless a line cannot be
printed. -/
def doReload (config : RouteConfig) (pulled : PulledPaths) : Except Thrown (List PathDefinition × Nat) := do
  pullLine pulled
  (config.paths ++ extPath pulled).foldlM (registerLogged config) ([], 0)

/-- Every line of a pass prints. -/
structure LinesPrint (config : RouteConfig) (pulled : PulledPaths) : Prop where
  pull : (pullLine pulled).isOk = true
  paths : ∀ path ∈ config.paths ++ extPath pulled, ∀ error, registerPath config path [] = .error error →
    (skipLine path error).isOk = true

section Passes

variable {config : RouteConfig} {path : PathDefinition} {pulled : PulledPaths}

/-- Whether a path can be registered does not turn on what the router has. -/
theorem registerPath_error {router : List PathDefinition} {error : Thrown} :
    registerPath config path router = .error error ↔ registerPath config path [] = .error error := by
  unfold registerPath
  split
  · exact Iff.rfl
  split
  · exact Iff.rfl
  split
  · exact Iff.rfl
  split
  · exact Iff.rfl
  · cases registerLines config path with
    | error e => exact Iff.rfl
    | ok _ =>
        cases config.express (toLowerCase path.method) path.path with
        | error e => exact Iff.rfl
        | ok _ => exact iff_of_false nofun nofun

/-- A pass that ends has built its router. -/
theorem registerLogged_ok {built next : List PathDefinition × Nat} :
    registerLogged config built path = .ok next ↔ next = registerNext config built path ∧
      ∀ error, registerPath config path [] = .error error → (skipLine path error).isOk = true := by
  unfold registerLogged registerNext
  cases hpath : registerPath config path built.1 with
  | ok router =>
      have hnone (error : Thrown) : registerPath config path [] ≠ .error error := by
        intro herror
        rw [registerPath_error.mpr herror] at hpath
        cases hpath
      constructor
      · intro h
        exact ⟨(Except.ok.inj h).symm, fun error herror => absurd herror (hnone error)⟩
      · exact fun h => congrArg Except.ok h.1.symm
  | error error =>
      rw [registerPath_error] at hpath
      dsimp only
      cases hline : skipLine path error with
      | error e =>
          refine iff_of_false nofun fun h => ?_
          have hok := h.2 error hpath
          rw [hline] at hok
          cases hok
      | ok _ =>
          constructor
          · intro h
            refine ⟨(Except.ok.inj h).symm, fun error' herror' => ?_⟩
            rw [hpath] at herror'
            rw [← Except.error.inj herror', hline]
            rfl
          · exact fun h => congrArg Except.ok h.1.symm

/-- **A pass ends exactly when its lines print**, and then with the router it builds. -/
theorem doReload_ok {built : List PathDefinition × Nat} :
    doReload config pulled = .ok built ↔ built = buildRouter config pulled ∧ LinesPrint config pulled := by
  -- the loop comes through exactly when every refused path has a line that prints
  have hfold : ∀ (paths : List PathDefinition) (start : List PathDefinition × Nat),
      paths.foldlM (registerLogged config) start = .ok built ↔ built = paths.foldl (registerNext config) start ∧
        ∀ path ∈ paths, ∀ error, registerPath config path [] = .error error →
          (skipLine path error).isOk = true := by
    intro paths
    induction paths with
    | nil =>
        intro start
        rw [List.foldlM_nil, List.foldl_nil]
        constructor
        · intro h
          exact ⟨(Except.ok.inj h).symm, fun path hpath => absurd hpath List.not_mem_nil⟩
        · intro h
          rw [h.1]
          rfl
    | cons path paths ih =>
        intro start
        rw [List.foldlM_cons, List.foldl_cons, List.forall_mem_cons]
        constructor
        · intro h
          obtain ⟨next, hnext, hrest⟩ := bind_eq_ok.mp h
          obtain ⟨rfl, hhead⟩ := registerLogged_ok.mp hnext
          obtain ⟨hbuilt, htail⟩ := (ih _).mp hrest
          exact ⟨hbuilt, hhead, htail⟩
        · intro h
          exact bind_eq_ok.mpr ⟨_, registerLogged_ok.mpr ⟨rfl, h.2.1⟩, (ih _).mpr ⟨h.1, h.2.2⟩⟩
  unfold doReload buildRouter
  cases hpull : pullLine pulled with
  | error e =>
      refine iff_of_false nofun fun h => ?_
      have hok := h.2.pull
      rw [hpull] at hok
      cases hok
  | ok _ =>
      refine (hfold _ _).trans ⟨fun h => ⟨h.1, ?_, h.2⟩, fun h => ⟨h.1, h.2.paths⟩⟩
      rw [hpull]
      rfl

end Passes

/-! ## Calls -/

/-- Where a call of `reload` is. -/
inductive ReloadStage where
  /-- In `doReload`, which waits for the stored paths. -/
  | pulling
  /-- Behind `await this.doReload()`, which has returned this many routes or rejected. -/
  | reloaded (routes : Except Thrown Nat)
  | settled (result : Except Thrown Int)

/-- One call, with the time its latest pass started. -/
structure ReloadCall where
  stage : ReloadStage
  passStartedAt : Nat := 0

/-- A pass of `doReload` that has swapped its router in. -/
structure ReloadPass where
  startedAt : Nat
  endedAt : Nat
  pulled : PulledPaths

/-- The service's fields that a reload reads and writes, and its calls.  `now` counts the inputs. -/
structure RouteReload where
  reloadInFlight : Bool := false
  reloadPending : Bool := false
  dynamicRouter : Option (List PathDefinition) := none
  calls : List ReloadCall := []
  now : Nat := 0
  calledAt : List Nat := []
  passes : List ReloadPass := []

/-- A call of `reload`, the end of the pull that a call waits for, or the continuation of the loop. -/
inductive ReloadInput where
  | reload
  | pulled (call : Nat) (answer : PulledPaths)
  | resume (call : Nat)

namespace RouteReload

variable (config : RouteConfig) (s : RouteReload)

/-- The end of `doReload`: the router is swapped in, unless the pass has failed. -/
def endPass (startedAt : Nat) (pulled : PulledPaths) : RouteReload × ReloadCall :=
  match doReload config pulled with
  | .ok built =>
      ({ s with
          dynamicRouter := some built.1
          passes := s.passes ++ [{ startedAt, endedAt := s.now, pulled }] },
        { stage := .reloaded (.ok built.2), passStartedAt := startedAt })
  | .error error => (s, { stage := .reloaded (.error error), passStartedAt := startedAt })

/-- The loop's body up to its `await`: the flag is cleared and a pass starts.  Without a source of stored
paths the pass is over at once. -/
def startPass : RouteReload × ReloadCall :=
  let cleared := { s with reloadPending := false }
  if config.loadsPaths then (cleared, { stage := .pulling, passStartedAt := s.now })
  else cleared.endPass config s.now (.ok none)

/-- A call is made. -/
def called : RouteReload := { s with calledAt := s.calledAt ++ [s.now] }

/-- `reload()`, up to its first `await`. -/
def reload : RouteReload :=
  if s.reloadInFlight then
    { s.called with
      reloadPending := true
      calls := s.calls ++ [{ stage := .settled (.ok (-1)) }] }
  else
    let started := { s.called with reloadInFlight := true }.startPass config
    { started.1 with calls := s.calls ++ [started.2] }

/-- The call settles, through the loop's `finally`. -/
def settle (i : Nat) (result : Except Thrown Int) : RouteReload :=
  { s with
    reloadInFlight := false
    calls := s.calls.set i { stage := .settled result } }

/-- The continuation of a call behind `await this.doReload()`: one more pass, or the end. -/
def continueLoop (i : Nat) : Except Thrown Nat → RouteReload
  | .ok routes =>
      if s.reloadPending then
        let started := s.startPass config
        { started.1 with calls := s.calls.set i started.2 }
      else s.settle i (.ok routes)
  | .error error => s.settle i (.error error)

/-- One input; one that no call waits for changes nothing. -/
def act : ReloadInput → RouteReload
  | .reload => s.reload config
  | .pulled i answer =>
      match s.calls[i]? with
      | some ⟨.pulling, startedAt⟩ =>
          let ended := s.endPass config startedAt answer
          { ended.1 with calls := s.calls.set i ended.2 }
      | _ => s
  | .resume i =>
      match s.calls[i]? with
      | some ⟨.reloaded routes, _⟩ => s.continueLoop config i routes
      | _ => s

/-- One input, and the clock. -/
def step (i : ReloadInput) : RouteReload := { s.act config i with now := s.now + 1 }

end RouteReload

/-! ## Passes -/

/-- The call has not settled. -/
def ReloadCall.Active (call : ReloadCall) : Prop := ∀ result, call.stage ≠ .settled result

/-- A pass of `doReload` is under way in the call. -/
def ReloadCall.Passing (call : ReloadCall) : Prop := call.stage = .pulling

theorem ReloadCall.Passing.active {call : ReloadCall} (h : call.Passing) : call.Active := by
  intro result hstage
  rw [h] at hstage
  cases hstage

theorem ReloadCall.not_active {call : ReloadCall} {result : Except Thrown Int} (h : call.stage = .settled result) :
    ¬ call.Active := fun hactive => hactive result h

/-- The call's pass has not failed. -/
def ReloadCall.Unfailed (call : ReloadCall) : Prop := ∀ error, call.stage ≠ .reloaded (.error error)

/-- The active router is the one its last pass built, from what that pass pulled. -/
def RouteReload.Complete (config : RouteConfig) (s : RouteReload) : Prop :=
  s.dynamicRouter = s.passes.getLast?.map fun p => (buildRouter config p.pulled).1

/-- The last completed pass started at this time. -/
def RouteReload.PassedAt (s : RouteReload) (startedAt : Nat) : Prop :=
  ∃ p, s.passes.getLast? = some p ∧ p.startedAt = startedAt

/-- The last completed pass started at the time of every call, or later. -/
def RouteReload.Fresh (s : RouteReload) : Prop :=
  ∀ t ∈ s.calledAt, ∃ p, s.passes.getLast? = some p ∧ t ≤ p.startedAt

/-- The completed passes come one after the other. -/
def RouteReload.Apart (s : RouteReload) : Prop :=
  s.passes.Pairwise (fun p q => p.endedAt ≤ q.startedAt) ∧ ∀ p ∈ s.passes, p.endedAt ≤ s.now

namespace RouteReload

variable {config : RouteConfig} {s : RouteReload}

/-- The router that a pass built is swapped in. -/
def swap (config : RouteConfig) (s : RouteReload) (startedAt : Nat) (pulled : PulledPaths) : RouteReload :=
  { s with
    dynamicRouter := some (buildRouter config pulled).1
    passes := s.passes ++ [{ startedAt, endedAt := s.now, pulled }] }

/-- A pass whose lines print swaps its router in. -/
theorem endPass_of_linesPrint {pulled : PulledPaths} (h : LinesPrint config pulled) (startedAt : Nat) :
    s.endPass config startedAt pulled =
      (s.swap config startedAt pulled,
        { stage := .reloaded (.ok (buildRouter config pulled).2), passStartedAt := startedAt }) := by
  unfold endPass
  rw [doReload_ok.mpr ⟨rfl, h⟩]
  rfl

theorem complete_swap (startedAt : Nat) (pulled : PulledPaths) :
    (s.swap config startedAt pulled).Complete config := by
  unfold Complete swap
  dsimp only
  rw [List.getLast?_concat]
  rfl

theorem passedAt_swap (config : RouteConfig) (s : RouteReload) (startedAt : Nat) (pulled : PulledPaths) :
    (s.swap config startedAt pulled).PassedAt startedAt :=
  ⟨_, List.getLast?_concat, rfl⟩

theorem Apart.swap (config : RouteConfig) (h : s.Apart) {startedAt : Nat}
    (hbefore : ∀ p ∈ s.passes, p.endedAt ≤ startedAt)
    (pulled : PulledPaths) : (s.swap config startedAt pulled).Apart := by
  refine ⟨List.pairwise_append.mpr ⟨h.1, List.pairwise_singleton _ _, ?_⟩, ?_⟩
  · intro p hp q hq
    rw [List.mem_singleton.mp hq]
    exact hbefore p hp
  · intro p hp
    rcases List.mem_append.mp hp with hp | hp
    · exact h.2 p hp
    · rw [List.mem_singleton.mp hp]
      exact Nat.le_refl _

/-- What the start of a pass leaves behind, whether the pass waits or is over at once. -/
structure Starts (config : RouteConfig) (s s' : RouteReload) (call : ReloadCall) : Prop where
  inFlight : s'.reloadInFlight = s.reloadInFlight
  calls : s'.calls = s.calls
  calledAt : s'.calledAt = s.calledAt
  now : s'.now = s.now
  startedAt : call.passStartedAt = s.now
  active : call.Active
  unfailed : call.Unfailed
  passed : ¬ call.Passing → s'.PassedAt s.now
  complete : s.Complete config → s'.Complete config
  apart : s.Apart → s'.Apart
  before : s.Apart → call.Passing → ∀ p ∈ s'.passes, p.endedAt ≤ s.now

/-- Without a source of stored paths, a pass prints its lines. -/
def YamlPrints (config : RouteConfig) : Prop := config.loadsPaths = false → LinesPrint config (.ok none)

theorem startPass_spec (hyaml : YamlPrints config) (s : RouteReload) :
    Starts config s (s.startPass config).1 (s.startPass config).2 := by
  unfold startPass
  split
  next =>
    refine ⟨rfl, rfl, rfl, rfl, rfl, nofun, nofun, ?_, fun h => h, fun h => h, fun h _ => h.2⟩
    exact fun hnot => absurd rfl hnot
  next hloads =>
    rw [endPass_of_linesPrint (hyaml (Bool.eq_false_iff.mpr hloads))]
    refine ⟨rfl, rfl, rfl, rfl, rfl, nofun, nofun, ?_, fun _ => complete_swap _ _, fun h => h.swap config h.2 _,
      nofun⟩
    exact fun _ => passedAt_swap config _ _ _

end RouteReload

/-! ## The invariant -/

/-- Either nobody reloads and the router is fresh, or exactly one call does, and every signal since its
pass started is pending. -/
inductive ReloadLoop (s : RouteReload) : Prop
  | idle (hflag : s.reloadInFlight = false) (hcalls : ∀ c ∈ s.calls, ¬ c.Active) (hfresh : s.Fresh)
  | looping (hflag : s.reloadInFlight = true) (i : Nat) (c : ReloadCall) (hcall : s.calls[i]? = some c)
      (hactive : c.Active) (hunfailed : c.Unfailed) (hothers : ∀ j d, s.calls[j]? = some d → d.Active → j = i)
      (hserved : ∀ t ∈ s.calledAt, t ≤ c.passStartedAt ∨ s.reloadPending = true)
      (hpassed : ¬ c.Passing → s.PassedAt c.passStartedAt)
      (hbefore : c.Passing → ∀ p ∈ s.passes, p.endedAt ≤ c.passStartedAt)

/-- What holds after any inputs. -/
structure Reloading (config : RouteConfig) (s : RouteReload) : Prop where
  loop : ReloadLoop s
  clock : ∀ t ∈ s.calledAt, t ≤ s.now
  complete : s.Complete config
  apart : s.Apart

section Steps

variable {config : RouteConfig} {s s' : RouteReload} {call : ReloadCall}

theorem Reloading.start : Reloading config {} where
  loop := .idle rfl nofun nofun
  clock := nofun
  complete := rfl
  apart := ⟨.nil, nofun⟩

/-- The clock goes on. -/
theorem Reloading.tick (h : Reloading config s) : Reloading config { s with now := s.now + 1 } := by
  refine ⟨?_, fun t ht => Nat.le_succ_of_le (h.clock t ht), h.complete, h.apart.1,
    fun p hp => Nat.le_succ_of_le (h.apart.2 p hp)⟩
  cases h.loop with
  | idle hflag hcalls hfresh => exact .idle hflag hcalls hfresh
  | looping hflag i c hcall hactive hunfailed hothers hserved hpassed hbefore =>
      exact .looping hflag i c hcall hactive hunfailed hothers hserved hpassed hbefore

/-- A pass that a call starts, when no other call is active. -/
theorem ReloadLoop.of_starts (hstarts : RouteReload.Starts config s s' call) (hflag : s.reloadInFlight = true)
    (hclock : ∀ t ∈ s.calledAt, t ≤ s.now) (hapart : s.Apart) {calls : List ReloadCall} {i : Nat}
    (hcall : calls[i]? = some call)
    (hothers : ∀ j d, calls[j]? = some d → d.Active → j = i) : ReloadLoop { s' with calls } := by
  refine .looping (hstarts.inFlight.trans hflag) i call hcall hstarts.active hstarts.unfailed hothers ?_ ?_ ?_
  · intro t ht
    left
    rw [hstarts.startedAt]
    exact hclock t (hstarts.calledAt ▸ ht)
  · intro hnot
    rw [hstarts.startedAt]
    exact hstarts.passed hnot
  · intro hpassing
    rw [hstarts.startedAt]
    exact hstarts.before hapart hpassing

/-- A call. -/
theorem Reloading.reload (h : Reloading config s)
    (hyaml : s.reloadInFlight = false → RouteReload.YamlPrints config) :
    Reloading config (s.reload config) := by
  have hclock : ∀ t ∈ s.calledAt ++ [s.now], t ≤ s.now := by
    intro t ht
    rcases List.mem_append.mp ht with ht | ht
    · exact h.clock t ht
    · exact Nat.le_of_eq (List.mem_singleton.mp ht)
  unfold RouteReload.reload
  cases h.loop with
  | looping hflag i c hcall hactive hunfailed hothers hserved hpassed hbefore =>
      rw [if_pos hflag]
      have hlt : i < s.calls.length := (List.getElem?_eq_some_iff.mp hcall).1
      refine ⟨.looping hflag i c ?_ hactive hunfailed ?_ (fun _ _ => .inr rfl) hpassed hbefore, hclock,
        h.complete, h.apart⟩
      · rw [← hcall]
        exact List.getElem?_append_left hlt
      · intro j d hd hdactive
        rcases Nat.lt_or_ge j s.calls.length with hj | hj
        · exact hothers j d (by rwa [List.getElem?_append_left hj] at hd) hdactive
        · -- the new call has settled
          rw [List.getElem?_append_right hj] at hd
          have hmem := List.mem_singleton.mp (List.mem_of_getElem? hd)
          exact absurd hdactive (hmem ▸ ReloadCall.not_active rfl)
  | idle hflag hcalls hfresh =>
      rw [if_neg (by rw [hflag]; exact Bool.false_ne_true)]
      have hstarts := RouteReload.startPass_spec (hyaml hflag) { s.called with reloadInFlight := true }
      refine ⟨ReloadLoop.of_starts hstarts rfl hclock h.apart List.getElem?_concat_length ?_, ?_,
        hstarts.complete h.complete, hstarts.apart h.apart⟩
      · intro j d hd hdactive
        rcases Nat.lt_trichotomy j s.calls.length with hj | hj | hj
        · rw [List.getElem?_append_left hj] at hd
          exact absurd hdactive (hcalls d (List.mem_of_getElem? hd))
        · exact hj
        · rw [List.getElem?_append_right (Nat.le_of_lt hj)] at hd
          have hbound := (List.getElem?_eq_some_iff.mp hd).1
          rw [List.length_singleton] at hbound
          omega
      · intro t ht
        rw [hstarts.now]
        rw [hstarts.calledAt] at ht
        exact hclock t ht

/-- The end of a pull. -/
theorem Reloading.pulled (h : Reloading config s) {i startedAt : Nat} {answer : PulledPaths}
    (hcall : s.calls[i]? = some ⟨.pulling, startedAt⟩) (hlines : LinesPrint config answer) :
    Reloading config { (s.endPass config startedAt answer).1 with
      calls := s.calls.set i (s.endPass config startedAt answer).2 } := by
  rw [RouteReload.endPass_of_linesPrint hlines]
  have hpassing : (⟨.pulling, startedAt⟩ : ReloadCall).Passing := rfl
  cases h.loop with
  | idle hflag hcalls hfresh => exact absurd hpassing.active (hcalls _ (List.mem_of_getElem? hcall))
  | looping hflag j c hcall' hactive hunfailed hothers hserved hpassed hbefore =>
      obtain rfl := hothers i _ hcall hpassing.active
      rw [hcall] at hcall'
      obtain rfl := Option.some.inj hcall'
      have hlt : i < s.calls.length := (List.getElem?_eq_some_iff.mp hcall).1
      refine ⟨?_, h.clock, RouteReload.complete_swap startedAt answer, h.apart.swap config (hbefore rfl) answer⟩
      refine .looping hflag i _ (List.getElem?_set_self hlt) nofun nofun ?_ hserved ?_ nofun
      · intro k d hd hdactive
        by_contra hne
        rw [List.getElem?_set_ne (Ne.symm hne)] at hd
        exact hne (hothers k d hd hdactive)
      · exact fun _ => RouteReload.passedAt_swap config s startedAt answer

/-- The loop goes on, or ends. -/
theorem Reloading.continueLoop (h : Reloading config s) {i startedAt : Nat} {routes : Except Thrown Nat}
    (hcall : s.calls[i]? = some ⟨.reloaded routes, startedAt⟩)
    (hyaml : s.reloadPending = true → RouteReload.YamlPrints config) :
    Reloading config (s.continueLoop config i routes) := by
  have hlt : i < s.calls.length := (List.getElem?_eq_some_iff.mp hcall).1
  have hactive : (⟨.reloaded routes, startedAt⟩ : ReloadCall).Active := nofun
  cases h.loop with
  | idle hflag hcalls hfresh => exact absurd hactive (hcalls _ (List.mem_of_getElem? hcall))
  | looping hflag j c hcall' _ hunfailed hothers hserved hpassed hbefore =>
      obtain rfl := hothers i _ hcall hactive
      rw [hcall] at hcall'
      obtain rfl := Option.some.inj hcall'
      have hrest : ∀ new k d, (s.calls.set i new)[k]? = some d → d.Active → k ≠ i → False := by
        intro new k d hd hdactive hne
        rw [List.getElem?_set_ne (Ne.symm hne)] at hd
        exact hne (hothers k d hd hdactive)
      obtain ⟨routes, rfl⟩ : ∃ n, routes = .ok n := by
        cases routes with
        | ok n => exact ⟨n, rfl⟩
        | error error => exact absurd rfl (hunfailed error)
      unfold RouteReload.continueLoop
      dsimp only
      split
      next hpending =>
        -- a signal came since the pass started
        have hstarts := RouteReload.startPass_spec (hyaml hpending) s
        refine ⟨ReloadLoop.of_starts hstarts hflag h.clock h.apart (List.getElem?_set_self hlt) ?_, ?_,
          hstarts.complete h.complete, hstarts.apart h.apart⟩
        · exact fun k d hd hdactive => by_contra (hrest _ k d hd hdactive)
        · intro t ht
          rw [hstarts.now]
          exact h.clock t (hstarts.calledAt ▸ ht)
      next hnone =>
        obtain ⟨p, hlast, hstarted⟩ := hpassed nofun
        refine ⟨.idle rfl ?_ ?_, h.clock, h.complete, h.apart⟩
        · intro d hd hdactive
          obtain ⟨k, hk⟩ := List.mem_iff_getElem?.mp hd
          unfold RouteReload.settle at hk
          by_cases hki : k = i
          · subst hki
            rw [List.getElem?_set_self hlt] at hk
            exact ReloadCall.not_active rfl (Option.some.inj hk ▸ hdactive)
          · exact hrest _ k d hk hdactive hki
        · intro t ht
          exact ⟨p, hlast, hstarted ▸ (hserved t ht).resolve_right hnone⟩

/-- The pass that an input starts or ends, if it does, prints its lines. -/
def RouteReload.PassPrints (config : RouteConfig) (s : RouteReload) : ReloadInput → Prop
  | .reload => s.reloadInFlight = false → RouteReload.YamlPrints config
  | .pulled i answer => ∀ startedAt, s.calls[i]? = some ⟨.pulling, startedAt⟩ → LinesPrint config answer
  | .resume _ => s.reloadPending = true → RouteReload.YamlPrints config

theorem RouteReload.endPass_now (config : RouteConfig) (s : RouteReload) (startedAt : Nat)
    (pulled : PulledPaths) : (s.endPass config startedAt pulled).1.now = s.now := by
  unfold RouteReload.endPass
  split <;> rfl

theorem RouteReload.startPass_now (config : RouteConfig) (s : RouteReload) :
    (s.startPass config).1.now = s.now := by
  unfold RouteReload.startPass
  split
  · rfl
  · exact RouteReload.endPass_now config _ _ _

/-- Only the clock's own step moves it. -/
theorem RouteReload.act_now (config : RouteConfig) (s : RouteReload) (i : ReloadInput) :
    (s.act config i).now = s.now := by
  unfold RouteReload.act
  cases i with
  | reload =>
      unfold RouteReload.reload
      dsimp only
      split
      · rfl
      · exact RouteReload.startPass_now config _
  | pulled i answer =>
      dsimp only
      split
      · exact RouteReload.endPass_now config s _ _
      · rfl
  | resume i =>
      dsimp only
      split
      next routes _ _ =>
        cases routes with
        | error error => rfl
        | ok routes =>
            unfold RouteReload.continueLoop
            dsimp only
            split
            · exact RouteReload.startPass_now config s
            · rfl
      · rfl

/-- **One input.** -/
theorem Reloading.step (h : Reloading config s) (i : ReloadInput) (hprints : s.PassPrints config i) :
    Reloading config (s.step config i) := by
  suffices hact : Reloading config (s.act config i) by
    rw [RouteReload.step, ← RouteReload.act_now config s i]
    exact hact.tick
  unfold RouteReload.act
  cases i with
  | reload => exact h.reload hprints
  | pulled i answer =>
      dsimp only
      split
      next startedAt hcall => exact h.pulled hcall (hprints startedAt hcall)
      next => exact h
  | resume i =>
      dsimp only
      split
      next routes startedAt hcall => exact h.continueLoop hcall hprints
      next => exact h

end Steps

/-! ## What the times stand for -/

/-- A pass starts with a call, or where the loop of a call goes on. -/
def StartsAt (inputs : List ReloadInput) (t : Nat) : Prop :=
  inputs[t]? = some .reload ∨ ∃ i, inputs[t]? = some (.resume i)

/-- The inputs that a completed pass started and ended at.  With a source of stored paths it ended with the
answer to its pull. -/
structure ReloadPass.Of (config : RouteConfig) (inputs : List ReloadInput) (p : ReloadPass) : Prop where
  starts : StartsAt inputs p.startedAt
  ordered : p.startedAt ≤ p.endedAt
  answered : config.loadsPaths = true → ∃ i, inputs[p.endedAt]? = some (.pulled i p.pulled)
  unasked : config.loadsPaths = false → p.endedAt = p.startedAt ∧ p.pulled = .ok none

/-- The times kept beside the state are those of the inputs. -/
structure Records (config : RouteConfig) (inputs : List ReloadInput) (s : RouteReload) : Prop where
  now : s.now = inputs.length
  called : ∀ t, inputs[t]? = some .reload → t ∈ s.calledAt
  passes : ∀ p ∈ s.passes, p.Of config inputs
  started : ∀ c ∈ s.calls, c.Passing → StartsAt inputs c.passStartedAt ∧ config.loadsPaths = true

section Times

variable {config : RouteConfig} {inputs : List ReloadInput} {s s' : RouteReload}

/-- Later inputs leave the earlier ones where they were. -/
theorem getElem?_concat_of_some {i j : ReloadInput} {t : Nat} (h : inputs[t]? = some j) :
    (inputs ++ [i])[t]? = some j := by
  rw [List.getElem?_append_left (List.getElem?_eq_some_iff.mp h).1, h]

theorem StartsAt.concat {t : Nat} (h : StartsAt inputs t) (i : ReloadInput) : StartsAt (inputs ++ [i]) t :=
  h.imp getElem?_concat_of_some fun ⟨call, hcall⟩ => ⟨call, getElem?_concat_of_some hcall⟩

theorem ReloadPass.Of.concat {p : ReloadPass} (h : p.Of config inputs) (i : ReloadInput) :
    p.Of config (inputs ++ [i]) := by
  refine ⟨h.starts.concat i, h.ordered, fun hloads => ?_, h.unasked⟩
  obtain ⟨call, hcall⟩ := h.answered hloads
  exact ⟨call, getElem?_concat_of_some hcall⟩

theorem StartsAt.lt {t : Nat} (h : StartsAt inputs t) : t < inputs.length := by
  rcases h with h | ⟨_, h⟩
  · exact (List.getElem?_eq_some_iff.mp h).1
  · exact (List.getElem?_eq_some_iff.mp h).1

/-- What one input may add to the records. -/
theorem Records.concat (h : Records config inputs s) (i : ReloadInput)
    (hkept : ∀ t ∈ s.calledAt, t ∈ s'.calledAt) (hcalled : i = .reload → s.now ∈ s'.calledAt)
    (hpasses : ∀ p ∈ s'.passes, p ∈ s.passes ∨ p.Of config (inputs ++ [i]))
    (hcalls : ∀ c ∈ s'.calls, c.Passing →
      c ∈ s.calls ∨ StartsAt (inputs ++ [i]) c.passStartedAt ∧ config.loadsPaths = true) :
    Records config (inputs ++ [i]) { s' with now := s.now + 1 } where
  now := by
    rw [List.length_append, List.length_singleton, ← h.now]
  called := by
    intro t ht
    rcases Nat.lt_trichotomy t inputs.length with hlt | heq | hgt
    · rw [List.getElem?_append_left hlt] at ht
      exact hkept t (h.called t ht)
    · subst heq
      rw [List.getElem?_concat_length] at ht
      rw [← h.now]
      exact hcalled (Option.some.inj ht)
    · have hbound := (List.getElem?_eq_some_iff.mp ht).1
      rw [List.length_append, List.length_singleton] at hbound
      omega
  passes := by
    intro p hp
    exact (hpasses p hp).elim (fun hold => (h.passes p hold).concat i) id
  started := by
    intro c hc hpassing
    rcases hcalls c hc hpassing with hold | hnew
    · exact ⟨(h.started c hold hpassing).1.concat i, (h.started c hold hpassing).2⟩
    · exact hnew

/-- What a pass that ends adds. -/
theorem RouteReload.endPass_records (config : RouteConfig) (s : RouteReload) (startedAt : Nat)
    (pulled : PulledPaths) :
    (s.endPass config startedAt pulled).1.calledAt = s.calledAt ∧
      ¬ (s.endPass config startedAt pulled).2.Passing ∧
      ∀ p ∈ (s.endPass config startedAt pulled).1.passes,
        p ∈ s.passes ∨ p = { startedAt, endedAt := s.now, pulled } := by
  unfold RouteReload.endPass
  split
  · exact ⟨rfl, nofun, fun p hp => (List.mem_append.mp hp).imp id List.mem_singleton.mp⟩
  · exact ⟨rfl, nofun, fun p hp => .inl hp⟩

/-- What a pass that starts adds. -/
theorem RouteReload.startPass_records (config : RouteConfig) (s : RouteReload) (i : ReloadInput)
    (hnow : s.now = inputs.length) (hi : StartsAt (inputs ++ [i]) inputs.length) :
    (s.startPass config).1.calledAt = s.calledAt ∧
      ((s.startPass config).2.Passing →
        StartsAt (inputs ++ [i]) (s.startPass config).2.passStartedAt ∧ config.loadsPaths = true) ∧
      ∀ p ∈ (s.startPass config).1.passes, p ∈ s.passes ∨ p.Of config (inputs ++ [i]) := by
  unfold RouteReload.startPass
  dsimp only
  split
  next hloads => exact ⟨rfl, fun _ => ⟨hnow ▸ hi, hloads⟩, fun p hp => .inl hp⟩
  next hloads =>
    obtain ⟨hcalled, hpassing, hpasses⟩ :=
      RouteReload.endPass_records config { s with reloadPending := false } s.now (.ok none)
    refine ⟨hcalled, fun h => absurd h hpassing, fun p hp => (hpasses p hp).imp id ?_⟩
    rintro rfl
    exact ⟨hnow ▸ hi, Nat.le_refl _, fun h => absurd h hloads, fun _ => ⟨rfl, rfl⟩⟩

/-- An input that nothing waits for. -/
theorem Records.skip (h : Records config inputs s) {i : ReloadInput} (hi : i ≠ .reload) :
    Records config (inputs ++ [i]) { s with now := s.now + 1 } :=
  h.concat i (fun _ ht => ht) (fun heq => absurd heq hi) (fun _ hp => .inl hp) (fun _ hc _ => .inl hc)

theorem Records.reload (h : Records config inputs s) :
    Records config (inputs ++ [.reload]) { s.reload config with now := s.now + 1 } := by
  have hstart : StartsAt (inputs ++ [.reload]) inputs.length := .inl List.getElem?_concat_length
  unfold RouteReload.reload
  split
  · refine h.concat .reload (fun t ht => List.mem_append_left _ ht)
      (fun _ => List.mem_append_right _ (.head _)) (fun p hp => .inl hp) fun c hc hpassing => ?_
    rcases List.mem_append.mp hc with hold | hnew
    · exact .inl hold
    · rw [List.mem_singleton.mp hnew] at hpassing
      cases hpassing
  · obtain ⟨hcalled, hpassing, hpasses⟩ :=
      RouteReload.startPass_records config { s.called with reloadInFlight := true } .reload h.now hstart
    refine h.concat .reload (fun t ht => ?_) (fun _ => ?_) hpasses fun c hc hc' => ?_
    · exact hcalled ▸ List.mem_append_left _ ht
    · exact hcalled ▸ List.mem_append_right _ (.head _)
    · rcases List.mem_append.mp hc with hold | hnew
      · exact .inl hold
      · obtain rfl := List.mem_singleton.mp hnew
        exact .inr (hpassing hc')

theorem Records.pulled (h : Records config inputs s) {i startedAt : Nat} {answer : PulledPaths}
    (hcall : s.calls[i]? = some ⟨.pulling, startedAt⟩) :
    Records config (inputs ++ [.pulled i answer]) { (s.endPass config startedAt answer).1 with
      calls := s.calls.set i (s.endPass config startedAt answer).2, now := s.now + 1 } := by
  obtain ⟨hcalled, hpassing, hpasses⟩ := RouteReload.endPass_records config s startedAt answer
  obtain ⟨hstarts, hloads⟩ := h.started _ (List.mem_of_getElem? hcall) rfl
  have hended := @Records.concat config inputs s { (s.endPass config startedAt answer).1 with
    calls := s.calls.set i (s.endPass config startedAt answer).2 } h (.pulled i answer)
  refine hended (fun t ht => hcalled ▸ ht) nofun (fun p hp => (hpasses p hp).imp id ?_) fun c hc hc' => ?_
  · rintro rfl
    refine ⟨hstarts.concat _, ?_, fun _ => ⟨i, ?_⟩, fun hnone => absurd (hloads.symm.trans hnone) Bool.noConfusion⟩
    · exact h.now ▸ Nat.le_of_lt hstarts.lt
    · exact h.now ▸ List.getElem?_concat_length
  · rcases List.mem_or_eq_of_mem_set hc with hold | rfl
    · exact .inl hold
    · exact absurd hc' hpassing

theorem Records.settle (h : Records config inputs s) (i : Nat) (result : Except Thrown Int) :
    Records config (inputs ++ [.resume i]) { s.settle i result with now := s.now + 1 } := by
  refine h.concat (.resume i) (fun _ ht => ht) nofun (fun _ hp => .inl hp) fun c hc hpassing => ?_
  rcases List.mem_or_eq_of_mem_set hc with hold | rfl
  · exact .inl hold
  · cases hpassing

theorem Records.continueLoop (h : Records config inputs s) (i : Nat) (routes : Except Thrown Nat) :
    Records config (inputs ++ [.resume i]) { s.continueLoop config i routes with now := s.now + 1 } := by
  cases routes with
  | error error => exact h.settle i _
  | ok routes =>
      unfold RouteReload.continueLoop
      dsimp only
      split
      next =>
        obtain ⟨hcalled, hpassing, hpasses⟩ := RouteReload.startPass_records config s (.resume i) h.now
          (.inr ⟨i, List.getElem?_concat_length⟩)
        refine h.concat (.resume i) (fun t ht => hcalled ▸ ht) nofun hpasses fun c hc hc' => ?_
        rcases List.mem_or_eq_of_mem_set hc with hold | rfl
        · exact .inl hold
        · exact .inr (hpassing hc')
      next => exact h.settle i _

/-- **The records follow the inputs.** -/
theorem Records.step (h : Records config inputs s) (i : ReloadInput) :
    Records config (inputs ++ [i]) (s.step config i) := by
  unfold RouteReload.step RouteReload.act
  cases i with
  | reload => exact h.reload
  | pulled i answer =>
      dsimp only
      split
      next startedAt hcall => exact h.pulled hcall
      next => exact h.skip nofun
  | resume i =>
      dsimp only
      split
      next routes startedAt hcall => exact h.continueLoop i routes
      next => exact h.skip nofun

theorem records_run (config : RouteConfig) (inputs : List ReloadInput) :
    Records config inputs (run (RouteReload.step config) {} inputs) := by
  induction inputs using List.reverseRecOn with
  | nil => exact ⟨rfl, nofun, nofun, nofun⟩
  | append_singleton inputs i ih =>
      rw [run_append]
      exact ih.step i

end Times

/-! ## Coalescing -/

/-- What reload coalescing promises of the state behind these inputs. -/
structure Coalesces (config : RouteConfig) (inputs : List ReloadInput) (s : RouteReload) : Prop where
  /-- Two passes are never under way at once. -/
  exclusive : ∀ (i j : Nat) (c d : ReloadCall), s.calls[i]? = some c → s.calls[j]? = some d → c.Passing →
    d.Passing → i = j
  /-- The completed ones did not overlap, and none of them with the one that is under way. -/
  apart : s.passes.Pairwise fun p q => p.endedAt ≤ q.startedAt
  before : ∀ c ∈ s.calls, c.Passing → ∀ p ∈ s.passes, p.endedAt ≤ c.passStartedAt
  /-- Each of them started with a call or at the loop of one, and ended with the answer to its pull. -/
  passed : ∀ p ∈ s.passes, p.Of config inputs
  /-- The flag says whether a reload is in flight. -/
  flagged : s.reloadInFlight = false ↔ ∀ c ∈ s.calls, ¬ c.Active
  /-- When none is, the last completed pass started at every call or later. -/
  fresh : s.reloadInFlight = false →
    ∀ t, inputs[t]? = some .reload → ∃ p, s.passes.getLast? = some p ∧ t ≤ p.startedAt
  /-- The router is the one table that the last completed pass built. -/
  complete : s.Complete config

theorem Reloading.coalesces {config : RouteConfig} {inputs : List ReloadInput} {s : RouteReload}
    (h : Reloading config s) (hrecords : Records config inputs s) : Coalesces config inputs s := by
  cases h.loop with
  | idle hflag hcalls hfresh =>
      refine ⟨?_, h.apart.1, ?_, hrecords.passes, iff_of_true hflag hcalls,
        fun _ t ht => hfresh t (hrecords.called t ht), h.complete⟩
      · exact fun i j c d hc _ hpassing _ => absurd hpassing.active (hcalls c (List.mem_of_getElem? hc))
      · exact fun c hc hpassing => absurd hpassing.active (hcalls c hc)
  | looping hflag i c hcall hactive hunfailed hothers hserved hpassed hbefore =>
      have hflagged : s.reloadInFlight ≠ false := by
        rw [hflag]
        exact Bool.noConfusion
      refine ⟨?_, h.apart.1, ?_, hrecords.passes, iff_of_false hflagged ?_, fun hidle => absurd hidle hflagged,
        h.complete⟩
      · intro j k d e hd he hdpassing hepassing
        rw [hothers j d hd hdpassing.active, hothers k e he hepassing.active]
      · intro d hd hpassing
        obtain ⟨j, hj⟩ := List.mem_iff_getElem?.mp hd
        obtain rfl := hothers j d hj hpassing.active
        rw [hcall] at hj
        obtain rfl := Option.some.inj hj
        exact hbefore hpassing
      · exact fun hall => hall c (List.mem_of_getElem? hcall) hactive

/-- **Reload coalescing loses no signal while every pass can log.**  After any inputs whose passes print their
lines, no two passes have overlapped; when no call of `reload` is in flight the last completed pass started at
the time of every call so far, or later; and the active router is one table, built from nothing by the last
completed pass. -/
theorem reload_coalesces (config : RouteConfig) (inputs : List ReloadInput)
    (h : Along (RouteReload.step config) (RouteReload.PassPrints config) {} inputs) :
    ∀ earlier later, inputs = earlier ++ later →
      Coalesces config earlier (run (RouteReload.step config) {} earlier) := by
  intro earlier later hinputs
  have hreloading : Reloading config (run (RouteReload.step config) {} earlier) :=
    h.invariant (fun s i hs hprints => hs.step i hprints) .start ⟨earlier, later, hinputs, rfl⟩
  exact hreloading.coalesces (records_run config earlier)

/-- Two calls, of which the second comes during the pull and is served by one more pass. -/
def twoCalls : List ReloadInput :=
  [.reload, .reload, .pulled 0 (.ok (some [])), .resume 0, .pulled 0 (.ok (some [])), .resume 0]

theorem reload_coalesces_twoCalls : Coalesces {} twoCalls (run (RouteReload.step {}) {} twoCalls) := by
  have hlines : LinesPrint {} (.ok (some [])) := ⟨rfl, fun _ hpath => absurd hpath List.not_mem_nil⟩
  have hyaml : RouteReload.YamlPrints {} := nofun
  exact reload_coalesces {} twoCalls
    ⟨fun _ => hyaml, fun _ => hyaml, fun _ _ => hlines, fun _ => hyaml, fun _ _ => hlines, fun _ => hyaml, trivial⟩
    twoCalls [] (List.append_nil _).symm

/-- A path without a topic, whose name is an object with a `toString` that is no function. -/
def unprintable : PathDefinition := { label := .obj [("toString", .num 1)] }

theorem doReload_unprintable : doReload {} (.ok (some [unprintable])) =
    .error (.typeError "Cannot convert object to primitive value") := by
  have hprints : prints unprintable.label = false := by decide +kernel
  have hskipped : registerPath {} unprintable [] = .error (pathError "Topic is required for path definition") := by
    simp [registerPath, unprintable]
  simp only [doReload, pullLine, extPath, List.nil_append, List.foldlM_cons, registerLogged, hskipped, skipLine,
    printed, hprints, Bool.false_eq_true, if_false]
  rfl

/-- **Failing input.**  The pass throws on the line about the path that it skips: nobody reloads behind it, and no
pass has answered either call. -/
theorem reload_loses_signal :
    ¬ ∀ (config : RouteConfig) (inputs : List ReloadInput),
      Coalesces config inputs (run (RouteReload.step config) {} inputs) := by
  intro h
  have hend (s : RouteReload) (startedAt : Nat) : s.endPass {} startedAt (.ok (some [unprintable])) =
      (s, { stage := .reloaded (.error (.typeError "Cannot convert object to primitive value")),
            passStartedAt := startedAt }) := by
    unfold RouteReload.endPass
    rw [doReload_unprintable]
  have hfresh := (h {} [.reload, .reload, .pulled 0 (.ok (some [unprintable])), .resume 0]).fresh
  simp only [run_cons, run_nil, RouteReload.step, RouteReload.act, RouteReload.reload, RouteReload.startPass,
    RouteReload.called, hend, RouteReload.continueLoop, RouteReload.settle, Bool.false_eq_true, if_false, if_true,
    List.nil_append, List.getElem?_cons_zero, List.set_cons_zero, List.singleton_append] at hfresh
  obtain ⟨p, hlast, -⟩ := hfresh trivial 1 rfl
  cases hlast

end NestAmqp.Proxy
