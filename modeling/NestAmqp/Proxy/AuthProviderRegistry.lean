/-
# NestAmqp.Proxy.AuthProviderRegistry — reloading the auth providers.

`AuthProviderRegistry` holds the current providers in memory: those of the YAML, overridden by name with
those its source has enabled.  `reload` reads the source and swaps the set.  Nothing keeps two reloads from
overlapping, and each swaps its own set in when its read completes, so the one that completes last decides,
whenever it read.

The source is a store that anybody writes.  What it held at every time, and which reloads have succeeded,
is kept beside the state; no step looks at either.
-/
import NestAmqp.Lib.Machine
import NestAmqp.Lib.NamedRecords
import NestAmqp.Lib.Tasks
import NestAmqp.Proxy.HttpAuthHandler

namespace NestAmqp.Proxy

open NestAmqp.Js
open NestAmqp.Lib NestAmqp.Lib.Machine

/-! ## The set of providers -/

/-- `if (p?.name) byName.set(p.name, p)`. -/
def setByName (byName : List HandlerAuthConfig) (p : HandlerAuthConfig) : List HandlerAuthConfig :=
  if p.name = "" then byName else NamedRecords.upsert HandlerAuthConfig.name (fun _ => p) byName p

/-- The YAML providers, overridden by name with those of the source. -/
def mergeProviders (yaml db : List HandlerAuthConfig) : List HandlerAuthConfig :=
  (yaml ++ db).foldl setByName []

/-- `set.find((p) => p?.name === name)`. -/
def findByName (set : List HandlerAuthConfig) (name : String) : Option HandlerAuthConfig :=
  set.find? fun p => p.name == name

theorem findByName_setByName (byName : List HandlerAuthConfig) (p : HandlerAuthConfig) {name : String}
    (hname : name ≠ "") : findByName (setByName byName p) name =
      if p.name = name then some p else findByName byName name := by
  unfold setByName
  split
  next hempty => rw [if_neg fun h => hname (h.symm.trans hempty)]
  next => exact NamedRecords.find?_upsert byName p name

/-- **The merged set answers a name with the last provider that has it**, the source's before the YAML's. -/
theorem findByName_mergeProviders (yaml db : List HandlerAuthConfig) {name : String} (hname : name ≠ "") :
    findByName (mergeProviders yaml db) name =
      (findByName db.reverse name).or (findByName yaml.reverse name) := by
  have hmerged : findByName (mergeProviders yaml db) name = findByName (yaml ++ db).reverse name := by
    unfold mergeProviders
    induction yaml ++ db using List.reverseRecOn with
    | nil => rfl
    | append_singleton ps p ih =>
        rw [List.foldl_append, List.foldl_cons, List.foldl_nil, findByName_setByName _ _ hname, ih,
          List.reverse_append, List.reverse_singleton, List.singleton_append]
        unfold findByName
        rw [List.find?_cons]
        by_cases hp : p.name = name
        · rw [if_pos hp, beq_iff_eq.mpr hp]
        · rw [if_neg hp, beq_eq_false_iff_ne.mpr hp]
  rw [hmerged, List.reverse_append]
  exact List.find?_append

/-! ## Reloads -/

/-- Where a call of `reload` is. -/
inductive AuthReloadStage where
  /-- In `listEnabled`, before it takes its snapshot. -/
  | listing
  /-- In `listEnabled`, behind its snapshot. -/
  | listed (db : List HandlerAuthConfig) (readAt : Nat)
  | returned (count : Nat)

/-- One call, with the time it was made. -/
structure AuthReloadCall where
  startedAt : Nat
  stage : AuthReloadStage := .listing

/-- A reload that has swapped its set in: what it read of the source, and when. -/
structure AuthReload where
  startedAt : Nat
  readAt : Nat
  db : List HandlerAuthConfig

/-- The registry, the store behind its source, and the calls of `reload`.  `now` counts the inputs, and
`contents` are what the store held before each of them. -/
structure AuthProviderRegistry where
  yaml : List HandlerAuthConfig
  /-- The source is wired. -/
  source : Bool := true
  current : List HandlerAuthConfig := yaml
  clientResets : Nat := 0
  enabled : List HandlerAuthConfig := []
  calls : List AuthReloadCall := []
  now : Nat := 0
  contents : List (List HandlerAuthConfig) := []
  succeeded : List AuthReload := []

/-- Somebody writes the store, a reload is called, or the read of one takes its snapshot, fails, or
completes. -/
inductive AuthReloadInput where
  | write (enabled : List HandlerAuthConfig)
  | reload
  | snapshot (call : Nat)
  | fail (call : Nat) (error : Thrown)
  | complete (call : Nat)

namespace AuthProviderRegistry

variable (s : AuthProviderRegistry)

/-- `find(name?)`. -/
def find (name : Option String) : Option HandlerAuthConfig :=
  name.bind fun name => if name = "" then none else findByName s.current name

/-- The set is swapped and the key clients are dropped. -/
def swap (reload : AuthReload) : AuthProviderRegistry :=
  { s with
    current := mergeProviders s.yaml reload.db
    clientResets := s.clientResets + 1
    succeeded := s.succeeded ++ [reload] }

/-- A call goes on. -/
def setCall (i : Nat) (call : AuthReloadCall) (stage : AuthReloadStage) : AuthProviderRegistry :=
  { s with calls := s.calls.set i { call with stage } }

/-- `reload()`, up to its first `await`: without a source it is over at once. -/
def reload : AuthProviderRegistry :=
  if s.source then { s with calls := s.calls ++ [{ startedAt := s.now }] }
  else
    let swapped := s.swap { startedAt := s.now, readAt := s.now, db := [] }
    { swapped with calls := s.calls ++ [{ startedAt := s.now, stage := .returned swapped.current.length }] }

/-- One input; one that no call waits for changes nothing. -/
def act : AuthReloadInput → AuthProviderRegistry
  | .write enabled => { s with enabled }
  | .reload => s.reload
  | .snapshot i =>
      match s.calls[i]? with
      | some ⟨startedAt, .listing⟩ => s.setCall i ⟨startedAt, .listing⟩ (.listed s.enabled s.now)
      | _ => s
  | .fail i _ =>
      match s.calls[i]? with
      | some ⟨startedAt, .listing⟩ => s.setCall i ⟨startedAt, .listing⟩ (.returned s.current.length)
      | some ⟨startedAt, .listed db readAt⟩ =>
          s.setCall i ⟨startedAt, .listed db readAt⟩ (.returned s.current.length)
      | _ => s
  | .complete i =>
      match s.calls[i]? with
      | some ⟨startedAt, .listed db readAt⟩ =>
          let swapped := s.swap { startedAt, readAt, db }
          swapped.setCall i ⟨startedAt, .listed db readAt⟩ (.returned swapped.current.length)
      | _ => s

/-- One input, and the clock. -/
def step (i : AuthReloadInput) : AuthProviderRegistry :=
  { s.act i with now := s.now + 1, contents := s.contents ++ [s.enabled] }

/-! ## Fresh sets -/

/-- The providers between two inputs: fresh when no reload is in flight, untouched by a reload that fails, and always
one complete set. -/
structure EndsFresh : Prop where
  /-- With no reload in flight, the current set is from a snapshot of the source that was taken after
  every successful reload had started. -/
  fresh : (∀ c ∈ s.calls, ∃ count, c.stage = .returned count) → s.succeeded ≠ [] →
    ∃ p ∈ s.succeeded, s.current = mergeProviders s.yaml p.db ∧
      (s.source = true → s.contents[p.readAt]? = some p.db) ∧
      ∀ q ∈ s.succeeded, q.startedAt ≤ p.readAt
  /-- A failed reload leaves the set unchanged. -/
  failed : ∀ i error, (s.step (.fail i error)).current = s.current
  /-- Every lookup sees one complete set. -/
  whole : s.current = s.yaml ∧ s.succeeded = [] ∨ ∃ p ∈ s.succeeded, s.current = mergeProviders s.yaml p.db

/-- A reload completes on a snapshot that is no older than the start of any that has succeeded. -/
def CompletesInOrder : AuthReloadInput → Prop
  | .complete i => ∀ startedAt db readAt, s.calls[i]? = some ⟨startedAt, .listed db readAt⟩ →
      ∀ q ∈ s.succeeded, q.startedAt ≤ readAt
  | .write _ | .reload | .snapshot _ | .fail .. => True

/-- A snapshot of a store with these contents, taken after the reload was called. -/
structure Snapshot (contents : List (List HandlerAuthConfig)) (startedAt : Nat) (db : List HandlerAuthConfig)
    (readAt : Nat) : Prop where
  content : contents[readAt]? = some db
  later : startedAt ≤ readAt

/-- The current set is that of the YAML, or that of a reload whose snapshot every successful reload had
started before. -/
inductive Current : Prop
  | initial (hnone : s.succeeded = []) (hcurrent : s.current = s.yaml)
  | swapped (p : AuthReload) (hp : p ∈ s.succeeded) (hcurrent : s.current = mergeProviders s.yaml p.db)
      (hlatest : ∀ q ∈ s.succeeded, q.startedAt ≤ p.readAt)

/-- What holds as long as reloads complete in order. -/
structure InOrder : Prop where
  clock : s.contents.length = s.now
  started : ∀ c ∈ s.calls, c.startedAt ≤ s.now
  listed : ∀ c ∈ s.calls, ∀ db readAt, c.stage = .listed db readAt →
    Snapshot s.contents c.startedAt db readAt
  succeededAt : ∀ q ∈ s.succeeded, q.startedAt ≤ s.now
  read : ∀ q ∈ s.succeeded, s.source = true → s.contents[q.readAt]? = some q.db
  current : s.Current

variable {s}

theorem InOrder.start (yaml : List HandlerAuthConfig) (source : Bool) (enabled : List HandlerAuthConfig) :
    InOrder { yaml, source, enabled } where
  clock := rfl
  started := nofun
  listed := nofun
  succeededAt := nofun
  read := nofun
  current := .initial rfl rfl

/-- A failing read changes the stage of a call and no more. -/
theorem current_fail (s : AuthProviderRegistry) (i : Nat) (error : Thrown) :
    (s.step (.fail i error)).current = s.current := by
  unfold step act
  dsimp only
  split <;> rfl

theorem InOrder.endsFresh (h : s.InOrder) : s.EndsFresh where
  fresh := by
    intro _ hsome
    cases h.current with
    | initial hnone hcurrent => exact absurd hnone hsome
    | swapped p hp hcurrent hlatest => exact ⟨p, hp, hcurrent, h.read p hp, hlatest⟩
  failed := current_fail s
  whole := by
    cases h.current with
    | initial hnone hcurrent => exact .inl ⟨hcurrent, hnone⟩
    | swapped p hp hcurrent _ => exact .inr ⟨p, hp, hcurrent⟩

/-- The clock goes on, and what the store held is kept. -/
theorem InOrder.tick (h : s.InOrder) (enabled : List HandlerAuthConfig) :
    InOrder { s with now := s.now + 1, contents := s.contents ++ [enabled] } := by
  have hkept : ∀ (t : Nat) (db : List HandlerAuthConfig), s.contents[t]? = some db →
      (s.contents ++ [enabled])[t]? = some db := by
    intro t db hread
    rw [List.getElem?_append_left (List.getElem?_eq_some_iff.mp hread).1]
    exact hread
  refine ⟨?_, fun c hc => Nat.le_succ_of_le (h.started c hc), ?_,
    fun q hq => Nat.le_succ_of_le (h.succeededAt q hq), fun q hq hsource => hkept _ _ (h.read q hq hsource), ?_⟩
  · rw [List.length_append, h.clock]
    rfl
  · intro c hc db readAt hstage
    obtain ⟨hread, hlater⟩ := h.listed c hc db readAt hstage
    exact ⟨hkept readAt db hread, hlater⟩
  · cases h.current with
    | initial hnone hcurrent => exact .initial hnone hcurrent
    | swapped p hp hcurrent hlatest => exact .swapped p hp hcurrent hlatest

/-- A call goes on to a stage without a snapshot. -/
theorem InOrder.setCall (h : s.InOrder) {i : Nat} {call : AuthReloadCall} (hcall : s.calls[i]? = some call)
    {stage : AuthReloadStage} (hstage : ∀ db readAt, stage = .listed db readAt →
      Snapshot s.contents call.startedAt db readAt) : (s.setCall i call stage).InOrder where
  clock := h.clock
  started := Tasks.forall_set h.started (h.started call (List.mem_of_getElem? hcall))
  listed := Tasks.forall_set h.listed hstage
  succeededAt := h.succeededAt
  read := h.read
  current := by
    cases h.current with
    | initial hnone hcurrent => exact .initial hnone hcurrent
    | swapped p hp hcurrent hlatest => exact .swapped p hp hcurrent hlatest

/-- A set is swapped in. -/
theorem InOrder.swap (h : s.InOrder) (reload : AuthReload) (hstarted : reload.startedAt ≤ s.now)
    (hlater : reload.startedAt ≤ reload.readAt)
    (hread : s.source = true → s.contents[reload.readAt]? = some reload.db)
    (hlatest : ∀ q ∈ s.succeeded, q.startedAt ≤ reload.readAt) : (s.swap reload).InOrder where
  clock := h.clock
  started := h.started
  listed := h.listed
  succeededAt := Tasks.forall_concat h.succeededAt hstarted
  read := Tasks.forall_concat h.read hread
  current := .swapped reload (List.mem_append_right _ (.head _)) rfl (Tasks.forall_concat hlatest hlater)

/-- **One input.**  A set stays fresh when no reload completes on an older snapshot. -/
theorem InOrder.step (h : s.InOrder) {i : AuthReloadInput} (hordered : s.CompletesInOrder i) :
    (s.step i).InOrder := by
  unfold AuthProviderRegistry.step act
  cases i with
  | write enabled =>
      exact InOrder.tick (s := { s with enabled }) ⟨h.clock, h.started, h.listed, h.succeededAt, h.read,
        by cases h.current with
          | initial hnone hcurrent => exact .initial hnone hcurrent
          | swapped p hp hcurrent hlatest => exact .swapped p hp hcurrent hlatest⟩ s.enabled
  | reload =>
      have hcalled : ∀ {s : AuthProviderRegistry}, s.InOrder → ∀ stage,
        (∀ db readAt, stage ≠ .listed db readAt) →
          InOrder { s with calls := s.calls ++ [{ startedAt := s.now, stage }] } := by
        intro s h stage hstage
        refine ⟨h.clock, Tasks.forall_concat h.started (Nat.le_refl _),
          Tasks.forall_concat h.listed fun db readAt heq => absurd heq (hstage db readAt),
          h.succeededAt, h.read, ?_⟩
        cases h.current with
        | initial hnone hcurrent => exact .initial hnone hcurrent
        | swapped p hp hcurrent hlatest => exact .swapped p hp hcurrent hlatest
      unfold reload
      dsimp only
      split
      next => exact (hcalled h .listing fun _ _ heq => by cases heq).tick s.enabled
      next hsource =>
        have hswapped := h.swap { startedAt := s.now, readAt := s.now, db := [] } (Nat.le_refl _)
          (Nat.le_refl _) (fun hwired => absurd hwired hsource) h.succeededAt
        exact (hcalled hswapped _ fun _ _ heq => by cases heq).tick s.enabled
  | snapshot i =>
      dsimp only
      split
      next startedAt hcall =>
        -- the store's content is what the clock will remember for this time
        refine (h.tick s.enabled).setCall hcall ?_
        intro db readAt hstage
        obtain ⟨rfl, rfl⟩ := AuthReloadStage.listed.inj hstage
        refine ⟨?_, h.started _ (List.mem_of_getElem? hcall)⟩
        show (s.contents ++ [s.enabled])[s.now]? = _
        rw [← h.clock]
        exact List.getElem?_concat_length
      next => exact h.tick s.enabled
  | fail i error =>
      dsimp only
      split
      next startedAt hcall => exact (h.setCall hcall fun _ _ heq => by cases heq).tick s.enabled
      next startedAt db readAt hcall => exact (h.setCall hcall fun _ _ heq => by cases heq).tick s.enabled
      next => exact h.tick s.enabled
  | complete i =>
      dsimp only
      split
      next startedAt db readAt hcall =>
        obtain ⟨hread, hlater⟩ := h.listed _ (List.mem_of_getElem? hcall) db readAt rfl
        have hswapped := h.swap { startedAt, readAt, db }
          (h.started _ (List.mem_of_getElem? hcall)) hlater (fun _ => hread)
          (hordered startedAt db readAt hcall)
        exact (hswapped.setCall hcall fun _ _ heq => by cases heq).tick s.enabled
      next => exact h.tick s.enabled

/-- **Reloads that complete in order end fresh**, whatever the source, whoever writes it and whichever reads
fail. -/
theorem reloads_endFresh (yaml : List HandlerAuthConfig) (source : Bool) (enabled : List HandlerAuthConfig)
    (inputs : List AuthReloadInput)
    (hordered : Along step CompletesInOrder { yaml, source, enabled } inputs) (s : AuthProviderRegistry)
    (hreaches : Reaches step { yaml, source, enabled } inputs s) : s.EndsFresh := by
  have hinv : s.InOrder := hordered.invariant (fun s i h hok => h.step hok)
    (.start yaml source enabled) hreaches
  exact hinv.endsFresh

/-! ## Two reloads -/

/-- A provider with a name and a secret. -/
def secretProvider (secret : String) : HandlerAuthConfig :=
  { name := "p", type := .strCompare, secret := some secret }

/-- Two reloads, around a change of the provider; the first one's read completes first, or last. -/
def twoReloads (firstCompletesFirst : Bool) : List AuthReloadInput :=
  [.reload, .snapshot 0, .write [secretProvider "new"], .reload, .snapshot 1] ++
    if firstCompletesFirst then [.complete 0, .complete 1] else [.complete 1, .complete 0]

theorem reloads_endFresh_twoReloads :
    (run step { yaml := [], enabled := [secretProvider "old"] } (twoReloads true)).EndsFresh := by
  refine reloads_endFresh [] true _ (twoReloads true) ?_ _ (reaches_run _ _ _)
  refine ⟨trivial, trivial, trivial, trivial, trivial, ?_, ?_, trivial⟩
  · exact nofun
  · intro startedAt db readAt hcall q hq
    obtain ⟨⟩ := Option.some.inj hcall
    rw [List.mem_singleton.mp hq]
    exact Nat.zero_le _

/-- The read that began first completes last, and takes the revoked provider back. -/
theorem not_reloads_endFresh_overtaken :
    ¬ ∀ (yaml : List HandlerAuthConfig) (enabled : List HandlerAuthConfig) (inputs : List AuthReloadInput),
      (run step { yaml, enabled } inputs).EndsFresh := by
  intro h
  have hidle : ∀ c ∈ (run step { yaml := [], enabled := [secretProvider "old"] } (twoReloads false)).calls,
      ∃ count, c.stage = .returned count := by
    intro c hc
    change c ∈ [⟨0, .returned 1⟩, ⟨3, .returned 1⟩] at hc
    rcases List.mem_pair.mp hc with rfl | rfl <;> exact ⟨1, rfl⟩
  obtain ⟨p, hp, hcurrent, -, hlatest⟩ :=
    (h [] [secretProvider "old"] (twoReloads false)).fresh hidle (List.cons_ne_nil _ _)
  change p ∈ [⟨3, 4, [secretProvider "new"]⟩, ⟨0, 1, [secretProvider "old"]⟩] at hp
  rcases List.mem_pair.mp hp with rfl | rfl
  · have hsecret := congrArg (List.map HandlerAuthConfig.secret) hcurrent
    exact absurd hsecret (by decide)
  · have hlate := hlatest ⟨3, 4, [secretProvider "new"]⟩ (.head _)
    exact absurd hlate (by decide)

end AuthProviderRegistry

end NestAmqp.Proxy
