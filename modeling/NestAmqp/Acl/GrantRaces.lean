/-
# NestAmqp.Acl.GrantRaces — grants and revokes that run at the same time.

`applyGrant` and `applyRevoke` look the record of a target up, and then write all of it: between the two,
other requests run.  A task is one such call, between two of its repository operations; a step lets one
task take its next one.  As long as every write finds the collection as its own lookup left it, the
collection stays the map of `GrantMap`, and of two operations on one role the later one wins.
-/
import NestAmqp.Acl.GrantMap
import NestAmqp.Lib.Tasks

namespace NestAmqp.Acl

open NestAmqp.Js
open NestAmqp.Lib
open NestAmqp.Lib.Machine

/-! ## Tasks -/

inductive GrantKind where
  | grant
  | revoke
  deriving DecidableEq, Repr

/-- A call of `applyGrant` or `applyRevoke` whose arguments are in order. -/
structure GrantOp where
  kind : GrantKind
  body : GrantBody
  valid : body.Valid

/-- Where a task is; times are those of its return and of its failure. -/
inductive GrantStage where
  | called
  | rolesChecked
  | found (existing : Option AclGrant)
  | written
  | returned (time : Nat)
  | threw (time : Nat)

/-- One call on its way. -/
structure GrantTask where
  op : GrantOp
  startedAt : Nat
  stage : GrantStage := .called

/-- What a repository operation meets: the roles there are, and whether it fails. -/
structure Repositories where
  roles : List AclRole := []
  outcome : Except Thrown Unit := .ok ()

/-- The collection, the calls so far and a clock that counts the steps. -/
structure GrantRace where
  store : GrantStore
  tasks : List GrantTask := []
  now : Nat := 0

/-- A call comes in, or a task takes its next repository operation. -/
inductive GrantInput where
  | call (kind : GrantKind) (body : GrantBody)
  | resume (task : Nat) (repositories : Repositories)

instance (body : GrantBody) : Decidable body.Valid :=
  inferInstanceAs (Decidable (body.userId ≠ "" ∧ body.roles ≠ []))

namespace GrantOp

variable (op : GrantOp)

def key : GrantKey := op.body.key

def roles : List String := op.body.roles

/-- What the operation means. -/
def effect (M : RoleMap) : RoleMap :=
  match op.kind with
  | .grant => M.grant op.key op.roles
  | .revoke => M.revoke op.key op.roles

/-- The write, given what was found. -/
def write (store : GrantStore) (existing : Option AclGrant) : GrantStore :=
  match op.kind, existing with
  | .grant, existing => (writeGrant store op.body op.valid.1 existing).2
  | .revoke, some existing => (writeRevoke store op.body existing).2
  | .revoke, none => store

/-- After `findGrant`: a revoke without a record returns at once. -/
def look (store : GrantStore) (now : Nat) : GrantStage :=
  match op.kind, findGrant store op.body with
  | .revoke, none => .returned now
  | _, existing => .found existing

/-- The next repository operation, and the code up to the one after it. -/
def resume (store : GrantStore) (now : Nat) (repositories : Repositories) :
    GrantStage → GrantStage × GrantStore
  | .called => match repositories.outcome with
    | .error _ => (.threw now, store)
    | .ok _ => match op.kind with
      | .grant => match assertRolesExist repositories.roles op.roles with
        | .error _ => (.threw now, store)
        | .ok _ => (.rolesChecked, store)
      | .revoke => (op.look store now, store)
  | .rolesChecked => match repositories.outcome with
    | .error _ => (.threw now, store)
    | .ok _ => (op.look store now, store)
  | .found existing => match repositories.outcome with
    | .error _ => (.threw now, store)
    | .ok _ => (.written, op.write store existing)
  -- the invalidation does not throw
  | .written => (.returned now, store)
  | stage => (stage, store)

end GrantOp

/-- One step.  A call whose arguments are not in order throws at once. -/
def GrantRace.step (s : GrantRace) : GrantInput → GrantRace
  | .call kind body =>
      if valid : body.Valid then
        { s with tasks := s.tasks ++ [{ op := { kind, body, valid }, startedAt := s.now }], now := s.now + 1 }
      else { s with now := s.now + 1 }
  | .resume i repositories => match s.tasks[i]? with
    | none => { s with now := s.now + 1 }
    | some task =>
        let (stage, store) := task.op.resume s.store s.now repositories task.stage
        { store, tasks := s.tasks.set i { task with stage }, now := s.now + 1 }

/-! ## What is asked of a run -/

namespace GrantTask

variable (t : GrantTask)

/-- It returned. -/
def Completed : Prop := ∃ time, t.stage = .returned time

/-- It was over before `time`. -/
def EndedBefore (time : Nat) : Prop := ∃ e < time, t.stage = .returned e ∨ t.stage = .threw e

/-- Its write has taken effect, or there was nothing to write. -/
def Effective : Prop := t.stage = .written ∨ t.Completed

end GrantTask

/-- One record per target, revokes that are effective, and grants that are not lost. -/
structure GrantRace.Correct (s : GrantRace) : Prop where
  oneRecord : (s.store.records.map AclGrant.key).Nodup
  revoked : ∀ r ∈ s.tasks, r.op.kind = .revoke → r.Completed →
    (∀ g ∈ s.tasks, g.op.kind = .grant → g.op.key = r.op.key → g.EndedBefore r.startedAt) →
    ∀ record ∈ s.store.records, record.key = r.op.key → ∀ role ∈ r.op.roles, role ∉ record.roles
  granted : ∀ g ∈ s.tasks, g.op.kind = .grant → g.Completed → ∀ role ∈ g.op.roles,
    (∀ r ∈ s.tasks, r.op.kind = .revoke → r.op.key = g.op.key → role ∈ r.op.roles →
      r.EndedBefore g.startedAt) →
    ∃ record ∈ s.store.records, record.key = g.op.key ∧ role ∈ record.roles

/-- A write does not undo what others did since its lookup: a lookup now would find the same record, or
none again, with the same roles apart from those the operation is about. -/
def GrantRace.FreshWrite (s : GrantRace) : GrantInput → Prop
  | .call _ _ => True
  | .resume i repositories => ∀ task, s.tasks[i]? = some task → ∀ existing,
      task.stage = .found existing → repositories.outcome.isOk = true →
        SameLookup task.op.roles existing (findGrant s.store task.op.body)

instance (s : GrantRace) : ∀ input, Decidable (s.FreshWrite input)
  | .call _ _ => .isTrue trivial
  | .resume i repositories =>
      match htask : s.tasks[i]? with
      | none => .isTrue fun task h => by rw [htask] at h; cases h
      | some task =>
          match hstage : task.stage with
          | .found existing => decidable_of_iff
              (repositories.outcome.isOk = true →
                SameLookup task.op.roles existing (findGrant s.store task.op.body))
              (by
                constructor
                · intro h task' h' existing' hfound hok
                  rw [htask] at h'
                  obtain rfl := Option.some.inj h'
                  rw [hstage] at hfound
                  obtain rfl := GrantStage.found.inj hfound
                  exact h hok
                · exact fun h hok => h task htask existing hstage hok)
          | .called | .rolesChecked | .written | .returned _ | .threw _ => .isTrue (by
              intro task' h' existing hfound
              rw [htask] at h'
              obtain rfl := Option.some.inj h'
              rw [hstage] at hfound
              cases hfound)

/-! ## One step -/

namespace GrantOp

variable {op : GrantOp} {store : GrantStore} {M : RoleMap}

/-- A role is at a key when the operation put it there, or when the operation is not about it. -/
theorem mem_effect {k : GrantKey} {role : String} :
    role ∈ op.effect M k ↔
      if k = op.key ∧ role ∈ op.roles then op.kind = .grant else role ∈ M k := by
  unfold effect RoleMap.grant RoleMap.revoke
  by_cases hk : k = op.key
  · subst hk
    cases op.kind with
    | grant => by_cases hrole : role ∈ op.roles <;> simp [hrole]
    | revoke => by_cases hrole : role ∈ op.roles <;> simp [hrole]
  · cases op.kind <;> simp [hk]

/-- What a lookup of the operation found, then or now. -/
structure Found (op : GrantOp) (e : AclGrant) : Prop where
  key : e.key = op.key
  distinct : e.roles.Nodup

theorem found_of_findGrant (h : store.Represents M) : ∀ e ∈ findGrant store op.body, op.Found e := by
  intro e he
  obtain ⟨hmem, hkey⟩ := key_of_findGrant he
  exact ⟨hkey, h.distinct e hmem⟩

/-- A write that undoes nothing. -/
theorem write_represents (h : store.Represents M) {existing : Option AclGrant}
    (hfound : ∀ e ∈ existing, op.Found e)
    (hsame : SameLookup op.roles existing (findGrant store op.body)) :
    (op.write store existing).Represents (op.effect M) := by
  unfold write effect
  cases op.kind with
  | grant =>
      have hkey : ∀ e ∈ existing, e.key = op.body.key := fun e he => (hfound e he).key
      exact writeGrant_represents h op.valid.1 op.valid.2 hkey hsame
  | revoke =>
      cases existing with
      | some e => exact writeRevoke_represents h (hfound e rfl).distinct hsame
      | none =>
          show store.Represents (M.revoke op.body.key op.body.roles)
          generalize hnone : findGrant store op.body = found at hsame
          cases hsame
          rw [revoke_absent h hnone]
          exact h

/-- What one repository operation, and the code after it, can do. -/
inductive Resumes (op : GrantOp) (store : GrantStore) (now : Nat) (repositories : Repositories)
    (stage : GrantStage) : GrantStage × GrantStore → Prop
  | failed : Resumes op store now repositories stage (.threw now, store)
  | checked : Resumes op store now repositories stage (.rolesChecked, store)
  | looked : Resumes op store now repositories stage (.found (findGrant store op.body), store)
  | nothing (hkind : op.kind = .revoke) (hnone : findGrant store op.body = none) :
      Resumes op store now repositories stage (.returned now, store)
  | wrote (existing : Option AclGrant) (hstage : stage = .found existing)
      (hok : repositories.outcome.isOk = true) :
      Resumes op store now repositories stage (.written, op.write store existing)
  | invalidated (hstage : stage = .written) : Resumes op store now repositories stage (.returned now, store)
  | idle : Resumes op store now repositories stage (stage, store)

/-- What a lookup leads to. -/
theorem resumes_look (op : GrantOp) (store : GrantStore) (now : Nat) (repositories : Repositories)
    (stage : GrantStage) : op.Resumes store now repositories stage (op.look store now, store) := by
  unfold look
  split
  next hkind hnone => exact .nothing hkind hnone
  next => exact .looked

/-- **One repository operation.** -/
theorem resume_spec (op : GrantOp) (store : GrantStore) (now : Nat) (repositories : Repositories)
    (stage : GrantStage) :
    op.Resumes store now repositories stage (op.resume store now repositories stage) := by
  unfold resume
  cases stage with
  | called =>
      cases repositories.outcome with
      | error e => exact .failed
      | ok _ =>
          dsimp only
          split
          · split
            · exact .failed
            · exact .checked
          · exact resumes_look op store now repositories .called
  | rolesChecked =>
      cases repositories.outcome with
      | error e => exact .failed
      | ok _ => exact resumes_look op store now repositories .rolesChecked
  | found existing =>
      dsimp only
      split
      · exact .failed
      next _ hok => exact .wrote existing rfl (by rw [hok]; rfl)
  | written => exact .invalidated rfl
  | returned time => exact .idle
  | threw time => exact .idle

/-- A task that was on its way ends now. -/
theorem Resumes.ends {op : GrantOp} {store : GrantStore} {now : Nat} {repositories : Repositories}
    {stage : GrantStage} {next : GrantStage × GrantStore} (h : op.Resumes store now repositories stage next)
    {e : Nat} (he : next.1 = .returned e ∨ next.1 = .threw e) : e = now ∨ next.1 = stage := by
  cases h with
  | failed => exact .inl (he.elim nofun fun h => (GrantStage.threw.inj h).symm)
  | checked => exact he.elim nofun nofun
  | looked => exact he.elim nofun nofun
  | nothing hkind hnone => exact .inl (he.elim (fun h => (GrantStage.returned.inj h).symm) nofun)
  | wrote existing hstage hok => exact he.elim nofun nofun
  | invalidated hstage => exact .inl (he.elim (fun h => (GrantStage.returned.inj h).symm) nofun)
  | idle => exact .inr rfl

/-- The operations of a call with nothing in between. -/
def alone (op : GrantOp) (store : GrantStore) (now : Nat) (roles : List AclRole) : GrantStage × GrantStore :=
  let checked := op.resume store now { roles } .called
  let found := op.resume checked.2 now { roles } checked.1
  op.resume found.2 now { roles } found.1

/-- **A grant on its own** is `applyGrant`. -/
theorem alone_grant {op : GrantOp} (hkind : op.kind = .grant) (store : GrantStore) (now : Nat)
    (roles : List AclRole) :
    op.alone store now roles = match applyGrant roles store op.body with
      | .ok result => (.written, result.2)
      | .error _ => (.threw now, store) := by
  have hempty : op.body.roles.isEmpty = false :=
    eq_false_of_ne_true fun h => op.valid.2 (List.isEmpty_iff.mp h)
  rw [applyGrant_eq, dif_neg op.valid.1, hempty, if_neg Bool.false_ne_true]
  unfold alone resume look write
  rw [hkind]
  dsimp only
  unfold GrantOp.roles
  cases assertRolesExist roles op.body.roles with
  | error e => rfl
  | ok _ => rfl

/-- **A revoke on its own** is `applyRevoke`. -/
theorem alone_revoke {op : GrantOp} (hkind : op.kind = .revoke) (store : GrantStore) (now : Nat)
    (roles : List AclRole) :
    (op.alone store now roles).2 = match applyRevoke store op.body with
      | .ok (some result) => result.2
      | .ok none | .error _ => store := by
  have hempty : op.body.roles.isEmpty = false :=
    eq_false_of_ne_true fun h => op.valid.2 (List.isEmpty_iff.mp h)
  rw [applyRevoke_eq, if_neg op.valid.1, hempty, if_neg Bool.false_ne_true]
  unfold alone resume look write
  rw [hkind]
  cases hfound : findGrant store op.body with
  | none => rfl
  | some existing => rfl

end GrantOp

/-! ## The invariant -/

/-- An operation of the other kind on the same key and role that was not over when `t` started. -/
def GrantTask.Opposes (t' t : GrantTask) (role : String) : Prop :=
  t'.op.kind ≠ t.op.kind ∧ t'.op.key = t.op.key ∧ role ∈ t'.op.roles ∧ ¬ t'.EndedBefore t.startedAt

/-- What an effective operation is about is as it left it, or an operation of the other kind came in
between or later. -/
def GrantTask.Stands (tasks : List GrantTask) (M : RoleMap) (t : GrantTask) : Prop :=
  t.Effective → ∀ role ∈ t.op.roles,
    (role ∈ M t.op.key ↔ t.op.kind = .grant) ∨ ∃ t' ∈ tasks, t'.Opposes t role

/-- The collection is a map, and every task stands. -/
structure GrantRace.Sound (s : GrantRace) (M : RoleMap) : Prop where
  represents : s.store.Represents M
  started : ∀ t ∈ s.tasks, t.startedAt < s.now
  found : ∀ t ∈ s.tasks, ∀ e, t.stage = .found (some e) → t.op.Found e
  stands : ∀ t ∈ s.tasks, t.Stands s.tasks M

theorem GrantRace.Sound.correct {s : GrantRace} {M : RoleMap} (h : s.Sound M) : s.Correct where
  oneRecord := h.represents.map.oneRecord
  revoked := by
    intro r hr hkind hdone hgrants record hrecord hkey role hrole hin
    rcases h.stands r hr (.inr hdone) role hrole with hstands | ⟨g, hg, hopposes⟩
    · have hmem : role ∈ M r.op.key :=
        h.represents.map.mem_iff.mpr ⟨record, hrecord, hkey, List.mem_toFinset.mpr hin⟩
      have hgrant := hstands.mp hmem
      rw [hkind] at hgrant
      cases hgrant
    · obtain ⟨hother, hsame, -, hrunning⟩ := hopposes
      rw [hkind] at hother
      have hgrant : g.op.kind = .grant := by
        cases hg : g.op.kind with
        | grant => rfl
        | revoke => exact absurd hg hother
      exact hrunning (hgrants g hg hgrant hsame)
  granted := by
    intro g hg hkind hdone role hrole hrevokes
    rcases h.stands g hg (.inr hdone) role hrole with hstands | ⟨r, hr, hopposes⟩
    · obtain ⟨record, hrecord, hkey, hin⟩ := h.represents.map.mem_iff.mp (hstands.mpr hkind)
      exact ⟨record, hrecord, hkey, List.mem_toFinset.mp hin⟩
    · obtain ⟨hother, hsame, hin, hrunning⟩ := hopposes
      rw [hkind] at hother
      have hrevoke : r.op.kind = .revoke := by
        cases hr : r.op.kind with
        | grant => exact absurd hr hother
        | revoke => rfl
      exact absurd (hrevokes r hr hrevoke hsame hin) hrunning

theorem GrantRace.sound_start {store : GrantStore} {M : RoleMap} (h : store.Represents M) :
    GrantRace.Sound { store } M := ⟨h, nofun, nofun, nofun⟩

section Step

variable {s : GrantRace} {M : RoleMap} {i : Nat} {task t : GrantTask} {stage : GrantStage} {role : String}

/-- Taking a step does not undo an opposition: a task that ends now ends after all starts. -/
theorem GrantTask.Opposes.advance (h : task.Opposes t role) {now : Nat} (hstarted : t.startedAt < now)
    (hends : ∀ e, stage = .returned e ∨ stage = .threw e → e = now ∨ stage = task.stage) :
    GrantTask.Opposes { task with stage } t role := by
  obtain ⟨hkind, hkey, hrole, hrunning⟩ := h
  refine ⟨hkind, hkey, hrole, fun hended => hrunning ?_⟩
  obtain ⟨e, hlt, he⟩ := hended
  rcases hends e he with rfl | hsame
  · exact absurd hlt (Nat.lt_asymm hstarted)
  · have hstage : stage = .returned e ∨ stage = .threw e := he
    rw [hsame] at hstage
    exact ⟨e, hlt, hstage⟩

/-- A step that leaves the map alone. -/
theorem GrantTask.Stands.keep (h : t.Stands s.tasks M) (hstarted : t.startedAt < s.now)
    (htask : s.tasks[i]? = some task)
    (hends : ∀ e, stage = .returned e ∨ stage = .threw e → e = s.now ∨ stage = task.stage) :
    t.Stands (s.tasks.set i { task with stage }) M := by
  intro heffective role hrole
  rcases h heffective role hrole with hstands | hopposed
  · exact .inl hstands
  · exact .inr (Tasks.exists_set htask (fun hold => hold.advance hstarted hends) hopposed)

/-- A step that writes: it stands against the task, or opposes it. -/
theorem GrantTask.Stands.written (h : t.Stands s.tasks M) (hstarted : t.startedAt < s.now)
    (htask : s.tasks[i]? = some task) :
    t.Stands (s.tasks.set i { task with stage := .written }) (task.op.effect M) := by
  have hkept : GrantTask.Stands (s.tasks.set i { task with stage := .written }) M t :=
    h.keep hstarted htask fun e he => he.elim nofun nofun
  intro heffective role hrole
  rw [GrantOp.mem_effect]
  by_cases habout : t.op.key = task.op.key ∧ role ∈ task.op.roles
  · rw [if_pos habout]
    by_cases hkind : task.op.kind = t.op.kind
    · rw [hkind]
      exact .inl Iff.rfl
    · have hrunning : ¬ GrantTask.EndedBefore { task with stage := .written } t.startedAt := by
        intro hended
        obtain ⟨e, -, he⟩ := hended
        exact he.elim nofun nofun
      exact .inr ⟨_, Tasks.mem_set_self htask, hkind, habout.1.symm, habout.2, hrunning⟩
  · rw [if_neg habout]
    exact hkept heffective role hrole

/-- **A call** that comes in stands: it has not done anything yet. -/
theorem GrantRace.Sound.call (h : s.Sound M) (op : GrantOp) :
    GrantRace.Sound
      { s with tasks := s.tasks ++ [{ op, startedAt := s.now }], now := s.now + 1 } M where
  represents := h.represents
  started := by
    apply Tasks.forall_concat
    · exact fun t ht => Nat.lt_succ_of_lt (h.started t ht)
    · exact Nat.lt_succ_self s.now
  found := Tasks.forall_concat h.found nofun
  stands := by
    apply Tasks.forall_concat
    · intro t ht heffective role hrole
      rcases h.stands t ht heffective role hrole with hstands | ⟨t', ht', hopposes⟩
      · exact .inl hstands
      · exact .inr ⟨t', List.mem_append_left _ ht', hopposes⟩
    · intro heffective
      rcases heffective with hwritten | ⟨time, hreturned⟩
      · cases hwritten
      · cases hreturned

/-- A step of one task that leaves the collection alone. -/
theorem GrantRace.Sound.resumeKept (h : s.Sound M) (htask : s.tasks[i]? = some task)
    (hends : ∀ e, stage = .returned e ∨ stage = .threw e → e = s.now ∨ stage = task.stage)
    (hfound : ∀ e, stage = .found (some e) → task.op.Found e)
    (heffective : GrantTask.Effective { task with stage } →
      task.Effective ∨ (task.op.kind = .revoke ∧ M task.op.key = ∅)) :
    GrantRace.Sound { s with tasks := s.tasks.set i { task with stage }, now := s.now + 1 } M where
  represents := h.represents
  started := Tasks.forall_set (fun t ht => Nat.lt_succ_of_lt (h.started t ht))
    (Nat.lt_succ_of_lt (h.started task (List.mem_of_getElem? htask)))
  found := Tasks.forall_set h.found hfound
  stands := by
    have hmem := List.mem_of_getElem? htask
    have hself := (h.stands task hmem).keep (h.started task hmem) htask hends
    apply Tasks.forall_set
    · exact fun t ht => (h.stands t ht).keep (h.started t ht) htask hends
    · intro hnow role hrole
      rcases heffective hnow with hbefore | ⟨hkind, hempty⟩
      · exact hself hbefore role hrole
      · refine .inl (iff_of_false ?_ ?_)
        · show role ∉ M task.op.key
          rw [hempty]
          exact Finset.notMem_empty role
        · show task.op.kind ≠ .grant
          rw [hkind]
          exact nofun

/-- A step of one task that writes. -/
theorem GrantRace.Sound.resumeWritten (h : s.Sound M) (htask : s.tasks[i]? = some task)
    {existing : Option AclGrant} (hstage : task.stage = .found existing)
    (hsame : SameLookup task.op.roles existing (findGrant s.store task.op.body)) :
    GrantRace.Sound
      { store := task.op.write s.store existing
        tasks := s.tasks.set i { task with stage := .written }
        now := s.now + 1 } (task.op.effect M) where
  represents := by
    have hfound : ∀ e ∈ existing, task.op.Found e := by
      intro e he
      rw [he] at hstage
      exact h.found task (List.mem_of_getElem? htask) e hstage
    exact GrantOp.write_represents h.represents hfound hsame
  started := Tasks.forall_set (fun t ht => Nat.lt_succ_of_lt (h.started t ht))
    (Nat.lt_succ_of_lt (h.started task (List.mem_of_getElem? htask)))
  found := Tasks.forall_set h.found nofun
  stands := by
    apply Tasks.forall_set
    · exact fun t ht => (h.stands t ht).written (h.started t ht) htask
    · intro _ role hrole
      have habout : task.op.key = task.op.key ∧ role ∈ task.op.roles := ⟨rfl, hrole⟩
      refine .inl ?_
      rw [GrantOp.mem_effect]
      show (if task.op.key = task.op.key ∧ role ∈ task.op.roles then _ else _) ↔ _
      rw [if_pos habout]

/-- Nothing has happened yet. -/
theorem GrantTask.not_effective (hwritten : stage ≠ .written) (hreturned : ∀ time, stage ≠ .returned time) :
    ¬ GrantTask.Effective { task with stage } := by
  intro heffective
  rcases heffective with h | ⟨time, h⟩
  · exact hwritten h
  · exact hreturned time h

theorem GrantRace.step_resume (htask : s.tasks[i]? = some task) (repositories : Repositories) :
    s.step (.resume i repositories) =
      let next := task.op.resume s.store s.now repositories task.stage
      { store := next.2, tasks := s.tasks.set i { task with stage := next.1 }, now := s.now + 1 } := by
  unfold GrantRace.step
  dsimp only
  rw [htask]

/-- **One step** whose write is fresh. -/
theorem GrantRace.Sound.step (h : s.Sound M) (input : GrantInput) (hfresh : s.FreshWrite input) :
    ∃ M, (s.step input).Sound M := by
  have htick : GrantRace.Sound { s with now := s.now + 1 } M :=
    ⟨h.represents, fun t ht => Nat.lt_succ_of_lt (h.started t ht), h.found, h.stands⟩
  cases input with
  | call kind body =>
      unfold GrantRace.step
      dsimp only
      by_cases valid : body.Valid
      · rw [dif_pos valid]
        exact ⟨M, h.call { kind, body, valid }⟩
      · rw [dif_neg valid]
        exact ⟨M, htick⟩
  | resume i repositories =>
      cases htask : s.tasks[i]? with
      | none =>
          unfold GrantRace.step
          dsimp only
          rw [htask]
          exact ⟨M, htick⟩
      | some task =>
          rw [GrantRace.step_resume htask]
          have hspec := GrantOp.resume_spec task.op s.store s.now repositories task.stage
          have hends := fun e => hspec.ends (e := e)
          dsimp only
          generalize task.op.resume s.store s.now repositories task.stage = next at hspec hends
          cases hspec with
          | failed =>
              exact ⟨M, h.resumeKept htask hends nofun fun heff => absurd heff (GrantTask.not_effective nofun nofun)⟩
          | checked =>
              exact ⟨M, h.resumeKept htask hends nofun fun heff => absurd heff (GrantTask.not_effective nofun nofun)⟩
          | looked =>
              have hfound : ∀ e, GrantStage.found (findGrant s.store task.op.body) = .found (some e) →
                  task.op.Found e :=
                fun e he => GrantOp.found_of_findGrant h.represents e (GrantStage.found.inj he)
              exact ⟨M, h.resumeKept htask hends hfound fun heff =>
                absurd heff (GrantTask.not_effective nofun nofun)⟩
          | nothing hkind hnone =>
              have hempty := h.represents.map.absent _ (findGrant_eq_none_iff.mp hnone)
              exact ⟨M, h.resumeKept htask hends nofun fun _ => .inr ⟨hkind, hempty⟩⟩
          | wrote existing hstage hok =>
              exact ⟨_, h.resumeWritten htask hstage (hfresh task htask existing hstage hok)⟩
          | invalidated hstage => exact ⟨M, h.resumeKept htask hends nofun fun _ => .inl (.inl hstage)⟩
          | idle => exact ⟨M, h.resumeKept htask hends (h.found task (List.mem_of_getElem? htask)) .inl⟩

end Step

/-! ## Runs -/

/-- **Interleaved grants and revokes.**  From a collection that is a map, in every run whose writes undo
nothing: there is one record per target, a revoke is effective unless a grant of its target overlapped it
or came later, and no grant is lost but to a revoke. -/
theorem grantRace_correct {store : GrantStore} {M : RoleMap} (hstore : store.Represents M)
    {inputs : List GrantInput} (hfresh : Along GrantRace.step GrantRace.FreshWrite { store } inputs)
    {s : GrantRace} (hs : Reaches GrantRace.step { store } inputs s) : s.Correct := by
  have hstep : ∀ (s : GrantRace) (input : GrantInput), (∃ M, s.Sound M) → s.FreshWrite input →
      ∃ M, (s.step input).Sound M := by
    intro s input hsound hok
    obtain ⟨M, h⟩ := hsound
    exact h.step input hok
  obtain ⟨M, hsound⟩ := hfresh.invariant hstep ⟨M, GrantRace.sound_start hstore⟩ hs
  exact hsound.correct

section Examples

/-- The roles of the example runs. -/
def twoRoles : Repositories where
  roles := [{ name := "viewer", actions := ["read"] }, { name := "editor", actions := ["write"] }]

/-- A grant of one role to one user, on a company. -/
def bobIs (role : String) : GrantBody :=
  { userId := "bob", roles := [role], companyId := .str "acme" }

/-- Two grants to one user on one target, whose lookups both run before either write. -/
def racingGrants : List GrantInput :=
  [.call .grant (bobIs "viewer"), .call .grant (bobIs "editor"),
    .resume 0 twoRoles, .resume 1 twoRoles, .resume 0 twoRoles, .resume 1 twoRoles,
    .resume 0 twoRoles, .resume 1 twoRoles]

/-- They leave two records for one target. -/
theorem not_correct_racingGrants :
    ¬ ∀ inputs s, Reaches GrantRace.step { store := .empty } inputs s → s.Correct := by
  intro h
  have hcorrect := h racingGrants _ (reaches_run _ _ _)
  exact absurd hcorrect.oneRecord (by decide)

/-- One grant, and two more at the same time on another target and on the same one, before a revoke. -/
def calmGrants : List GrantInput :=
  [.call .grant (bobIs "viewer"), .resume 0 twoRoles, .resume 0 twoRoles, .resume 0 twoRoles,
    .call .grant { userId := "bob", roles := ["editor"] }, .call .grant (bobIs "editor"),
    .resume 1 twoRoles, .resume 2 twoRoles, .resume 1 twoRoles, .resume 2 twoRoles,
    .resume 1 twoRoles, .resume 2 twoRoles, .resume 0 twoRoles, .resume 1 twoRoles, .resume 2 twoRoles,
    .call .revoke (bobIs "viewer"), .resume 3 twoRoles, .resume 3 twoRoles, .resume 3 twoRoles]

theorem grantRace_correct_calmGrants :
    (run GrantRace.step { store := .empty } calmGrants).Correct :=
  grantRace_correct GrantStore.represents_empty (by decide) (reaches_run _ _ _)

end Examples

end NestAmqp.Acl
