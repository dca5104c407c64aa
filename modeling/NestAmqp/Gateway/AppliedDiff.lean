/-
# NestAmqp.Gateway.AppliedDiff — the table behind a diff that was applied.

With a repository that answers, writing a diff touches the rows of its keys, each once: the row under
a key gets the patch of that key, or is made of it.  `Patched` says so of a list of keys and patches,
and `triple_applyDiff` says that applying a diff ends there, whatever the journal and the broker do, unless
a log line about them or about a collision does not print.
-/
import NestAmqp.Gateway.RouteSync

namespace NestAmqp.Gateway

open NestAmqp.Js NestAmqp.Lib NestAmqp.Lib.Script HttpPathRepository

/-! ## Rows under keys -/

/-- The columns under a key, none when no row has it. -/
def PathStore.columnsAt (store : PathStore) (key : String) : Obj :=
  ((store.rows.find? fun row => row.key == some key).map (·.columns)).getD []

/-- The rows under the written keys are patched, the others are as they were. -/
structure Patched (s₀ : PathStore) (done : List (String × Obj)) (store : PathStore) : Prop where
  others : ∀ r, (∀ kp ∈ done, r.key ≠ some kp.1) → (r ∈ store.rows ↔ r ∈ s₀.rows)
  written : ∀ kp ∈ done, ∃ row ∈ store.rows, row.key = some kp.1 ∧
    row.columns = Obj.assign (s₀.columnsAt kp.1) kp.2

section Patched

variable {s₀ store : PathStore} {done : List (String × Obj)} {row : StoredHttpPath} {key : String} {patch : Obj}

theorem PathStore.columnsAt_of_mem (hrow : row ∈ store.rows) (hkey : row.key = some key) :
    store.columnsAt key = row.columns := by
  unfold PathStore.columnsAt
  cases hfind : store.rows.find? fun row => row.key == some key with
  | none =>
      have hnone := List.find?_eq_none.mp hfind row hrow
      rw [hkey] at hnone
      simp at hnone
  | some found =>
      have hfound := List.find?_some hfind
      obtain rfl := PathStore.eq_of_key (List.mem_of_find?_eq_some hfind) hrow (beq_iff_eq.mp hfound) hkey
      rfl

theorem PathStore.columnsAt_of_free (h : ∀ row ∈ store.rows, row.key ≠ some key) :
    store.columnsAt key = [] := by
  unfold PathStore.columnsAt
  rw [List.find?_eq_none.mpr]
  · rfl
  · intro r hr heq
    exact h r hr (beq_iff_eq.mp heq)

theorem Patched.refl (s₀ : PathStore) : Patched s₀ [] s₀ := ⟨fun _ _ => Iff.rfl, nofun⟩

/-- A row whose key is not written is still there. -/
theorem Patched.mem (h : Patched s₀ done store) (hrow : row ∈ s₀.rows) (hkey : row.key = some key)
    (hnew : key ∉ done.map Prod.fst) : row ∈ store.rows := by
  refine (h.others row fun kp hkp heq => hnew ?_).mpr hrow
  rw [hkey] at heq
  rw [Option.some.inj heq]
  exact List.mem_map_of_mem hkp

/-- A row with another key than the written ones is an old row. -/
theorem Patched.old (h : Patched s₀ done store) (hrow : row ∈ store.rows) (hkey : row.key = some key)
    (hnew : key ∉ done.map Prod.fst) : row ∈ s₀.rows := by
  refine (h.others row fun kp hkp heq => hnew ?_).mp hrow
  rw [hkey] at heq
  rw [Option.some.inj heq]
  exact List.mem_map_of_mem hkp

/-- A row is an old one, or the one written under its key. -/
theorem Patched.cases (h : Patched s₀ done store) (hrow : row ∈ store.rows) :
    (row ∈ s₀.rows ∧ ∀ kp ∈ done, row.key ≠ some kp.1) ∨
      ∃ kp ∈ done, row.key = some kp.1 ∧ row.columns = Obj.assign (s₀.columnsAt kp.1) kp.2 := by
  by_cases hwritten : ∃ kp ∈ done, row.key = some kp.1
  · obtain ⟨kp, hkp, hkey⟩ := hwritten
    obtain ⟨row', hrow', hkey', hcolumns⟩ := h.written kp hkp
    obtain rfl := PathStore.eq_of_key hrow hrow' hkey hkey'
    exact .inr ⟨kp, hkp, hkey, hcolumns⟩
  · have hothers : ∀ kp ∈ done, row.key ≠ some kp.1 := fun kp hkp hkey => hwritten ⟨kp, hkp, hkey⟩
    exact .inl ⟨(h.others row hothers).mp hrow, hothers⟩

/-- One more key, when its row is replaced and nothing else is. -/
theorem Patched.write {store' : PathStore} {new : StoredHttpPath} (h : Patched s₀ done store)
    (hnew : key ∉ done.map Prod.fst)
    (hmem : ∀ r, r ∈ store'.rows ↔ (r ∈ store.rows ∧ r.key ≠ some key) ∨ r = new)
    (hkey : new.key = some key) (hcolumns : new.columns = Obj.assign (s₀.columnsAt key) patch) :
    Patched s₀ (done ++ [(key, patch)]) store' where
  others r hr := by
    rw [List.forall_mem_append, List.forall_mem_singleton] at hr
    rw [hmem, ← h.others r hr.1]
    constructor
    · rintro (⟨hold, -⟩ | rfl)
      · exact hold
      · exact absurd hkey hr.2
    · exact fun hold => .inl ⟨hold, hr.2⟩
  written kp hkp := by
    rcases List.mem_append.mp hkp with hkp | hkp
    · obtain ⟨row, hrow, hrowKey, hrowColumns⟩ := h.written kp hkp
      refine ⟨row, (hmem row).mpr (.inl ⟨hrow, fun heq => hnew ?_⟩), hrowKey, hrowColumns⟩
      rw [hrowKey] at heq
      rw [← Option.some.inj heq]
      exact List.mem_map_of_mem hkp
    · rw [List.mem_singleton.mp hkp]
      exact ⟨new, (hmem new).mpr (.inr rfl), hkey, hcolumns⟩

/-- Updating the row under a key. -/
theorem Patched.updateById (h : Patched s₀ done store) (hrow : row ∈ s₀.rows) (hkey : row.key = some key)
    (hnew : key ∉ done.map Prod.fst) (hpatch : (row.patched patch).key = some key) :
    ∃ store', store.updateById (.str row._id) patch = (.ok (some (row.patched patch)), store') ∧
      Patched s₀ (done ++ [(key, patch)]) store' := by
  have hmem := h.mem hrow hkey hnew
  have hupdated := store.updateById_spec (.str row._id) patch
  generalize store.updateById (.str row._id) patch = result at hupdated
  cases hupdated with
  | missing hnone =>
      rw [PathStore.findById_of_mem hmem] at hnone
      cases hnone
  | conflict row' other hrow' hid hother hne k hk htaken =>
      obtain rfl := PathStore.eq_of_id hmem hrow' (Value.str.inj hid)
      obtain rfl := Option.some.inj (hpatch.symm.trans hk)
      exact absurd (congrArg StoredHttpPath._id (PathStore.eq_of_key hother hmem htaken hkey)) hne
  | stored row' store' hrow' hid hstored =>
      obtain rfl := PathStore.eq_of_id hmem hrow' (Value.str.inj hid)
      refine ⟨store', rfl, h.write hnew ?_ hpatch ?_⟩
      · intro r
        rw [hstored]
        refine or_congr_left (and_congr_right fun hr => not_congr ⟨fun hid => ?_, fun hrkey => ?_⟩)
        · rw [PathStore.eq_of_id hr hmem hid]
          exact hkey
        · rw [PathStore.eq_of_key hr hmem hrkey hkey]
      · rw [PathStore.columnsAt_of_mem hrow hkey]
        rfl

/-- Inserting a row under a free key. -/
theorem Patched.insert (h : Patched s₀ done store) (hfree : ∀ row ∈ s₀.rows, row.key ≠ some key)
    (hnew : key ∉ done.map Prod.fst) (hpatch : keyText (Obj.assign [] patch) = some key) :
    ∃ row store', store.insert patch = (.ok row, store') ∧ Patched s₀ (done ++ [(key, patch)]) store' := by
  have hfreeNow : ∀ row ∈ store.rows, row.key ≠ some key := fun row hrow hkey =>
    hfree row (h.old hrow hkey hnew) hkey
  have hinserted := store.insert_spec patch
  generalize store.insert patch = result at hinserted
  cases hinserted with
  | conflict row hrow k hk htaken =>
      obtain rfl := Option.some.inj (hpatch.symm.trans hk)
      exact absurd htaken (hfreeNow row hrow)
  | stored row store' hcolumns hid hkeys hstored =>
      have hkey : row.key = some key := by
        unfold StoredHttpPath.key
        rw [hcolumns]
        exact hpatch
      refine ⟨row, store', rfl, h.write hnew ?_ hkey ?_⟩
      · intro r
        rw [hstored]
        exact or_congr_left ⟨fun hr => ⟨hr, hfreeNow r hr⟩, And.left⟩
      · rw [PathStore.columnsAt_of_free hfree, hcolumns]

/-- A taken key refuses an insert. -/
theorem Patched.insert_conflict (h : Patched s₀ done store) (hrow : row ∈ s₀.rows) (hkey : row.key = some key)
    (hnew : key ∉ done.map Prod.fst) (hpatch : keyText (Obj.assign [] patch) = some key) :
    store.insert patch = (.error conflictError, store) := by
  have hmem := h.mem hrow hkey hnew
  have hinserted := store.insert_spec patch
  generalize store.insert patch = result at hinserted
  cases hinserted with
  | conflict => rfl
  | stored row' store' hcolumns hid hkeys hstored =>
      have hkey' : row'.key = some key := by
        unfold StoredHttpPath.key
        rw [hcolumns]
        exact hpatch
      exact absurd hkey (hkeys row hmem key hkey')

end Patched

/-! ## Applying a diff -/

/-- The patch of a soft-disable. -/
def disablePatch : Obj := [("enabled", .bool false)]

/-- An upsert as a key with its patch. -/
def RouteUpsert.write (u : RouteUpsert) : String × Obj := (u.routeKey, u.model)

/-- A soft-disable as a key with its patch. -/
def RouteDisable.write (d : RouteDisable) : String × Obj := (d.routeKey, disablePatch)

/-- The keys a diff writes, with their patches, in order. -/
def RouteDiff.writes (diff : RouteDiff) : List (String × Obj) :=
  diff.upserts.map RouteUpsert.write ++ diff.disables.map RouteDisable.write

/-- The diff was made for this table: each write has a key of its own, an update names the row under its
key, and an insert meets no row of another owner. -/
structure Applicable (s₀ : PathStore) (service : String) (diff : RouteDiff) : Prop where
  distinct : (diff.writes.map Prod.fst).Nodup
  model : ∀ u ∈ diff.upserts, Obj.own u.model "routeKey" = some (.str u.routeKey)
  update : ∀ u ∈ diff.upserts, ∀ id, u.existingId = some id →
    ∃ row ∈ s₀.rows, row.key = some u.routeKey ∧ row._id = id
  insert : ∀ u ∈ diff.upserts, u.existingId = none →
    ∀ row ∈ s₀.rows, row.key = some u.routeKey → row.ownerName = .str service
  disable : ∀ d ∈ diff.disables, ∃ row ∈ s₀.rows, row.key = some d.routeKey ∧ row._id = d.id

section Apply

variable {env : PathEnv} {config : GatewayConfig} {service : String} {diff : RouteDiff} {s₀ : PathStore}
  {done : List (String × Obj)} {u : RouteUpsert} {F : Prop}

/-- Something has failed with a message that does not print. -/
def PathEnv.Unreadable (env : PathEnv) : Prop :=
  ∃ asked op e, env.failure asked op = some e ∧ e.reads = false

theorem PathEnv.Reads.not_unreadable (h : env.Reads) : ¬ env.Unreadable := by
  rintro ⟨asked, op, e, he, hreads⟩
  rw [h asked op e he] at hreads
  cases hreads

theorem keyText_assign {columns model : Obj} {key : String}
    (h : Obj.own model "routeKey" = some (.str key)) : keyText (Obj.assign columns model) = some key := by
  rw [keyText_eq_some, Obj.get_assign, h]
  rfl

/-- A write to the row under a key. -/
theorem triple_updateById {row : StoredHttpPath} {key : String} {patch : Obj} (hanswers : env.Answers)
    (hrow : row ∈ s₀.rows) (hkey : row.key = some key) (hnew : key ∉ done.map Prod.fst)
    (hpatch : (row.patched patch).key = some key) {E : Thrown → PathWorld → Prop} :
    Triple env.service (fun w => Patched s₀ done w.store) (updateById (.str row._id) patch)
      (fun _ w => Patched s₀ (done ++ [(key, patch)]) w.store) E := by
  refine triple_perform fun w hw => ?_
  obtain ⟨store', hupdate, hpatched⟩ := hw.updateById hrow hkey hnew hpatch
  rw [hanswers.service w rfl]
  show Ends _ _ ((w.store.updateById (.str row._id) patch).1, _)
  rw [hupdate]
  show Patched s₀ _ (w.store.updateById (.str row._id) patch).2
  rw [hupdate]
  exact hpatched

/-- The catch block finds the service's own row. -/
theorem triple_reconcile {row : StoredHttpPath} (hanswers : env.Answers) (hrow : row ∈ s₀.rows)
    (hkey : row.key = some u.routeKey) (howner : row.ownerName = .str service)
    (hnew : u.routeKey ∉ done.map Prod.fst) (hmodel : Obj.own u.model "routeKey" = some (.str u.routeKey)) :
    Triple env.service (fun w => Patched s₀ done w.store) (reconcile service u)
      (fun _ w => Patched s₀ (done ++ [(u.routeKey, u.model)]) w.store) fun _ _ => F := by
  unfold reconcile
  refine triple_bind (Q := fun clashes w =>
    Patched s₀ done w.store ∧ clashes = w.store.findByRouteKey u.routeKey) ?_ fun clashes => ?_
  · refine triple_findByRouteKey (fun w hw => ⟨hw, rfl⟩) fun e w _ he => ?_
    rw [hanswers _ _ rfl] at he
    cases he
  · split
    next mine hmine =>
      rintro w ⟨hw, rfl⟩
      have hmem := PathStore.mem_findByRouteKey.mp (List.mem_of_find?_eq_some hmine)
      obtain rfl := PathStore.eq_of_key (hw.mem hrow hkey hnew) hmem.1 hkey hmem.2
      exact triple_bind (triple_updateById hanswers hrow hkey hnew (keyText_assign hmodel))
        (fun _ => triple_pure fun _ h => h) w hw
    next hnone =>
      rintro w ⟨hw, rfl⟩
      have hmem := PathStore.mem_findByRouteKey.mpr ⟨hw.mem hrow hkey hnew, hkey⟩
      have hother := List.find?_eq_none.mp hnone row hmem
      exact absurd ((Value.isText_iff _ _).mpr howner) hother

theorem triple_applyUpsert (hanswers : env.Answers) (hunreadable : env.Unreadable → F)
    (happlicable : Applicable s₀ service diff) (hu : u ∈ diff.upserts)
    (hnew : u.routeKey ∉ done.map Prod.fst) :
    Triple env.service (fun w => Patched s₀ done w.store) (applyUpsert service u)
      (fun _ w => Patched s₀ (done ++ [(u.routeKey, u.model)]) w.store) fun _ _ => F := by
  have hmodel := happlicable.model u hu
  unfold applyUpsert
  refine triple_bind (Q := fun _ w => Patched s₀ (done ++ [(u.routeKey, u.model)]) w.store) ?_ fun added => ?_
  · refine triple_tryCatch (E := fun e w => e = conflictError ∧ Patched s₀ done w.store ∧
      u.existingId = none ∧ ∃ row ∈ s₀.rows, row.key = some u.routeKey) ?_ fun e => ?_
    · split
      next id hid =>
        obtain ⟨row, hrow, hkey, rfl⟩ := happlicable.update u hu id hid
        exact triple_bind (triple_updateById hanswers hrow hkey hnew (keyText_assign hmodel))
          fun _ => triple_pure fun _ h => h
      next hnone =>
        refine triple_bind (Q := fun _ w => Patched s₀ (done ++ [(u.routeKey, u.model)]) w.store)
          (triple_perform fun w hw => ?_) fun _ => triple_pure fun _ h => h
        rw [hanswers.service w rfl]
        show Ends _ _ ((w.store.insert u.model).1, w.after _ (w.store.insert u.model).2)
        by_cases htaken : ∃ row ∈ s₀.rows, row.key = some u.routeKey
        · obtain ⟨row, hrow, hkey⟩ := htaken
          rw [hw.insert_conflict hrow hkey hnew (keyText_assign hmodel)]
          exact ⟨rfl, hw, hnone, row, hrow, hkey⟩
        · have hfree : ∀ row ∈ s₀.rows, row.key ≠ some u.routeKey :=
            fun row hrow hkey => htaken ⟨row, hrow, hkey⟩
          obtain ⟨row, store', hinsert, hpatched⟩ := hw.insert hfree hnew (keyText_assign hmodel)
          rw [hinsert]
          exact hpatched
    · split
      next =>
        rintro w ⟨-, hw, hnone, row, hrow, hkey⟩
        exact triple_reconcile hanswers hrow hkey (happlicable.insert u hu hnone row hrow hkey) hnew hmodel w hw
      next hother =>
        rintro w ⟨rfl, -⟩
        exact absurd rfl hother
  · cases added with
    | none => exact triple_pure fun _ h => h
    | some added =>
        exact triple_journal (fun _ h => h) fun e _ _ _ he hreads => hunreadable ⟨_, _, e, he, hreads⟩

theorem triple_applyDisable {d : RouteDisable} (hanswers : env.Answers) (hunreadable : env.Unreadable → F)
    (happlicable : Applicable s₀ service diff) (hd : d ∈ diff.disables)
    (hnew : d.routeKey ∉ done.map Prod.fst) :
    Triple env.service (fun w => Patched s₀ done w.store) (applyDisable service d)
      (fun _ w => Patched s₀ (done ++ [(d.routeKey, disablePatch)]) w.store) fun _ _ => F := by
  obtain ⟨row, hrow, hkey, hid⟩ := happlicable.disable d hd
  have hpatch : (row.patched disablePatch).key = some d.routeKey := by
    rw [← hkey]
    unfold StoredHttpPath.key StoredHttpPath.patched keyText
    rw [Obj.get_assign]
    rfl
  unfold applyDisable
  rw [← hid]
  exact triple_bind (triple_updateById hanswers hrow hkey hnew hpatch) fun _ =>
    triple_journal (fun _ h => h) fun e _ _ _ he hreads => hunreadable ⟨_, _, e, he, hreads⟩

/-- What only asks keeps what asking keeps. -/
theorem triple_beside {I : PathWorld → Prop} (hunreadable : env.Unreadable → F)
    (h : ∀ w op, I w → I (w.after op w.store)) (entry : RouteSyncLogEntry) :
    Triple env.service I (journal entry) (fun _ => I) fun _ _ => F :=
  triple_journal (fun w hw => h w _ hw) fun e _ _ _ he hreads => hunreadable ⟨_, _, e, he, hreads⟩

theorem triple_announceChange {I : PathWorld → Prop} (hunreadable : env.Unreadable → F)
    (h : ∀ w op, I w → I (w.after op w.store)) :
    Triple env.service I (announceChange config service diff) (fun _ => I) fun _ _ => F := by
  unfold announceChange
  split
  · refine triple_bind (Q := fun _ => I) ?_ fun _ => triple_beside hunreadable h _
    unfold triggerReload
    split
    · split
      · exact triple_pure fun _ hw => hw
      · refine triple_tryCatch (E := fun e w => I w ∧ ∃ asked op, env.failure asked op = some e)
          (triple_perform fun w hw => ends_service (fun e he => ⟨h w _ hw, _, _, he⟩) fun _ => h w _ hw)
          fun e => triple_messageLine (fun _ hw => hw.1) ?_
        rintro e' hreads w ⟨-, asked, op, he⟩
        exact hunreadable ⟨asked, op, e, he, hreads⟩
    · exact triple_pure fun _ hw => hw
  · exact triple_pure fun _ hw => hw

/-- A loop that only journals. -/
theorem triple_journals {α : Type} {I : PathWorld → Prop} (hunreadable : env.Unreadable → F)
    (h : ∀ w op, I w → I (w.after op w.store)) (entry : α → RouteSyncLogEntry) (l : List α) :
    Triple env.service I (forEach (fun a => journal (entry a)) l) (fun _ => I) fun _ _ => F :=
  triple_forEach (J := fun _ => I) l fun _ _ _ _ => triple_beside hunreadable h _

/-- The collisions are only logged. -/
theorem triple_journalCollisions {I : PathWorld → Prop} (hunreadable : env.Unreadable → F)
    (howners : ∀ c ∈ diff.collisions, prints c.conflictWith = false → F)
    (h : ∀ w entry, I w → entry.event = .collision → I (w.after (.journal entry) w.store)) :
    Triple env.service I (forEach (journalCollision service) diff.collisions) (fun _ => I) fun _ _ => F := by
  refine triple_forEach (J := fun _ => I) _ fun before c after hl => ?_
  unfold journalCollision
  split
  · exact triple_pure fun _ hw => hw
  · refine triple_bind (Q := fun _ => I) (triple_ofExcept (fun _ _ _ hw => hw) fun e he _ _ => ?_) fun _ =>
      triple_journal (fun w hw => h w _ hw rfl) fun e _ _ _ he hreads => hunreadable ⟨_, _, e, he, hreads⟩
    exact howners c (by rw [hl]; exact List.mem_append_right _ (.head _)) (not_prints_of_printed he)

/-- **Applying a diff.**  Every key of the diff is written, and nothing else. -/
theorem triple_applyDiff (hanswers : env.Answers) (hunreadable : env.Unreadable → F)
    (howners : ∀ c ∈ diff.collisions, prints c.conflictWith = false → F)
    (happlicable : Applicable s₀ service diff) :
    Triple env.service (fun w => w.store = s₀) (applyDiff config service diff)
      (fun _ w => Patched s₀ diff.writes w.store) fun _ _ => F := by
  have hpass (done : List (String × Obj)) (w : PathWorld) (op : PathOp) (hw : Patched s₀ done w.store) :
      Patched s₀ done (w.after op w.store).store := hw
  have hdistinct := happlicable.distinct
  unfold RouteDiff.writes at hdistinct ⊢
  rw [List.map_append, List.nodup_append] at hdistinct
  obtain ⟨hupserts, hdisables, hdisjoint⟩ := hdistinct
  unfold applyDiff
  -- the collisions are only logged
  refine triple_bind (Q := fun _ w => Patched s₀ [] w.store) ?_ fun _ => ?_
  · rintro w rfl
    exact triple_journalCollisions (I := fun w' => Patched w.store [] w'.store) hunreadable howners
      (fun _ _ h _ => h) w (.refl _)
  refine triple_bind (triple_journals hunreadable (hpass []) _ _) fun _ => ?_
  -- the upserts write their keys one after the other, each of them new
  refine triple_bind (Q := fun _ w =>
    Patched s₀ (diff.upserts.map RouteUpsert.write) w.store) ?_ fun _ => ?_
  · refine triple_forEach
      (J := fun before (w : PathWorld) => Patched s₀ (before.map RouteUpsert.write) w.store) _ ?_
    intro before u after hl
    rw [List.map_append]
    refine triple_applyUpsert hanswers hunreadable happlicable ?_ ?_
    · rw [hl]
      exact List.mem_append_right _ (.head _)
    · rw [hl, List.map_map, List.map_append, List.nodup_append] at hupserts
      rw [List.map_map]
      exact fun hmem => hupserts.2.2 _ hmem _ (.head _) rfl
  -- then the disables, of keys that were not upserted
  refine triple_bind (Q := fun _ w => Patched s₀ (diff.upserts.map RouteUpsert.write ++
    diff.disables.map RouteDisable.write) w.store) ?_ fun _ => ?_
  · intro w hw
    refine triple_forEach (J := fun before (w : PathWorld) => Patched s₀ (diff.upserts.map RouteUpsert.write ++
      before.map RouteDisable.write) w.store) _ ?_ w (by simpa using hw)
    intro before d after hl
    rw [List.map_append, ← List.append_assoc]
    refine triple_applyDisable hanswers hunreadable happlicable ?_ ?_
    · rw [hl]
      exact List.mem_append_right _ (.head _)
    · rw [List.map_append, List.mem_append, not_or]
      have hd : d.write ∈ diff.disables.map RouteDisable.write := by
        rw [hl]
        exact List.mem_map_of_mem (List.mem_append_right _ (.head _))
      refine ⟨fun hmem => hdisjoint _ hmem _ (List.mem_map_of_mem hd) rfl, fun hmem => ?_⟩
      rw [hl, List.map_map, List.map_append, List.nodup_append] at hdisables
      rw [List.map_map] at hmem
      exact hdisables.2.2 _ hmem _ (.head _) rfl
  refine triple_bind (triple_journals hunreadable (hpass _) _ _) fun _ => ?_
  exact triple_announceChange hunreadable (hpass _)

end Apply

end NestAmqp.Gateway
