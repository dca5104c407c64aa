/-
# NestAmqp.Gateway.InsertRace — two services claim the same new route.

Two gateway instances handle the manifests of two services at the same time, over one table.  Both
announce a key that no row has; each looks the key up before it inserts, and the other may insert between
the two.  The unique index then refuses one of the inserts, and that instance looks the key up again and
finds the row of the other.  `insert_race` says how every schedule of the two ends: with one row, as the
winner inserted it, and with a collision in the journal that names the winner.

Each instance is reasoned about alone.  It relies on the other to write only rows of its own service and
never the row under the key, and guarantees the same.
-/
import NestAmqp.Lib.Interleaving
import NestAmqp.Gateway.SyncedRows

namespace NestAmqp.Gateway

open NestAmqp.Js NestAmqp.Lib NestAmqp.Lib.Script HttpPathRepository

/-! ## Two instances over one table -/

/-- The instance that handles the one or the other manifest. -/
inductive Side where
  | left
  | right
  deriving DecidableEq

/-- The other instance. -/
def Side.other : Side → Side
  | .left => .right
  | .right => .left

/-- The table, and who has asked for what so far. -/
structure RaceWorld where
  store : PathStore
  asked : List (Side × PathOp) := []

/-- When the journal or the broker fails, by what was asked before, each time with a message that prints.  The
repository answers. -/
structure RaceEnv where
  failure : List (Side × PathOp) → PathOp → Option Thrown
  reads : ∀ asked op e, failure asked op = some e → e.reads = true

/-- The table and the log behind an operation of one side. -/
def RaceWorld.after (w : RaceWorld) (side : Side) (op : PathOp) (store : PathStore) : RaceWorld :=
  { store, asked := w.asked ++ [(side, op)] }

/-- The operations of one side.  Each of them is one step on the table. -/
def RaceEnv.service (env : RaceEnv) (side : Side) : Service PathOp PathAns Thrown RaceWorld := fun w op =>
  match if op.isOnPaths then none else env.failure w.asked op with
  | some e => (.error e, w.after side op w.store)
  | none => ((w.store.perform op).1, w.after side op (w.store.perform op).2)

/-- Both manifests, before anything was asked. -/
def startRace (config : GatewayConfig) (manifests : Side → RouteManifest) (store : PathStore) :
    Turns Side PathOp PathAns Thrown RaceWorld Unit where
  scripts side := handle config (manifests side)
  state := { store }

/-! ## The contest and its outcome -/

/-- Two services with names of their own announce a key that no row has and the YAML does not declare.  The
keys of the manifests and of the YAML can be read, and so can the overrides of the stored rows; the owners
of these print. -/
structure Contest (config : GatewayConfig) (services : Side → String) (manifests : Side → RouteManifest)
    (key : String) (store : PathStore) : Prop where
  service : ∀ side, (manifests side).service = some (services side)
  named : ∀ side, services side ∉ ["", "manual", "yaml"]
  distinct : services .left ≠ services .right
  announces : ∀ side, ∃ v, announced (manifests side).list key = some v
  keys : ∀ side, ∀ r ∈ (manifests side).list, ∃ k, routeKeyOf r = .ok k
  yaml : ∃ yaml, reserveYaml config = .ok yaml
  undeclared : ¬ config.Declares key
  free : ∀ row ∈ store.rows, row.key ≠ some key
  overrides : ∀ row ∈ store.rows, ∃ overrides, readOverrides (row.get "userOverrides") = .ok overrides
  owners : ∀ row ∈ store.rows, prints row.ownerName = true

/-- The journal entry of a service that lost the key to another. -/
structure ReportsCollision (service key rival : String) (entry : RouteSyncLogEntry) : Prop where
  event : entry.event = .collision
  service : entry.service = .str service
  routeKey : entry.routeKey = .str key
  conflictWith : entry.conflictWith = .str rival

/-- One row has the key: the route that the winner announced, as the winner inserted it.  Nobody has written
that row since, and the other side has journaled that it lost the key to the winner. -/
structure Settled (services : Side → String) (manifests : Side → RouteManifest) (key : String) (winner : Side)
    (w : RaceWorld) : Prop where
  stored : ∃ row ∈ w.store.rows, row.key = some key ∧
    (∃ v, announced (manifests winner).list key = some v ∧
      row.columns = Obj.assign [] (upsertModel (services winner) key (fieldsOf v) true .none)) ∧
    (∀ r ∈ w.store.rows, r.key = some key → r = row) ∧
    ∀ side op, (side, op) ∈ w.asked → op.writes row._id = false
  reported : ∃ entry, (winner.other, .journal entry) ∈ w.asked ∧
    ReportsCollision (services winner.other) key (services winner) entry

/-! ## What one side does to the table -/

/-- What an instance guarantees: it writes only rows of its service, it leaves the row under the key, and the
log only grows by what it asks for. -/
structure Moves (side : Side) (service key : String) (w w' : RaceWorld) : Prop where
  others : ∀ row ∈ w.store.rows, row.get "owner" ≠ .str service → row ∈ w'.store.rows
  own : ∀ row ∈ w'.store.rows, row ∈ w.store.rows ∨ row.get "owner" = .str service
  kept : ∀ row ∈ w.store.rows, row.key = some key → row ∈ w'.store.rows
  logged : ∀ entry ∈ w.asked, entry ∈ w'.asked
  unlogged : ∀ entry ∈ w'.asked, entry ∈ w.asked ∨ entry.1 = side

/-- What it does but for the insert under the key. -/
structure Neutral (side : Side) (service key : String) (w w' : RaceWorld) : Prop extends
    Moves side service key w w' where
  owned : ∀ row ∈ w.store.rows, row.get "owner" = .str service →
    ∃ row' ∈ w'.store.rows, row'._id = row._id ∧ row'.key = row.key ∧ row'.get "owner" = .str service
  unclaimed : ∀ row ∈ w'.store.rows, row.key = some key → row ∈ w.store.rows
  writes : ∀ op, (side, op) ∈ w'.asked → (side, op) ∈ w.asked ∨ ∀ id, op.writes id = true →
    ∃ row ∈ w.store.rows, row._id = id ∧ row.get "owner" = .str service ∧ row.key ≠ some key

section Moves

variable {side : Side} {service key : String} {w w' : RaceWorld} {op : PathOp}

theorem Moves.steady (side : Side) (service key : String) : Steady (Moves side service key) where
  refl _ := ⟨fun _ h _ => h, fun _ h => .inl h, fun _ h _ => h, fun _ h => h, fun _ h => .inl h⟩
  trans h h' :=
    { others := fun row hrow howner => h'.others row (h.others row hrow howner) howner
      own := fun row hrow => (h'.own row hrow).elim (h.own row) .inr
      kept := fun row hrow hkey => h'.kept row (h.kept row hrow hkey) hkey
      logged := fun entry hentry => h'.logged entry (h.logged entry hentry)
      unlogged := fun entry hentry => (h'.unlogged entry hentry).elim (h.unlogged entry) .inr }

theorem mem_after {store : PathStore} {entry : Side × PathOp} :
    entry ∈ (w.after side op store).asked ↔ entry ∈ w.asked ∨ entry = (side, op) := by
  show entry ∈ w.asked ++ [(side, op)] ↔ _
  rw [List.mem_append, List.mem_singleton]

theorem logged_after {store : PathStore} :
    (∀ entry ∈ w.asked, entry ∈ (w.after side op store).asked) ∧
      ∀ entry ∈ (w.after side op store).asked, entry ∈ w.asked ∨ entry.1 = side := by
  refine ⟨fun entry h => mem_after.mpr (.inl h), fun entry h => ?_⟩
  rcases mem_after.mp h with h | rfl
  · exact .inl h
  · exact .inr rfl

/-- An operation that leaves the table. -/
theorem neutral_after (hwrites : ∀ id, op.writes id = false) :
    Neutral side service key w (w.after side op w.store) where
  others _ h _ := h
  own _ h := .inl h
  kept _ h _ := h
  logged := logged_after.1
  unlogged := logged_after.2
  owned row h howner := ⟨row, h, rfl, rfl, howner⟩
  unclaimed _ h _ := h
  writes op' h := by
    rcases mem_after.mp h with h | heq
    · exact .inl h
    · obtain rfl := (Prod.mk.inj heq).2
      refine .inr fun id hid => ?_
      rw [hwrites id] at hid
      cases hid

/-- A write over a row of the service that has another key. -/
theorem neutral_update (side : Side) {row : StoredHttpPath} {patch : Obj} (hrow : row ∈ w.store.rows)
    (howner : row.get "owner" = .str service) (hkey : row.key ≠ some key)
    (hpatchKey : (row.patched patch).key = row.key)
    (hpatchOwner : (row.patched patch).get "owner" = .str service) :
    ∃ updated store', w.store.updateById (.str row._id) patch = (.ok updated, store') ∧
      Neutral side service key w (w.after side (.updateById (.str row._id) patch) store') := by
  -- a new line of the log writes this row, or none
  have hlog (op : PathOp) (store' : PathStore)
      (h : (side, op) ∈ (w.after side (.updateById (.str row._id) patch) store').asked) :
      (side, op) ∈ w.asked ∨ ∀ id, op.writes id = true →
        ∃ r ∈ w.store.rows, r._id = id ∧ r.get "owner" = .str service ∧ r.key ≠ some key := by
    rcases mem_after.mp h with h | heq
    · exact .inl h
    · obtain rfl := (Prod.mk.inj heq).2
      refine .inr fun id hid => ⟨row, hrow, ?_, howner, hkey⟩
      exact Value.str.inj ((Value.isText_iff _ _).mp hid)
  have hupdated := w.store.updateById_spec (.str row._id) patch
  generalize w.store.updateById (.str row._id) patch = result at hupdated ⊢
  cases hupdated with
  | missing hnone =>
      rw [PathStore.findById_of_mem hrow] at hnone
      cases hnone
  -- nothing else has the key of the row, so there is no conflict
  | conflict row' other hrow' hid hother hne k hk htaken =>
      obtain rfl := PathStore.eq_of_id hrow hrow' (Value.str.inj hid)
      rw [hpatchKey] at hk
      exact absurd (congrArg StoredHttpPath._id (PathStore.eq_of_key hother hrow htaken hk)) hne
  | stored row' store' hrow' hid hmem =>
      obtain rfl := PathStore.eq_of_id hrow hrow' (Value.str.inj hid)
      refine ⟨_, store', rfl, ⟨⟨?_, ?_, ?_, logged_after.1, logged_after.2⟩, ?_, ?_, fun op => hlog op store'⟩⟩
      · intro r hr hforeign
        refine (hmem r).mpr (.inl ⟨hr, fun hid => hforeign ?_⟩)
        rw [PathStore.eq_of_id hr hrow hid]
        exact howner
      · intro r hr
        rcases (hmem r).mp hr with ⟨hr, -⟩ | rfl
        · exact .inl hr
        · exact .inr hpatchOwner
      · intro r hr hrkey
        refine (hmem r).mpr (.inl ⟨hr, fun hid => hkey ?_⟩)
        rw [← PathStore.eq_of_id hr hrow hid]
        exact hrkey
      · intro r hr hrowner
        by_cases hid : r._id = row._id
        · obtain rfl := PathStore.eq_of_id hr hrow hid
          exact ⟨_, (hmem _).mpr (.inr rfl), rfl, hpatchKey, hpatchOwner⟩
        · exact ⟨r, (hmem r).mpr (.inl ⟨hr, hid⟩), rfl, rfl, hrowner⟩
      · intro r hr hrkey
        rcases (hmem r).mp hr with ⟨hr, -⟩ | rfl
        · exact hr
        · exact absurd (hpatchKey.symm.trans hrkey) hkey

/-- What an insert of the service ends in: a conflict with a row that has its key, or a new row. -/
inductive RaceInserted (side : Side) (service key : String) (w : RaceWorld) (k : String) (model : Obj) :
    Except Thrown StoredHttpPath × PathStore → Prop
  | conflict (row : StoredHttpPath) (hrow : row ∈ w.store.rows) (htaken : row.key = some k) :
      RaceInserted side service key w k model (.error conflictError, w.store)
  | stored (row : StoredHttpPath) (store' : PathStore) (hrow : row ∈ store'.rows) (hkey : row.key = some k)
      (hcolumns : row.columns = Obj.assign [] model)
      (hmoves : Moves side service key w (w.after side (.insert model) store'))
      (hneutral : k ≠ key → Neutral side service key w (w.after side (.insert model) store'))
      (hkept : ∀ r ∈ w.store.rows, r ∈ store'.rows) :
      RaceInserted side service key w k model (.ok row, store')

theorem raceInserted (side : Side) (key : String) (w : RaceWorld) {k : String} {model : Obj}
    (hmodelKey : Obj.own model "routeKey" = some (.str k))
    (hmodelOwner : Obj.own model "owner" = some (.str service)) :
    RaceInserted side service key w k model (w.store.insert model) := by
  have hkeyOf : keyText (Obj.assign [] model) = some k := by
    rw [keyText_eq_some, Obj.get_assign, hmodelKey]
    rfl
  have hinserted := w.store.insert_spec model
  generalize w.store.insert model = result at hinserted ⊢
  cases hinserted with
  | conflict row hrow k' hk' htaken =>
      obtain rfl := Option.some.inj (hkeyOf.symm.trans hk')
      exact .conflict row hrow htaken
  | stored row store' hcolumns hnew hfree hmem =>
      have hkey : row.key = some k := by
        unfold StoredHttpPath.key
        rw [hcolumns]
        exact hkeyOf
      have howner : row.get "owner" = .str service := by
        rw [row.get_of_ne (by decide), hcolumns, Obj.get_assign, hmodelOwner]
        rfl
      have hkept : ∀ r ∈ w.store.rows, r ∈ store'.rows := fun r hr => (hmem r).mpr (.inl hr)
      have hmoves : Moves side service key w (w.after side (.insert model) store') := by
        refine ⟨fun r hr _ => hkept r hr, fun r hr => ?_, fun r hr _ => hkept r hr, logged_after.1,
          logged_after.2⟩
        rcases (hmem r).mp hr with hr | rfl
        · exact .inl hr
        · exact .inr howner
      refine .stored row store' ((hmem row).mpr (.inr rfl)) hkey hcolumns hmoves (fun hne => ?_) hkept
      refine ⟨hmoves, fun r hr hrowner => ⟨r, hkept r hr, rfl, rfl, hrowner⟩, fun r hr hrkey => ?_,
        fun op h => ?_⟩
      · rcases (hmem r).mp hr with hr | rfl
        · exact hr
        · exact absurd (Option.some.inj (hkey.symm.trans hrkey)) hne
      · rcases mem_after.mp h with h | heq
        · exact .inl h
        · obtain rfl := (Prod.mk.inj heq).2
          exact .inr fun id hid => by cases hid

end Moves

/-! ## One side, while the other writes -/

/-- One side of the race: the service it works for, and the service of the other side. -/
structure Racer where
  side : Side
  service : String
  rival : String
  key : String
  named : service ∉ ["", "manual", "yaml"]
  rivalNamed : rival ∉ ["", "manual", "yaml"]
  distinct : rival ≠ service

theorem Side.other_ne (side : Side) : side.other ≠ side := by cases side <;> decide

theorem Side.other_other (side : Side) : side.other.other = side := by cases side <;> rfl

namespace Racer

/-- What the side relies on the other side to do. -/
def rely (x : Racer) : RaceWorld → RaceWorld → Prop := Moves x.side.other x.rival x.key

/-- What it guarantees. -/
def guarantee (x : Racer) : RaceWorld → RaceWorld → Prop := Moves x.side x.service x.key

/-- A script of this side, while the other side writes. -/
abbrev Plays {α : Type} (x : Racer) (env : RaceEnv) (P : RaceWorld → Prop) (p : PathScript α)
    (Q : α → RaceWorld → Prop) (E : Thrown → RaceWorld → Prop) : Prop :=
  Holds (env.service x.side) x.rely x.guarantee P p Q E

/-- A script of this side that throws nothing. -/
abbrev Returns {α : Type} (x : Racer) (env : RaceEnv) (P : RaceWorld → Prop) (p : PathScript α)
    (Q : α → RaceWorld → Prop) : Prop :=
  x.Plays env P p Q fun _ _ => False

/-- A condition that only an insert under the key can end. -/
structure Lasting (x : Racer) (P : RaceWorld → Prop) : Prop where
  stable : Stable x.rely P
  neutral : ∀ w w', Neutral x.side x.service x.key w w' → P w → P w'

/-- A row of the service, under this key and not the contested one, is stored. -/
def Owns (x : Racer) (id k : String) (w : RaceWorld) : Prop :=
  k ≠ x.key ∧ ∃ row ∈ w.store.rows, row._id = id ∧ row.key = some k ∧ row.get "owner" = .str x.service

/-- Every row that this side has asked to write is one of these. -/
def Standing (x : Racer) (w : RaceWorld) : Prop :=
  ∀ op, (x.side, op) ∈ w.asked → ∀ id, op.writes id = true →
    ∃ row ∈ w.store.rows, row._id = id ∧ row.get "owner" = .str x.service ∧ row.key ≠ some x.key

/-- The contested key is free, or the rival's. -/
def Open (x : Racer) (w : RaceWorld) : Prop :=
  ∀ row ∈ w.store.rows, row.key = some x.key → row.get "owner" = .str x.rival

/-- The owner of every row prints. -/
def Printing (_ : Racer) (w : RaceWorld) : Prop := ∀ row ∈ w.store.rows, prints row.ownerName = true

/-- The rival has the contested key. -/
def Taken (x : Racer) (w : RaceWorld) : Prop :=
  ∃ row ∈ w.store.rows, row.key = some x.key ∧ row.get "owner" = .str x.rival

/-- The journal was asked for an entry. -/
def Logged (x : Racer) (entry : RouteSyncLogEntry) (w : RaceWorld) : Prop :=
  (x.side, .journal entry) ∈ w.asked

/-- The route of this side is stored as it was inserted. -/
def Won (x : Racer) (v : Value) (w : RaceWorld) : Prop :=
  ∃ row ∈ w.store.rows, row.key = some x.key ∧
    row.columns = Obj.assign [] (upsertModel x.service x.key (fieldsOf v) true .none)

/-- The rival has the key, and this side has journaled it. -/
def Lost (x : Racer) (w : RaceWorld) : Prop :=
  x.Taken w ∧ ∃ entry, x.Logged entry w ∧ ReportsCollision x.service x.key x.rival entry

section Lasting

variable {x : Racer} {P Q : RaceWorld → Prop}

theorem steady (x : Racer) : Steady x.rely := Moves.steady _ _ _

theorem lasting_const (p : Prop) : x.Lasting fun _ => p := ⟨fun _ _ _ h => h, fun _ _ _ h => h⟩

theorem Lasting.and (hP : x.Lasting P) (hQ : x.Lasting Q) : x.Lasting fun w => P w ∧ Q w :=
  ⟨fun s s' h hs => ⟨hP.stable s s' h hs.1, hQ.stable s s' h hs.2⟩,
    fun s s' h hs => ⟨hP.neutral s s' h hs.1, hQ.neutral s s' h hs.2⟩⟩

theorem Lasting.or (hP : x.Lasting P) (hQ : x.Lasting Q) : x.Lasting fun w => P w ∨ Q w :=
  ⟨fun s s' h hs => hs.imp (hP.stable s s' h) (hQ.stable s s' h),
    fun s s' h hs => hs.imp (hP.neutral s s' h) (hQ.neutral s s' h)⟩

theorem lasting_all {β : Type} {p : β → Prop} {P : β → RaceWorld → Prop} (hP : ∀ b, p b → x.Lasting (P b)) :
    x.Lasting fun w => ∀ b, p b → P b w :=
  ⟨fun s s' h hs b hb => (hP b hb).stable s s' h (hs b hb),
    fun s s' h hs b hb => (hP b hb).neutral s s' h (hs b hb)⟩

theorem lasting_imp {p : Prop} (hP : x.Lasting P) : x.Lasting fun w => p → P w :=
  ⟨fun s s' h hs hp => hP.stable s s' h (hs hp), fun s s' h hs hp => hP.neutral s s' h (hs hp)⟩

theorem lasting_exists {β : Type} {P : β → RaceWorld → Prop} (hP : ∀ b, x.Lasting (P b)) :
    x.Lasting fun w => ∃ b, P b w :=
  ⟨fun s s' h ⟨b, hb⟩ => ⟨b, (hP b).stable s s' h hb⟩, fun s s' h ⟨b, hb⟩ => ⟨b, (hP b).neutral s s' h hb⟩⟩

theorem lasting_owns (id k : String) : x.Lasting (x.Owns id k) where
  stable := by
    rintro w w' h ⟨hk, row, hrow, hid, hkey, howner⟩
    refine ⟨hk, row, h.others row hrow fun hrival => ?_, hid, hkey, howner⟩
    exact x.distinct (Value.str.inj (hrival.symm.trans howner))
  neutral := by
    rintro w w' h ⟨hk, row, hrow, hid, hkey, howner⟩
    obtain ⟨row', hrow', hid', hkey', howner'⟩ := h.owned row hrow howner
    exact ⟨hk, row', hrow', hid'.trans hid, hkey'.trans hkey, howner'⟩

theorem lasting_standing : x.Lasting x.Standing where
  stable := by
    intro w w' h hstanding op hop id hid
    rcases h.unlogged _ hop with hop | hside
    · obtain ⟨row, hrow, hrowId, howner, hkey⟩ := hstanding op hop id hid
      refine ⟨row, h.others row hrow fun hrival => ?_, hrowId, howner, hkey⟩
      exact x.distinct (Value.str.inj (hrival.symm.trans howner))
    · exact absurd hside.symm x.side.other_ne
  neutral := by
    intro w w' h hstanding op hop id hid
    have hnamed : ∃ row ∈ w.store.rows, row._id = id ∧ row.get "owner" = .str x.service ∧
        row.key ≠ some x.key := by
      rcases h.writes op hop with hop | hwrites
      · exact hstanding op hop id hid
      · exact hwrites id hid
    obtain ⟨row, hrow, hrowId, howner, hkey⟩ := hnamed
    obtain ⟨row', hrow', hid', hkey', howner'⟩ := h.owned row hrow howner
    exact ⟨row', hrow', hid'.trans hrowId, howner', hkey' ▸ hkey⟩

theorem lasting_open : x.Lasting x.Open where
  stable _ _ h hopen row hrow hkey := (h.own row hrow).elim (fun hold => hopen row hold hkey) id
  neutral _ _ h hopen row hrow hkey := hopen row (h.unclaimed row hrow hkey) hkey

/-- Whoever adds a row is a service, with a text for a name. -/
theorem lasting_printing : x.Lasting x.Printing where
  stable _ _ h hprinting row hrow := by
    rcases h.own row hrow with hold | howner
    · exact hprinting row hold
    · rw [ownerName_of_owner howner]
      rfl
  neutral _ _ h hprinting row hrow := by
    rcases h.own row hrow with hold | howner
    · exact hprinting row hold
    · rw [ownerName_of_owner howner]
      rfl

theorem lasting_taken : x.Lasting x.Taken where
  stable _ _ h := fun ⟨row, hrow, hkey, howner⟩ => ⟨row, h.kept row hrow hkey, hkey, howner⟩
  neutral _ _ h := fun ⟨row, hrow, hkey, howner⟩ => ⟨row, h.kept row hrow hkey, hkey, howner⟩

theorem lasting_won (v : Value) : x.Lasting (x.Won v) where
  stable _ _ h := fun ⟨row, hrow, hkey, hcolumns⟩ => ⟨row, h.kept row hrow hkey, hkey, hcolumns⟩
  neutral _ _ h := fun ⟨row, hrow, hkey, hcolumns⟩ => ⟨row, h.kept row hrow hkey, hkey, hcolumns⟩

theorem lasting_logged (entry : RouteSyncLogEntry) : x.Lasting (x.Logged entry) where
  stable _ _ h := h.logged _
  neutral _ _ h := h.logged _

theorem lasting_lost : x.Lasting x.Lost :=
  lasting_taken.and (lasting_exists fun entry => (lasting_logged entry).and (lasting_const _))

end Lasting

/-! ## Its operations -/

section Operations

variable {x : Racer} {env : RaceEnv} {P : RaceWorld → Prop}

theorem service_onPaths {side : Side} {op : PathOp} (hop : op.isOnPaths = true) (w : RaceWorld) :
    env.service side w op = ((w.store.perform op).1, w.after side op (w.store.perform op).2) := by
  unfold RaceEnv.service
  rw [if_pos hop]

/-- What is asked of the journal or of the broker leaves the table, whether it fails or not. -/
theorem service_beside (env : RaceEnv) (side : Side) {op : PathOp} (hop : op.isOnPaths = false)
    (w : RaceWorld) :
    ∃ answer, env.service side w op = (answer, w.after side op w.store) ∧
      ∀ e, answer = .error e → e.reads = true := by
  have hstore : (w.store.perform op).2 = w.store := by cases op <;> first | rfl | cases hop
  have hanswers : ∃ a, (w.store.perform op).1 = .ok a := by
    cases op <;> first | exact ⟨(), rfl⟩ | cases hop
  unfold RaceEnv.service
  rw [if_neg (by rw [hop]; decide), hstore]
  split
  next e he =>
    refine ⟨.error e, rfl, ?_⟩
    rintro _ ⟨⟩
    exact env.reads _ _ e he
  next =>
    obtain ⟨a, ha⟩ := hanswers
    rw [ha]
    exact ⟨_, rfl, nofun⟩

/-- Looking rows up by key. -/
theorem plays_findByRouteKey {k : String} {Q : List StoredHttpPath → RaceWorld → Prop} (hP : Stable x.rely P)
    (hQ : ∀ rows, x.Lasting (Q rows)) (h : ∀ w, P w → Q (w.store.findByRouteKey k) w) :
    x.Returns env P (findByRouteKey k) Q := by
  refine holds_perform hP (fun rows => (hQ rows).stable) (fun _ _ _ _ h => h) fun w hw => ?_
  rw [service_onPaths rfl]
  have hneutral : Neutral x.side x.service x.key w (w.after x.side (.findByRouteKey k) w.store) :=
    neutral_after fun _ => rfl
  exact ⟨hneutral.toMoves, (hQ _).neutral _ _ hneutral (h w hw)⟩

/-- Looking the rows of an owner up. -/
theorem plays_findByOwner {owner : String} {Q : List StoredHttpPath → RaceWorld → Prop} (hP : Stable x.rely P)
    (hQ : ∀ rows, x.Lasting (Q rows)) (h : ∀ w, P w → Q (w.store.findByOwner owner) w) :
    x.Returns env P (findByOwner owner) Q := by
  refine holds_perform hP (fun rows => (hQ rows).stable) (fun _ _ _ _ h => h) fun w hw => ?_
  rw [service_onPaths rfl]
  have hneutral : Neutral x.side x.service x.key w (w.after x.side (.findByOwner owner) w.store) :=
    neutral_after fun _ => rfl
  exact ⟨hneutral.toMoves, (hQ _).neutral _ _ hneutral (h w hw)⟩

/-- What is asked of the journal or of the broker: it is on the log, and nothing else has changed. -/
theorem plays_beside {op : PathOp} (hop : op.isOnPaths = false) (hP : x.Lasting P)
    {handler : Thrown → PathScript (PathAns op)} (hhandler : ∀ e, e.reads = true → ∃ a, handler e = pure a) :
    x.Returns env P ((perform op : PathScript (PathAns op)).tryCatch handler)
      fun _ w => P w ∧ (x.side, op) ∈ w.asked := by
  have hlogged : Stable x.rely fun w => P w ∧ (x.side, op) ∈ w.asked :=
    fun w w' h hw => ⟨hP.stable w w' h hw.1, h.logged _ hw.2⟩
  refine holds_tryCatch x.steady (E := fun e w => e.reads = true ∧ P w ∧ (x.side, op) ∈ w.asked) ?_ fun e => ?_
  · refine holds_perform hP.stable (fun _ => hlogged)
      (fun _ w w' h hw => ⟨hw.1, hlogged w w' h hw.2⟩) fun w hw => ?_
    have hneutral : Neutral x.side x.service x.key w (w.after x.side op w.store) :=
      neutral_after (PathOp.writes_of_beside hop)
    obtain ⟨answer, hanswer, hreads⟩ := service_beside env x.side hop w
    rw [hanswer]
    have hafter : P (w.after x.side op w.store) ∧ (x.side, op) ∈ (w.after x.side op w.store).asked :=
      ⟨hP.neutral _ _ hneutral hw, mem_after.mpr (.inr rfl)⟩
    refine ⟨hneutral.toMoves, ?_⟩
    cases answer with
    | ok a => exact hafter
    | error e => exact ⟨hreads e rfl, hafter⟩
  · rintro w ⟨hreads, hw⟩
    obtain ⟨a, ha⟩ := hhandler e hreads
    rw [ha]
    exact holds_pure hlogged (fun _ h => h) w hw

/-- A log line about a failure that prints. -/
theorem messageLine_returns {e : Thrown} (hreads : e.reads = true) :
    ∃ a, (ofExcept e.messageLine : PathScript Unit) = pure a := by
  rw [Thrown.messageLine_of_reads hreads]
  exact ⟨(), rfl⟩

/-- A journal entry. -/
theorem plays_journal (entry : RouteSyncLogEntry) (hP : x.Lasting P) :
    x.Returns env P (journal entry) fun _ w => P w ∧ x.Logged entry w :=
  plays_beside rfl hP fun _ => messageLine_returns

/-- A line that prints an owner. -/
theorem plays_printed {v : Value} (hP : x.Lasting P) (hprints : ∀ w, P w → prints v = true) :
    x.Returns env P (ofExcept (printed v)) fun _ => P := by
  intro w hw
  rw [printed_of_prints (hprints w hw)]
  exact holds_pure hP.stable (fun _ h => h) w hw

/-- A patch leaves a row of the service that has this key under it, and its own. -/
def Fits (x : Racer) (k : String) (patch : Obj) : Prop :=
  ∀ row : StoredHttpPath, row.key = some k → row.get "owner" = .str x.service →
    (row.patched patch).key = some k ∧ (row.patched patch).get "owner" = .str x.service

theorem fits_upsert {u : RouteUpsert} (hkey : Obj.own u.model "routeKey" = some (.str u.routeKey))
    (howner : Obj.own u.model "owner" = some (.str x.service)) : x.Fits u.routeKey u.model := by
  refine fun row _ _ => ⟨row.key_patched hkey, ?_⟩
  rw [row.get_patched _ (by decide), howner]
  rfl

theorem fits_disable (k : String) : x.Fits k [("enabled", .bool false)] := by
  refine fun row hkey howner => ⟨(row.key_patched_of_none rfl).trans hkey, ?_⟩
  rw [row.get_patched _ (by decide)]
  exact howner

/-- A write over a row of the service. -/
theorem plays_updateById {id k : String} {patch : Obj} (hP : x.Lasting P) (hfits : x.Fits k patch)
    (howns : ∀ w, P w → x.Owns id k w) : x.Returns env P (updateById (.str id) patch) fun _ => P := by
  refine holds_perform hP.stable (fun _ => hP.stable) (fun _ _ _ _ h => h) fun w hw => ?_
  obtain ⟨hk, row, hrow, rfl, hkey, howner⟩ := howns w hw
  obtain ⟨hkey', howner'⟩ := hfits row hkey howner
  have hfree : row.key ≠ some x.key := fun heq => hk (Option.some.inj (hkey.symm.trans heq))
  obtain ⟨updated, store', hupdate, hneutral⟩ :=
    neutral_update x.side hrow howner hfree (hkey'.trans hkey.symm) howner'
  rw [service_onPaths rfl]
  show Moves _ _ _ _ (w.after _ _ (w.store.updateById _ _).2) ∧ Ends _ _ ((w.store.updateById _ _).1, _)
  rw [hupdate]
  refine ⟨hneutral.toMoves, ?_⟩
  show P (w.after _ _ (w.store.updateById _ _).2)
  rw [hupdate]
  exact hP.neutral _ _ hneutral hw

/-- An insert under another key: it is refused, or nothing that lasts has changed. -/
theorem plays_insert {k : String} {model : Obj} (hP : x.Lasting P) (hk : k ≠ x.key)
    (hkey : Obj.own model "routeKey" = some (.str k)) (howner : Obj.own model "owner" = some (.str x.service)) :
    x.Plays env P (insert model) (fun _ => P) fun e w => e = conflictError ∧ P w := by
  refine holds_perform hP.stable (fun _ => hP.stable)
    (fun e => ((lasting_const _).and hP).stable) fun w hw => ?_
  have hinserted := raceInserted x.side x.key w hkey howner
  rw [service_onPaths rfl]
  show Moves _ _ _ _ (w.after _ _ (w.store.insert _).2) ∧
    Ends _ _ ((w.store.insert _).1, w.after _ _ (w.store.insert _).2)
  generalize w.store.insert model = result at hinserted ⊢
  cases hinserted with
  | conflict row hrow htaken =>
      have hneutral : Neutral x.side x.service x.key w (w.after x.side (.insert model) w.store) :=
        neutral_after fun _ => rfl
      exact ⟨hneutral.toMoves, rfl, hP.neutral _ _ hneutral hw⟩
  | stored row store' hrow hrowKey hcolumns hmoves hneutral =>
      exact ⟨hmoves, hP.neutral _ _ (hneutral hk) hw⟩

/-- What this side knows of the rows of its service, of the rows it has asked to write, and of the owners of
all. -/
structure Base (x : Racer) (rows : List StoredHttpPath) (w : RaceWorld) : Prop where
  standing : x.Standing w
  owned : ∀ row, row ∈ rows → ∀ k, row.key = some k → x.Owns row._id k w
  printing : x.Printing w

theorem lasting_base (rows : List StoredHttpPath) : x.Lasting (x.Base rows) := by
  have howned : x.Lasting fun w => ∀ row, row ∈ rows → ∀ k, row.key = some k → x.Owns row._id k w :=
    lasting_all fun _ _ => lasting_all fun _ _ => lasting_owns _ _
  have hparts := lasting_standing.and (howned.and lasting_printing)
  constructor
  · intro w w' h hw
    obtain ⟨hstanding, howned, hprinting⟩ := hparts.stable w w' h ⟨hw.standing, hw.owned, hw.printing⟩
    exact ⟨hstanding, howned, hprinting⟩
  · intro w w' h hw
    obtain ⟨hstanding, howned, hprinting⟩ := hparts.neutral w w' h ⟨hw.standing, hw.owned, hw.printing⟩
    exact ⟨hstanding, howned, hprinting⟩

/-- A row more of the service does not change that. -/
theorem Base.insert {rows : List StoredHttpPath} {w : RaceWorld} {model : Obj} {store' : PathStore}
    (h : x.Base rows w) (hmoves : Moves x.side x.service x.key w (w.after x.side (.insert model) store'))
    (hkept : ∀ r ∈ w.store.rows, r ∈ store'.rows) :
    x.Base rows (w.after x.side (.insert model) store') := by
  refine ⟨fun op hop id hid => ?_, fun row hrow k hk => ?_, fun row hrow => ?_⟩
  · rcases mem_after.mp hop with hop | heq
    · obtain ⟨row, hrow, hrowId⟩ := h.standing op hop id hid
      exact ⟨row, hkept row hrow, hrowId⟩
    · rw [(Prod.mk.inj heq).2] at hid
      cases hid
  · obtain ⟨hne, r, hr, hrowns⟩ := h.owned row hrow k hk
    exact ⟨hne, r, hkept r hr, hrowns⟩
  · rcases hmoves.own row hrow with hold | howner
    · exact h.printing row hold
    · rw [ownerName_of_owner howner]
      rfl

/-- The insert under the contested key: the row is there, or the rival was first. -/
theorem plays_claim {rows : List StoredHttpPath} {v : Value} {model : Obj}
    (hmodel : model = upsertModel x.service x.key (fieldsOf v) true .none) :
    x.Plays env (fun w => x.Base rows w ∧ x.Open w) (insert model) (fun _ w => x.Base rows w ∧ x.Won v w)
      fun e w => e = conflictError ∧ x.Base rows w ∧ x.Taken w := by
  have hkey : Obj.own model "routeKey" = some (.str x.key) := hmodel ▸ own_upsertModel_routeKey
  have howner : Obj.own model "owner" = some (.str x.service) := hmodel ▸ own_upsertModel_owner
  refine holds_perform ((lasting_base rows).and lasting_open).stable
    (fun _ => ((lasting_base rows).and (lasting_won v)).stable)
    (fun _ => ((lasting_const _).and ((lasting_base rows).and lasting_taken)).stable) fun w ⟨hbase, hopen⟩ => ?_
  have hinserted := raceInserted x.side x.key w hkey howner
  rw [service_onPaths rfl]
  show Moves _ _ _ _ (w.after _ _ (w.store.insert _).2) ∧
    Ends _ _ ((w.store.insert _).1, w.after _ _ (w.store.insert _).2)
  generalize w.store.insert model = result at hinserted ⊢
  cases hinserted with
  | conflict row hrow htaken =>
      have hneutral : Neutral x.side x.service x.key w (w.after x.side (.insert model) w.store) :=
        neutral_after fun _ => rfl
      exact ⟨hneutral.toMoves, rfl, (lasting_base rows).neutral _ _ hneutral hbase, row, hrow, htaken,
        hopen row hrow htaken⟩
  | stored row store' hrow hrowKey hcolumns hmoves hneutral hkept =>
      exact ⟨hmoves, hbase.insert hmoves hkept, row, hrow, hrowKey,
        hcolumns.trans (congrArg (Obj.assign []) hmodel)⟩

/-! ## Its upserts -/

theorem isText_ownerName {row : StoredHttpPath} {service : String} (hnamed : service ≠ "manual")
    (h : row.ownerName.isText service = true) : row.get "owner" = .str service := by
  rcases ownerName_eq_iff.mp ((Value.isText_iff _ _).mp h) with howner | ⟨-, hmanual⟩
  · exact howner
  · exact absurd hmanual hnamed

theorem ne_manual (x : Racer) : x.service ≠ "manual" := fun h => x.named (by simp [h])

/-- The owner of the row that was first prints, when the owners of all do. -/
theorem prints_winnerOf {service : String} {rows : List StoredHttpPath}
    (h : ∀ c ∈ rows, prints c.ownerName = true) : prints (winnerOf service rows) = true := by
  unfold winnerOf
  cases hfind : rows.find? fun c => !c.ownerName.isText service with
  | none => rfl
  | some c => exact h c (List.mem_of_find?_eq_some hfind)

/-- The catch block of a write under another key: nothing that lasts changes. -/
theorem plays_reconcile {u : RouteUpsert} (hP : x.Lasting P) (hprinting : ∀ w, P w → x.Printing w)
    (hk : u.routeKey ≠ x.key) (hfits : x.Fits u.routeKey u.model) :
    x.Returns env P (reconcile x.service u) fun _ => P := by
  have hfound (rows : List StoredHttpPath) : x.Lasting fun w => (P w ∧
      ∀ c ∈ rows, prints (StoredHttpPath.ownerName c) = true) ∧
      ∀ mine, rows.find? (fun c => c.ownerName.isText x.service) = some mine → x.Owns mine._id u.routeKey w :=
    (hP.and (lasting_const _)).and (lasting_all fun _ _ => lasting_owns _ _)
  unfold reconcile
  refine holds_bind x.steady (plays_findByRouteKey hP.stable hfound fun w hw =>
    ⟨⟨hw, fun c hc => hprinting w hw c (PathStore.mem_findByRouteKey.mp hc).1⟩, fun mine hmine => ?_⟩)
    fun clashes => ?_
  · have hmem := PathStore.mem_findByRouteKey.mp (List.mem_of_find?_eq_some hmine)
    have hmine := List.find?_some (p := fun c => StoredHttpPath.ownerName c |>.isText x.service) hmine
    exact ⟨hk, mine, hmem.1, rfl, hmem.2, isText_ownerName x.ne_manual hmine⟩
  · split
    next mine hmine =>
      refine holds_bind x.steady (Q := fun _ => P) ?_ fun _ => holds_pure hP.stable fun _ h => h
      refine (plays_updateById (hP.and (lasting_owns mine._id u.routeKey)) hfits fun w hw => hw.2).mono ?_ ?_ ?_
      · exact fun w hw => ⟨hw.1.1, hw.2 mine hmine⟩
      · exact fun _ _ hw => hw.1
      · exact fun _ _ h => h
    next =>
      refine holds_bind x.steady (Q := fun _ => P) ?_ fun _ => ?_
      · exact (plays_printed (hfound clashes) fun w hw => prints_winnerOf hw.1.2).mono (fun _ h => h)
          (fun _ _ hw => hw.1.1) fun _ _ h => h
      · refine holds_bind x.steady (Q := fun _ => P) ?_ fun _ => holds_pure hP.stable fun _ h => h
        exact (plays_journal _ hP).mono (fun _ hw => hw) (fun _ _ hw => hw.1) fun _ _ h => h

/-- The catch block under the contested key: the rival's row is found, and journaled. -/
theorem plays_reconcile_lost {rows : List StoredHttpPath} {u : RouteUpsert} (hkey : u.routeKey = x.key) :
    x.Returns env (fun w => x.Base rows w ∧ x.Taken w) (reconcile x.service u)
      fun added w => added = none ∧ x.Base rows w ∧ x.Lost w := by
  have hP : x.Lasting fun w => x.Base rows w ∧ x.Taken w := (lasting_base rows).and lasting_taken
  unfold reconcile
  refine holds_bind x.steady (Q := fun clashes w => (x.Base rows w ∧ x.Taken w) ∧
    clashes ≠ [] ∧ ∀ c ∈ clashes, StoredHttpPath.get c "owner" = .str x.rival) ?_ fun clashes => ?_
  · refine plays_findByRouteKey hP.stable (fun _ => hP.and (lasting_const _)) fun w hw => ⟨hw, ?_⟩
    obtain ⟨-, row, hrow, hrowKey, howner⟩ := hw
    rw [hkey]
    refine ⟨List.ne_nil_of_mem (PathStore.mem_findByRouteKey.mpr ⟨hrow, hrowKey⟩), fun c hc => ?_⟩
    obtain ⟨hcmem, hcKey⟩ := PathStore.mem_findByRouteKey.mp hc
    rw [PathStore.eq_of_key hcmem hrow hcKey hrowKey]
    exact howner
  -- the rival has the key, so no row that is found is the service's own
  · have hforeign (h : ∀ c ∈ clashes, StoredHttpPath.get c "owner" = .str x.rival) :
        ∀ c ∈ clashes, c.ownerName.isText x.service = false := by
      intro c hc
      rw [ownerName_of_owner (h c hc), Bool.eq_false_iff]
      exact fun htext => x.distinct (Value.str.inj ((Value.isText_iff _ _).mp htext))
    split
    next mine hmine =>
      rintro w ⟨-, -, howners⟩
      have hmine' := List.find?_some hmine
      rw [hforeign howners mine (List.mem_of_find?_eq_some hmine)] at hmine'
      cases hmine'
    next =>
      rintro w ⟨hw, hne, howners⟩
      have howner : winnerOf x.service clashes = .str x.rival := by
        unfold winnerOf
        cases hfind : clashes.find? fun c => !c.ownerName.isText x.service with
        | some c =>
            have howner := howners c (List.mem_of_find?_eq_some hfind)
            exact ownerName_of_owner howner
        | none =>
            obtain ⟨c, hc⟩ := List.exists_mem_of_ne_nil clashes hne
            have hnone := List.find?_eq_none.mp hfind c hc
            rw [hforeign howners c hc] at hnone
            exact absurd rfl hnone
      dsimp only
      rw [howner]
      refine holds_bind x.steady (plays_printed hP fun _ _ => rfl) (fun _ => ?_) w hw
      refine holds_bind x.steady (plays_journal _ hP) fun _ => ?_
      refine holds_pure (hP.and (lasting_logged _)).stable fun w hw => ⟨rfl, hw.1.1, hw.1.2, _, hw.2, ?_⟩
      exact ⟨rfl, rfl, congrArg Value.str hkey, rfl⟩

/-- An upsert of another key. -/
theorem plays_applyUpsert {u : RouteUpsert} (hP : x.Lasting P) (hprinting : ∀ w, P w → x.Printing w) (hk : u.routeKey ≠ x.key)
    (hkey : Obj.own u.model "routeKey" = some (.str u.routeKey))
    (howner : Obj.own u.model "owner" = some (.str x.service))
    (howns : ∀ id, u.existingId = some id → ∀ w, P w → x.Owns id u.routeKey w) :
    x.Returns env P (applyUpsert x.service u) fun _ => P := by
  have hreturns : x.Returns env P (writeUpsert x.service u) fun _ => P := by
    unfold writeUpsert
    refine holds_tryCatch x.steady (E := fun e w => e = conflictError ∧ P w) ?_ fun e => ?_
    · split
      next id hid =>
        refine holds_bind x.steady (Q := fun _ => P) ?_ fun _ => holds_pure hP.stable fun _ h => h
        exact (plays_updateById hP (fits_upsert hkey howner) (howns id hid)).mono (fun _ h => h)
          (fun _ _ h => h) fun _ _ h => h.elim
      next =>
        exact holds_bind x.steady (plays_insert hP hk hkey howner) fun _ => holds_pure hP.stable fun _ h => h
    · split
      next => exact fun w hw => plays_reconcile hP hprinting hk (fits_upsert hkey howner) w hw.2
      next hconflict =>
        rintro w ⟨rfl, -⟩
        exact absurd rfl hconflict
  unfold applyUpsert
  refine holds_bind x.steady hreturns fun added => ?_
  cases added with
  | none => exact holds_pure hP.stable fun _ h => h
  | some added => exact (plays_journal _ hP).mono (fun _ h => h) (fun _ _ h => h.1) fun _ _ h => h

/-- What the contested key comes to for this side. -/
def Outcome (x : Racer) (v : Value) (w : RaceWorld) : Prop := x.Won v w ∨ x.Lost w

theorem lasting_outcome (v : Value) : x.Lasting (x.Outcome v) := (lasting_won v).or lasting_lost

/-- The upsert of the contested key. -/
theorem plays_applyUpsert_claim (rows : List StoredHttpPath) {u : RouteUpsert} {v : Value}
    (hkey : u.routeKey = x.key) (hnew : u.existingId = none)
    (hmodel : u.model = upsertModel x.service x.key (fieldsOf v) true .none) :
    x.Returns env (fun w => x.Base rows w ∧ x.Open w) (applyUpsert x.service u)
      fun _ w => x.Base rows w ∧ x.Outcome v w := by
  have hwon := (lasting_base (x := x) rows).and (lasting_won v)
  have hlost := (lasting_base (x := x) rows).and lasting_lost
  have hreturns : x.Returns env (fun w => x.Base rows w ∧ x.Open w) (writeUpsert x.service u)
      fun added w => x.Base rows w ∧ ((added = some u.added ∧ x.Won v w) ∨ (added = none ∧ x.Lost w)) := by
    unfold writeUpsert
    rw [hnew]
    refine holds_tryCatch x.steady (E := fun e w => e = conflictError ∧ x.Base rows w ∧
      x.Taken w) ?_ fun e => ?_
    · exact holds_bind x.steady (plays_claim hmodel) fun _ =>
        holds_pure hwon.stable fun w hw => ⟨hw.1, .inl ⟨rfl, hw.2⟩⟩
    · split
      next =>
        exact (plays_reconcile_lost hkey).mono (fun _ h => h.2) (fun _ _ h => ⟨h.2.1, .inr ⟨h.1, h.2.2⟩⟩)
          fun _ _ h => h
      next hconflict =>
        rintro w ⟨rfl, -⟩
        exact absurd rfl hconflict
  unfold applyUpsert
  refine holds_bind x.steady hreturns fun added => ?_
  cases added with
  | none =>
      rintro w ⟨hbase, ⟨hadded, -⟩ | ⟨-, hw⟩⟩
      · cases hadded
      · exact holds_pure hlost.stable (fun _ h => ⟨h.1, .inr h.2⟩) w ⟨hbase, hw⟩
  | some added =>
      rintro w ⟨hbase, ⟨-, hw⟩ | ⟨hadded, -⟩⟩
      · exact ((plays_journal _ hwon).mono (fun _ h => h) (fun _ _ h => ⟨h.1.1, .inl h.1.2⟩) fun _ _ h => h) w
          ⟨hbase, hw⟩
      · cases hadded

/-! ## Its diff -/

/-- The diff was made for these rows of the service: it upserts each key once, and the contested key as a
new one; the owners it collides with print. -/
structure Diffs (x : Racer) (rows : List StoredHttpPath) (v : Value) (diff : RouteDiff) : Prop where
  distinct : (diff.upserts.map RouteUpsert.routeKey).Nodup
  key : ∀ u ∈ diff.upserts, Obj.own u.model "routeKey" = some (.str u.routeKey)
  owner : ∀ u ∈ diff.upserts, Obj.own u.model "owner" = some (.str x.service)
  update : ∀ u ∈ diff.upserts, ∀ id, u.existingId = some id →
    ∃ row ∈ rows, row._id = id ∧ row.key = some u.routeKey
  claim : ∀ u ∈ diff.upserts, u.routeKey = x.key →
    u.existingId = none ∧ u.model = upsertModel x.service x.key (fieldsOf v) true .none
  disable : ∀ d ∈ diff.disables, ∃ row ∈ rows, row._id = d.id ∧ row.key = some d.routeKey
  printing : ∀ c ∈ diff.collisions, prints c.conflictWith = true

/-- The contested key is among the upserts, or the rival was seen to have it. -/
def Decides (x : Racer) (diff : RouteDiff) (w : RaceWorld) : Prop :=
  x.key ∈ diff.upserts.map RouteUpsert.routeKey ∨
    (x.Taken w ∧ ∃ c ∈ diff.collisions, c.routeKey = x.key ∧ c.conflictWith = .str x.rival)

/-- The collision with the rival is journaled. -/
theorem plays_journalCollision (hP : x.Lasting P) (c : RouteRefusal) (hprints : prints c.conflictWith = true) :
    x.Returns env P (journalCollision x.service c) fun _ w => P w ∧
      (c.routeKey = x.key → c.conflictWith = .str x.rival → ∃ entry, x.Logged entry w ∧
        ReportsCollision x.service x.key x.rival entry) := by
  unfold journalCollision
  split
  next hsilent =>
    refine holds_pure hP.stable fun w hw => ⟨hw, fun _ hrival => ?_⟩
    rw [hrival, Bool.or_eq_true, Value.isText_iff, Value.isText_iff] at hsilent
    refine absurd ?_ x.rivalNamed
    rcases hsilent with h | h <;> rw [Value.str.inj h] <;> simp
  next =>
    refine holds_bind x.steady (plays_printed hP fun _ _ => hprints) fun _ => ?_
    refine (plays_journal _ hP).mono (fun _ h => h) (fun _ w hw => ⟨hw.1, fun hkey hrival => ?_⟩) fun _ _ h => h
    exact ⟨_, hw.2, rfl, rfl, congrArg Value.str hkey, hrival⟩

/-- Journaling changes nothing that lasts. -/
theorem plays_journalEach {β : Type} (l : List β) (entry : β → RouteSyncLogEntry) (hP : x.Lasting P) :
    x.Returns env P (forEach (fun b => journal (entry b)) l) fun _ => P :=
  holds_forEach (J := fun _ => P) x.steady l (fun _ => hP.stable) fun _ _ _ _ =>
    (plays_journal _ hP).mono (fun _ h => h) (fun _ _ h => h.1) fun _ _ h => h

/-- A broadcast, whether it is delivered or not. -/
theorem plays_triggerReload (config : GatewayConfig) (hP : x.Lasting P) :
    x.Returns env P (triggerReload config) fun _ => P := by
  unfold triggerReload
  split
  next topic htopic =>
    split
    next => exact holds_pure hP.stable fun _ h => h
    next =>
      have hpublish : x.Returns env P ((perform (PathOp.publishReload topic) : PathScript Unit).tryCatch
          fun e => ofExcept e.messageLine) fun _ w => P w ∧ (x.side, .publishReload topic) ∈ w.asked :=
        plays_beside rfl hP fun _ => messageLine_returns
      exact hpublish.mono (fun _ h => h) (fun _ _ h => h.1) fun _ _ h => h
  next => exact holds_pure hP.stable fun _ h => h

theorem plays_announceChange (config : GatewayConfig) (diff : RouteDiff) (hP : x.Lasting P) :
    x.Returns env P (announceChange config x.service diff) fun _ => P := by
  unfold announceChange
  split
  · exact holds_bind x.steady (plays_triggerReload config hP) fun _ =>
      (plays_journal _ hP).mono (fun _ h => h) (fun _ _ h => h.1) fun _ _ h => h
  · exact holds_pure hP.stable fun _ h => h

/-- The loop over the upserts: the contested key is open until its upsert is applied. -/
theorem plays_upserts {rows : List StoredHttpPath} {v : Value} {diff : RouteDiff}
    (hdiffs : x.Diffs rows v diff) :
    x.Returns env (fun w => x.Base rows w ∧
        if x.key ∈ diff.upserts.map RouteUpsert.routeKey then x.Open w else x.Outcome v w)
      (forEach (applyUpsert x.service) diff.upserts) fun _ w => x.Base rows w ∧ x.Outcome v w := by
  -- Open while the upsert of the key is still to come, and decided otherwise.
  let J (before : List RouteUpsert) (w : RaceWorld) : Prop := x.Base rows w ∧
    if x.key ∈ diff.upserts.map RouteUpsert.routeKey ∧ x.key ∉ before.map RouteUpsert.routeKey then x.Open w
    else x.Outcome v w
  have hJ (before : List RouteUpsert) : x.Lasting (J before) := by
    refine (lasting_base rows).and ?_
    split
    · exact lasting_open
    · exact lasting_outcome v
  refine (holds_forEach (J := J) x.steady diff.upserts (fun before => (hJ before).stable) ?_).mono ?_ ?_
    fun _ _ h => h
  · intro before u after hupserts
    have hu : u ∈ diff.upserts := by
      rw [hupserts]
      exact List.mem_append_right _ (.head _)
    by_cases hk : u.routeKey = x.key
    · have hlisted : x.key ∈ diff.upserts.map RouteUpsert.routeKey := hk ▸ List.mem_map_of_mem hu
      have hfirst : x.key ∉ before.map RouteUpsert.routeKey := by
        have hdistinct := hdiffs.distinct
        rw [hupserts, List.map_append, List.map_cons, List.nodup_append] at hdistinct
        exact fun hmem => hdistinct.2.2 _ hmem _ (.head _) hk.symm
      obtain ⟨hnew, hmodel⟩ := hdiffs.claim u hu hk
      refine (plays_applyUpsert_claim rows hk hnew hmodel).mono (fun w hw => ?_)
        (fun _ w hw => ?_) fun _ _ h => h
      · exact ⟨hw.1, (if_pos ⟨hlisted, hfirst⟩).mp hw.2⟩
      · refine ⟨hw.1, (if_neg fun hlater => hlater.2 ?_).mpr hw.2⟩
        rw [List.map_append, List.mem_append, List.map_singleton, List.mem_singleton]
        exact .inr hk.symm
    · have hsame : (x.key ∉ (before ++ [u]).map RouteUpsert.routeKey) ↔
          x.key ∉ before.map RouteUpsert.routeKey := by
        rw [List.map_append, List.mem_append, List.map_singleton, List.mem_singleton, or_iff_left (Ne.symm hk)]
      refine (plays_applyUpsert (hJ before) (fun w hw => hw.1.printing) hk (hdiffs.key u hu) (hdiffs.owner u hu) fun id hid w hw => ?_).mono
        (fun _ h => h) (fun _ w hw => ?_) fun _ _ h => h
      · obtain ⟨row, hrow, rfl, hrowKey⟩ := hdiffs.update u hu id hid
        exact hw.1.2 row hrow _ hrowKey
      · show x.Base rows w ∧ if _ ∧ x.key ∉ (before ++ [u]).map RouteUpsert.routeKey then _ else _
        simp only [hsame]
        exact hw
  · rintro w ⟨hbase, hw⟩
    refine ⟨hbase, ?_⟩
    simp only [List.map_nil, List.not_mem_nil, not_false_eq_true, and_true]
    exact hw
  · rintro _ w ⟨hbase, hw⟩
    exact ⟨hbase, (if_neg fun hlater => hlater.2 hlater.1).mp hw⟩

/-- **One side's diff.** -/
theorem plays_applyDiff (config : GatewayConfig) {rows : List StoredHttpPath} {v : Value} {diff : RouteDiff}
    (hdiffs : x.Diffs rows v diff) :
    x.Returns env (fun w => x.Base rows w ∧ x.Open w ∧ x.Decides diff w)
      (applyDiff config x.service diff) fun _ w => x.Base rows w ∧ x.Outcome v w := by
  have hbefore : x.Lasting fun w => x.Base rows w ∧ x.Open w ∧ x.Decides diff w :=
    (lasting_base rows).and (lasting_open.and ((lasting_const _).or (lasting_taken.and (lasting_const _))))
  have hafter : x.Lasting fun w => x.Base rows w ∧ x.Outcome v w := (lasting_base rows).and (lasting_outcome v)
  -- behind the collisions: who is to upsert the key still can, and who is not is done with it
  have hupserts : x.Lasting fun w => x.Base rows w ∧
      if x.key ∈ diff.upserts.map RouteUpsert.routeKey then x.Open w else x.Outcome v w := by
    refine (lasting_base rows).and ?_
    split
    · exact lasting_open
    · exact lasting_outcome v
  unfold applyDiff
  refine holds_bind x.steady (Q := fun _ w => x.Base rows w ∧
    if x.key ∈ diff.upserts.map RouteUpsert.routeKey then x.Open w else x.Outcome v w) ?_ fun _ => ?_
  · -- every collision is logged, the one of the contested key among them
    let J (before : List RouteRefusal) (w : RaceWorld) : Prop :=
      (x.Base rows w ∧ x.Open w ∧ x.Decides diff w) ∧ ∀ c, c ∈ before → c.routeKey = x.key →
        c.conflictWith = .str x.rival → ∃ entry, x.Logged entry w ∧
        ReportsCollision x.service x.key x.rival entry
    have hJ (before : List RouteRefusal) : x.Lasting (J before) :=
      hbefore.and (lasting_all fun _ _ => lasting_imp (lasting_imp (lasting_exists fun _ =>
        (lasting_logged _).and (lasting_const _))))
    refine (holds_forEach (J := J) x.steady diff.collisions (fun before => (hJ before).stable) ?_).mono ?_ ?_
      fun _ _ h => h
    · intro before c after hcollisions
      have hprints := hdiffs.printing c (by rw [hcollisions]; exact List.mem_append_right _ (.head _))
      refine (plays_journalCollision (hJ before) c hprints).mono (fun _ h => h) (fun _ w hw => ?_) fun _ _ h => h
      refine ⟨hw.1.1, fun c' hc' => ?_⟩
      rcases List.mem_append.mp hc' with hc' | hc'
      · exact hw.1.2 c' hc'
      · rw [List.mem_singleton.mp hc']
        exact hw.2
    · exact fun w hw => ⟨hw, nofun⟩
    · rintro _ w ⟨⟨hbase, hopen, hdecides⟩, hlogged⟩
      refine ⟨hbase, ?_⟩
      split
      next => exact hopen
      next hunlisted =>
        obtain ⟨htaken, c, hc, hkey, hrival⟩ := hdecides.resolve_left hunlisted
        exact .inr ⟨htaken, hlogged c hc hkey hrival⟩
  refine holds_bind x.steady (plays_journalEach _ _ hupserts) fun _ => ?_
  refine holds_bind x.steady (plays_upserts hdiffs) fun _ => ?_
  refine holds_bind x.steady (Q := fun _ w => x.Base rows w ∧ x.Outcome v w) ?_ fun _ => ?_
  · refine holds_forEach (J := fun _ w => x.Base rows w ∧ x.Outcome v w) x.steady _ (fun _ => hafter.stable) ?_
    intro before d after hdisables
    unfold applyDisable
    obtain ⟨row, hrow, hid, hkey⟩ :=
      hdiffs.disable d (by rw [hdisables]; exact List.mem_append_right _ (.head _))
    refine holds_bind x.steady (plays_updateById hafter (fits_disable d.routeKey) fun w hw => ?_) fun _ =>
      (plays_journal _ hafter).mono (fun _ h => h) (fun _ _ h => h.1) fun _ _ h => h
    exact hid ▸ hw.1.2 row hrow _ hkey
  exact holds_bind x.steady (plays_journalEach _ _ hafter) fun _ => plays_announceChange config diff hafter

/-! ## Its plan -/

/-- The map of reserved keys has the contested key only as the rival's, and every other for an owner that
prints. -/
def Reserved (x : Racer) (reserved : Obj) (w : RaceWorld) : Prop :=
  (∀ k owner, Obj.own reserved k = some owner → prints owner = true) ∧
    (Obj.own reserved x.key = none ∨ (Obj.own reserved x.key = some (.str x.rival) ∧ x.Taken w))

theorem lasting_reserved (reserved : Obj) : x.Lasting (x.Reserved reserved) :=
  (lasting_const _).and ((lasting_const _).or ((lasting_const _).and lasting_taken))

/-- The YAML is an owner with a name. -/
theorem prints_reserveYaml {config : GatewayConfig} {yaml : Obj} (h : reserveYaml config = .ok yaml) (k : String)
    (owner : Value) (howner : Obj.own yaml k = some owner) : prints owner = true := by
  by_cases hdeclared : config.Declares k
  · rw [(own_reserveYaml h k).1 hdeclared] at howner
    rw [← Option.some.inj howner]
    rfl
  · rw [(own_reserveYaml h k).2 hdeclared] at howner
    cases howner

/-- One lookup. -/
theorem plays_reserveRoute {rows : List StoredHttpPath} {reserved : Obj} {r : Value}
    (hkey : ∃ k, routeKeyOf r = .ok k) :
    x.Returns env (fun w => x.Base rows w ∧ x.Open w ∧ x.Reserved reserved w)
      (reserveRoute x.service reserved r) fun reserved w => x.Base rows w ∧ x.Open w ∧
      x.Reserved reserved w := by
  have hP (reserved : Obj) : x.Lasting fun w => x.Base rows w ∧ x.Open w ∧ x.Reserved reserved w :=
    (lasting_base rows).and (lasting_open.and (lasting_reserved reserved))
  obtain ⟨k, hk⟩ := hkey
  unfold reserveRoute
  rw [hk]
  refine holds_bind x.steady (Q := fun k' w => k' = k ∧ x.Base rows w ∧ x.Open w ∧ x.Reserved reserved w) ?_
    fun k' => ?_
  · exact holds_pure (hP reserved).stable fun w hw => ⟨rfl, hw⟩
  · rintro w ⟨rfl, hw⟩
    split
    next => exact holds_pure (hP reserved).stable (fun _ h => h) w hw
    next hnew =>
      -- A row found under the contested key is the rival's.
      refine holds_bind x.steady (plays_findByRouteKey (Q := fun clashes w =>
        ((x.Base rows w ∧ x.Open w ∧ x.Reserved reserved w) ∧
          ∀ c ∈ clashes, prints (StoredHttpPath.ownerName c) = true) ∧ (k' = x.key → ∀ c, c ∈ clashes →
          StoredHttpPath.get c "owner" = .str x.rival ∧ x.Taken w)) (hP reserved).stable ?_ ?_)
        (fun clashes => ?_) w hw
      · exact fun clashes => ((hP reserved).and (lasting_const _)).and (lasting_imp (lasting_all fun _ _ =>
          (lasting_const _).and lasting_taken))
      · rintro w hw
        refine ⟨⟨hw, fun c hc => hw.1.printing c (PathStore.mem_findByRouteKey.mp hc).1⟩, ?_⟩
        rintro rfl c hc
        obtain ⟨hcmem, hcKey⟩ := PathStore.mem_findByRouteKey.mp hc
        have howner := hw.2.1 c hcmem hcKey
        exact ⟨howner, c, hcmem, hcKey, howner⟩
      · split
        next other hother =>
          refine fun w hw => holds_pure (hP _).stable (fun _ h => h) w ⟨hw.1.1.1, hw.1.1.2.1, ?_, ?_⟩
          · intro k owner howner
            rw [Obj.own_set] at howner
            split at howner
            next =>
              obtain rfl := Option.some.inj howner
              exact hw.1.2 other (List.mem_of_find?_eq_some hother)
            next => exact hw.1.1.2.2.1 k owner howner
          · rw [Obj.own_set]
            split
            next heq =>
              obtain ⟨howner, htaken⟩ := hw.2 heq.symm other (List.mem_of_find?_eq_some hother)
              rw [ownerName_of_owner howner]
              exact .inr ⟨rfl, htaken⟩
            next => exact hw.1.1.2.2.2
        next => exact fun w hw => holds_pure (hP reserved).stable (fun _ h => h) w hw.1.1

/-- What the diff of this side's rows holds. -/
theorem diffs_of_diffRoutes {rows : List StoredHttpPath} {routes : List Value} {reserved : Obj}
    {diff : RouteDiff}
    {v : Value} (hrows : ∀ row ∈ rows, row.key ≠ some x.key) (hannounced : announced routes x.key = some v)
    (hprint : ∀ k owner, Obj.own reserved k = some owner → prints owner = true)
    (hreserved : Obj.own reserved x.key = none ∨ Obj.own reserved x.key = some (.str x.rival))
    (h : diffRoutes x.service routes rows reserved = .ok diff) :
    x.Diffs rows v diff ∧ (x.key ∈ diff.upserts.map RouteUpsert.routeKey ∨
      Obj.own reserved x.key = some (.str x.rival) ∧
        ∃ c ∈ diff.collisions, c.routeKey = x.key ∧ c.conflictWith = .str x.rival) := by
  obtain ⟨state, hdiffed, hupserts, hdisables, hcollisions⟩ := diffRoutes_spec h
  -- no row of this service has the contested key
  have hfree : (byRouteKey rows).lookup x.key = none := by
    cases hlookup : (byRouteKey rows).lookup x.key with
    | none => rfl
    | some row =>
        obtain ⟨hrow, hkey⟩ := (indexes_byRouteKey rows).sound _ (AssocList.mem_of_lookup hlookup)
        exact absurd hkey (hrows row hrow)
  constructor
  · refine ⟨hupserts ▸ hdiffed.distinct, ?_, ?_, ?_, ?_, ?_, ?_⟩
    · intro u hu
      obtain ⟨v, overrides, -, -, -, -, hu⟩ := hdiffed.upsert (hupserts ▸ hu)
      rw [hu]
      exact key_of_upsertOf _ _ _
    · intro u hu
      obtain ⟨v, overrides, -, -, -, -, hu⟩ := hdiffed.upsert (hupserts ▸ hu)
      rw [hu]
      exact owner_of_upsertOf _ _ _
    · intro u hu id hid
      obtain ⟨v, overrides, -, -, -, -, hupsert⟩ := hdiffed.upsert (hupserts ▸ hu)
      rw [hupsert] at hid
      obtain ⟨row, hlookup, rfl⟩ := Option.map_eq_some_iff.mp hid
      obtain ⟨hrow, hkey⟩ := (indexes_byRouteKey rows).sound _ (AssocList.mem_of_lookup hlookup)
      exact ⟨row, hrow, rfl, hkey⟩
    · -- the upsert of the contested key is an insert of the announced route
      intro u hu hkey
      obtain ⟨v', overrides, hv', -, -, hoverrides, hupsert⟩ := hdiffed.upsert (hupserts ▸ hu)
      rw [hkey, hannounced] at hv'
      obtain rfl := Option.some.inj hv'
      rw [hkey, hfree] at hupsert hoverrides
      obtain rfl : Overrides.none = overrides := Except.ok.inj hoverrides
      rw [hupsert]
      refine ⟨rfl, ?_⟩
      rw [model_upsertOf, applyUserOverrides_none]
      rfl
    · intro d hd
      rw [hdisables] at hd
      obtain ⟨row, hmem, -, -, hd⟩ := mem_disablesOf.mp hd
      obtain ⟨hrow, hkey⟩ := (indexes_byRouteKey rows).sound _ hmem
      exact ⟨row, hrow, (congrArg RouteDisable.id hd).symm, hkey⟩
    · intro c hc
      rw [(hdiffed.collision (hcollisions ▸ hc)).1]
      unfold Obj.get
      cases howner : Obj.own reserved c.routeKey with
      | none => rfl
      | some owner => exact hprint _ owner howner
  · -- the contested key is upserted, unless the YAML reserves it for the rival
    obtain ⟨outcome, houtcome⟩ := hdiffed.decided x.key v hannounced
    have hclassified := classified_of_ok houtcome
    rw [hfree] at hclassified
    cases hclassified with
    | collision htruthy hother =>
        rcases hreserved with hnone | hrival
        · rw [Obj.get, hnone] at htruthy
          cases htruthy
        · refine .inr ⟨hrival, ⟨x.key, _, _, _⟩,
            hcollisions ▸ (hdiffed.collisions _).mpr ⟨v, hannounced, houtcome, rfl⟩, rfl, ?_⟩
          show Obj.get reserved x.key = _
          rw [Obj.get, hrival]
          rfl
    | skipped row hrow => cases hrow
    | unchanged _ row hrow => cases hrow
    | upsert howner hmodified overrides hoverrides hdiffers =>
        have hu := (hdiffed.upserts (upsertOf x.service (fieldsOf v) x.key none overrides)).mpr
          ⟨v, hannounced, houtcome⟩
        exact .inl (List.mem_map.mpr ⟨_, hupserts ▸ hu, rfl⟩)

/-- What a side starts from. -/
structure Starts (x : Racer) (w : RaceWorld) : Prop where
  standing : x.Standing w
  free : x.Open w
  printing : x.Printing w
  readable : ∀ row ∈ w.store.rows, row.get "owner" = .str x.service →
    row.key ≠ some x.key ∧ ∃ overrides, readOverrides (row.get "userOverrides") = .ok overrides

theorem stable_starts : Stable x.rely x.Starts := by
  intro w w' h hw
  refine ⟨lasting_standing.stable _ _ h hw.standing, lasting_open.stable _ _ h hw.free,
    lasting_printing.stable _ _ h hw.printing, fun row hrow howner => ?_⟩
  rcases h.own row hrow with hold | hrival
  · exact hw.readable row hold howner
  · exact absurd (Value.str.inj (hrival.symm.trans howner)) x.distinct

/-- **One side's plan.** -/
theorem plays_plan {config : GatewayConfig} {routes : List Value} {yaml : Obj} {v : Value}
    (hyaml : reserveYaml config = .ok yaml) (hfree : ¬ config.Declares x.key)
    (hkeys : ∀ r ∈ routes, ∃ k, routeKeyOf r = .ok k) (hannounced : announced routes x.key = some v) :
    x.Returns env x.Starts (plan config x.service routes) fun diff w =>
      ∃ rows, x.Diffs rows v diff ∧ x.Base rows w ∧ x.Open w ∧ x.Decides diff w := by
  unfold plan
  refine holds_bind x.steady (Q := fun existing w => (∀ row ∈ existing, row.key ≠ some x.key ∧
    ∃ overrides, readOverrides (row.get "userOverrides") = .ok overrides) ∧ x.Base existing w ∧ x.Open w)
    ?_ fun existing => ?_
  · refine plays_findByOwner stable_starts
      (fun rows => (lasting_const _).and ((lasting_base rows).and lasting_open))
      fun w hw => ⟨fun row hrow => ?_, ⟨hw.standing, fun row hrow k hk => ?_, hw.printing⟩, hw.free⟩
    · obtain ⟨hrow, howner⟩ := PathStore.mem_findByOwner.mp hrow
      exact hw.readable row hrow howner
    · obtain ⟨hrow, howner⟩ := PathStore.mem_findByOwner.mp hrow
      refine ⟨?_, row, hrow, rfl, hk, howner⟩
      rintro rfl
      exact (hw.readable row hrow howner).1 hk
  · rintro w ⟨hexisting, hw⟩
    have hP (reserved : Obj) : x.Lasting fun w => x.Base existing w ∧ x.Open w ∧ x.Reserved reserved w :=
      (lasting_base existing).and (lasting_open.and (lasting_reserved reserved))
    rw [hyaml]
    refine holds_bind x.steady (P := fun w => x.Base existing w ∧ x.Open w)
      (Q := fun reserved w => x.Base existing w ∧ x.Open w ∧ x.Reserved reserved w) ?_ (fun yaml => ?_) w hw
    · exact holds_pure ((lasting_base existing).and lasting_open).stable fun w hw =>
        ⟨hw.1, hw.2, prints_reserveYaml hyaml, .inl ((own_reserveYaml hyaml x.key).2 hfree)⟩
    · refine holds_bind x.steady (holds_foldEach (J := fun _ reserved w =>
        x.Base existing w ∧ x.Open w ∧ x.Reserved reserved w) x.steady routes yaml (fun _ reserved =>
        (hP reserved).stable) ?_) fun reserved => ?_
      · rintro before r after hroutes reserved
        exact plays_reserveRoute (hkeys r (by rw [hroutes]; exact List.mem_append_right _ (.head _)))
      · obtain ⟨diff, hdiff⟩ := exists_diffRoutes x.service reserved hkeys fun row hrow =>
          (hexisting row hrow).2
        rw [hdiff]
        refine holds_pure (hP reserved).stable fun w hw => ?_
        have hreserved : Obj.own reserved x.key = none ∨ Obj.own reserved x.key = some (.str x.rival) :=
          hw.2.2.2.imp_right And.left
        obtain ⟨hdiffs, hdecides⟩ := diffs_of_diffRoutes (fun row hrow => (hexisting row hrow).1) hannounced
          hw.2.2.1 hreserved hdiff
        refine ⟨existing, hdiffs, hw.1, hw.2.1, hdecides.imp_right fun ⟨hrival, hcollides⟩ => ⟨?_, hcollides⟩⟩
        rcases hw.2.2.2 with hnone | ⟨-, htaken⟩
        · rw [hnone] at hrival
          cases hrival
        · exact htaken

/-- **One side's manifest.**  It ends with the route stored as it was inserted, or with the rival's row and
a journal entry that names the rival. -/
theorem plays_handle {config : GatewayConfig} {manifest : RouteManifest} {yaml : Obj} {v : Value}
    (hservice : manifest.service = some x.service) (hyaml : reserveYaml config = .ok yaml)
    (hfree : ¬ config.Declares x.key) (hkeys : ∀ r ∈ manifest.list, ∃ k, routeKeyOf r = .ok k)
    (hannounced : announced manifest.list x.key = some v) :
    x.Returns env x.Starts (handle config manifest) fun _ w => x.Standing w ∧ x.Outcome v w := by
  have hsync : x.Returns env x.Starts (sync config x.service manifest.list) fun _ w =>
      x.Standing w ∧ x.Outcome v w := by
    refine holds_bind x.steady (plays_plan hyaml hfree hkeys hannounced) fun diff => ?_
    rintro w ⟨rows, hdiffs, hw⟩
    exact ((plays_applyDiff config hdiffs).mono (fun _ h => h) (fun _ _ h => ⟨h.1.1, h.2⟩) fun _ _ h => h) w hw
  unfold handle
  rw [hservice]
  dsimp only
  rw [if_neg fun hempty => x.named (by simp [hempty])]
  exact holds_tryCatch x.steady hsync fun _ _ h => h.elim

end Operations

end Racer

/-! ## The race -/

section Race

variable {config : GatewayConfig} {services : Side → String} {manifests : Side → RouteManifest} {key : String}
  {store : PathStore}

/-- The side of a contest. -/
def Contest.racer (h : Contest config services manifests key store) (side : Side) : Racer where
  side := side
  service := services side
  rival := services side.other
  key := key
  named := h.named side
  rivalNamed := h.named side.other
  distinct := by
    have hne := h.distinct
    cases side
    · exact hne.symm
    · exact hne

theorem Contest.starts (h : Contest config services manifests key store) (side : Side) :
    (h.racer side).Starts { store } where
  standing _ hop := (List.not_mem_nil hop).elim
  free row hrow hkey := absurd hkey (h.free row hrow)
  printing := h.owners
  readable row hrow _ := ⟨h.free row hrow, h.overrides row hrow⟩

theorem owner_of_won {x : Racer} {row : StoredHttpPath} {v : Value}
    (h : row.columns = Obj.assign [] (upsertModel x.service x.key (fieldsOf v) true .none)) :
    row.get "owner" = .str x.service := by
  rw [row.get_of_ne (by decide), h, Obj.get_assign, own_upsertModel_owner]
  rfl

/-- One side's row, and the other side's word that it lost to it. -/
theorem Contest.settled (h : Contest config services manifests key store) {winner : Side} {v : Value}
    {w : RaceWorld} (hannounced : announced (manifests winner).list key = some v)
    (hstanding : ∀ side, (h.racer side).Standing w) (hwon : (h.racer winner).Won v w)
    (hlost : (h.racer winner.other).Lost w) : Settled services manifests key winner w := by
  obtain ⟨row, hrow, hkey, hcolumns⟩ := hwon
  obtain ⟨-, entry, hlogged, hreports⟩ := hlost
  refine ⟨⟨row, hrow, hkey, ⟨v, hannounced, hcolumns⟩, fun r hr hrkey =>
    PathStore.eq_of_key hr hrow hrkey hkey, ?_⟩,
    entry, hlogged, ?_⟩
  · intro side op hop
    rw [Bool.eq_false_iff]
    intro hwrites
    obtain ⟨r, hr, hid, -, hrkey⟩ := hstanding side op hop row._id hwrites
    rw [PathStore.eq_of_id hr hrow hid] at hrkey
    exact hrkey hkey
  · have hrival : (h.racer winner.other).rival = services winner := congrArg services winner.other_other
    rw [← hrival]
    exact hreports

/-- Not both sides win. -/
theorem Contest.not_both_won (h : Contest config services manifests key store) {v v' : Value} {w : RaceWorld}
    (hleft : (h.racer .left).Won v w) (hright : (h.racer .right).Won v' w) : False := by
  obtain ⟨row, hrow, hkey, hcolumns⟩ := hleft
  obtain ⟨row', hrow', hkey', hcolumns'⟩ := hright
  obtain rfl := PathStore.eq_of_key hrow hrow' hkey hkey'
  exact h.distinct (Value.str.inj ((owner_of_won hcolumns).symm.trans (owner_of_won hcolumns')))

/-- Not both sides lose. -/
theorem Contest.not_both_lost (h : Contest config services manifests key store) {w : RaceWorld}
    (hleft : (h.racer .left).Lost w) (hright : (h.racer .right).Lost w) : False := by
  obtain ⟨⟨row, hrow, hkey, howner⟩, -⟩ := hleft
  obtain ⟨⟨row', hrow', hkey', howner'⟩, -⟩ := hright
  obtain rfl := PathStore.eq_of_key hrow hrow' hkey hkey'
  exact h.distinct (Value.str.inj (howner'.symm.trans howner))

/-- **Insert race.**  Every schedule of the two instances can be carried on to their end, and when both have
ended, one of them has won the key: its row is the only one with the key, as it was inserted and written by
nobody since, and the other instance has journaled a collision that names it. -/
theorem insert_race (env : RaceEnv) (h : Contest config services manifests key store) (schedule : List Side) :
    (∃ rest, ∀ side, ended ((Machine.run (takeTurn env.service) (startRace config manifests store)
      (schedule ++ rest)).scripts side) = true) ∧
    ((∀ side, ended ((Machine.run (takeTurn env.service) (startRace config manifests store)
      schedule).scripts side) = true) →
      ∃ winner, Settled services manifests key winner
        (Machine.run (takeTurn env.service) (startRace config manifests store) schedule).state) := by
  constructor
  · obtain ⟨rest, hrest⟩ := exists_schedule_ended env.service
      (Machine.run (takeTurn env.service) (startRace config manifests store) schedule) [.left, .right]
    refine ⟨rest, fun side => ?_⟩
    rw [Machine.run_append]
    exact hrest side (by cases side <;> simp)
  · intro hended
    obtain ⟨yaml, hyaml⟩ := h.yaml
    choose v hv using h.announces
    -- each side guarantees what the other relies on, so both scripts reach their outcome
    have hsecures : ∀ side, Secures (env.service side) (h.racer side).rely (h.racer side).guarantee
        (fun _ w => (h.racer side).Standing w ∧ (h.racer side).Outcome (v side) w) (fun _ _ => False)
        ((Machine.run (takeTurn env.service) (startRace config manifests store) schedule).scripts side)
        (Machine.run (takeTurn env.service) (startRace config manifests store) schedule).state := by
      refine secures_of_turns (fun side => (h.racer side).steady) ?_ (fun side => ?_) schedule
      · intro side other hne w w' hmoves
        obtain rfl : other = side.other := by cases side <;> cases other <;> first | rfl | exact absurd rfl hne
        exact hmoves
      · exact Racer.plays_handle (h.service side) hyaml h.undeclared (h.keys side) (hv side) { store }
          (h.starts side)
    have hends (side : Side) := ends_of_secures (h.racer side).steady (hsecures side) (hended side)
    generalize Machine.run _ _ schedule = c at hends ⊢
    have hsides (side : Side) : (h.racer side).Standing c.state ∧ (h.racer side).Outcome (v side) c.state := by
      rcases hends side with ⟨_, -, hQ⟩ | ⟨_, -, hE⟩
      · exact hQ
      · exact hE.elim
    have hstanding (side : Side) := (hsides side).1
    -- the two cannot both win, nor both lose
    rcases (hsides .left).2 with hleft | hleft <;> rcases (hsides .right).2 with hright | hright
    · exact (h.not_both_won hleft hright).elim
    · exact ⟨.left, h.settled (hv .left) hstanding hleft hright⟩
    · exact ⟨.right, h.settled (hv .right) hstanding hright hleft⟩
    · exact (h.not_both_lost hleft hright).elim

/-- The service of each side, in an example. -/
def reporters : Side → String
  | .left => "orders"
  | .right => "billing"

/-- Each of them announces a route of its own under the same method and path. -/
def reports (side : Side) : RouteManifest where
  service := some (reporters side)
  routes := .arr [.obj [("method", .str "get"), ("path", .str "/reports"), ("topic", .str (reporters side)),
    ("action", .str "report"), ("mode", .str "rpc")]]

theorem reports_contest : Contest {} reporters reports "GET /reports" .empty where
  service _ := rfl
  named side := by cases side <;> decide
  distinct := by decide
  announces side := by cases side <;> exact ⟨_, rfl⟩
  keys side r hr := by
    rw [List.mem_singleton.mp hr]
    exact ⟨_, rfl⟩
  yaml := ⟨_, rfl⟩
  undeclared := fun ⟨p, hp, _⟩ => List.not_mem_nil hp
  free _ hrow := (List.not_mem_nil hrow).elim
  overrides _ hrow := (List.not_mem_nil hrow).elim
  owners _ hrow := (List.not_mem_nil hrow).elim

/-- Both look the key up, both insert, and the second one looks it up again. -/
theorem insert_race_reports :
    ∃ winner, Settled reporters reports "GET /reports" winner
      (Machine.run (takeTurn (RaceEnv.mk (fun _ _ => none) nofun).service) (startRace {} reports .empty)
        [.left, .right, .left, .right, .left, .right, .left, .right, .left, .right, .right]).state :=
  (insert_race ⟨fun _ _ => none, nofun⟩ reports_contest _).2 fun side => by cases side <;> decide

end Race

end NestAmqp.Gateway
