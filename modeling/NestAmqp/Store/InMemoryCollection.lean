/-
# NestAmqp.Store.InMemoryCollection — the collection behind the repositories that `add-gateway` writes.

Documents in a map by their `_id`, oldest first.  An id that no caller brings is made from a counter that
all collections of the process share; nothing looks whether a caller brought the same text before.  A
filter is a predicate here, and a patch what `{ ...document, ...patch }` makes of the fields.
-/
import NestAmqp.Js.Value
import NestAmqp.Lib.Machine
import NestAmqp.Lib.OrderedMap
import NestAmqp.Lib.Paging

namespace NestAmqp.Store

open NestAmqp.Js NestAmqp.Lib NestAmqp.Lib.Machine NestAmqp.Lib.Paging

/-! ## Ids -/

/-- `n.toString(16).padStart(24, '0')`. -/
def idText (n : Nat) : String :=
  let digits := Nat.toDigits 16 n
  String.ofList (List.replicate (24 - digits.length) '0' ++ digits)

/-- The digit a hexadecimal character stands for. -/
def hexDigit (c : Char) : Nat :=
  if c.isDigit then c.toNat - '0'.toNat else c.toNat - 'a'.toNat + 10

/-- The number a hexadecimal text stands for. -/
def hexValue (cs : List Char) : Nat := cs.foldl (fun n c => 16 * n + hexDigit c) 0

theorem hexDigit_digitChar {d : Nat} (h : d < 16) : hexDigit d.digitChar = d := by
  have hall : ∀ d : Fin 16, hexDigit d.val.digitChar = d.val := by decide
  exact hall ⟨d, h⟩

theorem hexValue_concat (cs : List Char) (c : Char) :
    hexValue (cs ++ [c]) = 16 * hexValue cs + hexDigit c := by
  unfold hexValue
  rw [List.foldl_append]
  rfl

theorem hexValue_toDigits (n : Nat) : hexValue (Nat.toDigits 16 n) = n := by
  induction n using Nat.strongRecOn with
  | ind n ih =>
      by_cases h : n < 16
      · rw [Nat.toDigits_of_lt_base h]
        show 16 * 0 + hexDigit n.digitChar = n
        rw [hexDigit_digitChar h]
        omega
      · rw [Nat.toDigits_of_base_le (by decide) (by omega), hexValue_concat, ih (n / 16) (by omega),
          hexDigit_digitChar (Nat.mod_lt n (by decide))]
        omega

theorem hexValue_zeros (n : Nat) (cs : List Char) : hexValue (List.replicate n '0' ++ cs) = hexValue cs := by
  induction n with
  | zero => rfl
  | succ n ih => exact ih

/-- The counter can be read back from the id, however wide it has become. -/
theorem idText_injective : Function.Injective idText := by
  intro m n h
  have hread : ∀ k, hexValue (idText k).toList = k := by
    intro k
    unfold idText
    rw [String.toList_ofList, hexValue_zeros, hexValue_toDigits]
  rw [← hread m, h, hread n]

/-! ## The collection -/

/-- A document: its `_id`, and its other fields. -/
structure Doc (α : Type) where
  _id : String
  fields : α
  deriving DecidableEq, Repr

/-- `{ ...v, ...patch }`. -/
class Patches (α : Type) (π : outParam Type) where
  spread : α → π → α

/-- `{ ...patch }`, where a patch alone may be a document. -/
class PatchDocs (α : Type) (π : outParam Type) extends Patches α π where
  ofPatch : π → α

/-- The collection, with the counter behind `nextId`. -/
structure InMemoryCollection (α : Type) where
  seq : Nat := 0
  items : OrderedMap String α := .empty

namespace InMemoryCollection

variable {α π : Type} (col : InMemoryCollection α)

/-- The documents, oldest first. -/
def docs : List (Doc α) := col.items.entries.map fun e => ⟨e.1, e.2⟩

/-- `insert(model)`, with the `_id` the model has. -/
def insert (_id : Option String) (model : α) : Doc α × InMemoryCollection α :=
  match _id with
  | some id => (⟨id, model⟩, { col with items := col.items.set id model })
  | none =>
      let id := idText (col.seq + 1)
      (⟨id, model⟩, { seq := col.seq + 1, items := col.items.set id model })

/-- The first document a filter matches. -/
def findOne (filter : Doc α → Bool) : Option (Doc α) := col.docs.find? filter

/-- `findId(filter)`. -/
def findId (filter : Doc α → Bool) : Option String := (col.findOne filter).map Doc._id

/-- `findById(id)`. -/
def findById (id : String) : Option (Doc α) := (col.items.get? id).map (⟨id, ·⟩)

/-- `filter(filter)`. -/
def filter (filter : Doc α → Bool) : List (Doc α) := col.docs.filter filter

/-- `removeById(id)`. -/
def removeById (id : String) : Option (Doc α) × InMemoryCollection α :=
  match col.items.get? id with
  | none => (none, col)
  | some v => (some ⟨id, v⟩, { col with items := col.items.delete id })

/-- `removeOne(filter)`. -/
def removeOne (filter : Doc α → Bool) : Option (Doc α) × InMemoryCollection α :=
  match col.findOne filter with
  | none => (none, col)
  | some doc => (some doc, { col with items := col.items.delete doc._id })

/-- `removeMany(filter)`. -/
def removeMany (filter : Doc α → Bool) : Nat × InMemoryCollection α :=
  ((col.filter filter).length, { col with items := col.items.filter fun e => !filter ⟨e.1, e.2⟩ })

/-- `PaginationModel`. -/
structure PaginationModel (τ : Type) where
  page : Int
  limit : Int
  total : Nat
  data : List τ
  deriving DecidableEq, Repr

/-- `list.slice(start, end)`: a negative bound counts from the end. -/
def slice {τ : Type} (list : List τ) (start stop : Int) : List τ :=
  let bound (n : Int) := (if n < 0 then list.length + n else n).toNat
  (list.take (bound stop)).drop (bound start)

/-- The slice of a list that a page shows. -/
def page {τ : Type} (data : List τ) (page limit : Int) : PaginationModel τ :=
  let p := if page < 1 then 1 else page
  let start := (p - 1) * limit
  { page := p, limit, total := data.length, data := slice data start (start + limit) }

/-- `paginate(filter, page, limit)`. -/
def paginate (filter : Doc α → Bool) (page limit : Int) : PaginationModel (Doc α) :=
  InMemoryCollection.page (col.filter filter) page limit

section Patch

variable [Patches α π]

/-- `updateById(id, patch)`. -/
def updateById (id : String) (patch : π) : Option (Doc α) × InMemoryCollection α :=
  match col.items.get? id with
  | none => (none, col)
  | some v =>
      let next := Patches.spread v patch
      (some ⟨id, next⟩, { col with items := col.items.set id next })

/-- `updateOne(filter, patch)`. -/
def updateOne (filter : Doc α → Bool) (patch : π) : Option (Doc α) × InMemoryCollection α :=
  match col.findOne filter with
  | none => (none, col)
  | some doc =>
      let next := Patches.spread doc.fields patch
      (some ⟨doc._id, next⟩, { col with items := col.items.set doc._id next })

end Patch

section Upsert

variable [PatchDocs α π]

/-- `upsertById(id, patch)`. -/
def upsertById (id : String) (patch : π) : Option (Doc α) × InMemoryCollection α :=
  if col.items.has id then col.updateById id patch
  else
    let (doc, col') := col.insert (some id) (PatchDocs.ofPatch patch)
    (some doc, col')

/-- `upsertOne(filter, patch)`, with the `_id` the patch has; an empty id counts as none found. -/
def upsertOne (filter : Doc α → Bool) (_id : Option String) (patch : π) :
    Option (Doc α) × InMemoryCollection α :=
  match (col.findId filter).filter (· != "") with
  | some id => col.updateById id patch
  | none =>
      let (doc, col') := col.insert _id (PatchDocs.ofPatch patch)
      (some doc, col')

end Upsert

/-! ## Single requests -/

variable {col}

@[simp] theorem findById_eq_some {id : String} {doc : Doc α} :
    col.findById id = some doc ↔ doc._id = id ∧ col.items.get? id = some doc.fields := by
  unfold findById
  rw [Option.map_eq_some_iff]
  constructor
  · rintro ⟨v, hv, rfl⟩
    exact ⟨rfl, hv⟩
  · rintro ⟨rfl, hv⟩
    exact ⟨doc.fields, hv, rfl⟩

theorem mem_docs {doc : Doc α} : doc ∈ col.docs ↔ col.items.get? doc._id = some doc.fields := by
  unfold docs
  rw [List.mem_map, ← OrderedMap.mem_iff_get?]
  constructor
  · rintro ⟨e, he, rfl⟩
    exact he
  · exact fun h => ⟨_, h, rfl⟩

theorem findOne_eq_some {filter : Doc α → Bool} {doc : Doc α} (h : col.findOne filter = some doc) :
    col.items.get? doc._id = some doc.fields ∧ filter doc = true :=
  ⟨mem_docs.mp (List.mem_of_find?_eq_some h), List.find?_some h⟩

/-- The id an insert gives, and the entry it writes. -/
theorem insert_items (_id : Option String) (model : α) :
    (col.insert _id model).2.items = col.items.set (_id.getD (idText (col.seq + 1))) model := by
  cases _id <;> rfl

/-- Every request sets one entry, deletes some, or does nothing. -/
theorem get?_updateById [Patches α π] (id : String) (patch : π) {j : String} (h : j ≠ id) :
    (col.updateById id patch).2.items.get? j = col.items.get? j := by
  unfold updateById
  split
  next => rfl
  next => exact col.items.get?_set_of_ne _ h

theorem get?_insert (_id : Option String) (model : α) {j : String}
    (h : j ≠ _id.getD (idText (col.seq + 1))) :
    (col.insert _id model).2.items.get? j = col.items.get? j := by
  rw [insert_items]
  exact col.items.get?_set_of_ne _ h

theorem mem_keys_of_get? {id : String} {v : α} (h : col.items.get? id = some v) : id ∈ col.items.keys :=
  OrderedMap.mem_keys_iff.mpr ⟨v, h⟩

theorem keys_updateById [Patches α π] (id : String) (patch : π) :
    (col.updateById id patch).2.items.keys = col.items.keys ∧ (col.updateById id patch).2.seq = col.seq := by
  unfold updateById
  split
  next => exact ⟨rfl, rfl⟩
  next v hv => exact ⟨OrderedMap.keys_set_of_mem (mem_keys_of_get? hv) _, rfl⟩

theorem keys_updateOne [Patches α π] (filter : Doc α → Bool) (patch : π) :
    (col.updateOne filter patch).2.items.keys = col.items.keys ∧
      (col.updateOne filter patch).2.seq = col.seq := by
  unfold updateOne
  split
  next => exact ⟨rfl, rfl⟩
  next doc hdoc => exact ⟨OrderedMap.keys_set_of_mem (mem_keys_of_get? (findOne_eq_some hdoc).1) _, rfl⟩

/-- An insert adds one id: the one brought, or the next of the counter. -/
theorem mem_keys_insert {_id : Option String} {model : α} {id : String}
    (h : id ∈ (col.insert _id model).2.items.keys) :
    id ∈ col.items.keys ∨ _id = some id ∨
      (id = idText (col.seq + 1) ∧ (col.insert _id model).2.seq = col.seq + 1) := by
  rw [insert_items, OrderedMap.mem_keys_set] at h
  rcases h with rfl | h
  · cases _id with
    | some id => exact .inr (.inl rfl)
    | none => exact .inr (.inr ⟨rfl, rfl⟩)
  · exact .inl h

theorem seq_insert_le (_id : Option String) (model : α) : col.seq ≤ (col.insert _id model).2.seq := by
  cases _id with
  | some id => exact Nat.le_refl _
  | none => exact Nat.le_succ _

end InMemoryCollection

/-! ## Runs -/

/-- A request to the collection.  `elsewhere` is another collection taking an id. -/
inductive CollectionOp (α π : Type) where
  | insert (_id : Option String) (model : α)
  | upsertById (id : String) (patch : π)
  | upsertOne (filter : Doc α → Bool) (_id : Option String) (patch : π)
  | updateById (id : String) (patch : π)
  | updateOne (filter : Doc α → Bool) (patch : π)
  | removeById (id : String)
  | removeOne (filter : Doc α → Bool)
  | removeMany (filter : Doc α → Bool)
  | elsewhere

namespace CollectionOp

variable {α π : Type} [PatchDocs α π]

/-- The collection behind the request. -/
def step (col : InMemoryCollection α) : CollectionOp α π → InMemoryCollection α
  | .insert _id model => (col.insert _id model).2
  | .upsertById id patch => (col.upsertById id patch).2
  | .upsertOne filter _id patch => (col.upsertOne filter _id patch).2
  | .updateById id patch => (col.updateById id patch).2
  | .updateOne filter patch => (col.updateOne filter patch).2
  | .removeById id => (col.removeById id).2
  | .removeOne filter => (col.removeOne filter).2
  | .removeMany filter => (col.removeMany filter).2
  -- an insert into another collection: the counter is shared
  | .elsewhere => { col with seq := col.seq + 1 }

omit [PatchDocs α π] in
/-- The id the caller brings. -/
def brings : CollectionOp α π → Option String
  | .insert _id _ => _id
  | .upsertById id _ => some id
  | .upsertOne _ _id _ => _id
  | _ => none

/-- The request writes or removes the document with this id. -/
def Addresses (col : InMemoryCollection α) (id : String) : CollectionOp α π → Prop
  | .insert _id _ => _id = some id
  | .upsertById id' _ | .updateById id' _ | .removeById id' => id' = id
  | .upsertOne filter _id _ => col.findId filter = some id ∨ _id = some id
  | .updateOne filter _ | .removeOne filter => col.findId filter = some id
  | .removeMany filter => ∃ doc, col.findById id = some doc ∧ filter doc = true
  | .elsewhere => False

/-! ### One request -/

section Step

variable {col : InMemoryCollection α} {op : CollectionOp α π} {id : String}

/-- The document with an id that the counter does not make next is left alone by a request that does not
address it. -/
theorem get?_step (hid : id ≠ idText (col.seq + 1)) (h : ¬ op.Addresses col id) :
    (op.step col).items.get? id = col.items.get? id := by
  have hinsert (_id : Option String) (model : α) (hne : _id ≠ some id) :
      (col.insert _id model).2.items.get? id = col.items.get? id := by
    refine InMemoryCollection.get?_insert _id model ?_
    cases _id with
    | some id' => exact fun heq => hne (congrArg some heq.symm)
    | none => exact hid
  cases op with
  | insert _id model => exact hinsert _id model h
  | upsertById id' patch =>
      have hne : id ≠ id' := fun heq => h heq.symm
      show (col.upsertById id' patch).2.items.get? id = _
      unfold InMemoryCollection.upsertById
      split
      next => exact InMemoryCollection.get?_updateById id' patch hne
      next => exact hinsert (some id') _ fun heq => hne (Option.some.inj heq).symm
  | upsertOne filter _id patch =>
      obtain ⟨hfind, hne⟩ := not_or.mp h
      show (col.upsertOne filter _id patch).2.items.get? id = _
      unfold InMemoryCollection.upsertOne
      split
      next id' hid' =>
        refine InMemoryCollection.get?_updateById id' patch fun heq => hfind ?_
        rw [(Option.filter_eq_some_iff.mp hid').1, heq]
      next => exact hinsert _id _ hne
  | updateById id' patch => exact InMemoryCollection.get?_updateById id' patch fun heq => h heq.symm
  | updateOne filter patch =>
      show (col.updateOne filter patch).2.items.get? id = _
      unfold InMemoryCollection.updateOne
      split
      next => rfl
      next doc hdoc =>
        refine col.items.get?_set_of_ne _ fun heq => h ?_
        show (col.findOne filter).map Doc._id = some id
        rw [hdoc, heq]
        rfl
  | removeById id' =>
      show (col.removeById id').2.items.get? id = _
      unfold InMemoryCollection.removeById
      split
      next => rfl
      next => rw [OrderedMap.get?_delete, if_neg fun heq => h heq.symm]
  | removeOne filter =>
      show (col.removeOne filter).2.items.get? id = _
      unfold InMemoryCollection.removeOne
      split
      next => rfl
      next doc hdoc =>
        rw [OrderedMap.get?_delete, if_neg fun heq => h ?_]
        show (col.findOne filter).map Doc._id = some id
        rw [hdoc, heq]
        rfl
  | removeMany filter =>
      refine OrderedMap.get?_eq_of_mem fun v => ?_
      show (id, v) ∈ col.items.entries.filter _ ↔ _
      rw [List.mem_filter]
      refine and_iff_left_of_imp fun hmem => ?_
      cases hv : filter ⟨id, v⟩ with
      | false => simp
      | true =>
          exact absurd ⟨⟨id, v⟩, InMemoryCollection.findById_eq_some.mpr
            ⟨rfl, OrderedMap.mem_iff_get?.mp hmem⟩, hv⟩ h
  | elsewhere => rfl

/-- An id that was not there before was brought, or is the next of the counter. -/
theorem mem_keys_step (h : id ∈ (op.step col).items.keys) :
    id ∈ col.items.keys ∨ op.brings = some id ∨
      (id = idText (col.seq + 1) ∧ (op.step col).seq = col.seq + 1) := by
  have hfewer {m : OrderedMap String α} (hsub : ∀ e ∈ m.entries, e ∈ col.items.entries)
      (h : id ∈ m.keys) : id ∈ col.items.keys := by
    obtain ⟨v, hv⟩ := OrderedMap.mem_keys.mp h
    exact OrderedMap.mem_keys.mpr ⟨v, hsub _ hv⟩
  cases op with
  | insert _id model => exact InMemoryCollection.mem_keys_insert h
  | upsertById id' patch =>
      change id ∈ (col.upsertById id' patch).2.items.keys at h
      unfold InMemoryCollection.upsertById at h
      split at h
      next =>
        rw [(InMemoryCollection.keys_updateById id' patch).1] at h
        exact .inl h
      next hnot =>
        rcases InMemoryCollection.mem_keys_insert h with h | h | ⟨-, h⟩
        · exact .inl h
        · exact .inr (.inl h)
        · exact absurd h (Nat.ne_of_lt (Nat.lt_succ_self _))
  | upsertOne filter _id patch =>
      change id ∈ (col.upsertOne filter _id patch).2.items.keys at h
      show _ ∨ _ ∨ (_ ∧ (col.upsertOne filter _id patch).2.seq = _)
      unfold InMemoryCollection.upsertOne at h ⊢
      split at h
      next id' hid' =>
        rw [(InMemoryCollection.keys_updateById id' patch).1] at h
        exact .inl h
      next => exact InMemoryCollection.mem_keys_insert h
  | updateById id' patch =>
      change id ∈ (col.updateById id' patch).2.items.keys at h
      rw [(InMemoryCollection.keys_updateById id' patch).1] at h
      exact .inl h
  | updateOne filter patch =>
      change id ∈ (col.updateOne filter patch).2.items.keys at h
      rw [(InMemoryCollection.keys_updateOne filter patch).1] at h
      exact .inl h
  | removeById id' =>
      refine .inl ?_
      change id ∈ (col.removeById id').2.items.keys at h
      unfold InMemoryCollection.removeById at h
      split at h
      next => exact h
      next => exact hfewer (fun e he => (OrderedMap.mem_entries_delete.mp he).1) h
  | removeOne filter =>
      refine .inl ?_
      change id ∈ (col.removeOne filter).2.items.keys at h
      unfold InMemoryCollection.removeOne at h
      split at h
      next => exact h
      next => exact hfewer (fun e he => (OrderedMap.mem_entries_delete.mp he).1) h
  | removeMany filter => exact .inl (hfewer (fun e he => List.mem_of_mem_filter he) h)
  | elsewhere => exact .inl h

theorem seq_le_step : col.seq ≤ (op.step col).seq := by
  cases op with
  | insert _id model => exact InMemoryCollection.seq_insert_le _id model
  | upsertById id' patch =>
      show _ ≤ (col.upsertById id' patch).2.seq
      unfold InMemoryCollection.upsertById
      split
      next => exact (InMemoryCollection.keys_updateById id' patch).2.ge
      next => exact Nat.le_refl _
  | upsertOne filter _id patch =>
      show _ ≤ (col.upsertOne filter _id patch).2.seq
      unfold InMemoryCollection.upsertOne
      split
      next id' _ => exact (InMemoryCollection.keys_updateById id' patch).2.ge
      next => exact InMemoryCollection.seq_insert_le _id _
  | updateById id' patch => exact (InMemoryCollection.keys_updateById id' patch).2.ge
  | updateOne filter patch => exact (InMemoryCollection.keys_updateOne filter patch).2.ge
  | removeById id' =>
      show _ ≤ (col.removeById id').2.seq
      unfold InMemoryCollection.removeById
      split <;> exact Nat.le_refl _
  | removeOne filter =>
      show _ ≤ (col.removeOne filter).2.seq
      unfold InMemoryCollection.removeOne
      split <;> exact Nat.le_refl _
  | removeMany filter => exact Nat.le_refl _
  | elsewhere => exact Nat.le_succ _

end Step

/-! ### Every request -/

/-- Every id comes from the counter as it has run so far, or was brought. -/
def Issued (Brought : String → Prop) (col : InMemoryCollection α) : Prop :=
  ∀ id ∈ col.items.keys, (∃ n ≤ col.seq, id = idText n) ∨ Brought id

theorem Issued.step {Brought : String → Prop} {col : InMemoryCollection α} {op : CollectionOp α π}
    (h : Issued Brought col) (hop : ∀ id, op.brings = some id → Brought id) :
    Issued Brought (op.step col) := by
  intro id hid
  rcases mem_keys_step hid with hold | hbrought | ⟨hnext, hseq⟩
  · refine (h id hold).imp_left ?_
    rintro ⟨n, hn, rfl⟩
    exact ⟨n, hn.trans seq_le_step, rfl⟩
  · exact .inr (hop id hbrought)
  · exact .inl ⟨col.seq + 1, hseq.ge, hnext⟩

/-- The next id of the counter is new when nobody brought it. -/
theorem Issued.fresh {Brought : String → Prop} {col : InMemoryCollection α} (h : Issued Brought col)
    (hnot : ¬ Brought (idText (col.seq + 1))) : idText (col.seq + 1) ∉ col.items.keys := by
  intro hmem
  rcases h _ hmem with ⟨n, hn, heq⟩ | hbrought
  · exact absurd (idText_injective heq ▸ hn) (Nat.not_succ_le_self _)
  · exact hnot hbrought

theorem issued_run (ops : List (CollectionOp α π)) :
    Issued (fun id => ∃ op ∈ ops, op.brings = some id) (run step {} ops) := by
  have halong : Along step (fun _ (op : CollectionOp α π) => ∀ id, op.brings = some id →
      ∃ op ∈ ops, op.brings = some id) {} ops :=
    along_of_forall fun op hop id hid => ⟨op, hop, hid⟩
  refine halong.invariant_run (fun _ _ h hok => h.step hok) ?_
  intro id hid
  cases hid

/-- A document keeps its place while no request addresses it, and the counter is past its id. -/
theorem findById_run {n : Nat} {doc : Doc α} {col : InMemoryCollection α}
    (hpast : n ≤ col.seq) (hthere : col.findById (idText n) = some doc) {ops : List (CollectionOp α π)}
    (hquiet : Along step (fun s op => ¬ op.Addresses s (idText n)) col ops) :
    (run step col ops).findById (idText n) = some doc := by
  have hstep : ∀ (s : InMemoryCollection α) (op : CollectionOp α π),
      n ≤ s.seq ∧ s.findById (idText n) = some doc → ¬ op.Addresses s (idText n) →
        n ≤ (op.step s).seq ∧ (op.step s).findById (idText n) = some doc := by
    rintro s op ⟨hseq, hfind⟩ hop
    refine ⟨hseq.trans seq_le_step, ?_⟩
    have hnext : idText n ≠ idText (s.seq + 1) := fun heq =>
      absurd (idText_injective heq ▸ hseq) (Nat.not_succ_le_self _)
    unfold InMemoryCollection.findById at hfind ⊢
    rw [get?_step hnext hop, hfind]
  exact (hquiet.invariant_run hstep ⟨hpast, hthere⟩).2

/-- **Inserted documents stay.**  In any run of requests, also of other collections, a document inserted
without an id gets one that no document has, unless a caller brought that very text before; every other
document is as before, and the new one is found as it was inserted until a request addresses it. -/
theorem inserted_stays (before after : List (CollectionOp α π)) (model : α) :
    let col := run step {} before
    let inserted := col.insert none model
    (∀ op ∈ before, op.brings ≠ some inserted.1._id) →
    Along step (fun s op => ¬ op.Addresses s inserted.1._id) inserted.2 after →
    col.findById inserted.1._id = none ∧
      (∀ id, id ≠ inserted.1._id → inserted.2.findById id = col.findById id) ∧
      (run step inserted.2 after).findById inserted.1._id = some inserted.1 := by
  intro col inserted hbrought hquiet
  have hfresh : idText (col.seq + 1) ∉ col.items.keys :=
    (issued_run before).fresh fun ⟨op, hop, hid⟩ => hbrought op hop hid
  refine ⟨?_, ?_, ?_⟩
  · show (col.items.get? (idText (col.seq + 1))).map _ = none
    rw [OrderedMap.get?_eq_none_iff.mpr hfresh]
    rfl
  · intro id hne
    unfold InMemoryCollection.findById
    rw [InMemoryCollection.get?_insert none model hne]
  · refine findById_run (Nat.le_refl _) ?_ hquiet
    exact InMemoryCollection.findById_eq_some.mpr ⟨rfl, col.items.get?_set_self _ _⟩

end CollectionOp

/-! ## Pages -/

namespace InMemoryCollection

variable {α τ : Type} {col : InMemoryCollection α}

theorem nodup_docs : col.docs.Nodup := by
  refine List.Nodup.of_map Doc._id ?_
  have hids : col.docs.map Doc._id = col.items.keys := by
    unfold docs
    rw [List.map_map]
    rfl
  rw [hids]
  exact col.items.nodup

theorem data_page (data : List τ) (i limit : Nat) :
    (page data (i + 1) limit).data = (data.take ((i + 1) * limit)).drop (i * limit) := by
  have hpage : ¬ ((i : Int) + 1 < 1) := by omega
  have hstart : ((i : Int) + 1 - 1) * limit = ((i * limit : Nat) : Int) := by
    rw [Int.add_sub_cancel]
    exact (Int.natCast_mul i limit).symm
  have hstop : ((i * limit : Nat) : Int) + limit = (((i + 1) * limit : Nat) : Int) := by
    rw [Nat.succ_mul, Int.natCast_add]
  unfold page slice
  simp only [hpage, if_false, hstart, hstop, Int.not_lt.mpr (Int.natCast_nonneg _), Int.toNat_natCast]

/-- The counter is past the ids: the next one is new. -/
theorem not_mem_of_issued {keys : List String} {seq : Nat} (h : ∀ id ∈ keys, ∃ n ≤ seq, id = idText n) :
    idText (seq + 1) ∉ keys := by
  intro hmem
  obtain ⟨n, hn, heq⟩ := h _ hmem
  exact absurd (idText_injective heq ▸ hn) (Nat.not_succ_le_self _)

theorem issued_insert (col : InMemoryCollection α)
    (h : ∀ id ∈ col.items.keys, ∃ n ≤ col.seq, id = idText n) (model : α) : ∀ id ∈ (col.insert none model).2.items.keys, ∃ n ≤ col.seq + 1, id = idText n := by
  intro id hid
  rcases mem_keys_insert hid with hold | hbrought | ⟨rfl, -⟩
  · obtain ⟨n, hn, heq⟩ := h id hold
    exact ⟨n, hn.trans (Nat.le_succ _), heq⟩
  · cases hbrought
  · exact ⟨col.seq + 1, Nat.le_refl _, rfl⟩

/-- The collection after these documents are inserted. -/
def insertAll (col : InMemoryCollection α) (models : List α) : InMemoryCollection α :=
  run (fun col model => (col.insert none model).2) col models

/-- Inserts put documents behind those that are there. -/
theorem docs_insertAll (hissued : ∀ id ∈ col.items.keys, ∃ n ≤ col.seq, id = idText n) (models : List α) :
    col.docs <+: (col.insertAll models).docs ∧
      ∀ id ∈ (col.insertAll models).items.keys, ∃ n ≤ (col.insertAll models).seq, id = idText n := by
  induction models generalizing col with
  | nil => exact ⟨List.prefix_rfl, hissued⟩
  | cons model models ih =>
      have hfresh : idText (col.seq + 1) ∉ col.items.keys := not_mem_of_issued hissued
      have hbehind : col.docs <+: (col.insert none model).2.docs := by
        unfold docs
        rw [insert_items]
        show _ <+: List.map _ (col.items.set (idText (col.seq + 1)) model).entries
        rw [OrderedMap.entries_set_of_not_mem hfresh, List.map_append]
        exact List.prefix_append _ _
      obtain ⟨hrest, hkeys⟩ := ih (issued_insert col hissued model)
      exact ⟨hbehind.trans hrest, hkeys⟩

/-- **Walking the pages.**  While documents are inserted between one page and the next, the walk shows no
document twice, shows all that matched when it began, up to where it has come, in their order, and shows
nothing that does not match. -/
theorem pages_walked (filter : Doc α → Bool) (limit n : Nat) (inserts : Nat → List α)
    (hissued : ∀ id ∈ col.items.keys, ∃ n ≤ col.seq, id = idText n) :
    let now (i : Nat) := col.insertAll ((List.range i).flatMap inserts)
    let shown := (List.range n).flatMap fun i : Nat => ((now i).paginate filter (i + 1) limit).data
    shown.Nodup ∧ shown.Sublist ((now n).filter filter) ∧
      (∀ doc ∈ (col.filter filter).take (n * limit), doc ∈ shown) ∧
      ((col.paginate filter 1 limit).total ≤ n * limit → ∀ doc ∈ col.docs, filter doc = true → doc ∈ shown) := by
  intro now shown
  have hnow : ∀ i, now (i + 1) = (now i).insertAll (inserts i) := by
    intro i
    show run _ col ((List.range (i + 1)).flatMap inserts) = run _ (run _ col _) (inserts i)
    rw [List.range_succ, List.flatMap_append, List.flatMap_singleton, run_append]
  have hgrow : ∀ i, (now i).filter filter <+: (now (i + 1)).filter filter := by
    intro i
    rw [hnow]
    exact (docs_insertAll (docs_insertAll hissued _).2 (inserts i)).1.filter filter
  have hshown : shown = walk limit (fun i => (now i).filter filter) n := by
    refine List.flatMap_congr fun i _ => ?_
    exact data_page ((now i).filter filter) i limit
  have hsub : shown.Sublist ((now n).filter filter) := by
    rw [hshown]
    exact (walk_sublist hgrow n).trans (List.take_sublist _ _)
  have hall : ∀ doc ∈ (col.filter filter).take (n * limit), doc ∈ shown := by
    rw [hshown]
    exact fun doc hdoc => mem_walk hgrow hdoc
  refine ⟨(nodup_docs.filter _).sublist hsub, hsub, hall, fun hend doc hdoc hmatch => hall doc ?_⟩
  rw [List.take_of_length_le hend]
  exact List.mem_filter.mpr ⟨hdoc, hmatch⟩

theorem pages_walked_users :
    let col : InMemoryCollection String := InMemoryCollection.insertAll {} ["a", "b", "c"]
    let inserts (i : Nat) : List String := if i = 0 then ["d", "e"] else []
    let now (i : Nat) := col.insertAll ((List.range i).flatMap inserts)
    let shown := (List.range 2).flatMap fun i : Nat => ((now i).paginate (fun _ => true) (i + 1) (2 : Nat)).data
    shown.Nodup ∧ shown.Sublist ((now 2).filter fun _ => true) ∧
      (∀ doc ∈ (col.filter fun _ => true).take (2 * 2), doc ∈ shown) ∧
      ((col.paginate (fun _ => true) 1 (2 : Nat)).total ≤ 2 * 2 →
        ∀ doc ∈ col.docs, (fun _ => true) doc = true → doc ∈ shown) :=
  pages_walked (fun _ => true) 2 2 _ (docs_insertAll (List.forall_mem_nil _) ["a", "b", "c"]).2

end InMemoryCollection

/-! ## Documents that are objects -/

instance : PatchDocs Obj Obj where
  spread := Obj.assign
  ofPatch := Obj.assign []

open CollectionOp in
theorem inserted_stays_user :
    let col : InMemoryCollection Obj := run step {} [.insert none [("name", .str "a")], .elsewhere]
    let inserted := col.insert none [("name", .str "b")]
    col.findById inserted.1._id = none ∧
      (∀ id, id ≠ inserted.1._id → inserted.2.findById id = col.findById id) ∧
      (run step inserted.2 [.updateById (idText 1) [("name", .str "c")], .insert none [],
        .removeMany fun doc => doc.fields.isEmpty]).findById inserted.1._id = some inserted.1 :=
  inserted_stays _ _ _ (by decide) (by
    refine ⟨?_, ?_, ?_, trivial⟩
    · exact fun h => absurd (idText_injective h) (by decide)
    · nofun
    · rintro ⟨doc, hdoc, hempty⟩
      obtain ⟨-, hfields⟩ := InMemoryCollection.findById_eq_some.mp hdoc
      cases doc
      cases hfields
      cases hempty)

end NestAmqp.Store
