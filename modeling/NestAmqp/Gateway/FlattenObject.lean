/-
# NestAmqp.Gateway.FlattenObject — patches as dotted paths.

The database repositories update a document with `$set` over `flattenObject(patch)`: a record of the
leaves of the patch, each under its dotted path.  Plain objects are walked, everything else is a leaf.
The database is given by its contract.  The update is the deep merge of the patch exactly when the database
takes the fields of the record and the document already has what the record cannot say: the objects of the
patch that hold no leaf, and a leaf under `__proto__`, which a plain record has no room for.
-/
import NestAmqp.Js.PlainObject
import NestAmqp.Lib.FieldTree

namespace NestAmqp.Gateway.FlattenObject

open NestAmqp.Js
open NestAmqp.Lib FieldTree

variable {α : Type}

/-! ## The record of paths -/

/-- `` prefix ? `${prefix}.${key}` : key ``. -/
def joinPath (parent key : String) : String := if parent = "" then key else parent ++ "." ++ key

mutual
/-- `flattenObject(input, prefix, out)`. -/
def flattenObject : List (String × FieldTree String α) → String → List (String × α) → List (String × α)
  | [], _, out => out
  | (key, value) :: input, parent, out =>
      flattenObject input parent (flattenValue value (joinPath parent key) out)

/-- One value: a plain object is walked, a leaf is written. -/
def flattenValue : FieldTree String α → String → List (String × α) → List (String × α)
  | .leaf a, path, out => assign out path a
  | .node input, path, out => flattenObject input path out
end

/-! ## The update -/

/-- The names of a dotted path. -/
def splitPath (path : String) : List String := (path.toList.splitOn '.').map String.ofList

/-- The writes a record of dotted paths asks for. -/
def writes (record : List (String × α)) : List (List String × FieldTree String α) :=
  record.map fun entry => (splitPath entry.1, .leaf entry.2)

/-- The names an update takes as names of fields: one that starts with `$` is an operator, and `_id` is
not to be changed. -/
def IsPlain (path : List String) : Prop :=
  path.head? ≠ some "_id" ∧ ∀ key ∈ path, key.toList.head? ≠ some '$'

instance (path : List String) : Decidable (IsPlain path) := inferInstanceAs (Decidable (_ ∧ _))

/-- A database: `$set` with a record of dotted paths, `none` where the update is refused, and the fields it
takes in a document. -/
structure Database (α : Type) where
  set : FieldTree String α → List (String × α) → Option (FieldTree String α)
  takes : FieldTree String α → String × α → Prop

/-- The contract of `$set`. -/
structure Database.SetsFields (database : Database α) : Prop where
  /-- Fields under plain names are taken; what is done about the others is left to the database. -/
  plain : ∀ doc entry, IsPlain (splitPath entry.1) → database.takes doc entry
  /-- When all fields are taken and none is on the way to another, each is written at its path, up to the
  order of fields: the objects on the way are created, a leaf on the way refuses the update, and an empty
  record changes nothing. -/
  applied : ∀ doc record, (∀ entry ∈ record, database.takes doc entry) → Apart (writes record) →
    Option.Rel Same (database.set doc record) (doc.setAll (writes record))
  /-- One field that is not taken refuses the update. -/
  refused : ∀ doc record, ¬ (∀ entry ∈ record, database.takes doc entry) → database.set doc record = none

/-! ## What the record holds -/

/-- The name of a field that can be part of a dotted path. -/
def IsFieldName (key : String) : Prop := key ≠ "" ∧ '.' ∉ key.toList

/-- The dotted path. -/
def dotted (path : List String) : String := path.foldl joinPath ""

mutual
theorem flattenObject_eq : (input : List (String × FieldTree String α)) → (parent : String) →
    (out : List (String × α)) → flattenObject input parent out =
      (fieldLeaves input).foldl (fun out l => assign out (l.1.foldl joinPath parent) l.2) out
  | [], _, _ => rfl
  | (key, value) :: input, parent, out => by
      rw [flattenObject, flattenValue_eq value, flattenObject_eq input, fieldLeaves, List.foldl_append,
        List.foldl_map]
      rfl

/-- The leaves are written one after the other. -/
theorem flattenValue_eq : (value : FieldTree String α) → (path : String) → (out : List (String × α)) →
    flattenValue value path out =
      (leaves value).foldl (fun out l => assign out (l.1.foldl joinPath path) l.2) out
  | .leaf _, _, _ => rfl
  | .node input, path, out => flattenObject_eq input path out
end

theorem joinPath_ne {parent : String} (h : parent ≠ "") (key : String) : joinPath parent key ≠ "" := by
  rw [joinPath, if_neg h]
  intro hempty
  have hlist := congrArg String.toList hempty
  simp [String.toList_append] at hlist

theorem toList_foldl_joinPath {parent : String} (h : parent ≠ "") (path : List String) :
    (path.foldl joinPath parent).toList =
      ['.'].intercalate (parent.toList :: path.map String.toList) := by
  induction path generalizing parent with
  | nil => rw [List.foldl_nil, List.map_nil, List.intercalate_singleton]
  | cons key path ih =>
      rw [List.foldl_cons, ih (joinPath_ne h key), joinPath, if_neg h, List.map_cons,
        List.intercalate_cons_cons]
      cases path.map String.toList with
      | nil =>
          rw [List.intercalate_singleton, List.intercalate_singleton, String.toList_append,
            String.toList_append]
          rfl
      | cons next rest =>
          rw [List.intercalate_cons_cons, List.intercalate_cons_cons, String.toList_append,
            String.toList_append]
          simp

/-- A dotted path splits into its names. -/
theorem splitPath_dotted {path : List String} (hne : path ≠ []) (h : ∀ key ∈ path, IsFieldName key) :
    splitPath (dotted path) = path := by
  obtain ⟨key, path, rfl⟩ := List.exists_cons_of_ne_nil hne
  have hkey := h key List.mem_cons_self
  have htext : (dotted (key :: path)).toList = ['.'].intercalate ((key :: path).map String.toList) := by
    unfold dotted
    rw [List.foldl_cons, joinPath, if_pos rfl, toList_foldl_joinPath hkey.1, List.map_cons]
  unfold splitPath
  rw [htext, List.splitOn_intercalate '.' ?_ (by simp), List.map_map]
  · have hid : String.ofList ∘ String.toList = id := funext fun s => String.ofList_toList
    rw [hid, List.map_id]
  · intro part hpart
    obtain ⟨name, hname, rfl⟩ := List.mem_map.mp hpart
    exact (h name hname).2

/-- Two paths of names that read the same are the same. -/
theorem dotted_inj {p q : List String} (hp : p ≠ []) (hpn : ∀ key ∈ p, IsFieldName key) (hq : q ≠ [])
    (hqn : ∀ key ∈ q, IsFieldName key) (h : dotted p = dotted q) : p = q := by
  rw [← splitPath_dotted hp hpn, ← splitPath_dotted hq hqn, h]

/-- The leaf under `__proto__` is the one that is not written. -/
def keep (path : List String) : Bool := path != ["__proto__"]

theorem isFieldName_proto : IsFieldName "__proto__" := by
  unfold IsFieldName
  decide

variable {patch : List (String × FieldTree String α)}

/-- The path of a leaf of a patch. -/
theorem path_of_mem_leaves (h : WellNamed IsFieldName (.node patch)) {p : List String} {a : α}
    (hmem : (p, a) ∈ leaves (.node patch)) : p ≠ [] ∧ ∀ key ∈ p, IsFieldName key := by
  refine ⟨?_, names_of_mem_leaves h hmem⟩
  rintro rfl
  have hlook := (mem_leaves h).mp hmem
  cases hlook

/-- The record has the leaves of the patch, each under its dotted path. -/
theorem flattenObject_leaves (h : WellNamed IsFieldName (.node patch)) :
    flattenObject patch "" [] =
      ((leaves (.node patch)).filter fun l => keep l.1).map fun l => (dotted l.1, l.2) := by
  have hentries : flattenObject patch "" [] =
      ((leaves (.node patch)).map fun l => (dotted l.1, l.2)).foldl (fun out e => assign out e.1 e.2) [] := by
    rw [flattenObject_eq, List.foldl_map]
    rfl
  rw [hentries, foldl_assign, List.nil_append, List.filter_map]
  · congr 1
    refine List.filter_congr fun l hl => ?_
    obtain ⟨hne, hnames⟩ := path_of_mem_leaves h hl
    change (dotted l.1 != "__proto__") = (l.1 != ["__proto__"])
    have hiff : dotted l.1 = "__proto__" ↔ l.1 = ["__proto__"] := by
      refine ⟨fun heq => ?_, fun heq => by rw [heq]; rfl⟩
      exact dotted_inj hne hnames (List.cons_ne_nil _ _)
        (List.forall_mem_singleton.mpr isFieldName_proto) heq
    rw [Bool.eq_iff_iff, bne_iff_ne, bne_iff_ne, Ne, Ne, hiff]
  · -- no two leaves have one dotted path
    rw [List.map_nil, List.nil_append, List.map_map]
    have hpaths := nodup_leaves h
    rw [List.Nodup, List.pairwise_map] at hpaths ⊢
    refine hpaths.imp_of_mem fun {l m} hl hm hne heq => hne ?_
    obtain ⟨hl, hlnames⟩ := path_of_mem_leaves h hl
    obtain ⟨hm, hmnames⟩ := path_of_mem_leaves h hm
    exact dotted_inj hl hlnames hm hmnames heq

/-- The record asks for the writes of the leaves. -/
theorem writes_flattenObject (h : WellNamed IsFieldName (.node patch)) :
    writes (flattenObject patch "" []) = leafWrites keep (.node patch) := by
  rw [flattenObject_leaves h, writes, leafWrites, List.map_map]
  refine List.map_congr_left fun l hl => ?_
  obtain ⟨hne, hnames⟩ := path_of_mem_leaves h (List.mem_filter.mp hl).1
  exact congrArg (fun path => (path, FieldTree.leaf l.2)) (splitPath_dotted hne hnames)

variable {database : Database α}

/-- `$set` with the record writes the leaves. -/
theorem set_flattenObject (hdatabase : database.SetsFields) (h : WellNamed IsFieldName (.node patch))
    {doc : FieldTree String α}
    (htakes : ∀ entry ∈ flattenObject patch "" [], database.takes doc entry) :
    Option.Rel Same (database.set doc (flattenObject patch "" []))
      (doc.setAll (leafWrites keep (.node patch))) := by
  have happlied := hdatabase.applied doc (flattenObject patch "" []) htakes
  rw [writes_flattenObject h] at happlied
  exact happlied (apart_leafWrites h)

/-! ## When it is the deep merge -/

/-- The update is the deep merge of the patch into the document, and no two values of the patch share a
dotted path. -/
structure DeepMerge (database : Database α) (doc patch : List (String × FieldTree String α)) : Prop where
  merged : ∃ after, database.set (.node doc) (flattenObject patch "" []) = some after ∧
    Same after (merge (.node doc) (.node patch))
  separate : ∀ p q a b, (FieldTree.node patch).look p = some (.leaf a) →
    (FieldTree.node patch).look q = some (.leaf b) → dotted p = dotted q → p = q

theorem separate_leaves (h : WellNamed IsFieldName (.node patch)) (p q : List String) (a b : α)
    (hp : (FieldTree.node patch).look p = some (.leaf a))
    (hq : (FieldTree.node patch).look q = some (.leaf b)) (heq : dotted p = dotted q) : p = q := by
  obtain ⟨hpne, hpnames⟩ := path_of_mem_leaves h ((mem_leaves h).mpr hp)
  obtain ⟨hqne, hqnames⟩ := path_of_mem_leaves h ((mem_leaves h).mpr hq)
  exact dotted_inj hpne hpnames hqne hqnames heq

/-- The update goes through and merges, if the database takes the fields and the document has what the
writes leave out. -/
theorem merged_iff (hdatabase : database.SetsFields) {doc patch : List (String × FieldTree String α)}
    (hpatch : WellNamed IsFieldName (.node patch)) (hfits : Fits (.node doc) (.node patch)) :
    (∃ after, database.set (.node doc) (flattenObject patch "" []) = some after ∧
        Same after (merge (.node doc) (.node patch))) ↔
      (∀ entry ∈ flattenObject patch "" [], database.takes (.node doc) entry) ∧
        Remains keep (.node doc) (.node patch) := by
  obtain ⟨written, hwritten⟩ : ∃ written,
      (FieldTree.node doc).setAll (leafWrites keep (.node patch)) = some written :=
    exists_setAll_leafWrites hpatch hfits
  constructor
  · rintro ⟨after, hset, hsame⟩
    have htakes : ∀ entry ∈ flattenObject patch "" [], database.takes (.node doc) entry := by
      by_contra hnot
      rw [hdatabase.refused _ _ hnot] at hset
      cases hset
    refine ⟨htakes, (same_merge_iff hpatch hwritten).mp fun path => ?_⟩
    have hrel := set_flattenObject hdatabase hpatch htakes
    rw [hset, hwritten] at hrel
    cases hrel with
    | some hlike => rw [← hlike path, hsame path]
  · rintro ⟨htakes, hremains⟩
    have hrel := set_flattenObject hdatabase hpatch htakes
    rw [hwritten] at hrel
    cases hset : database.set (.node doc) (flattenObject patch "" []) with
    | none =>
        rw [hset] at hrel
        cases hrel
    | some after =>
        rw [hset] at hrel
        cases hrel with
        | some hlike =>
            refine ⟨after, rfl, fun path => ?_⟩
            rw [hlike path, (same_merge_iff hpatch hwritten).mpr hremains path]

/-- What the record of a patch leaves out: the objects without leaves, and the leaf under `__proto__`. -/
theorem remains_keep_iff {doc patch : List (String × FieldTree String α)} :
    Remains keep (.node doc) (.node patch) ↔
      (∀ p, (FieldTree.node patch).look p = some .object →
        (∀ q a, (FieldTree.node patch).look (p ++ q) ≠ some (.leaf a)) →
        (FieldTree.node doc).look p = some .object) ∧
      (∀ a, (FieldTree.node patch).look ["__proto__"] = some (.leaf a) →
        (FieldTree.node doc).look ["__proto__"] = some (.leaf a)) := by
  constructor
  · rintro ⟨hleaves, hobjects⟩
    refine ⟨fun p hp hnone => hobjects p hp fun q a hq => absurd hq (hnone q a), fun a ha => ?_⟩
    exact hleaves ["__proto__"] a ha (by decide)
  · rintro ⟨hobjects, hproto⟩
    refine ⟨fun p a hp hdropped => ?_, fun p hp hnone => ?_⟩
    · have hpath : p = ["__proto__"] := by simpa [keep] using hdropped
      subst hpath
      exact hproto a hp
    · cases p with
      | nil => rfl
      | cons key p =>
          refine hobjects (key :: p) hp fun q a hq => ?_
          -- only the root is above `__proto__`
          have hdropped := hnone q a hq
          have hpath : key :: (p ++ q) = ["__proto__"] := by simpa [keep] using hdropped
          obtain ⟨rfl, htail⟩ := List.cons.inj hpath
          obtain ⟨rfl, rfl⟩ := List.append_eq_nil_iff.mp htail
          rw [List.append_nil, hp] at hq
          cases hq

instance (updates : List (List String × FieldTree String α)) : Decidable (Apart updates) :=
  inferInstanceAs (Decidable (List.Pairwise _ _))

/-- A database that takes the plain names, writes the fields in the order of the record, and refuses two
paths one of which is on the way to the other. -/
def Database.ofPlain : Database α where
  set doc record :=
    if (∀ entry ∈ record, IsPlain (splitPath entry.1)) ∧ Apart (writes record) then
      doc.setAll (writes record)
    else none
  takes _ entry := IsPlain (splitPath entry.1)

theorem Database.setsFields_ofPlain : (Database.ofPlain : Database α).SetsFields where
  plain _ _ hplain := hplain
  applied doc record htakes hapart := by
    change Option.Rel Same (if _ then _ else _) _
    rw [if_pos ⟨htakes, hapart⟩]
    cases doc.setAll (writes record) with
    | none => exact .none
    | some after => exact .some fun _ => rfl
  refused _ _ hnot := if_neg fun h => hnot h.1

theorem Database.set_ofPlain_nil (doc : FieldTree String α) : Database.ofPlain.set doc [] = some doc := by
  simp [Database.ofPlain, writes, Apart, setAll]

/-- A patch of one leaf. -/
def renamed : List (String × FieldTree String Js.Value) := [("name", .leaf (.str "docs"))]

theorem wellNamed_renamed : WellNamed IsFieldName (.node renamed) := by
  refine .node _ (by decide) (List.forall_mem_singleton.mpr ?_) (List.forall_mem_singleton.mpr (.leaf _))
  unfold IsFieldName
  decide

/-- It has no object but itself. -/
theorem look_renamed {p : List String} (h : (FieldTree.node renamed).look p = some .object) : p = [] := by
  cases p with
  | nil => rfl
  | cons key p =>
      rw [look_cons, fields, renamed, lookup_field] at h
      split at h
      · cases p <;> cases h
      · cases h

/-- A patch of one empty object. -/
def cleared : List (String × FieldTree String Js.Value) := [("headers", .node [])]

end NestAmqp.Gateway.FlattenObject
