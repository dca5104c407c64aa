/-
# NestAmqp.Lib.FieldTree — documents as trees of named fields, and two ways to update them.

A tree is a leaf, or an object of named fields.  What stands at a path is seen with `look`; two trees that
look the same at every path differ at most in the order of their fields.  `merge` puts one tree over
another, field by field; `setAll` writes values at paths, creating the objects on the way.  The last
section says what becomes of a merge when it is done by writing the leaves: objects without leaves leave
no trace.
-/
import Mathlib.Data.List.Basic
import Mathlib.Data.List.Nodup
import NestAmqp.Lib.AssocList

namespace NestAmqp.Lib

/-- A leaf, or an object. -/
inductive FieldTree (κ α : Type) where
  | leaf (a : α)
  | node (fields : List (κ × FieldTree κ α))

namespace FieldTree

/-- What is seen of a tree from outside. -/
inductive Kind (α : Type) where
  | object
  | leaf (a : α)
  deriving DecidableEq, Repr

variable {κ α : Type}

def kind : FieldTree κ α → Kind α
  | leaf a => .leaf a
  | node _ => .object

def fields : FieldTree κ α → List (κ × FieldTree κ α)
  | leaf _ => []
  | node fields => fields

variable [DecidableEq κ]

/-- The tree at a path. -/
def sub : FieldTree κ α → List κ → Option (FieldTree κ α)
  | t, [] => some t
  | t, k :: path => (t.fields.lookup k).bind fun child => child.sub path

/-- What stands at a path. -/
def look (t : FieldTree κ α) (path : List κ) : Option (Kind α) := (t.sub path).map kind

/-- The trees look the same at every path. -/
def Same (t u : FieldTree κ α) : Prop := ∀ path, t.look path = u.look path

/-- `fields[key] = child`. -/
def put (fields : List (κ × FieldTree κ α)) (key : κ) (child : FieldTree κ α) :
    List (κ × FieldTree κ α) :=
  match fields with
  | [] => [(key, child)]
  | (k, c) :: rest => if k = key then (k, child) :: rest else (k, c) :: put rest key child

/-- The value is written at the path; no field is created inside a leaf. -/
def setPath : FieldTree κ α → List κ → FieldTree κ α → Option (FieldTree κ α)
  | _, [], value => some value
  | leaf _, _ :: _, _ => none
  | node fields, k :: path, value =>
      (setPath ((fields.lookup k).getD (node [])) path value).map fun child => node (put fields k child)

/-- The values are written one after the other. -/
def setAll (t : FieldTree κ α) (updates : List (List κ × FieldTree κ α)) : Option (FieldTree κ α) :=
  updates.foldlM (fun t update => t.setPath update.1 update.2) t

mutual
/-- The second tree over the first. -/
def merge : FieldTree κ α → FieldTree κ α → FieldTree κ α
  | _, leaf a => leaf a
  | t, node patch => node (mergeFields t.fields patch)

/-- The fields of a patch over those of an object. -/
def mergeFields : List (κ × FieldTree κ α) → List (κ × FieldTree κ α) → List (κ × FieldTree κ α)
  | old, [] => old
  | old, (k, patch) :: rest =>
      mergeFields (put old k (merge ((old.lookup k).getD (node [])) patch)) rest
end

mutual
/-- The leaves, each with its path. -/
def leaves : FieldTree κ α → List (List κ × α)
  | leaf a => [([], a)]
  | node fields => fieldLeaves fields

def fieldLeaves : List (κ × FieldTree κ α) → List (List κ × α)
  | [] => []
  | (k, child) :: rest => (leaves child).map (fun l => (k :: l.1, l.2)) ++ fieldLeaves rest
end

/-- No object has two fields of one name, and every name is as `P` asks. -/
inductive WellNamed (P : κ → Prop) : FieldTree κ α → Prop
  | leaf (a : α) : WellNamed P (leaf a)
  | node (fields : List (κ × FieldTree κ α)) : (fields.map Prod.fst).Nodup →
      (∀ field ∈ fields, P field.1) → (∀ field ∈ fields, WellNamed P field.2) →
      WellNamed P (node fields)

/-! ## Looking -/

@[simp] theorem look_nil (t : FieldTree κ α) : t.look [] = some t.kind := rfl

theorem look_cons (t : FieldTree κ α) (k : κ) (path : List κ) :
    t.look (k :: path) = (t.fields.lookup k).bind fun child => child.look path := by
  unfold look
  rw [sub]
  cases t.fields.lookup k <;> rfl

theorem sub_append (t : FieldTree κ α) (p q : List κ) :
    t.sub (p ++ q) = (t.sub p).bind fun child => child.sub q := by
  induction p generalizing t with
  | nil => rfl
  | cons k p ih =>
      rw [List.cons_append, sub, sub]
      cases t.fields.lookup k with
      | none => rfl
      | some child => exact ih child

/-- Nothing is found inside a leaf. -/
theorem look_leaf_cons (a : α) (k : κ) (path : List κ) : (leaf a : FieldTree κ α).look (k :: path) = none :=
  rfl

/-- Above what is found there are objects. -/
theorem look_above {t : FieldTree κ α} {p q : List κ} (hq : q ≠ []) {seen : Kind α}
    (h : t.look (p ++ q) = some seen) : t.look p = some .object := by
  unfold look at h ⊢
  rw [sub_append] at h
  cases hsub : t.sub p with
  | none =>
      rw [hsub] at h
      cases h
  | some child =>
      rw [hsub] at h
      cases child with
      | node fields => rfl
      | leaf a =>
          obtain ⟨k, q, rfl⟩ := List.exists_cons_of_ne_nil hq
          cases h

theorem lookup_field (k' k : κ) (child : FieldTree κ α) (fields : List (κ × FieldTree κ α)) :
    ((k', child) :: fields).lookup k = if k = k' then some child else fields.lookup k := by
  rw [List.lookup_cons]
  by_cases h : k = k'
  · simp [h]
  · rw [beq_eq_false_iff_ne.mpr h, if_neg h]

theorem lookup_put (fields : List (κ × FieldTree κ α)) (key : κ) (child : FieldTree κ α) (k : κ) :
    (put fields key child).lookup k = if k = key then some child else fields.lookup k := by
  induction fields with
  | nil => rw [put, lookup_field]
  | cons field fields ih =>
      obtain ⟨k', c⟩ := field
      unfold put
      by_cases hkey : k' = key
      · subst hkey
        rw [if_pos rfl, lookup_field, lookup_field]
        by_cases h : k = k'
        · rw [if_pos h, if_pos h]
        · rw [if_neg h, if_neg h, if_neg h]
      · rw [if_neg hkey, lookup_field, lookup_field, ih]
        by_cases h : k = k'
        · subst h
          rw [if_pos rfl, if_pos rfl, if_neg hkey]
        · rw [if_neg h, if_neg h]

/-! ## Writing at paths -/

/-- **One write.**  Below its path stands the value, above it are objects, and all else is as it was. -/
theorem look_setPath {t t' value : FieldTree κ α} {path : List κ} (h : t.setPath path value = some t')
    (p : List κ) : t'.look p =
      if path <+: p then value.look (p.drop path.length)
      else if p <+: path then some .object else t.look p := by
  induction path generalizing t t' p with
  | nil =>
      obtain rfl := Option.some.inj h
      simp
  | cons k path ih =>
      cases t with
      | leaf a => cases h
      | node fields =>
          rw [setPath] at h
          obtain ⟨child, hchild, rfl⟩ := Option.map_eq_some_iff.mp h
          cases p with
          | nil => simp [kind]
          | cons k' p =>
              rw [look_cons, look_cons]
              change ((put fields k child).lookup k').bind _ = _
              rw [lookup_put]
              by_cases hk : k' = k
              · subst hk
                rw [if_pos rfl, Option.bind_some, ih hchild p]
                simp only [List.cons_prefix_cons, true_and, List.length_cons, List.drop_succ_cons]
                split
                · rfl
                · split
                  · rfl
                  next hnot =>
                    change _ = (fields.lookup k').bind _
                    cases fields.lookup k' with
                    | some old => rfl
                    | none =>
                        -- the object that was created has nothing beside the path
                        cases p with
                        | nil => exact absurd List.nil_prefix hnot
                        | cons k p => rfl
              · have hne : k ≠ k' := Ne.symm hk
                rw [if_neg hk, if_neg fun hstart => hne (List.cons_prefix_cons.mp hstart).1,
                  if_neg fun hstart => hk (List.cons_prefix_cons.mp hstart).1]
                rfl

/-- A write goes through when no leaf is in its way. -/
theorem exists_setPath {t : FieldTree κ α} {path : List κ}
    (h : ∀ p q a, path = p ++ q → q ≠ [] → t.look p ≠ some (.leaf a)) (value : FieldTree κ α) :
    ∃ t', t.setPath path value = some t' := by
  induction path generalizing t with
  | nil => exact ⟨value, rfl⟩
  | cons k path ih =>
      cases t with
      | leaf a => exact absurd rfl (h [] (k :: path) a rfl (List.cons_ne_nil _ _))
      | node fields =>
          rw [setPath]
          obtain ⟨child, hchild⟩ : ∃ child,
              ((fields.lookup k).getD (node [])).setPath path value = some child := by
            refine ih fun p q a hsplit hq hlook => ?_
            refine h (k :: p) q a (congrArg (k :: ·) hsplit) hq ?_
            rw [look_cons]
            change (fields.lookup k).bind _ = _
            cases hold : fields.lookup k with
            | some old =>
                rw [hold] at hlook
                exact hlook
            | none =>
                rw [hold] at hlook
                cases p with
                | nil => cases hlook
                | cons k' p => cases hlook
          exact ⟨_, by rw [hchild]; rfl⟩

/-! ## Writing at many paths -/

/-- No path of the writes is on the way to another. -/
def Apart (updates : List (List κ × FieldTree κ α)) : Prop :=
  updates.Pairwise fun u v => ¬ u.1 <+: v.1 ∧ ¬ v.1 <+: u.1

theorem setAll_cons {t t' : FieldTree κ α} {u : List κ × FieldTree κ α}
    {updates : List (List κ × FieldTree κ α)} (h : t.setAll (u :: updates) = some t') :
    ∃ mid, t.setPath u.1 u.2 = some mid ∧ mid.setAll updates = some t' := by
  unfold setAll at h ⊢
  rw [List.foldlM_cons] at h
  exact Option.bind_eq_some_iff.mp h

/-- Paths that no write touches. -/
theorem look_setAll_other {t t' : FieldTree κ α} {updates : List (List κ × FieldTree κ α)}
    (h : t.setAll updates = some t') {p : List κ} (hbelow : ∀ u ∈ updates, ¬ u.1 <+: p)
    (habove : ∀ u ∈ updates, ¬ p <+: u.1) : t'.look p = t.look p := by
  induction updates generalizing t with
  | nil => rw [← Option.some.inj h]
  | cons u updates ih =>
      obtain ⟨mid, hmid, hrest⟩ := setAll_cons h
      rw [ih hrest (fun v hv => hbelow v (.tail _ hv)) fun v hv => habove v (.tail _ hv),
        look_setPath hmid, if_neg (hbelow u List.mem_cons_self), if_neg (habove u List.mem_cons_self)]

/-- **At and below the path of a write** stands its value. -/
theorem look_setAll_below {t t' : FieldTree κ α} {updates : List (List κ × FieldTree κ α)}
    (hapart : Apart updates) (h : t.setAll updates = some t') {u : List κ × FieldTree κ α}
    (hu : u ∈ updates) {p : List κ} (hp : u.1 <+: p) : t'.look p = u.2.look (p.drop u.1.length) := by
  induction updates generalizing t with
  | nil => cases hu
  | cons v updates ih =>
      obtain ⟨mid, hmid, hrest⟩ := setAll_cons h
      obtain ⟨hv, hapart⟩ := List.pairwise_cons.mp hapart
      rcases List.mem_cons.mp hu with rfl | hu
      · -- no later write comes near
        rw [look_setAll_other hrest, look_setPath hmid, if_pos hp]
        · intro w hw hwp
          rcases List.prefix_or_prefix_of_prefix hp hwp with huw | hwu
          · exact (hv w hw).1 huw
          · exact (hv w hw).2 hwu
        · exact fun w hw hpw => (hv w hw).1 (hp.trans hpw)
      · exact ih hapart hrest hu

/-- **Above the path of a write** there are objects. -/
theorem look_setAll_above {t t' : FieldTree κ α} {updates : List (List κ × FieldTree κ α)}
    (h : t.setAll updates = some t') {p : List κ} (hbelow : ∀ u ∈ updates, ¬ u.1 <+: p)
    (habove : ∃ u ∈ updates, p <+: u.1) : t'.look p = some .object := by
  induction updates generalizing t with
  | nil =>
      obtain ⟨u, hu, -⟩ := habove
      cases hu
  | cons v updates ih =>
      obtain ⟨mid, hmid, hrest⟩ := setAll_cons h
      have hlater : ∀ w ∈ updates, ¬ w.1 <+: p := fun w hw => hbelow w (.tail _ hw)
      by_cases hmore : ∃ w ∈ updates, p <+: w.1
      · exact ih hrest hlater hmore
      · obtain ⟨u, hu, hp⟩ := habove
        rcases List.mem_cons.mp hu with rfl | hu
        · rw [look_setAll_other hrest hlater fun w hw hpw => hmore ⟨w, hw, hpw⟩, look_setPath hmid,
            if_neg (hbelow u List.mem_cons_self), if_pos hp]
        · exact absurd ⟨u, hu, hp⟩ hmore

/-- The writes go through when no leaf is in the way of any of them. -/
theorem exists_setAll {t : FieldTree κ α} {updates : List (List κ × FieldTree κ α)}
    (hapart : Apart updates)
    (h : ∀ u ∈ updates, ∀ p q a, u.1 = p ++ q → q ≠ [] → t.look p ≠ some (.leaf a)) :
    ∃ t', t.setAll updates = some t' := by
  induction updates generalizing t with
  | nil => exact ⟨t, rfl⟩
  | cons u updates ih =>
      obtain ⟨hu, hapart⟩ := List.pairwise_cons.mp hapart
      obtain ⟨mid, hmid⟩ := exists_setPath (h u List.mem_cons_self) u.2
      obtain ⟨t', ht'⟩ := ih (t := mid) hapart (by
        intro v hv p q a hsplit hq
        rw [look_setPath hmid]
        split
        next hstart =>
          exact absurd (hstart.trans (hsplit ▸ List.prefix_append p q)) (hu v hv).1
        next =>
          split
          · simp
          · exact h v (.tail _ hv) p q a hsplit hq)
      refine ⟨t', ?_⟩
      unfold setAll at ht' ⊢
      rw [List.foldlM_cons, hmid]
      exact ht'

/-! ## Merging -/

theorem lookup_mergeFields {old patch : List (κ × FieldTree κ α)} (h : (patch.map Prod.fst).Nodup) (k : κ) :
    (mergeFields old patch).lookup k =
      match patch.lookup k with
      | some child => some (merge ((old.lookup k).getD (node [])) child)
      | none => old.lookup k := by
  induction patch generalizing old with
  | nil => rw [mergeFields]; rfl
  | cons field patch ih =>
      obtain ⟨k', child⟩ := field
      rw [List.map_cons, List.nodup_cons] at h
      rw [mergeFields, ih h.2, lookup_field]
      by_cases hk : k = k'
      · subst hk
        have hout : patch.lookup k = none := by
          cases hlookup : patch.lookup k with
          | none => rfl
          | some child' =>
              exact absurd (List.mem_map.mpr ⟨_, (AssocList.lookup_eq_some_iff h.2).mp hlookup, rfl⟩) h.1
        rw [hout, if_pos rfl]
        dsimp only
        rw [lookup_put, if_pos rfl]
      · rw [if_neg hk]
        cases patch.lookup k with
        | none =>
            dsimp only
            rw [lookup_put, if_neg hk]
        | some child' =>
            dsimp only
            rw [lookup_put, if_neg hk]

variable {P : κ → Prop}

/-- **What the patch has** stands where it has it. -/
theorem look_merge_of_some {t patch : FieldTree κ α} (h : WellNamed P patch) {p : List κ} {seen : Kind α}
    (hp : patch.look p = some seen) : (merge t patch).look p = some seen := by
  induction h generalizing t p with
  | leaf a =>
      cases p with
      | nil => exact hp
      | cons k p => cases hp
  | node fields hnodup _ _ ih =>
      cases p with
      | nil => exact hp
      | cons k p =>
          rw [look_cons] at hp ⊢
          change (fields.lookup k).bind _ = _ at hp
          change ((mergeFields t.fields fields).lookup k).bind _ = _
          rw [lookup_mergeFields hnodup]
          cases hchild : fields.lookup k with
          | none =>
              rw [hchild] at hp
              cases hp
          | some child =>
              rw [hchild] at hp
              exact ih (k, child) ((AssocList.lookup_eq_some_iff hnodup).mp hchild) hp

/-- **Inside a leaf of the patch** is nothing. -/
theorem look_merge_inside {t patch : FieldTree κ α} (h : WellNamed P patch) {p : List κ} {a : α}
    (hp : patch.look p = some (.leaf a)) {q : List κ} (hq : q ≠ []) :
    (merge t patch).look (p ++ q) = none := by
  cases hlook : (merge t patch).look (p ++ q) with
  | none => rfl
  | some seen =>
      have habove := look_above hq hlook
      rw [look_merge_of_some h hp] at habove
      cases habove

/-- **What the patch does not mention** is as it was. -/
theorem look_merge_other {t patch : FieldTree κ α} (h : WellNamed P patch) {p : List κ}
    (hp : patch.look p = none) (hleaf : ∀ r q a, p = r ++ q → patch.look r ≠ some (.leaf a)) :
    (merge t patch).look p = t.look p := by
  induction h generalizing t p with
  | leaf a => exact absurd rfl (hleaf [] p a rfl)
  | node fields hnodup _ _ ih =>
      cases p with
      | nil => cases hp
      | cons k p =>
          rw [look_cons] at hp
          rw [look_cons, look_cons]
          change (fields.lookup k).bind _ = _ at hp
          change ((mergeFields t.fields fields).lookup k).bind _ = _
          rw [lookup_mergeFields hnodup]
          cases hchild : fields.lookup k with
          | none => rfl
          | some child =>
              rw [hchild] at hp
              have hbelow := ih (k, child) ((AssocList.lookup_eq_some_iff hnodup).mp hchild)
                (t := (t.fields.lookup k).getD (node [])) hp (by
                  intro r q a hsplit hlook
                  refine hleaf (k :: r) q a (congrArg (k :: ·) hsplit) ?_
                  rw [look_cons]
                  change (fields.lookup k).bind _ = _
                  rw [hchild]
                  exact hlook)
              refine hbelow.trans ?_
              cases t.fields.lookup k with
              | some old => rfl
              | none =>
                  cases p with
                  | nil => cases hp
                  | cons k' p => rfl

/-! ## Leaves -/

omit [DecidableEq κ] in
theorem mem_fieldLeaves {fields : List (κ × FieldTree κ α)} {p : List κ} {a : α} :
    (p, a) ∈ fieldLeaves fields ↔
      ∃ k child path, (k, child) ∈ fields ∧ p = k :: path ∧ (path, a) ∈ leaves child := by
  induction fields with
  | nil => simp [fieldLeaves]
  | cons field fields ih =>
      obtain ⟨k, child⟩ := field
      rw [fieldLeaves, List.mem_append, ih, List.mem_map]
      constructor
      · rintro (⟨⟨path, b⟩, hmem, heq⟩ | ⟨k', child', path, hmem, hp, hleaf⟩)
        · obtain ⟨hp, hb⟩ := Prod.mk.inj heq
          exact ⟨k, child, path, List.mem_cons_self, hp.symm, hb ▸ hmem⟩
        · exact ⟨k', child', path, .tail _ hmem, hp, hleaf⟩
      · rintro ⟨k', child', path, hmem, rfl, hleaf⟩
        rcases List.mem_cons.mp hmem with heq | hmem
        · obtain ⟨rfl, rfl⟩ := Prod.mk.inj heq
          exact .inl ⟨(path, a), hleaf, rfl⟩
        · exact .inr ⟨k', child', path, hmem, rfl, hleaf⟩

/-- The leaves are what is seen as one. -/
theorem mem_leaves {t : FieldTree κ α} (h : WellNamed P t) {p : List κ} {a : α} :
    (p, a) ∈ leaves t ↔ t.look p = some (.leaf a) := by
  induction h generalizing p with
  | leaf b =>
      rw [leaves, List.mem_singleton, Prod.mk.injEq]
      cases p with
      | nil => simp [kind, eq_comm]
      | cons k p => simp [look_leaf_cons]
  | node fields hnodup _ _ ih =>
      rw [leaves, mem_fieldLeaves]
      cases p with
      | nil => simp [kind]
      | cons k p =>
          rw [look_cons]
          change _ ↔ (fields.lookup k).bind _ = _
          constructor
          · rintro ⟨k', child, path, hmem, heq, hleaf⟩
            obtain ⟨rfl, rfl⟩ := List.cons.inj heq
            rw [(AssocList.lookup_eq_some_iff hnodup).mpr hmem]
            exact (ih _ hmem).mp hleaf
          · intro hlook
            obtain ⟨child, hchild, hleaf⟩ := Option.bind_eq_some_iff.mp hlook
            have hmem := (AssocList.lookup_eq_some_iff hnodup).mp hchild
            exact ⟨k, child, p, hmem, rfl, (ih _ hmem).mpr hleaf⟩

omit [DecidableEq κ] in
/-- The names on the way to a leaf. -/
theorem names_of_mem_leaves {t : FieldTree κ α} (h : WellNamed P t) {p : List κ} {a : α}
    (hmem : (p, a) ∈ leaves t) : ∀ k ∈ p, P k := by
  induction h generalizing p with
  | leaf b =>
      rw [leaves, List.mem_singleton] at hmem
      rw [(Prod.mk.inj hmem).1]
      exact nofun
  | node fields _ hnames _ ih =>
      rw [leaves] at hmem
      obtain ⟨k, child, path, hfield, rfl, hleaf⟩ := mem_fieldLeaves.mp hmem
      exact List.forall_mem_cons.mpr ⟨hnames _ hfield, ih _ hfield hleaf⟩

omit [DecidableEq κ] in
theorem nodup_leaves {t : FieldTree κ α} (h : WellNamed P t) : ((leaves t).map Prod.fst).Nodup := by
  induction h with
  | leaf a => simp [leaves]
  | node fields hnodup hnames hchildren ih =>
      rw [leaves]
      induction fields with
      | nil => simp [fieldLeaves]
      | cons field fields ihf =>
          obtain ⟨k, child⟩ := field
          rw [List.map_cons, List.nodup_cons] at hnodup
          have hhead : ((leaves child).map Prod.fst).Nodup := ih (k, child) List.mem_cons_self
          have hfun : Prod.fst ∘ (fun l : List κ × α => (k :: l.1, l.2)) = (k :: ·) ∘ Prod.fst := rfl
          rw [fieldLeaves, List.map_append, List.map_map, hfun, ← List.map_map, List.nodup_append]
          refine ⟨hhead.map fun _ _ heq => (List.cons.inj heq).2,
            ihf hnodup.2 (fun f hf => hnames f (.tail _ hf)) (fun f hf => hchildren f (.tail _ hf))
              fun f hf => ih f (.tail _ hf), ?_⟩
          -- the paths of another field start with another name
          intro p hp q hq heq
          obtain ⟨path, -, rfl⟩ := List.mem_map.mp hp
          obtain ⟨⟨q', b⟩, hleaf, rfl⟩ := List.mem_map.mp hq
          obtain ⟨k', child', path', hmem, rfl, -⟩ := mem_fieldLeaves.mp hleaf
          obtain ⟨rfl, -⟩ := List.cons.inj heq
          exact hnodup.1 (List.mem_map.mpr ⟨_, hmem, rfl⟩)

/-- Nothing is inside a leaf. -/
theorem eq_nil_of_leaf {t : FieldTree κ α} {p q : List κ} {a : α} (hp : t.look p = some (.leaf a))
    {seen : Kind α} (hq : t.look (p ++ q) = some seen) : q = [] := by
  by_contra hne
  rw [look_above hne hq] at hp
  cases hp

/-- No leaf is inside another. -/
theorem not_prefix_of_leaves {t : FieldTree κ α} {p q : List κ} {a b : α}
    (hp : t.look p = some (.leaf a)) (hq : t.look q = some (.leaf b)) (hne : p ≠ q) : ¬ p <+: q := by
  rintro ⟨r, rfl⟩
  rw [eq_nil_of_leaf hp hq, List.append_nil] at hne
  exact hne rfl

/-! ## A merge by its leaves -/

/-- The writes of the leaves that are kept. -/
def leafWrites (keep : List κ → Bool) (patch : FieldTree κ α) : List (List κ × FieldTree κ α) :=
  ((leaves patch).filter fun l => keep l.1).map fun l => (l.1, leaf l.2)

/-- Where the patch has an object, the tree has one or nothing. -/
def Fits (t patch : FieldTree κ α) : Prop :=
  ∀ p, patch.look p = some .object → t.look p = some .object ∨ t.look p = none

variable {keep : List κ → Bool} {t patch : FieldTree κ α}

theorem mem_leafWrites (h : WellNamed P patch) {u : List κ × FieldTree κ α} :
    u ∈ leafWrites keep patch ↔
      ∃ a, patch.look u.1 = some (.leaf a) ∧ keep u.1 = true ∧ u.2 = leaf a := by
  unfold leafWrites
  rw [List.mem_map]
  constructor
  · rintro ⟨⟨p, a⟩, hmem, rfl⟩
    obtain ⟨hleaf, hkeep⟩ := List.mem_filter.mp hmem
    exact ⟨a, (mem_leaves h).mp hleaf, hkeep, rfl⟩
  · rintro ⟨a, hlook, hkeep, hvalue⟩
    exact ⟨(u.1, a), List.mem_filter.mpr ⟨(mem_leaves h).mpr hlook, hkeep⟩, by rw [← hvalue]⟩

theorem apart_leafWrites (h : WellNamed P patch) : Apart (leafWrites keep patch) := by
  have hpaths : ((leafWrites keep patch).map Prod.fst).Nodup := by
    have hmap : (leafWrites keep patch).map Prod.fst =
        ((leaves patch).filter fun l => keep l.1).map Prod.fst := by
      unfold leafWrites
      rw [List.map_map]
      rfl
    rw [hmap]
    exact (nodup_leaves h).sublist (List.filter_sublist.map _)
  rw [List.Nodup, List.pairwise_map] at hpaths
  refine hpaths.imp_of_mem fun hu hv hne => ?_
  obtain ⟨a, ha, -, -⟩ := (mem_leafWrites h).mp hu
  obtain ⟨b, hb, -, -⟩ := (mem_leafWrites h).mp hv
  exact ⟨not_prefix_of_leaves ha hb hne, not_prefix_of_leaves hb ha (Ne.symm hne)⟩

/-- The writes of a patch that fits go through. -/
theorem exists_setAll_leafWrites (h : WellNamed P patch) (hfits : Fits t patch) :
    ∃ t', t.setAll (leafWrites keep patch) = some t' := by
  refine exists_setAll (apart_leafWrites h) fun u hu p q a hsplit hq hleaf => ?_
  obtain ⟨b, hb, -, -⟩ := (mem_leafWrites h).mp hu
  have hobject : patch.look p = some .object := look_above hq (hsplit ▸ hb)
  rcases hfits p hobject with hsame | hnone
  · rw [hleaf] at hsame
    cases hsame
  · rw [hleaf] at hnone
    cases hnone

/-- A path no kept leaf is above or below is left alone. -/
theorem look_setAll_unwritten (h : WellNamed P patch) {t' : FieldTree κ α}
    (hset : t.setAll (leafWrites keep patch) = some t') {p : List κ}
    (habove : ∀ r q a, p = r ++ q → patch.look r = some (.leaf a) → keep r = false)
    (hbelow : ∀ q a, patch.look (p ++ q) = some (.leaf a) → keep (p ++ q) = false) :
    t'.look p = t.look p := by
  refine look_setAll_other hset (fun u hu hstart => ?_) fun u hu hstart => ?_
  · obtain ⟨a, ha, hkeep, -⟩ := (mem_leafWrites h).mp hu
    obtain ⟨q, hq⟩ := hstart
    rw [habove u.1 q a hq.symm ha] at hkeep
    cases hkeep
  · obtain ⟨a, ha, hkeep, -⟩ := (mem_leafWrites h).mp hu
    obtain ⟨q, hq⟩ := hstart
    rw [← hq] at ha hkeep
    rw [hbelow q a ha] at hkeep
    cases hkeep

/-- A leaf above or inside a dropped one is the dropped one. -/
theorem dropped_of_comparable {p q : List κ} {a b : α} (hp : patch.look p = some (.leaf a))
    (hq : patch.look q = some (.leaf b)) (hpq : p <+: q ∨ q <+: p) (hdropped : keep p = false) :
    keep q = false := by
  have hsame : q = p := by
    by_contra hne
    rcases hpq with hle | hle
    · exact not_prefix_of_leaves hp hq (Ne.symm hne) hle
    · exact not_prefix_of_leaves hq hp hne hle
  rw [hsame]
  exact hdropped

/-- A leaf that is dropped, and what is inside it, is left alone. -/
theorem look_setAll_dropped (h : WellNamed P patch) {t' : FieldTree κ α}
    (hset : t.setAll (leafWrites keep patch) = some t') {p : List κ} {a : α}
    (hp : patch.look p = some (.leaf a)) (hdropped : keep p = false) (q : List κ) :
    t'.look (p ++ q) = t.look (p ++ q) := by
  refine look_setAll_unwritten h hset (fun r s b hsplit hr => ?_) fun s b hs => ?_
  · exact dropped_of_comparable hp hr
      (List.prefix_or_prefix_of_prefix (List.prefix_append p q) ⟨s, hsplit.symm⟩) hdropped
  · rw [List.append_assoc] at hs ⊢
    exact dropped_of_comparable hp hs (.inl (List.prefix_append p (q ++ s))) hdropped

/-- An object in which no leaf is written is left alone. -/
theorem look_setAll_object (h : WellNamed P patch) {t' : FieldTree κ α}
    (hset : t.setAll (leafWrites keep patch) = some t') {p : List κ} (hp : patch.look p = some .object)
    (hnone : ∀ q a, patch.look (p ++ q) = some (.leaf a) → keep (p ++ q) = false) :
    t'.look p = t.look p := by
  refine look_setAll_unwritten h hset (fun r q b hsplit hr => ?_) hnone
  rw [hsplit] at hp
  rw [eq_nil_of_leaf hr hp, List.append_nil, hr] at hp
  cases hp

/-- The tree has what the writes leave out: the leaves that are dropped, and the objects in which no leaf
is written. -/
structure Remains (keep : List κ → Bool) (t patch : FieldTree κ α) : Prop where
  leaves : ∀ p a, patch.look p = some (.leaf a) → keep p = false → t.look p = some (.leaf a)
  objects : ∀ p, patch.look p = some .object →
    (∀ q a, patch.look (p ++ q) = some (.leaf a) → keep (p ++ q) = false) → t.look p = some .object

theorem remains_of_same (h : WellNamed P patch) {t' : FieldTree κ α}
    (hset : t.setAll (leafWrites keep patch) = some t') (hsame : Same t' (merge t patch)) :
    Remains keep t patch := by
  constructor
  · intro p a hp hdropped
    have hleft := look_setAll_dropped h hset hp hdropped []
    rw [List.append_nil] at hleft
    rw [← hleft, hsame p]
    exact look_merge_of_some h hp
  · intro p hp hnone
    rw [← look_setAll_object h hset hp hnone, hsame p]
    exact look_merge_of_some h hp

/-- What the patch has stands after the writes, if the tree has what they leave out. -/
theorem look_setAll_of_some (h : WellNamed P patch) {t' : FieldTree κ α}
    (hset : t.setAll (leafWrites keep patch) = some t') (hremains : Remains keep t patch) {p : List κ}
    {seen : Kind α} (hp : patch.look p = some seen) : t'.look p = some seen := by
  cases seen with
  | leaf a =>
      by_cases hkeep : keep p = true
      · have hu : (p, leaf a) ∈ leafWrites keep patch := (mem_leafWrites h).mpr ⟨a, hp, hkeep, rfl⟩
        rw [look_setAll_below (apart_leafWrites h) hset hu (List.prefix_refl p), List.drop_length]
        rfl
      · have hdropped := Bool.eq_false_iff.mpr hkeep
        have hleft := look_setAll_dropped h hset hp hdropped []
        rw [List.append_nil] at hleft
        rw [hleft]
        exact hremains.leaves p a hp hdropped
  | object =>
      by_cases hkept : ∃ u ∈ leafWrites keep patch, p <+: u.1
      · refine look_setAll_above hset (fun u hu hstart => ?_) hkept
        obtain ⟨b, hb, -, -⟩ := (mem_leafWrites h).mp hu
        obtain ⟨q, rfl⟩ := hstart
        rw [eq_nil_of_leaf hb hp, List.append_nil, hb] at hp
        cases hp
      · have hnone : ∀ q b, patch.look (p ++ q) = some (.leaf b) → keep (p ++ q) = false := by
          intro q b hq
          by_contra hkeep
          exact hkept ⟨(p ++ q, leaf b), (mem_leafWrites h).mpr
            ⟨b, hq, Bool.not_eq_false _ ▸ hkeep, rfl⟩, List.prefix_append p q⟩
        rw [look_setAll_object h hset hp hnone]
        exact hremains.objects p hp hnone

/-- Nothing is inside a leaf of the patch after the writes. -/
theorem look_setAll_inside (h : WellNamed P patch) {t' : FieldTree κ α}
    (hset : t.setAll (leafWrites keep patch) = some t') (hremains : Remains keep t patch) {p : List κ}
    {a : α} (hp : patch.look p = some (.leaf a)) {q : List κ} (hq : q ≠ []) :
    t'.look (p ++ q) = none := by
  by_cases hkeep : keep p = true
  · have hu : (p, leaf a) ∈ leafWrites keep patch := (mem_leafWrites h).mpr ⟨a, hp, hkeep, rfl⟩
    rw [look_setAll_below (apart_leafWrites h) hset hu (List.prefix_append p q), List.drop_left]
    obtain ⟨k, q, rfl⟩ := List.exists_cons_of_ne_nil hq
    rfl
  · -- the leaf is there already, and nothing is inside it
    have hdropped := Bool.eq_false_iff.mpr hkeep
    rw [look_setAll_dropped h hset hp hdropped]
    have hold := hremains.leaves p a hp hdropped
    cases hlook : t.look (p ++ q) with
    | none => rfl
    | some seen => exact absurd (eq_nil_of_leaf hold hlook) hq

theorem same_of_remains (h : WellNamed P patch) {t' : FieldTree κ α}
    (hset : t.setAll (leafWrites keep patch) = some t') (hremains : Remains keep t patch) :
    Same t' (merge t patch) := by
  intro p
  cases hp : patch.look p with
  | some seen => rw [look_merge_of_some h hp, look_setAll_of_some h hset hremains hp]
  | none =>
      by_cases hinside : ∃ r q a, p = r ++ q ∧ patch.look r = some (.leaf a)
      · obtain ⟨r, q, a, rfl, hr⟩ := hinside
        have hq : q ≠ [] := by
          rintro rfl
          rw [List.append_nil, hr] at hp
          cases hp
        rw [look_merge_inside h hr hq, look_setAll_inside h hset hremains hr hq]
      · have houtside : ∀ r q b, p = r ++ q → patch.look r ≠ some (.leaf b) :=
          fun r q b hsplit hr => hinside ⟨r, q, b, hsplit, hr⟩
        rw [look_merge_other h hp houtside]
        refine look_setAll_unwritten h hset (fun r q b hsplit hr => absurd hr (houtside r q b hsplit)) ?_
        intro q b hq
        cases q with
        | nil =>
            rw [List.append_nil, hp] at hq
            cases hq
        | cons k q =>
            rw [look_above (List.cons_ne_nil k q) hq] at hp
            cases hp

/-- **When writing the leaves is merging.**  A leaf that is dropped has to be there already, and so has
every object of the patch in which no leaf is written. -/
theorem same_merge_iff (h : WellNamed P patch) {t' : FieldTree κ α}
    (hset : t.setAll (leafWrites keep patch) = some t') :
    Same t' (merge t patch) ↔ Remains keep t patch :=
  ⟨remains_of_same h hset, same_of_remains h hset⟩

end FieldTree

end NestAmqp.Lib
