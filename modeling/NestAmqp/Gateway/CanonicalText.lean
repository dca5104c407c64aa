/-
# NestAmqp.Gateway.CanonicalText — the text a route is compared by is a canonical form.

Two JSON values have the same text exactly when they are the same up to the order of keys.  What a text
begins with tells the kind of its value; a closed text cannot run into the next one, so an array tells its
elements; and the entries of an object, sorted by their keys, are told up to their order.
-/
import Mathlib.Data.List.Perm.Basic
import NestAmqp.Gateway.FieldDiff
import NestAmqp.Js.KeyOrder

namespace NestAmqp.Gateway

open NestAmqp.Js NestAmqp.Lib NestAmqp.Lib.Nesting

/-! ## Kinds of values -/

/-- What a JSON value is. -/
inductive JsonKind where
  | null
  | bool
  | number
  | string
  | array
  | object
  deriving DecidableEq

/-- The kind of a value. -/
def kindOf : Value → JsonKind
  | .undefined | .null => .null
  | .bool _ => .bool
  | .num _ | .real _ => .number
  | .str _ => .string
  | .arr _ => .array
  | .obj _ => .object

/-- The kind of the value whose text begins with the character. -/
def kindAt (c : Char) : JsonKind :=
  if c = 'n' then .null
  else if c = 't' ∨ c = 'f' then .bool
  else if c = '"' then .string
  else if c = '[' then .array
  else if c = '\x7b' then .object
  else .number

section Kinds

variable {v x y : Value}

theorem kindAt_of_isDigit {c : Char} (h : c.isDigit = true ∨ c ∈ ['.', '-', '+', 'e']) :
    kindAt c = .number := by
  have hnot : c ∉ ['n', 't', 'f', '"', '[', '\x7b'] := by
    intro hmem
    simp only [List.mem_cons, List.not_mem_nil, or_false] at hmem
    rcases hmem with rfl | rfl | rfl | rfl | rfl | rfl <;> exact absurd h (by decide)
  simp only [List.mem_cons, List.not_mem_nil, or_false, not_or] at hnot
  obtain ⟨hn, ht, hf, hquote, hbracket, hbrace⟩ := hnot
  unfold kindAt
  simp only [hn, ht, hf, hquote, hbracket, hbrace, or_self, if_false]

/-- A text of digits and signs begins like a number. -/
theorem head_of_isDigit {text : String} (hne : text.toList ≠ [])
    (h : ∀ c ∈ text.toList, c.isDigit = true ∨ c ∈ ['.', '-', '+', 'e']) :
    text.toList.head?.map kindAt = some .number := by
  obtain ⟨c, cs, hcs⟩ := List.exists_cons_of_ne_nil hne
  rw [hcs] at h ⊢
  exact congrArg some (kindAt_of_isDigit (h c (.head _)))

/-- The number that is no integer: its text, and what sets it apart. -/
theorem isJson_real {text : String} (h : isJson (.real text) = true) :
    stableStringify (.real text) = text ∧ isFiniteText text = true ∧
      ('.' ∈ text.toList ∨ 'e' ∈ text.toList) := by
  rw [isJson, Bool.and_eq_true, Bool.or_eq_true, List.contains_iff_mem, List.contains_iff_mem] at h
  exact ⟨by rw [stableStringify, realText, if_pos h.1], h.1, h.2⟩

/-- **A text begins as its kind does.** -/
theorem head_stableStringify (h : isJson v = true) :
    (stableStringify v).toList.head?.map kindAt = some (kindOf v) := by
  cases v with
  | undefined => cases h
  | null => rfl
  | bool b => cases b <;> rfl
  | num n =>
      refine head_of_isDigit ?_ (isDigit_of_mem_toString n)
      intro hnil
      cases n with
      | ofNat n =>
          have hne : Nat.toDigits 10 n ≠ [] := Nat.toDigits_ne_nil
          exact hne ((toList_toString_natCast n).symm.trans hnil)
      | negSucc n => cases (toList_toString_negSucc n).symm.trans hnil
  | real text =>
      obtain ⟨htext, hfinite, happart⟩ := isJson_real h
      refine head_of_isDigit ?_ (isDigit_of_mem_realText hfinite)
      rw [htext]
      intro hnil
      rw [hnil] at happart
      exact happart.elim nofun nofun
  | str s =>
      rw [stableStringify, quote, String.toList_ofList]
      rfl
  | arr items =>
      rw [stableStringify, String.toList_append, String.toList_append]
      rfl
  | obj fields =>
      rw [stableStringify, objectText, String.toList_append, String.toList_append]
      rfl

theorem stableStringify_ne_nil (h : isJson v = true) : (stableStringify v).toList ≠ [] := by
  intro hnil
  have hhead := head_stableStringify h
  rw [hnil] at hhead
  cases hhead

theorem kindOf_eq_of_text (hx : isJson x = true) (hy : isJson y = true)
    (h : stableStringify x = stableStringify y) : kindOf x = kindOf y := by
  have hhead := head_stableStringify hx
  rw [h, head_stableStringify hy] at hhead
  exact (Option.some.inj hhead).symm

theorem kindOf_eq_of_same (h : SameUpToKeyOrder x y) : kindOf x = kindOf y := by
  cases h with
  | refl => rfl
  | arr => rfl
  | obj => rfl

end Kinds

/-! ## Entries in order -/

/-- Sorting forgets the order of what is sorted. -/
theorem sortTexts_eq_of_perm {s t : List String} (h : s.Perm t) : sortTexts s = sortTexts t := by
  have htotal : Std.Total fun a b : String => codeUnits a ≤ codeUnits b := ⟨fun _ _ => le_total _ _⟩
  have htrans : IsTrans String fun a b => codeUnits a ≤ codeUnits b := ⟨fun _ _ _ => le_trans⟩
  refine List.Perm.eq_of_pairwise ?_ (List.pairwise_insertionSort _ s) (List.pairwise_insertionSort _ t) ?_
  · intro a b _ _ hab hba
    exact codeUnits_injective (le_antisymm hab hba)
  · exact ((List.perm_insertionSort _ s).trans h).trans (List.perm_insertionSort _ t).symm

theorem eraseDups_eq_self {keys : List String} (h : keys.Nodup) : keys.eraseDups = keys := by
  induction keys with
  | nil => rfl
  | cons k keys ih =>
      rw [List.nodup_cons] at h
      have hfilter : keys.filter (fun j => !j == k) = keys := by
        rw [List.filter_eq_self]
        intro j hj
        simp only [Bool.not_eq_true', beq_eq_false_iff_ne]
        rintro rfl
        exact h.1 hj
      rw [List.eraseDups_cons, hfilter, ih h.2]

section Entries

variable {s t : List (String × String)}

theorem inOrder_perm (hkeys : (s.map Prod.fst).Nodup) : (inOrder s).Perm s := by
  unfold inOrder
  rw [eraseDups_eq_self hkeys]
  have hsort := (List.perm_insertionSort (fun a b => codeUnits a ≤ codeUnits b) (s.map Prod.fst)).map
    fun k => (k, (s.reverse.lookup k).getD "null")
  refine hsort.trans (.of_eq ?_)
  rw [List.map_map]
  refine (List.map_congr_left fun kt hkt => ?_).trans (List.map_id s)
  show (kt.1, (s.reverse.lookup kt.1).getD "null") = kt
  rw [(AssocList.lookup_reverse_eq_some_iff hkeys).mpr hkt]
  rfl

/-- **The entries in order are the entries up to their order.** -/
theorem inOrder_eq_iff (hs : (s.map Prod.fst).Nodup) (ht : (t.map Prod.fst).Nodup) :
    inOrder s = inOrder t ↔ s.Perm t := by
  constructor
  · intro h
    exact ((inOrder_perm hs).symm.trans (.of_eq h)).trans (inOrder_perm ht)
  · intro h
    unfold inOrder
    rw [eraseDups_eq_self hs, eraseDups_eq_self ht, sortTexts_eq_of_perm (h.map Prod.fst)]
    refine List.map_congr_left fun k _ => ?_
    rw [(AssocList.perm_iff_lookup_reverse hs ht).mp h k]

end Entries

/-! ## One level of a value -/

section Levels

variable {v x y : Value} {items others : List Value} {fields others' : Obj}

/-- A number that is no integer has a text that no integer has. -/
theorem toString_ne_real {text : String} (n : Int) (h : isJson (.real text) = true) : toString n ≠ text := by
  rintro rfl
  obtain ⟨-, -, happart⟩ := isJson_real h
  rcases happart with hpoint | hexponent
  · exact absurd (isDigit_or_minus_of_mem_toString n '.' hpoint) (by decide)
  · exact absurd (isDigit_or_minus_of_mem_toString n 'e' hexponent) (by decide)

/-- **A value without parts is told from its text.** -/
theorem eq_of_text (hx : isJson x = true) (hy : isJson y = true) (harr : kindOf x ≠ .array)
    (hobj : kindOf x ≠ .object) (h : stableStringify x = stableStringify y) : x = y := by
  have hkind := kindOf_eq_of_text hx hy h
  cases x with
  | undefined => cases hx
  | arr => exact absurd rfl harr
  | obj => exact absurd rfl hobj
  | null =>
      cases y with
      | undefined => cases hy
      | null => rfl
      | _ => cases hkind
  | bool b =>
      cases y with
      | bool b' => cases b <;> cases b' <;> first | rfl | exact absurd h (by decide)
      | _ => cases hkind
  | num n =>
      cases y with
      | num n' => rw [toString_injective h]
      | real text => exact absurd (h.trans (isJson_real hy).1) (toString_ne_real n hy)
      | _ => cases hkind
  | real text =>
      cases y with
      | num n => exact absurd (h.symm.trans (isJson_real hx).1) (toString_ne_real n hx)
      | real text' => rw [← (isJson_real hx).1, h, (isJson_real hy).1]
      | _ => cases hkind
  | str s =>
      cases y with
      | str s' =>
          have hquote : quote s ++ "" = quote s' ++ "" := congrArg (· ++ "") h
          rw [(quote_append_inj hquote).1]
      | _ => cases hkind

theorem stringifyItems_eq (items : List Value) : stringifyItems items = items.map stableStringify := by
  induction items with
  | nil => rfl
  | cons v items ih => rw [stringifyItems, ih, List.map_cons]

/-- The elements' texts are closed and not empty, so that the commas between them are told. -/
theorem closed_items (h : ∀ v ∈ items, isJson v = true) :
    ∀ t ∈ (items.map stableStringify).map String.toList, Closed t ∧ t ≠ [] := by
  intro t ht
  obtain ⟨text, htext, rfl⟩ := List.mem_map.mp ht
  obtain ⟨v, hv, rfl⟩ := List.mem_map.mp htext
  exact ⟨closed_stableStringify v, stableStringify_ne_nil (h v hv)⟩

/-- **The text of an array tells the texts of its elements.** -/
theorem text_arr_iff (hx : ∀ v ∈ items, isJson v = true) (hy : ∀ v ∈ others, isJson v = true) :
    stableStringify (.arr items) = stableStringify (.arr others) ↔
      items.map stableStringify = others.map stableStringify := by
  rw [stableStringify, stableStringify, stringifyItems_eq, stringifyItems_eq]
  exact bracketed_inj (closed_items hx) (closed_items hy)

theorem keys_stringifyFields (fields : Obj) : (stringifyFields fields).map Prod.fst = fields.map Prod.fst := by
  rw [stringifyFields_eq, List.map_map]
  rfl

/-- **The text of an object tells its keys with the texts under them**, up to their order. -/
theorem text_obj_iff (hx : (fields.map Prod.fst).Nodup) (hy : (others'.map Prod.fst).Nodup) :
    stableStringify (.obj fields) = stableStringify (.obj others') ↔
      (stringifyFields fields).Perm (stringifyFields others') := by
  rw [← keys_stringifyFields] at hx hy
  rw [stableStringify, stableStringify,
    objectText_eq_iff (closed_stringifyFields fields) (closed_stringifyFields others'), inOrder_eq_iff hx hy]

/-- Lists of pairs are told by their two sides. -/
theorem pairs_eq_iff {α β : Type} {s t : List (α × β)} :
    s = t ↔ s.map Prod.fst = t.map Prod.fst ∧ s.map Prod.snd = t.map Prod.snd := by
  constructor
  · rintro rfl
    exact ⟨rfl, rfl⟩
  · rintro ⟨hfst, hsnd⟩
    exact (List.zip_of_prod hfst hsnd).trans (List.zip_of_prod rfl rfl).symm

/-- Reordered texts come from reordered fields. -/
theorem perm_stringifyFields_iff : (stringifyFields fields).Perm (stringifyFields others') ↔
    ∃ reordered : Obj, reordered.Perm others' ∧ fields.map Prod.fst = reordered.map Prod.fst ∧
      (fields.map Prod.snd).map stableStringify = (reordered.map Prod.snd).map stableStringify := by
  have hsplit (reordered : Obj) : stringifyFields fields = stringifyFields reordered ↔
      fields.map Prod.fst = reordered.map Prod.fst ∧
        (fields.map Prod.snd).map stableStringify = (reordered.map Prod.snd).map stableStringify := by
    rw [pairs_eq_iff, keys_stringifyFields, keys_stringifyFields, stringifyFields_eq, stringifyFields_eq,
      List.map_map, List.map_map, List.map_map, List.map_map]
    rfl
  -- a reordering of images is the image of a reordering
  have hcomp := congrFun₂ (List.eq_map_comp_perm fun kv : String × Value => (kv.1, stableStringify kv.2))
    (stringifyFields fields) others'
  rw [← stringifyFields_eq] at hcomp
  rw [← hcomp, Relation.Comp]
  simp only [← stringifyFields_eq, hsplit, and_comm]

end Levels

/-! ## The canonical form -/

section Canonical

variable {x y : Value}

/-- Two lists have the same images when they are related one by one. -/
theorem map_eq_map_iff {α β : Type} {f : α → β} {R : α → α → Prop} {xs ys : List α}
    (h : ∀ a ∈ xs, ∀ b ∈ ys, f a = f b ↔ R a b) : xs.map f = ys.map f ↔ List.Forall₂ R xs ys := by
  induction xs generalizing ys with
  | nil =>
      cases ys with
      | nil => exact iff_of_true rfl .nil
      | cons b ys => exact iff_of_false nofun nofun
  | cons a xs ih =>
      cases ys with
      | nil => exact iff_of_false nofun nofun
      | cons b ys =>
          rw [List.map_cons, List.map_cons, List.cons.injEq, List.forall₂_cons, h a (.head _) b (.head _),
            ih fun a' ha b' hb => h a' (.tail _ ha) b' (.tail _ hb)]

/-- Equal texts, level by level.  The induction is on the one value; what the other one is follows from its
kind. -/
theorem text_eq_iff (hx : isJson x = true) (hy : isJson y = true) :
    stableStringify x = stableStringify y ↔ SameUpToKeyOrder x y := by
  induction x using Value.ind generalizing y with
  | h x ih =>
    by_cases hkind : kindOf x = kindOf y
    swap
    · exact iff_of_false (fun h => hkind (kindOf_eq_of_text hx hy h)) fun h => hkind (kindOf_eq_of_same h)
    cases x with
    | arr items =>
        cases y with
        | arr others =>
            rw [isJson_arr] at hx hy
            rw [text_arr_iff hx hy, SameUpToKeyOrder.arr_iff]
            exact map_eq_map_iff fun v hv w hw => ih v hv (hx v hv) (hy w hw)
        | _ => cases hkind
    | obj fields =>
        cases y with
        | obj others =>
            rw [isJson_obj] at hx hy
            rw [text_obj_iff hx.1 hy.1, perm_stringifyFields_iff, SameUpToKeyOrder.obj_iff]
            refine exists_congr fun reordered => and_congr_right fun hperm => and_congr_right fun _ => ?_
            refine map_eq_map_iff fun v hv w hw => ih v hv (hx.2 v hv) (hy.2 w ?_)
            exact (hperm.map Prod.snd).mem_iff.mp hw
        | _ => cases hkind
    | _ =>
        -- no parts: the values are the same
        constructor
        · intro h
          rw [eq_of_text hx hy nofun nofun h]
          exact .refl y
        · intro h
          rw [h.eq_of_parts nofun nofun]

/-- **`stableStringify` is a canonical form of JSON.**  Two JSON values have the same text exactly when they
are the same up to the order of keys. -/
theorem stableStringify_eq_iff (x y : Json) :
    stableStringify x.1 = stableStringify y.1 ↔ SameUpToKeyOrder x.1 y.1 :=
  text_eq_iff x.2 y.2

example : stableStringify (.obj [("b", .arr [.obj [], .null]), ("a", .str "\",")]) =
    stableStringify (.obj [("a", .str "\","), ("b", .arr [.obj [], .null])]) := by
  decide +kernel

/-- On JSON values the relation is an equivalence. -/
theorem equivalence_sameUpToKeyOrder : Equivalence fun x y : Json => SameUpToKeyOrder x.1 y.1 where
  refl x := .refl x.1
  symm {x y} h := (text_eq_iff y.2 x.2).mp ((text_eq_iff x.2 y.2).mpr h).symm
  trans {x y z} hxy hyz :=
    (text_eq_iff x.2 z.2).mp (((text_eq_iff x.2 y.2).mpr hxy).trans ((text_eq_iff y.2 z.2).mpr hyz))

end Canonical

/-! ## Objects by their keys -/

section Keys

variable {fields others : Obj}

theorem lookup_stringifyFields (fields : Obj) (k : String) :
    (stringifyFields fields).reverse.lookup k = (Obj.own fields k).map stableStringify := by
  rw [stringifyFields_eq, ← List.map_reverse]
  unfold Obj.own
  induction fields.reverse with
  | nil => rfl
  | cons kv rest ih =>
      rw [List.map_cons, List.lookup_cons, List.lookup_cons, ih]
      cases k == kv.1 <;> rfl

/-- **Objects are the same up to the order of keys when they have the same keys, with the same values under
them.**  A key that holds `null` is not an absent one. -/
theorem sameUpToKeyOrder_obj_iff (hx : isJson (.obj fields) = true) (hy : isJson (.obj others) = true) :
    SameUpToKeyOrder (.obj fields) (.obj others) ↔
      ∀ k, Option.Rel SameUpToKeyOrder (Obj.own fields k) (Obj.own others k) := by
  have hparts := isJson_obj.mp hx
  have hparts' := isJson_obj.mp hy
  rw [← text_eq_iff hx hy, text_obj_iff hparts.1 hparts'.1, AssocList.perm_iff_lookup_reverse]
  · refine forall_congr' fun k => ?_
    rw [lookup_stringifyFields, lookup_stringifyFields]
    cases hown : Obj.own fields k with
    | none =>
        cases hown' : Obj.own others k with
        | none => exact iff_of_true rfl .none
        | some w => exact iff_of_false nofun nofun
    | some v =>
        cases hown' : Obj.own others k with
        | none => exact iff_of_false nofun nofun
        | some w =>
            have hv := hparts.2 v (List.mem_map.mpr ⟨_, Obj.mem_of_own hown, rfl⟩)
            have hw := hparts'.2 w (List.mem_map.mpr ⟨_, Obj.mem_of_own hown', rfl⟩)
            rw [Option.map_some, Option.map_some, Option.some.injEq, text_eq_iff hv hw, Option.rel_some_some]
  · rw [keys_stringifyFields]
    exact hparts.1
  · rw [keys_stringifyFields]
    exact hparts'.1

end Keys

/-! ## Routes -/

/-- The value a field of a route is compared by; one that is missing counts as `null`. -/
def comparedField (r : Obj) (field : String × Option Value) : Value :=
  (orDefault field.2 (Obj.get r field.1)).coalesce .null

/-- **No change of a route's content goes unseen.**  Two routes have the same content exactly when every field
is the same up to the order of keys. -/
theorem routeContent_eq_iff_same {a b : Obj}
    (ha : ∀ field ∈ canonicalDefaults, isJson (comparedField a field) = true)
    (hb : ∀ field ∈ canonicalDefaults, isJson (comparedField b field) = true) :
    routeContent a = routeContent b ↔
      ∀ field ∈ canonicalDefaults, SameUpToKeyOrder (comparedField a field) (comparedField b field) := by
  have htext (r : Obj) (field : String × Option Value) :
      fieldText field r = stableStringify (comparedField r field) :=
    (stableStringify_coalesce_null _).symm
  rw [routeContent_eq_iff]
  refine forall₂_congr fun field hfield => ?_
  rw [htext, htext, text_eq_iff (ha field hfield) (hb field hfield)]

end NestAmqp.Gateway
