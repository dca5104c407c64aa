/-
# NestAmqp.Gateway.FieldDiff — two comparisons of routes.

`routeContent` compares two routes with the missing fields at their defaults, `diffRouteFields` compares
them field by field with the missing ones at `null`.  For most fields the default is `null`, and the two
agree.  `actions`, `headers` and `forwardHeaders` default to an empty list or object: one route that leaves
such a field out and another that has it empty are spelled apart, of the same content and with a change
between them.  An update that spells a field differently is a change by the user, so it locks the row or
adds to its overrides.
-/
import NestAmqp.Gateway.UserEdits

namespace NestAmqp.Gateway

open NestAmqp.Js NestAmqp.Lib NestAmqp.Lib.Script GatewayPathService

/-! ## Fields -/

/-- The fields that are empty, and not `null`, when they are missing. -/
def emptyDefaults : List (String × Value) :=
  [("actions", .arr []), ("headers", .obj []), ("forwardHeaders", .obj [])]

/-- The text by which the field diff compares a field. -/
def nullableText (r : Obj) (field : String) : String := stableStringify ((Obj.get r field).coalesce .null)

/-- One of the values is missing, the other one reads like the default. -/
def SpelledApart (default x y : Value) : Prop :=
  (x.nullish = true ∧ y.nullish = false ∧ stableStringify y = stableStringify default) ∨
    (y.nullish = true ∧ x.nullish = false ∧ stableStringify x = stableStringify default)

/-- One route leaves out a field that the other one has empty. -/
def ApartAt (a b : Obj) (field : String) : Prop :=
  ∃ default, (field, default) ∈ emptyDefaults ∧ SpelledApart default (Obj.get a field) (Obj.get b field)

/-- No field is spelled apart, or some other field differs too. -/
def SpelledAlike (a b : Obj) : Prop :=
  (∀ field ∈ routeFields, ¬ ApartAt a b field) ∨
    ∃ field ∈ routeFields, nullableText a field ≠ nullableText b field ∧ ¬ ApartAt a b field

/-- A number that JSON can write. -/
def Finite (v : Value) : Prop := ∀ text, v = .real text → isFiniteText text = true

/-- No field is a number without a JSON text. -/
def FiniteFields (r : Obj) : Prop := ∀ field ∈ routeFields, Finite (Obj.get r field)

section Texts

variable {v x y default : Value} {field : String} {entry : String × Option Value} {a b : Obj}

/-- A text that is all digits and signs is not `null`. -/
theorem ne_null_of_isDigit {text : String}
    (h : ∀ c ∈ text.toList, c.isDigit = true ∨ c ∈ ['.', '-', '+', 'e']) : text ≠ "null" := by
  rintro rfl
  have hn := h 'n' (by decide)
  exact absurd hn (by decide)

/-- A text that begins otherwise is not `null`. -/
theorem ne_null_of_head {text : String} (h : text.toList.head? ≠ some 'n') : text ≠ "null" := by
  rintro rfl
  exact h rfl

/-- **Only a missing value reads `null`.** -/
theorem nullish_of_text_null (hfinite : Finite v) (h : stableStringify v = "null") : v.nullish = true := by
  by_contra hpresent
  refine absurd h ?_
  cases v with
  | undefined => exact absurd rfl hpresent
  | null => exact absurd rfl hpresent
  | bool b => cases b <;> decide
  | num n => exact ne_null_of_isDigit (isDigit_of_mem_toString n)
  | real text => exact ne_null_of_isDigit (isDigit_of_mem_realText (hfinite text rfl))
  | str s =>
      refine ne_null_of_head ?_
      rw [stableStringify, quote, String.toList_ofList]
      exact nofun
  | arr items =>
      refine ne_null_of_head ?_
      rw [stableStringify, String.toList_append, String.toList_append]
      exact nofun
  | obj fields =>
      refine ne_null_of_head ?_
      rw [stableStringify, objectText, String.toList_append, String.toList_append]
      exact nofun

theorem stableStringify_of_nullish (h : v.nullish = true) : stableStringify v = "null" := by
  rcases (Value.nullish_iff v).mp h with rfl | rfl <;> rfl

/-- A missing value and `null` have one text. -/
theorem stableStringify_coalesce_null (v : Value) : stableStringify (v.coalesce .null) = stableStringify v := by
  cases hv : v.nullish with
  | true =>
      rw [Value.coalesce_of_nullish hv, stableStringify_of_nullish hv]
      rfl
  | false => rw [Value.coalesce_of_not_nullish hv]

/-- What is spelled apart has different texts. -/
theorem SpelledApart.text_ne (h : SpelledApart default x y) (hx : Finite x) (hy : Finite y) :
    stableStringify x ≠ stableStringify y := by
  intro heq
  rcases h with ⟨hmissing, hpresent, -⟩ | ⟨hmissing, hpresent, -⟩
  · rw [stableStringify_of_nullish hmissing] at heq
    rw [nullish_of_text_null hy heq.symm] at hpresent
    cases hpresent
  · rw [stableStringify_of_nullish hmissing] at heq
    rw [nullish_of_text_null hx heq] at hpresent
    cases hpresent

/-- Behind a default, the texts agree when they are the same or spelled apart. -/
theorem text_coalesce_eq_iff (hx : Finite x) (hy : Finite y) :
    stableStringify (x.coalesce default) = stableStringify (y.coalesce default) ↔
      stableStringify x = stableStringify y ∨ SpelledApart default x y := by
  unfold SpelledApart
  cases hmissing : x.nullish with
  | true =>
      rw [Value.coalesce_of_nullish hmissing, stableStringify_of_nullish hmissing]
      cases hmissing' : y.nullish with
      | true => simp [Value.coalesce_of_nullish hmissing', stableStringify_of_nullish hmissing']
      | false =>
          rw [Value.coalesce_of_not_nullish hmissing', eq_comm]
          have hne : "null" ≠ stableStringify y := fun h => by
            rw [nullish_of_text_null hy h.symm] at hmissing'
            cases hmissing'
          simp [hne]
  | false =>
      rw [Value.coalesce_of_not_nullish hmissing]
      cases hmissing' : y.nullish with
      | true =>
          rw [Value.coalesce_of_nullish hmissing', stableStringify_of_nullish hmissing']
          have hne : stableStringify x ≠ "null" := fun h => by
            rw [nullish_of_text_null hx h] at hmissing
            cases hmissing
          simp [hne]
      | false => simp [Value.coalesce_of_not_nullish hmissing']

/-- The defaults: none or `null`, or one of the empty ones. -/
theorem canonical_cases (h : entry ∈ canonicalDefaults) :
    ((entry.2 = none ∨ entry.2 = some .null) ∧ entry.1 ∉ emptyDefaults.map Prod.fst) ∨
      ∃ default, entry.2 = some default ∧ (entry.1, default) ∈ emptyDefaults := by
  simp only [canonicalDefaults, List.mem_cons, List.not_mem_nil, or_false] at h
  rcases h with rfl | rfl | rfl | rfl | rfl | rfl | rfl | rfl | rfl | rfl | rfl | rfl | rfl | rfl | rfl
    | rfl | rfl
  all_goals first
    | exact .inl ⟨.inl rfl, by decide⟩
    | exact .inl ⟨.inr rfl, by decide⟩
    | exact .inr ⟨_, rfl, by simp [emptyDefaults]⟩

/-- The empty default of a field. -/
theorem emptyDefault_unique {default' : Value} (h : (field, default) ∈ emptyDefaults)
    (h' : (field, default') ∈ emptyDefaults) : default = default' := by
  have hkeys : (emptyDefaults.map Prod.fst).Nodup := by decide
  exact congrArg Prod.snd (List.inj_on_of_nodup_map hkeys h h' rfl)

/-- **One field in both comparisons.** -/
theorem fieldText_eq_iff (hentry : entry ∈ canonicalDefaults) (ha : Finite (Obj.get a entry.1))
    (hb : Finite (Obj.get b entry.1)) : fieldText entry a = fieldText entry b ↔
      nullableText a entry.1 = nullableText b entry.1 ∨ ApartAt a b entry.1 := by
  unfold fieldText nullableText
  rw [stableStringify_coalesce_null, stableStringify_coalesce_null]
  rcases canonical_cases hentry with ⟨hdefault, hnone⟩ | ⟨default, hdefault, hmem⟩
  · have hapart : ¬ ApartAt a b entry.1 := fun ⟨default, hmem, _⟩ => hnone (List.mem_map_of_mem hmem)
    rcases hdefault with hdefault | hdefault
    · rw [hdefault, or_iff_left hapart]
      rfl
    · rw [hdefault, or_iff_left hapart]
      show stableStringify ((Obj.get a entry.1).coalesce .null) =
        stableStringify ((Obj.get b entry.1).coalesce .null) ↔ _
      rw [stableStringify_coalesce_null, stableStringify_coalesce_null]
  · have hapart : ApartAt a b entry.1 ↔ SpelledApart default (Obj.get a entry.1) (Obj.get b entry.1) := by
      constructor
      · rintro ⟨default', hmem', h⟩
        exact emptyDefault_unique hmem' hmem ▸ h
      · exact fun h => ⟨default, hmem, h⟩
    rw [hdefault, hapart]
    exact text_coalesce_eq_iff ha hb

/-- A field that is spelled apart is a change. -/
theorem ApartAt.text_ne (h : ApartAt a b field) (ha : Finite (Obj.get a field))
    (hb : Finite (Obj.get b field)) :
    nullableText a field ≠ nullableText b field := by
  obtain ⟨default, -, h⟩ := h
  unfold nullableText
  rw [stableStringify_coalesce_null, stableStringify_coalesce_null]
  exact h.text_ne ha hb

end Texts

/-! ## Routes -/

section Routes

variable {a b : Obj}

theorem diffField_eq_none_iff {field : String} :
    diffField a b field = none ↔ nullableText a field = nullableText b field := by
  unfold diffField nullableText
  dsimp only
  split
  next h => exact iff_of_true rfl h
  next h =>
    refine iff_of_false (fun hnone => ?_) h
    split at hnone <;> cases hnone

/-- **The field diff**: the fields whose texts differ. -/
theorem mem_changedFields {field : String} :
    field ∈ (diffRouteFields a b).map (·.field) ↔
      field ∈ routeFields ∧ nullableText a field ≠ nullableText b field := by
  unfold diffRouteFields
  rw [List.mem_map]
  constructor
  · rintro ⟨change, hchange, rfl⟩
    obtain ⟨f, hf, hdiff⟩ := List.mem_filterMap.mp hchange
    rw [field_diffField hdiff]
    refine ⟨hf, fun heq => ?_⟩
    rw [diffField_eq_none_iff.mpr heq] at hdiff
    cases hdiff
  · rintro ⟨hf, hne⟩
    obtain ⟨change, hdiff⟩ := Option.ne_none_iff_exists'.mp (mt diffField_eq_none_iff.mp hne)
    exact ⟨change, List.mem_filterMap.mpr ⟨field, hf, hdiff⟩, field_diffField hdiff⟩

theorem diffRouteFields_eq_nil_iff :
    diffRouteFields a b = [] ↔ ∀ field ∈ routeFields, nullableText a field = nullableText b field := by
  unfold diffRouteFields
  rw [List.filterMap_eq_nil_iff]
  simp only [diffField_eq_none_iff]

/-- **The content** agrees where the texts do or are spelled apart. -/
theorem sameContent_iff (ha : FiniteFields a) (hb : FiniteFields b) : routeContent a = routeContent b ↔
    ∀ field ∈ routeFields, nullableText a field = nullableText b field ∨ ApartAt a b field := by
  have hmem : ∀ entry ∈ canonicalDefaults, entry.1 ∈ routeFields := fun entry hentry =>
    List.mem_map_of_mem hentry
  rw [routeContent_eq_iff]
  constructor
  · intro h field hfield
    obtain ⟨entry, hentry, rfl⟩ := List.mem_map.mp (show field ∈ canonicalDefaults.map Prod.fst from hfield)
    exact (fieldText_eq_iff hentry (ha _ hfield) (hb _ hfield)).mp (h entry hentry)
  · intro h entry hentry
    have hfield := hmem entry hentry
    exact (fieldText_eq_iff hentry (ha _ hfield) (hb _ hfield)).mpr (h _ hfield)

/-- **The two comparisons agree** on routes that are spelled alike, and on no others. -/
theorem comparisons_agree_iff (ha : FiniteFields a) (hb : FiniteFields b) :
    (diffRouteFields a b = [] ↔ routeContent a = routeContent b) ↔ SpelledAlike a b := by
  rw [diffRouteFields_eq_nil_iff, sameContent_iff ha hb]
  have hdiffers : ∀ field ∈ routeFields, ApartAt a b field → nullableText a field ≠ nullableText b field :=
    fun field hfield hapart => hapart.text_ne (ha field hfield) (hb field hfield)
  unfold SpelledAlike
  constructor
  · intro h
    by_cases hapart : ∃ field ∈ routeFields, ApartAt a b field
    · obtain ⟨field, hfield, hapart⟩ := hapart
      right
      by_contra hnone
      refine hdiffers field hfield hapart (h.mpr (fun f hf => ?_) field hfield)
      by_contra hboth
      rw [not_or] at hboth
      exact hnone ⟨f, hf, hboth⟩
    · exact .inl fun field hfield h => hapart ⟨field, hfield, h⟩
  · rintro (hnone | ⟨field, hfield, hne, hnot⟩)
    · exact forall₂_congr fun field hfield => (or_iff_left (hnone field hfield)).symm
    · exact iff_of_false (fun h => hne (h field hfield)) fun h => (h field hfield).elim hne hnot

end Routes

/-! ## Updates -/

/-- `userOverrides?: string[]`. -/
def ListColumn (userOverrides : Value) : Prop :=
  userOverrides.truthy = false ∨ ∃ items, userOverrides = .arr items

/-- Between the two rows no lock was put, and no override added. -/
structure Unmarked (row row' : StoredHttpPath) : Prop where
  unlocked : (row'.get "modified").truthy = true → (row.get "modified").truthy = true
  overrides : ∀ field, row'.overrides field = true → row.overrides field = true

/-- The header maps are spelled alike or the row is locked, and the actions are spelled alike, overridden or
released. -/
structure SpellingKept (released : List Value) (row row' : StoredHttpPath) : Prop where
  headers : (row.get "modified").truthy = true ∨
    (¬ ApartAt row.columns row'.columns "headers" ∧ ¬ ApartAt row.columns row'.columns "forwardHeaders")
  actions : ¬ ApartAt row.columns row'.columns "actions" ∨ row.overrides "actions" = true ∨
    .str "actions" ∈ released

section Update

variable {row : StoredHttpPath} {model patch : Obj} {released : Value} {field : String} {items set : List Value}

/-- A set holds a text once, as that text. -/
theorem sameValueZero_str {s : String} {v : Value} : sameValueZero (.str s) v = true ↔ v = .str s := by
  constructor
  · intro h
    cases v <;> first | exact congrArg Value.str (beq_iff_eq.mp h).symm | cases h
  · rintro rfl
    exact beq_self_eq_true s

theorem str_mem_setAdd {s : String} : .str s ∈ items.foldl setAdd set ↔ .str s ∈ set ∨ .str s ∈ items := by
  induction items generalizing set with
  | nil => simp
  | cons item items ih =>
      rw [List.foldl_cons, ih, List.mem_cons]
      have hadd : .str s ∈ setAdd set item ↔ .str s ∈ set ∨ .str s = item := by
        unfold setAdd
        split
        next hany =>
          -- the text is there already
          refine ⟨.inl, fun h => h.elim id fun heq => ?_⟩
          rw [← heq] at hany
          obtain ⟨x, hx, hsame⟩ := List.any_eq_true.mp hany
          exact sameValueZero_str.mp hsame ▸ hx
        next => rw [List.mem_append, List.mem_singleton]
      rw [hadd, or_assoc]

theorem str_mem_setDelete {s : String} : .str s ∈ items.foldl setDelete set ↔ .str s ∈ set ∧
    .str s ∉ items := by
  induction items generalizing set with
  | nil => simp
  | cons item items ih =>
      have hdelete : .str s ∈ setDelete set item ↔ .str s ∈ set ∧ .str s ≠ item := by
        unfold setDelete
        rw [List.mem_filter, Bool.not_eq_true', ← Bool.not_eq_true]
        refine and_congr_right fun _ => not_congr ?_
        constructor
        · intro h
          cases item <;> simp_all [sameValueZero]
        · rintro rfl
          exact sameValueZero_str.mpr rfl
      rw [List.foldl_cons, ih, hdelete, List.mem_cons, not_or, and_assoc]

/-- **The overrides behind an update**: the stored ones and the soft fields it changes, but for the released. -/
theorem overrides_patched_iff (hcolumn : ListColumn (row.get "userOverrides"))
    (h : updatedModel (some row) model released = .ok patch) : (row.patched patch).overrides field = true ↔
      (row.overrides field = true ∨
        field ∈ (changesOf (some row) model).map (·.field) ∧ field ∈ userOverridableFields) ∧
      .str field ∉ releasedOf released := by
  obtain ⟨after, hafter, hpatch⟩ := bind_eq_ok.mp h
  obtain rfl := Except.ok.inj hpatch
  obtain ⟨stored, hstored, hafter⟩ := bind_eq_ok.mp hafter
  obtain rfl := Except.ok.inj hafter
  have hbefore : .str field ∈ stored ↔ row.overrides field = true := by
    have hspread : spreadItems ((row.get "userOverrides").orElse (.arr [])) = .ok stored := hstored
    rcases hcolumn with hfalsy | ⟨items, hitems⟩
    · unfold Value.orElse at hspread
      rw [hfalsy] at hspread
      obtain rfl := Except.ok.inj hspread
      rw [overrides_of_falsy hfalsy]
      exact iff_of_false List.not_mem_nil nofun
    · rw [hitems] at hspread
      obtain rfl := Except.ok.inj hspread
      exact (overrides_of_arr hitems).symm
  rw [overrides_of_arr (get_userOverrides_written _ _ _ _), str_mem_setDelete, str_mem_setAdd, List.mem_append,
    hbefore]
  refine and_congr_left fun _ => ?_
  rw [or_iff_right List.not_mem_nil]
  refine or_congr_right ?_
  rw [List.mem_map]
  constructor
  · rintro ⟨f, hf, heq⟩
    obtain rfl := Value.str.inj heq
    obtain ⟨hchanged, hsoft⟩ := List.mem_filter.mp hf
    exact ⟨hchanged, List.contains_iff_mem.mp hsoft⟩
  · rintro ⟨hchanged, hsoft⟩
    exact ⟨field, List.mem_filter.mpr ⟨hchanged, List.contains_iff_mem.mpr hsoft⟩, rfl⟩

/-- **The lock behind an update**: the one that was there, or a change of a hard field. -/
theorem modified_patched_iff (h : updatedModel (some row) model released = .ok patch) :
    ((row.patched patch).get "modified").truthy = true ↔ (row.get "modified").truthy = true ∨
      ∃ field ∈ (changesOf (some row) model).map (·.field), field ∉ userOverridableFields := by
  obtain ⟨after, -, hpatch⟩ := bind_eq_ok.mp h
  obtain rfl := Except.ok.inj hpatch
  rw [get_modified_written]
  show modifiedAfter _ _ = true ↔ _
  unfold modifiedAfter
  split
  next hany =>
    obtain ⟨field, hfield, hhard⟩ := List.any_eq_true.mp hany
    refine iff_of_true rfl (.inr ⟨field, hfield, ?_⟩)
    rw [Bool.not_eq_true', ← Bool.not_eq_true, List.contains_iff_mem] at hhard
    exact hhard
  next hnone =>
    refine (or_iff_left fun ⟨field, hfield, hhard⟩ => hnone (List.any_eq_true.mpr ⟨field, hfield, ?_⟩)).symm
    rw [Bool.not_eq_true', ← Bool.not_eq_true, List.contains_iff_mem]
    exact hhard

theorem routeFields_plain : ∀ field ∈ routeFields, field ≠ "_id" ∧
    field ∉ ["modified", "userOverrides"] := by decide

/-- The content fields of the updated row are those of the row as the body has it. -/
theorem nullableText_patched (h : updatedModel (some row) model released = .ok patch)
    (hfield : field ∈ routeFields) :
    nullableText (row.patched patch).columns field = nullableText (Obj.spread row.columns model) field := by
  have hget : Obj.get (row.patched patch).columns field = Obj.get (Obj.spread row.columns model) field := by
    unfold Obj.get
    show ((Obj.assign row.columns patch).own field).getD _ = _
    rw [Obj.own_assign, Obj.own_spread, own_updatedModel h (routeFields_plain field hfield).2]
  unfold nullableText
  rw [hget]

/-- An update that leaves a row on or off changes no state. -/
theorem enabledChange_eq_nil (h : updatedModel (some row) model released = .ok patch)
    (hstate : (row.patched patch).isEnabled = row.isEnabled) : enabledChange (some row) model = [] := by
  unfold enabledChange
  split
  next => rfl
  next => rfl
  next _ row' hrow hdefined =>
    obtain rfl := Option.some.inj hrow
    refine if_neg ?_
    have hown : ∃ v, Obj.own model "enabled" = some v := by
      rw [← Option.ne_none_iff_exists']
      intro hnone
      refine hdefined ?_
      unfold Obj.get
      rw [hnone]
      rfl
    obtain ⟨v, hv⟩ := hown
    have hget : Obj.get model "enabled" = v := by
      unfold Obj.get
      rw [hv]
      rfl
    have hafter : (row.patched patch).get "enabled" = v := by
      rw [row.get_patched _ (by decide), own_updatedModel h (by decide), hv]
      rfl
    unfold StoredHttpPath.isEnabled at hstate
    rw [hafter] at hstate
    rw [hget]
    have hsame : isNotFalse v = row.isEnabled := by
      unfold StoredHttpPath.isEnabled
      rw [← hstate]
      rfl
    rw [hsame]
    simp

/-- **An update of neither content nor state** changes the fields that it spells differently. -/
theorem changed_iff_apartAt (h : updatedModel (some row) model released = .ok patch)
    (hrow : FiniteFields row.columns) (hpatched : FiniteFields (row.patched patch).columns)
    (hcontent : routeContent (row.patched patch).columns = routeContent row.columns)
    (hstate : (row.patched patch).isEnabled = row.isEnabled) :
    field ∈ (changesOf (some row) model).map (·.field) ↔
      field ∈ routeFields ∧ ApartAt row.columns (row.patched patch).columns field := by
  unfold changesOf
  rw [enabledChange_eq_nil h hstate, List.append_nil]
  show field ∈ (diffRouteFields row.columns (Obj.spread row.columns model)).map (·.field) ↔ _
  rw [mem_changedFields]
  refine and_congr_right fun hfield => ?_
  rw [← nullableText_patched h hfield]
  refine ⟨fun hne => ?_, fun hapart => hapart.text_ne (hrow field hfield) (hpatched field hfield)⟩
  exact ((sameContent_iff hrow hpatched).mp hcontent.symm field hfield).resolve_left hne

theorem apartAt_field {a b : Obj} (h : ApartAt a b field) :
    field = "actions" ∨ field = "headers" ∨ field = "forwardHeaders" := by
  obtain ⟨default, hmem, -⟩ := h
  simp only [emptyDefaults, List.mem_cons, List.not_mem_nil, or_false, Prod.mk.injEq] at hmem
  rcases hmem with ⟨h, -⟩ | ⟨h, -⟩ | ⟨h, -⟩
  · exact .inl h
  · exact .inr (.inl h)
  · exact .inr (.inr h)

/-- The row that an update has written. -/
theorem unmarked_patched_iff (hcolumn : ListColumn (row.get "userOverrides"))
    (h : updatedModel (some row) model released = .ok patch)
    (hrow : FiniteFields row.columns) (hpatched : FiniteFields (row.patched patch).columns)
    (hcontent : routeContent (row.patched patch).columns = routeContent row.columns)
    (hstate : (row.patched patch).isEnabled = row.isEnabled) :
    Unmarked row (row.patched patch) ↔ SpellingKept (releasedOf released) row (row.patched patch) := by
  have hchanged {field : String} : field ∈ (changesOf (some row) model).map (·.field) ↔
      field ∈ routeFields ∧ ApartAt row.columns (row.patched patch).columns field :=
    changed_iff_apartAt h hrow hpatched hcontent hstate
  constructor
  · rintro ⟨hunlocked, hoverrides⟩
    refine ⟨?_, ?_⟩
    · by_cases hlocked : (row.get "modified").truthy = true
      · exact .inl hlocked
      · refine .inr ⟨fun hapart => hlocked (hunlocked ?_), fun hapart => hlocked (hunlocked ?_)⟩
        · exact (modified_patched_iff h).mpr (.inr ⟨_, hchanged.mpr ⟨by decide, hapart⟩, by decide⟩)
        · exact (modified_patched_iff h).mpr (.inr ⟨_, hchanged.mpr ⟨by decide, hapart⟩, by decide⟩)
    · by_contra hnone
      rw [not_or, not_or, not_not] at hnone
      obtain ⟨hapart, hnew, hkept⟩ := hnone
      exact hnew (hoverrides _ ((overrides_patched_iff hcolumn h).mpr
        ⟨.inr ⟨hchanged.mpr ⟨by decide, hapart⟩, by decide⟩, hkept⟩))
  · rintro ⟨hheaders, hactions⟩
    refine ⟨fun hlocked => ?_, fun field hfield => ?_⟩
    · rcases (modified_patched_iff h).mp hlocked with hlocked | ⟨field, hfield, hhard⟩
      · exact hlocked
      · refine hheaders.resolve_right fun hnone => ?_
        obtain ⟨-, hapart⟩ := hchanged.mp hfield
        rcases apartAt_field hapart with rfl | rfl | rfl
        · exact hhard (by decide)
        · exact hnone.1 hapart
        · exact hnone.2 hapart
    · obtain ⟨hbefore | ⟨hnew, hsoft⟩, hkept⟩ := (overrides_patched_iff hcolumn h).mp hfield
      · exact hbefore
      · obtain ⟨-, hapart⟩ := hchanged.mp hnew
        rcases apartAt_field hapart with rfl | rfl | rfl
        · rcases hactions with hnone | hbefore | hreleased
          · exact absurd hapart hnone
          · exact hbefore
          · exact absurd hreleased hkept
        · exact absurd hsoft (by decide)
        · exact absurd hsoft (by decide)

/-- A field is spelled like itself. -/
theorem not_apartAt_self (a : Obj) (field : String) : ¬ ApartAt a a field := by
  rintro ⟨default, -, ⟨hmissing, hpresent, -⟩ | ⟨hmissing, hpresent, -⟩⟩
  · exact absurd (hmissing.symm.trans hpresent) nofun
  · exact absurd (hmissing.symm.trans hpresent) nofun

/-- A row that an update does not touch. -/
theorem unmarked_self_iff (released : List Value) : Unmarked row row ↔ SpellingKept released row row :=
  iff_of_true ⟨id, fun _ => id⟩
    ⟨.inr ⟨not_apartAt_self _ _, not_apartAt_self _ _⟩, .inl (not_apartAt_self _ _)⟩

/-- **An update that leaves content and state** marks no row, wherever it spells the fields as they were. -/
theorem update_unmarked_iff (env : PathEnv) (w : PathWorld) (body currentUser : Value) {row' : StoredHttpPath}
    (hrow : row ∈ w.store.rows) (hrow' : row' ∈ ((update body currentUser).run env.service w).2.store.rows)
    (hid : row'._id = row._id) (hcolumn : ListColumn (row.get "userOverrides"))
    (hfinite : FiniteFields row.columns) (hfinite' : FiniteFields row'.columns)
    (hcontent : routeContent row'.columns = routeContent row.columns)
    (hstate : row'.isEnabled = row.isEnabled) :
    Unmarked row row' ↔ SpellingKept (releasedOf (Obj.get (fieldsOf body) "releaseOverrides")) row row' := by
  have hended : Ends _ _ ((patchRoute body).run env.service w) := triple_patchRoute body w rfl
  have hsame : row' ∈ w.store.rows → row' = row := fun hmem => PathStore.eq_of_id hmem hrow hid
  rw [store_update] at hrow'
  generalize (patchRoute body).run env.service w = ended at hended hrow'
  rcases ended with ⟨e | u, w'⟩
  · have hstore : w'.store = w.store := hended
    obtain rfl := hsame (hstore ▸ hrow')
    exact unmarked_self_iff _
  · have hedited : Edited (fieldsOf body) w.store w'.store u.updated := hended
    generalize u.updated = updated at hedited
    cases hedited with
    | missing hstore =>
        have hrow'' : row' ∈ w'.store.rows := hrow'
        obtain rfl := hsame (hstore ▸ hrow'')
        exact unmarked_self_iff _
    | edited row₀ hrow₀ _ model patch _ hpatch hmem =>
        rcases (hmem row').mp hrow' with ⟨hold, -⟩ | rfl
        · obtain rfl := hsame hold
          exact unmarked_self_iff _
        · obtain rfl := PathStore.eq_of_id hrow₀ hrow hid
          exact unmarked_patched_iff hcolumn hpatch hfinite hfinite' hcontent hstate

end Update

/-- **The two comparisons, and what an update makes of them.**  The field diff is empty just when the
contents are equal, on routes that are spelled alike; and an update that leaves content and state of a row
marks it just where it spells the headers or the actions differently. -/
theorem fieldDiff_agrees_iff (a b : Obj) (env : PathEnv) (w : PathWorld) (body currentUser : Value)
    (row row' : StoredHttpPath) :
    (FiniteFields a → FiniteFields b →
      ((diffRouteFields a b = [] ↔ routeContent a = routeContent b) ↔ SpelledAlike a b)) ∧
    (row ∈ w.store.rows → row' ∈ ((update body currentUser).run env.service w).2.store.rows →
      row'._id = row._id →
      ListColumn (row.get "userOverrides") → FiniteFields row.columns → FiniteFields row'.columns →
      routeContent row'.columns = routeContent row.columns → row'.isEnabled = row.isEnabled →
        (Unmarked row row' ↔
          SpellingKept (releasedOf (Obj.get (fieldsOf body) "releaseOverrides")) row row')) :=
  ⟨comparisons_agree_iff, update_unmarked_iff env w body currentUser⟩

/-! ## A route without actions -/

theorem finiteFields_of_lists {r : Obj} (h : ∀ kv ∈ r, Finite kv.2) : FiniteFields r := by
  intro field _ text heq
  unfold Obj.get Obj.own at heq
  cases hlookup : r.reverse.lookup field with
  | none =>
      rw [hlookup] at heq
      cases heq
  | some v =>
      rw [hlookup] at heq
      exact h (field, v) (List.mem_reverse.mp (AssocList.mem_of_lookup hlookup)) text heq

/-- A row without columns, and the row behind an update that sets its `timeout` to `null`. -/
def bareRow : StoredHttpPath := { _id := "1", columns := [] }

def timedRow : StoredHttpPath :=
  { _id := "1", columns := [("timeout", .null), ("modified", .bool false), ("userOverrides", .arr [])] }

def bareWorld : PathWorld where
  store :=
    { rows := [bareRow]
      ids := List.nodup_singleton _
      keys := by
        intro a ha b hb _ _
        rw [List.mem_singleton.mp ha, List.mem_singleton.mp hb] }

theorem fieldDiff_agrees_iff_timeout :
    (diffRouteFields [] timedRow.columns = [] ↔ routeContent [] = routeContent timedRow.columns) ∧
      Unmarked bareRow timedRow := by
  have hfinite : FiniteFields [] := finiteFields_of_lists nofun
  have hfinite' : FiniteFields timedRow.columns := by
    refine finiteFields_of_lists fun kv hkv text h => ?_
    simp only [timedRow, List.mem_cons, List.not_mem_nil, or_false] at hkv
    rcases hkv with rfl | rfl | rfl <;> cases h
  have hspelled (field : String) (hfield : field ∈ ["actions", "headers", "forwardHeaders"]) :
      ¬ ApartAt [] timedRow.columns field := by
    rintro ⟨default, -, ⟨-, hpresent, -⟩ | ⟨-, hpresent, -⟩⟩
    · simp only [List.mem_cons, List.not_mem_nil, or_false] at hfield
      rcases hfield with rfl | rfl | rfl <;> cases hpresent
    · cases hpresent
  obtain ⟨hcompare, hupdate⟩ := fieldDiff_agrees_iff [] timedRow.columns .calm bareWorld
    (.obj [("id", .str "1"), ("timeout", .null)]) .undefined bareRow timedRow
  refine ⟨(hcompare hfinite hfinite').mpr (.inl fun field _ hapart => ?_),
    (hupdate (.head _) (.head _) rfl (.inl rfl) hfinite hfinite' rfl rfl).mpr ?_⟩
  · refine hspelled field ?_ hapart
    rcases apartAt_field hapart with rfl | rfl | rfl <;> decide
  · exact ⟨.inr ⟨hspelled _ (by decide), hspelled _ (by decide)⟩, .inl (hspelled _ (by decide))⟩

/-- No actions and an empty list of actions are the same content, and a change. -/
theorem not_fieldDiff_agrees_actions : ¬ ∀ a b, FiniteFields a → FiniteFields b →
    (diffRouteFields a b = [] ↔ routeContent a = routeContent b) := by
  intro h
  have hagree := h [] [("actions", .arr [])] (finiteFields_of_lists nofun)
    (finiteFields_of_lists fun kv hkv text h => by rw [List.mem_singleton.mp hkv] at h; cases h)
  have hcontent : routeContent [] = routeContent [("actions", .arr [])] := rfl
  have hchange : (diffRouteFields [] [("actions", .arr [])]).isEmpty = false := by decide +kernel
  rw [hagree.mpr hcontent] at hchange
  cases hchange

end NestAmqp.Gateway
