/-
# NestAmqp.Broker.ParamNames — which argument goes to which parameter.

The decorator reads a method's parameters off its text: it takes out the comments, cuts from the first `(` to
the first `)`, and finds the words there.  The scanner drops every `=` with the word behind it, keys the
parameters' metadata by the words that are left, and passes the arguments in the order of that table.

For parameters that are plain identifiers, with no default or with one that is words behind words of `=`, all
set off by blanks, this gives every parameter its own argument.  Any other default leaves words behind that
are taken for parameters, and what follows is shifted.
-/
import NestAmqp.Broker.Scanner
import NestAmqp.Js.Json
import NestAmqp.Js.PlainObject
import NestAmqp.Js.SourceText

namespace NestAmqp.Broker

open NestAmqp.Js
open NestAmqp.Js.SourceText

/-! ## The code -/

/-- `fnStr.slice(fnStr.indexOf('(') + 1, fnStr.indexOf(')'))`; a `)` that is missing counts from the end. -/
def sliceParams (fnStr : List Char) : List Char :=
  let start := ((fnStr.findIdx? (· == '(')).map (· + 1)).getD 0
  let stop := (fnStr.findIdx? (· == ')')).getD (fnStr.length - 1)
  (fnStr.take stop).drop start

/-- `getParamNames(func)`, of the text of `func`. -/
def getParamNames (func : String) : List String :=
  (words (sliceParams (stripComments func.toList))).map String.ofList

/-- `removeDefaultsFromParams(params)`. -/
def removeDefaultsFromParams : List String → List String
  | [] => []
  | param :: rest =>
      if param = "=" then
        match rest with
        | [] => []
        | _ :: rest => removeDefaultsFromParams rest
      else param :: removeDefaultsFromParams rest

/-- `Object.assign({}, paramMetadata.find((p) => p.index === index) || { source: 'body' })`, without its
index. -/
def metaAt (paramMetadata : List (Nat × ParamMeta)) (index : Nat) : ParamMeta :=
  ((paramMetadata.find? fun p => p.1 == index).map Prod.snd).getD {}

/-- The `params` of a registered action, in the order the consumer goes through them. -/
def scanParams (func : String) (paramMetadata : List (Nat × ParamMeta)) : List (String × ParamMeta) :=
  objectEntries ((removeDefaultsFromParams (getParamNames func)).zipIdx.foldl
    (fun acc param => assign acc param.1 (metaAt paramMetadata param.2)) [])

/-! ## Lining up -/

/-- The arguments passed are, one by one, what the declared parameters resolve to. -/
def LinesUp (func : String) (names : List String) (paramMetadata : List (Nat × ParamMeta)) : Prop :=
  ∀ (consumer : ActionConsumer) (action payload : Value) (headers : Option Obj) (args : List Value),
    resolveParams consumer action payload headers (scanParams func paramMetadata) = .ok args ↔
      List.Forall₂ (fun (declared : String × Nat) v => resolveParam consumer action payload headers declared.1
        (metaAt paramMetadata declared.2) = .ok [v]) names.zipIdx args

/-- A character of a name: no blank, and no punctuation but `_` and `$`. -/
def isNameChar (c : Char) : Bool :=
  !isBlank c && !("!\"#%&'()*+,-./:;<=>?@[\\]^`\x7b|\x7d~".toList.contains c)

/-- A plain identifier. -/
def isIdentifier (name : String) : Bool :=
  match name.toList with
  | [] => false
  | c :: cs => isNameChar c && !c.isDigit && cs.all isNameChar

/-- A declared parameter, and the words that are assigned to it: `name = a = b` has two. -/
structure Declared where
  name : String
  default : List (List Char) := []

namespace Declared

/-- `name`, or `name = a = b`. -/
def lexemes (p : Declared) : List Lexeme :=
  .word p.name.toList :: p.default.flatMap fun value => [.word ['='], .word value]

end Declared

/-- The text of a method whose parameters are plain identifiers with at most basic defaults. -/
structure PlainMethod where
  header : List Lexeme
  list : List Lexeme
  body : String
  params : List Declared
  trailingComma : Bool := false
  header_wellFormed : ∀ l ∈ header, l.WellFormed ∧ '(' ∉ l.plain ∧ ')' ∉ l.plain
  list_wellFormed : ∀ l ∈ list, l.WellFormed ∧ ')' ∉ l.plain
  apart : Lexeme.apart false list = true
  /-- Blanks and comments apart, the list has the parameters between commas. -/
  lists : list.filter Lexeme.significant =
    [Lexeme.comma].intercalate (params.map Declared.lexemes) ++ if trailingComma then [.comma] else []
  identifiers : ∀ p ∈ params, isIdentifier p.name = true ∧ p.name ≠ "__proto__"
  distinct : (params.map Declared.name).Nodup

namespace PlainMethod

variable (m : PlainMethod)

/-- What `Function.prototype.toString` gives. -/
def text : String := String.ofList (render m.header ++ '(' :: (render m.list ++ ')' :: m.body.toList))

def names : List String := m.params.map Declared.name

end PlainMethod

/-! ## The words -/

/-- The words of the parameters. -/
theorem words_lexemes (p : Declared) : p.lexemes.filterMap Lexeme.word? =
    p.name.toList :: p.default.flatMap fun value => [['='], value] := by
  unfold Declared.lexemes
  change p.name.toList :: _ = _
  rw [List.filterMap_flatMap]
  rfl

theorem filterMap_intercalate_comma (parts : List (List Lexeme)) :
    ([Lexeme.comma].intercalate parts).filterMap Lexeme.word? = parts.flatMap (·.filterMap Lexeme.word?) := by
  induction parts with
  | nil => rfl
  | cons part parts ih =>
      cases parts with
      | nil => simp
      | cons part' parts =>
          rw [List.intercalate_cons_cons, List.filterMap_append, List.filterMap_append, ih]
          change part.filterMap Lexeme.word? ++ [] ++ _ = part.filterMap Lexeme.word? ++ _
          rw [List.append_nil]
          rfl

theorem filterMap_filter_significant (lexemes : List Lexeme) :
    (lexemes.filter Lexeme.significant).filterMap Lexeme.word? = lexemes.filterMap Lexeme.word? := by
  rw [List.filterMap_filter]
  refine List.filterMap_congr fun l _ => ?_
  cases l <;> rfl

/-- **The words of the list** are the names, each with the words of its default behind it. -/
theorem words_list (m : PlainMethod) : words (plain m.list) =
    m.params.flatMap fun p => p.name.toList :: p.default.flatMap fun value => [['='], value] := by
  have hnocomma : (if m.trailingComma then [Lexeme.comma] else []).filterMap Lexeme.word? = [] := by
    split <;> rfl
  rw [words_plain (fun l hl => (m.list_wellFormed l hl).1) m.apart, ← filterMap_filter_significant, m.lists,
    List.filterMap_append, hnocomma, List.append_nil, filterMap_intercalate_comma, List.flatMap_map]
  exact List.flatMap_congr fun p _ => words_lexemes p

theorem findIdx?_append_of_not_mem {c : Char} {before : List Char} (h : c ∉ before) (after : List Char) :
    (before ++ after).findIdx? (· == c) = (after.findIdx? (· == c)).map (· + before.length) := by
  have hnone : before.findIdx? (· == c) = none := by
    rw [List.findIdx?_eq_none_iff]
    exact fun d hd => beq_eq_false_iff_ne.mpr fun heq => h (heq ▸ hd)
  rw [List.findIdx?_append, hnone, Option.none_or]

/-- The slice between the parentheses. -/
theorem sliceParams_eq {before inside after : List Char} (hopen : '(' ∉ before) (hclose : ')' ∉ before)
    (hinside : ')' ∉ inside) : sliceParams (before ++ '(' :: (inside ++ ')' :: after)) = inside := by
  have hstart : (before ++ '(' :: (inside ++ ')' :: after)).findIdx? (· == '(') = some before.length := by
    rw [findIdx?_append_of_not_mem hopen, List.findIdx?_cons, if_pos (by decide)]
    simp
  have hstop : (before ++ '(' :: (inside ++ ')' :: after)).findIdx? (· == ')') =
      some (before ++ '(' :: inside).length := by
    have hbefore : ')' ∉ before ++ '(' :: inside := by simp [hclose, hinside]
    have htext : before ++ '(' :: (inside ++ ')' :: after) = (before ++ '(' :: inside) ++ ')' :: after := by
      simp
    rw [htext, findIdx?_append_of_not_mem hbefore, List.findIdx?_cons, if_pos (by decide)]
    simp
  unfold sliceParams
  rw [hstart, hstop]
  dsimp only [Option.map_some, Option.getD_some]
  have htake : (before ++ '(' :: (inside ++ ')' :: after)).take (before ++ '(' :: inside).length =
      before ++ '(' :: inside := by
    have htext : before ++ '(' :: (inside ++ ')' :: after) = (before ++ '(' :: inside) ++ ')' :: after := by
      simp
    rw [htext, List.take_left]
  have hdrop : (before ++ '(' :: inside).drop (before.length + 1) = inside := by
    rw [← List.drop_drop, List.drop_left]
    rfl
  rw [htake, hdrop]

/-! ## The names -/

theorem removeDefaults_equals (value : String) (rest : List String) :
    removeDefaultsFromParams ("=" :: value :: rest) = removeDefaultsFromParams rest := by
  simp [removeDefaultsFromParams]

theorem removeDefaults_name {name : String} (h : name ≠ "=") (rest : List String) :
    removeDefaultsFromParams (name :: rest) = name :: removeDefaultsFromParams rest := by
  cases rest <;> simp [removeDefaultsFromParams, h]

theorem removeDefaults_default (default : List (List Char)) (rest : List String) :
    removeDefaultsFromParams ((default.flatMap fun value => [['='], value]).map String.ofList ++ rest) =
      removeDefaultsFromParams rest := by
  induction default with
  | nil => rfl
  | cons value default ih =>
      rw [List.flatMap_cons, List.map_append, List.append_assoc]
      exact (removeDefaults_equals (String.ofList value) _).trans ih

theorem ne_equals_of_identifier {name : String} (h : isIdentifier name = true) : name ≠ "=" := by
  rintro rfl
  exact absurd h (by decide)

theorem removeDefaults_declared {params : List Declared} (h : ∀ p ∈ params, p.name ≠ "=") :
    removeDefaultsFromParams ((params.flatMap fun p =>
      p.name.toList :: p.default.flatMap fun value => [['='], value]).map String.ofList) =
        params.map Declared.name := by
  induction params with
  | nil => rfl
  | cons p params ih =>
      obtain ⟨hp, hparams⟩ := List.forall_mem_cons.mp h
      rw [List.flatMap_cons, List.map_append, List.map_cons, List.map_cons, List.cons_append,
        String.ofList_toList, removeDefaults_name hp, removeDefaults_default, ih hparams]

/-- A name is no array index. -/
theorem arrayIndex_identifier {name : String} (h : isIdentifier name = true) : arrayIndex name = none := by
  cases hindex : arrayIndex name with
  | none => rfl
  | some n =>
      unfold arrayIndex at hindex
      obtain ⟨-, hsame⟩ := Option.filter_eq_some_iff.mp hindex
      obtain ⟨htext, -⟩ := (Bool.and_eq_true _ _).mp hsame
      have hdigits : name.toList = Nat.toDigits 10 n := by
        rw [← beq_iff_eq.mp htext]
        exact Nat.toList_repr
      unfold isIdentifier at h
      cases hname : name.toList with
      | nil =>
          rw [hname] at h
          cases h
      | cons c cs =>
          rw [hname] at h
          have hdigit : c.isDigit = true := by
            refine Nat.isDigit_of_mem_toDigits (by decide) (by decide) (hdigits ▸ ?_ : c ∈ Nat.toDigits 10 n)
            rw [hname]
            exact .head _
          obtain ⟨hfirst, -⟩ := (Bool.and_eq_true _ _).mp h
          obtain ⟨-, hnodigit⟩ := (Bool.and_eq_true _ _).mp hfirst
          rw [hdigit] at hnodigit
          cases hnodigit

/-- **The names are found.** -/
theorem removeDefaults_getParamNames (m : PlainMethod) :
    removeDefaultsFromParams (getParamNames m.text) = m.names := by
  have hstripped : stripComments m.text.toList =
      plain m.header ++ '(' :: (plain m.list ++ ')' :: stripComments m.body.toList) := by
    unfold PlainMethod.text
    rw [String.toList_ofList, stripComments_render fun l hl => (m.header_wellFormed l hl).1,
      stripComments_cons (commentLength_of_ne (by decide) _),
      stripComments_render fun l hl => (m.list_wellFormed l hl).1,
      stripComments_cons (commentLength_of_ne (by decide) _)]
  have hnot : ∀ {c : Char} {lexemes : List Lexeme}, (∀ l ∈ lexemes, c ∉ l.plain) → c ∉ plain lexemes := by
    intro c lexemes h hmem
    obtain ⟨l, hl, hc⟩ := List.mem_flatMap.mp hmem
    exact h l hl hc
  unfold getParamNames PlainMethod.names
  rw [hstripped, sliceParams_eq (hnot fun l hl => (m.header_wellFormed l hl).2.1)
    (hnot fun l hl => (m.header_wellFormed l hl).2.2) (hnot fun l hl => (m.list_wellFormed l hl).2), words_list]
  exact removeDefaults_declared fun p hp => ne_equals_of_identifier (m.identifiers p hp).1

/-- The table has the parameters in their order. -/
theorem scanParams_eq (m : PlainMethod) (paramMetadata : List (Nat × ParamMeta)) :
    scanParams m.text paramMetadata =
      m.names.zipIdx.map fun declared => (declared.1, metaAt paramMetadata declared.2) := by
  have hkeys : ((m.names.zipIdx.map fun declared => (declared.1, metaAt paramMetadata declared.2)).map
      Prod.fst) = m.names := by
    rw [List.map_map]
    exact List.zipIdx_map_fst 0 m.names
  have hfold : m.names.zipIdx.foldl (fun acc param => assign acc param.1 (metaAt paramMetadata param.2)) [] =
      (m.names.zipIdx.map fun declared => (declared.1, metaAt paramMetadata declared.2)).foldl
        (fun out e => assign out e.1 e.2) [] := by
    rw [List.foldl_map]
  have hmem : ∀ {e : String × ParamMeta},
      e ∈ (m.names.zipIdx.map fun declared => (declared.1, metaAt paramMetadata declared.2)) →
        ∃ p ∈ m.params, p.name = e.1 := by
    intro e he
    have hname := List.mem_map_of_mem (f := Prod.fst) he
    rw [hkeys] at hname
    exact List.mem_map.mp hname
  have hown : ∀ e ∈ (m.names.zipIdx.map fun declared => (declared.1, metaAt paramMetadata declared.2)),
      (e.1 != "__proto__") = true := by
    intro e he
    obtain ⟨p, hp, hname⟩ := hmem he
    rw [← hname]
    exact bne_iff_ne.mpr (m.identifiers p hp).2
  have hdistinct : (([] : List (String × ParamMeta)).map Prod.fst ++
      (m.names.zipIdx.map fun declared =>
      (declared.1, metaAt paramMetadata declared.2)).map Prod.fst).Nodup := by
    rw [hkeys]
    exact m.distinct
  unfold scanParams
  rw [removeDefaults_getParamNames, hfold, foldl_assign _ _ hdistinct, List.nil_append,
    List.filter_eq_self.mpr hown]
  refine objectEntries_of_named fun e he => ?_
  obtain ⟨p, hp, hname⟩ := hmem he
  rw [← hname]
  exact arrayIndex_identifier (m.identifiers p hp).1

/-! ## The arguments -/

theorem transform_single {paramMeta : ParamMeta} {v : Value} {name : String} {pushed : List Value}
    (h : transform paramMeta v name = .ok pushed) : ∃ r, pushed = [r] := by
  unfold transform at h
  split at h
  next => exact ⟨v, (Except.ok.inj h).symm⟩
  next pipe hsome =>
    cases hpipe : pipe v name with
    | error e =>
        rw [hpipe] at h
        cases h
    | ok r =>
        rw [hpipe] at h
        exact ⟨r, (Except.ok.inj h).symm⟩

/-- A parameter with a known source pushes one argument. -/
theorem resolveParam_single {consumer : ActionConsumer} {action payload : Value} {headers : Option Obj}
    {param : String} {paramMeta : ParamMeta} (hsource : paramMeta.source ≠ .other) {pushed : List Value}
    (h : resolveParam consumer action payload headers param paramMeta = .ok pushed) : ∃ v, pushed = [v] := by
  unfold resolveParam at h
  dsimp only at h
  split at h
  next =>
    split at h
    next => exact transform_single h
    next => cases h
  next => exact transform_single h
  next => exact transform_single h
  next => exact transform_single h
  next => exact transform_single h
  next => exact transform_single h
  next hother => exact absurd hother hsource

/-- **The arguments are those of the parameters**, one for each and in order. -/
theorem resolveParams_iff (consumer : ActionConsumer) (action payload : Value) (headers : Option Obj)
    {params : List (String × ParamMeta)} (hsources : ∀ p ∈ params, p.2.source ≠ .other) (args : List Value) :
    resolveParams consumer action payload headers params = .ok args ↔
      List.Forall₂ (fun p v => resolveParam consumer action payload headers p.1 p.2 = .ok [v]) params args := by
  induction params generalizing args with
  | nil =>
      rw [resolveParams, List.forall₂_nil_left_iff]
      exact ⟨fun h => (Except.ok.inj h).symm, fun h => congrArg Except.ok h.symm⟩
  | cons p params ih =>
      obtain ⟨hp, hparams⟩ := List.forall_mem_cons.mp hsources
      rw [resolveParams, List.forall₂_cons_left_iff]
      cases hresolved : resolveParam consumer action payload headers p.1 p.2 with
      | error e => exact ⟨nofun, nofun⟩
      | ok pushed =>
          obtain ⟨v, rfl⟩ := resolveParam_single hp hresolved
          constructor
          · intro h
            cases hrest : resolveParams consumer action payload headers params with
            | error e =>
                rw [hrest] at h
                cases h
            | ok rest =>
                rw [hrest] at h
                exact ⟨v, rest, rfl, (ih hparams rest).mp hrest, (Except.ok.inj h).symm⟩
          · rintro ⟨w, rest, hw, hrest, rfl⟩
            rw [(ih hparams rest).mpr hrest]
            rw [(List.cons.inj (Except.ok.inj hw)).1]
            rfl

/-- **Handler arguments line up with parameters** that are plain identifiers with at most basic defaults,
for every metadata of known sources and every message. -/
theorem linesUp (m : PlainMethod) (paramMetadata : List (Nat × ParamMeta))
    (hsources : ∀ entry ∈ paramMetadata, entry.2.source ≠ .other) : LinesUp m.text m.names paramMetadata := by
  have hknown : ∀ index, (metaAt paramMetadata index).source ≠ .other := by
    intro index
    unfold metaAt
    cases hfind : paramMetadata.find? fun p => p.1 == index with
    | none => exact nofun
    | some entry => exact hsources entry (List.mem_of_find?_eq_some hfind)
  intro consumer action payload headers args
  rw [scanParams_eq, resolveParams_iff]
  · exact List.forall₂_map_left_iff
  · intro p hp
    obtain ⟨declared, -, rfl⟩ := List.mem_map.mp hp
    exact hknown declared.2

/-! ## Two methods -/

/-- `async save(a, /* the second */ b = 1, c) { }`. -/
def saveMethod : PlainMethod where
  header := [.word "async".toList, .blank ' ', .word "save".toList]
  list := [.word "a".toList, .comma, .blank ' ', .block " the second ".toList, .blank ' ', .word "b".toList,
    .blank ' ', .word "=".toList, .blank ' ', .word "1".toList, .comma, .blank ' ', .word "c".toList]
  body := " \x7b \x7d"
  params := [{ name := "a" }, { name := "b", default := ["1".toList] }, { name := "c" }]
  header_wellFormed := by decide +kernel
  list_wellFormed := by decide +kernel
  apart := by decide +kernel
  lists := by decide +kernel
  identifiers := by decide +kernel
  distinct := by decide

theorem linesUp_saveMethod : LinesUp saveMethod.text ["a", "b", "c"]
    [(2, { source := .header, name := some "x-c" })] :=
  linesUp saveMethod [(2, { source := .header, name := some "x-c" })] (by decide)

/-- The text of a method with any defaults. -/
def methodText (params : List (String × Option String)) : String :=
  let texts := params.map fun p => match p.2 with
    | none => p.1
    | some default => p.1 ++ " = " ++ default
  "m(" ++ ", ".intercalate texts ++ ") \x7b \x7d"

/-- In `m(a = 1 + 2, b)` the words `+` and `2` are taken for parameters. -/
theorem not_linesUp_sum :
    ¬ ∀ (params : List (String × Option String)) (paramMetadata : List (Nat × ParamMeta)),
      (∀ p ∈ params, isIdentifier p.1 = true) → (params.map Prod.fst).Nodup →
        (∀ entry ∈ paramMetadata, entry.2.source ≠ .other) →
          LinesUp (methodText params) (params.map Prod.fst) paramMetadata := by
  intro h
  have hlines := h [("a", some "1 + 2"), ("b", none)] [] (by decide +kernel) (by decide) nofun
  have hargs := (hlines { topic := "", actions := [] } .undefined (.obj []) none [.undefined, .undefined]).mpr
    (.cons rfl (.cons rfl .nil))
  have hknown : ∀ p ∈ scanParams (methodText [("a", some "1 + 2"), ("b", none)]) [], p.2.source ≠ .other := by
    intro p hp
    have hall : (((removeDefaultsFromParams
        (getParamNames (methodText [("a", some "1 + 2"), ("b", none)]))).zipIdx.foldl
        (fun acc param => assign acc param.1 (metaAt [] param.2)) []).all
        fun p => decide (p.2.source ≠ .other)) = true := by
      decide +kernel
    exact of_decide_eq_true (List.all_eq_true.mp hall p (mem_objectEntries.mp hp))
  have hfour : (scanParams (methodText [("a", some "1 + 2"), ("b", none)]) []).length = 4 := by
    unfold scanParams
    rw [length_objectEntries]
    decide +kernel
  have hlength := ((resolveParams_iff _ _ _ _ hknown _).mp hargs).length_eq
  rw [hfour] at hlength
  cases hlength

end NestAmqp.Broker
