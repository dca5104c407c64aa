/-
# NestAmqp.Lib.Exposition — the text exposition format of metrics, and its reader.

A page is read line by line: a line is blank, a comment that may carry the help or the type of a metric,
or a sample, which is a metric name, quoted label values in braces, a value and perhaps a timestamp.
Inside the quotes a backslash escapes itself, the quote and the line feed.  `quote` writes a label value;
`readSample_renderSample` says that a sample comes back as it was written, whatever its label values are.
-/
import Mathlib.Data.List.Basic
import Mathlib.Data.List.Forall2
import Mathlib.Data.List.TakeWhile
import Mathlib.Data.String.Basic

namespace NestAmqp.Lib.Exposition

/-! ## Reading -/

/-- A sample. -/
structure Sample where
  metric : String
  labels : List (String × String) := []
  value : Int
  timestamp : Option Int := none
  deriving DecidableEq, Repr

/-- A line of the page. -/
inductive Line
  | blank
  | help (metric text : String)
  | type (metric kind : String)
  | comment (text : String)
  | sample (sample : Sample)
  deriving DecidableEq, Repr

/-- Tokens are set apart by blanks and tabs. -/
def isBlank (c : Char) : Bool := c == ' ' || c == '\t'

def skipBlanks (cs : List Char) : List Char := cs.dropWhile isBlank

/-- The token at the front, and what follows it and its blanks. -/
def readToken (cs : List Char) : List Char × List Char :=
  (cs.takeWhile fun c => !isBlank c, skipBlanks (cs.dropWhile fun c => !isBlank c))

def labelStart (c : Char) : Bool := c.isAlpha || c == '_'

def labelChar (c : Char) : Bool := labelStart c || c.isDigit

def metricStart (c : Char) : Bool := labelStart c || c == ':'

def metricChar (c : Char) : Bool := metricStart c || c.isDigit

/-- A name: a first character, then as many of the others as follow. -/
def readName (first other : Char → Bool) : List Char → Option (String × List Char)
  | [] => none
  | c :: cs =>
      if first c then some (String.ofList (c :: cs.takeWhile other), cs.dropWhile other) else none

/-- A label value, up to the closing quote. -/
def readQuoted : List Char → Option (List Char × List Char)
  | [] => none
  | '"' :: rest => some ([], rest)
  | '\\' :: '\\' :: rest => (readQuoted rest).map fun r => ('\\' :: r.1, r.2)
  | '\\' :: '"' :: rest => (readQuoted rest).map fun r => ('"' :: r.1, r.2)
  | '\\' :: 'n' :: rest => (readQuoted rest).map fun r => ('\n' :: r.1, r.2)
  | '\\' :: _ => none
  | '\n' :: _ => none
  | c :: rest => (readQuoted rest).map fun r => (c :: r.1, r.2)

/-- The labels, up to the closing brace; each takes a unit of `fuel`. -/
def readLabels : Nat → List Char → Option (List (String × String) × List Char)
  | 0, _ => none
  | fuel + 1, cs =>
      match skipBlanks cs with
      | '}' :: rest => some ([], rest)
      | cs => do
          let (name, rest) ← readName labelStart labelChar cs
          match skipBlanks rest with
          | '=' :: rest =>
              match skipBlanks rest with
              | '"' :: rest =>
                  let (value, rest) ← readQuoted rest
                  match skipBlanks rest with
                  | ',' :: rest =>
                      (readLabels fuel rest).map fun r => ((name, String.ofList value) :: r.1, r.2)
                  | '}' :: rest => some ([(name, String.ofList value)], rest)
                  | _ => none
              | _ => none
          | _ => none

/-- A run of digits. -/
def readDigits (digits : List Char) : Option Nat :=
  if digits ≠ [] ∧ digits.all Char.isDigit then some (Nat.ofDigitChars 10 digits 0) else none

/-- A whole number. -/
def readInteger : List Char → Option Int
  | '-' :: digits => (readDigits digits).map fun n => -(n : Int)
  | digits => (readDigits digits).map Nat.cast

/-- What follows the labels: a value, and perhaps a timestamp. -/
def readValue (metric : String) (labels : List (String × String)) (cs : List Char) : Option Sample := do
  let (token, rest) := readToken (skipBlanks cs)
  let value ← readInteger token
  match rest with
  | [] => some { metric, labels, value }
  | rest =>
      match readToken rest with
      | (stamp, []) => do
          let timestamp ← readInteger stamp
          some { metric, labels, value, timestamp := some timestamp }
      | _ => none

def readSample (cs : List Char) : Option Sample := do
  let (metric, rest) ← readName metricStart metricChar cs
  match skipBlanks rest with
  | '{' :: rest =>
      let (labels, rest) ← readLabels (rest.length + 1) rest
      readValue metric labels rest
  | rest => readValue metric [] rest

/-- What follows the `#`. -/
def readComment (cs : List Char) : Line :=
  let (keyword, rest) := readToken (skipBlanks cs)
  let (metric, text) := readToken rest
  if String.ofList keyword = "HELP" then .help (String.ofList metric) (String.ofList text)
  else if String.ofList keyword = "TYPE" then .type (String.ofList metric) (String.ofList text)
  else .comment (String.ofList cs)

/-- A line; `none` when it breaks the grammar. -/
def readLine (cs : List Char) : Option Line :=
  match skipBlanks cs with
  | [] => some .blank
  | '#' :: rest => some (readComment rest)
  | cs => (readSample cs).map .sample

/-- A page: every line has to be readable. -/
def readPage (text : String) : Option (List Line) := (text.toList.splitOn '\n').mapM readLine

/-! ## Writing -/

/-- A label value between its quotes. -/
def quote (value : List Char) : List Char :=
  value.flatMap fun c =>
    if c = '\\' then ['\\', '\\'] else if c = '"' then ['\\', '"'] else if c = '\n' then ['\\', 'n'] else [c]

def renderLabel (label : String × String) : List Char :=
  label.1.toList ++ ('=' :: '"' :: quote label.2.toList) ++ ['"']

def renderSample (metric : String) (labels : List (String × String)) (value : Int) : List Char :=
  metric.toList ++ ('{' :: [','].intercalate (labels.map renderLabel)) ++
    ('}' :: ' ' :: (toString value).toList)

theorem readQuoted_quote (value rest : List Char) :
    readQuoted (quote value ++ '"' :: rest) = some (value, rest) := by
  induction value with
  | nil => rfl
  | cons c value ih =>
      unfold quote at ih ⊢
      rw [List.flatMap_cons, List.append_assoc]
      by_cases hslash : c = '\\'
      · subst hslash
        simp [readQuoted, ih]
      · by_cases hquote : c = '"'
        · subst hquote
          simp [readQuoted, ih]
        · by_cases hline : c = '\n'
          · subst hline
            simp [readQuoted, ih]
          · rw [if_neg hslash, if_neg hquote, if_neg hline, List.singleton_append, readQuoted, ih]
            · rfl
            all_goals simp_all

/-! ## Reading what was written -/

/-- The text is a name. -/
def IsName (first other : Char → Bool) (name : String) : Prop :=
  ∃ c cs, name.toList = c :: cs ∧ first c = true ∧ ∀ d ∈ cs, other d = true

instance (first other : Char → Bool) (name : String) : Decidable (IsName first other name) :=
  match h : name.toList with
  | [] => .isFalse fun ⟨_, _, heq, _⟩ => by rw [h] at heq; cases heq
  | c :: cs =>
      if hname : first c = true ∧ cs.all other = true then
        .isTrue ⟨c, cs, h, hname.1, List.all_eq_true.mp hname.2⟩
      else .isFalse fun ⟨c', cs', heq, hfirst, hother⟩ => by
        rw [h] at heq
        obtain ⟨rfl, rfl⟩ := List.cons.inj heq
        exact hname ⟨hfirst, List.all_eq_true.mpr hother⟩

variable {first other : Char → Bool}

theorem takeWhile_append_stop {p : Char → Bool} {cs : List Char} (h : ∀ d ∈ cs, p d = true) {c : Char}
    (hc : p c = false) (rest : List Char) : (cs ++ c :: rest).takeWhile p = cs := by
  rw [List.takeWhile_append_of_pos h, List.takeWhile_cons_of_neg (by simp [hc]), List.append_nil]

theorem dropWhile_append_stop {p : Char → Bool} {cs : List Char} (h : ∀ d ∈ cs, p d = true) {c : Char}
    (hc : p c = false) (rest : List Char) : (cs ++ c :: rest).dropWhile p = c :: rest := by
  rw [List.dropWhile_append_of_pos h, List.dropWhile_cons_of_neg (by simp [hc])]

/-- A name is read up to the first character that no name has. -/
theorem readName_append {name : String} (h : IsName first other name) {c : Char} (hc : other c = false)
    (rest : List Char) : readName first other (name.toList ++ c :: rest) = some (name, c :: rest) := by
  obtain ⟨d, ds, hname, hfirst, hother⟩ := h
  rw [hname, List.cons_append, readName, if_pos hfirst, takeWhile_append_stop hother hc,
    dropWhile_append_stop hother hc, ← hname, String.ofList_toList]

theorem skipBlanks_cons {c : Char} (hc : isBlank c = false) (rest : List Char) :
    skipBlanks (c :: rest) = c :: rest := List.dropWhile_cons_of_neg (by simp [hc])

/-- The first character of a name is no blank and no brace. -/
theorem skipBlanks_name {name : String} (h : IsName labelStart labelChar name) (rest : List Char) :
    skipBlanks (name.toList ++ rest) = name.toList ++ rest ∧
      ∀ tail, name.toList ++ rest ≠ '}' :: tail := by
  obtain ⟨c, cs, hname, hfirst, -⟩ := h
  have hblank : isBlank c = false := by
    by_contra hblank
    rw [Bool.not_eq_false, isBlank, Bool.or_eq_true, beq_iff_eq, beq_iff_eq] at hblank
    rcases hblank with rfl | rfl <;> cases hfirst
  rw [hname, List.cons_append]
  refine ⟨skipBlanks_cons hblank _, fun tail heq => ?_⟩
  rw [(List.cons.inj heq).1] at hfirst
  cases hfirst

/-- The labels come back, up to the brace that closes them. -/
theorem readLabels_render {labels : List (String × String)} (hne : labels ≠ [])
    (hnames : ∀ label ∈ labels, IsName labelStart labelChar label.1) (rest : List Char) {fuel : Nat}
    (hfuel : labels.length ≤ fuel) :
    readLabels fuel ([','].intercalate (labels.map renderLabel) ++ '}' :: rest) = some (labels, rest) := by
  induction labels generalizing fuel with
  | nil => exact absurd rfl hne
  | cons label labels ih =>
      obtain ⟨fuel, rfl⟩ : ∃ n, fuel = n + 1 := ⟨fuel - 1, by simp at hfuel; omega⟩
      obtain ⟨name, value⟩ := label
      have hname := hnames (name, value) List.mem_cons_self
      -- one label and the character that follows it
      have hlabel : ∀ (c : Char) (tail : List Char), isBlank c = false →
          readLabels (fuel + 1) (renderLabel (name, value) ++ c :: tail) =
            match c :: tail with
            | ',' :: tail => (readLabels fuel tail).map fun r => ((name, value) :: r.1, r.2)
            | '}' :: tail => some ([(name, value)], tail)
            | _ => none := by
        intro c tail hc
        have htext : renderLabel (name, value) ++ c :: tail =
            name.toList ++ '=' :: '"' :: (quote value.toList ++ '"' :: c :: tail) := by
          simp [renderLabel]
        obtain ⟨hskip, hbrace⟩ := skipBlanks_name hname
          ('=' :: '"' :: (quote value.toList ++ '"' :: c :: tail))
        rw [htext, readLabels, hskip]
        split
        next tail' heq => exact absurd heq (hbrace tail')
        next =>
          rw [readName_append hname (by decide)]
          simp only [Option.bind_eq_bind, Option.bind_some, skipBlanks_cons (by decide : isBlank '=' = false),
            skipBlanks_cons (by decide : isBlank '"' = false), readQuoted_quote, skipBlanks_cons hc,
            String.ofList_toList]
      cases labels with
      | nil =>
          rw [List.map_singleton, List.intercalate_singleton, hlabel '}' rest (by decide)]
          rfl
      | cons next labels =>
          rw [List.map_cons, List.map_cons, List.intercalate_cons_cons, ← List.map_cons, List.append_assoc,
            List.append_assoc, List.singleton_append, hlabel ',' _ (by decide)]
          have hrest := ih (List.cons_ne_nil _ _) (fun l hl => hnames l (.tail _ hl))
            (Nat.le_of_succ_le_succ hfuel)
          change Option.map _ (readLabels fuel _) = _
          rw [hrest]
          rfl

theorem length_le_intercalate (labels : List (String × String)) :
    labels.length ≤ ([','].intercalate (labels.map renderLabel)).length := by
  have hpos (label : String × String) : 1 ≤ (renderLabel label).length := by
    simp only [renderLabel, List.length_append, List.length_cons]
    omega
  induction labels with
  | nil => exact Nat.zero_le _
  | cons label labels ih =>
      cases labels with
      | nil =>
          rw [List.map_singleton, List.intercalate_singleton]
          exact hpos label
      | cons next labels =>
          rw [List.map_cons, List.map_cons, List.intercalate_cons_cons, ← List.map_cons,
            List.length_append, List.length_append, List.length_cons]
          have := hpos label
          omega

/-- A whole number is printed with digits, perhaps after a sign. -/
theorem toList_integer (n : Int) : (∃ m : Nat, n = m ∧ (toString n).toList = Nat.toDigits 10 m) ∨
    ∃ m : Nat, n = -(m : Int) ∧ (toString n).toList = '-' :: Nat.toDigits 10 m := by
  cases n with
  | ofNat m => exact .inl ⟨m, rfl, Nat.toList_repr⟩
  | negSucc m =>
      refine .inr ⟨m + 1, rfl, ?_⟩
      change ("-" ++ Nat.repr (m + 1)).toList = _
      rw [String.toList_append, Nat.toList_repr]
      rfl

theorem isDigit_toDigits (n : Nat) : ∀ c ∈ Nat.toDigits 10 n, c.isDigit = true :=
  fun _ hc => Nat.isDigit_of_mem_toDigits (by decide) (by decide) hc

theorem integer_not_blank (n : Int) : ∀ c ∈ (toString n).toList, (!isBlank c) = true := by
  have hdigit : ∀ c : Char, c.isDigit = true → (!isBlank c) = true := by
    intro c hc
    by_contra hblank
    rw [Bool.not_eq_true, Bool.not_eq_false', isBlank, Bool.or_eq_true, beq_iff_eq, beq_iff_eq] at hblank
    rcases hblank with rfl | rfl <;> cases hc
  intro c hc
  rcases toList_integer n with ⟨m, -, htext⟩ | ⟨m, -, htext⟩
  · exact hdigit c (isDigit_toDigits m c (htext ▸ hc))
  · rw [htext] at hc
    rcases List.mem_cons.mp hc with rfl | hc
    · rfl
    · exact hdigit c (isDigit_toDigits m c hc)

theorem integer_ne_nil (n : Int) : (toString n).toList ≠ [] := by
  rcases toList_integer n with ⟨m, -, htext⟩ | ⟨m, -, htext⟩
  · exact htext ▸ Nat.toDigits_ne_nil
  · exact htext ▸ List.cons_ne_nil _ _

theorem readDigits_toDigits (n : Nat) : readDigits (Nat.toDigits 10 n) = some n := by
  unfold readDigits
  rw [if_pos ⟨Nat.toDigits_ne_nil, List.all_eq_true.mpr (isDigit_toDigits n)⟩,
    Nat.ofDigitChars_ten_toDigits]

theorem readInteger_toString (n : Int) : readInteger (toString n).toList = some n := by
  rcases toList_integer n with ⟨m, hn, htext⟩ | ⟨m, hn, htext⟩
  · rw [htext]
    unfold readInteger
    split
    next digits hdigits =>
      -- no digit is a sign
      have hsign := isDigit_toDigits m '-' (hdigits ▸ List.mem_cons_self)
      cases hsign
    next =>
      rw [readDigits_toDigits, hn]
      rfl
  · rw [htext, readInteger, readDigits_toDigits, hn]
    rfl

/-- A value that ends its line. -/
theorem readValue_toString (metric : String) (labels : List (String × String)) (n : Int) :
    readValue metric labels (' ' :: (toString n).toList) = some { metric, labels, value := n } := by
  have hskip : skipBlanks (' ' :: (toString n).toList) = (toString n).toList := by
    obtain ⟨c, cs, hcs⟩ := List.exists_cons_of_ne_nil (integer_ne_nil n)
    have hblank := integer_not_blank n c (hcs ▸ List.mem_cons_self)
    rw [hcs]
    exact (List.dropWhile_cons_of_pos rfl).trans
      (skipBlanks_cons ((Bool.not_eq_true' _).mp hblank) cs)
  have htoken : readToken (toString n).toList = ((toString n).toList, []) := by
    unfold readToken
    rw [List.takeWhile_eq_self_iff.mpr (integer_not_blank n),
      List.dropWhile_eq_nil_iff.mpr (integer_not_blank n)]
    rfl
  unfold readValue
  rw [hskip, htoken]
  simp only [readInteger_toString]
  rfl

/-- **A sample comes back as it was written**, whatever its label values are. -/
theorem readSample_renderSample {metric : String} (hmetric : IsName metricStart metricChar metric)
    {labels : List (String × String)} (hne : labels ≠ [])
    (hnames : ∀ label ∈ labels, IsName labelStart labelChar label.1) (value : Int) :
    readSample (renderSample metric labels value) = some { metric, labels, value } := by
  have htext : renderSample metric labels value = metric.toList ++ '{' ::
      ([','].intercalate (labels.map renderLabel) ++ '}' :: ' ' :: (toString value).toList) := by
    simp [renderSample]
  have hfuel : labels.length ≤
      ([','].intercalate (labels.map renderLabel) ++ '}' :: ' ' :: (toString value).toList).length + 1 := by
    have hlength := length_le_intercalate labels
    rw [List.length_append]
    omega
  rw [htext, readSample, readName_append hmetric (by decide)]
  simp only [Option.bind_eq_bind, Option.bind_some, skipBlanks_cons (by decide : isBlank '{' = false),
    readLabels_render hne hnames _ hfuel, readValue_toString]

theorem newline_not_mem_quote (value : List Char) : '\n' ∉ quote value := by
  intro hmem
  obtain ⟨c, -, hc⟩ := List.mem_flatMap.mp hmem
  split at hc
  · simp at hc
  · split at hc
    · simp at hc
    · split at hc
      · simp at hc
      next hne => exact hne (List.mem_singleton.mp hc).symm

theorem newline_not_mem_name {name : String} (h : IsName first other name) (hfirst : first '\n' = false)
    (hother : other '\n' = false) : '\n' ∉ name.toList := by
  obtain ⟨c, cs, hname, hc, hcs⟩ := h
  intro hmem
  rw [hname] at hmem
  rcases List.mem_cons.mp hmem with rfl | hmem
  · rw [hfirst] at hc
    cases hc
  · have hchar := hcs _ hmem
    rw [hother] at hchar
    cases hchar

theorem not_mem_intercalate {c d : Char} (hne : c ≠ d) {texts : List (List Char)}
    (h : ∀ t ∈ texts, c ∉ t) : c ∉ [d].intercalate texts := by
  induction texts with
  | nil => exact List.not_mem_nil
  | cons t texts ih =>
      cases texts with
      | nil =>
          rw [List.intercalate_singleton]
          exact h t List.mem_cons_self
      | cons u texts =>
          rw [List.intercalate_cons_cons, List.mem_append, List.mem_append, List.mem_singleton]
          rintro ((ht | hd) | hrest)
          · exact h t List.mem_cons_self ht
          · exact hne hd
          · exact ih (fun t ht => h t (.tail _ ht)) hrest

/-- **A sample stays on its line**, whatever its label values are. -/
theorem newline_not_mem_renderSample {metric : String} (hmetric : IsName metricStart metricChar metric)
    {labels : List (String × String)} (hnames : ∀ label ∈ labels, IsName labelStart labelChar label.1)
    (value : Int) : '\n' ∉ renderSample metric labels value := by
  have hlabels : '\n' ∉ [','].intercalate (labels.map renderLabel) := by
    refine not_mem_intercalate (by decide) fun t ht => ?_
    obtain ⟨label, hlabel, rfl⟩ := List.mem_map.mp ht
    have hname := newline_not_mem_name (hnames label hlabel) (by decide) (by decide)
    simp [renderLabel, hname, newline_not_mem_quote]
  have hvalue : '\n' ∉ (toString value).toList := by
    rcases toList_integer value with ⟨m, -, htext⟩ | ⟨m, -, htext⟩
    · exact fun hmem => absurd (isDigit_toDigits m _ (htext ▸ hmem)) (by decide)
    · rw [htext]
      intro hmem
      rcases List.mem_cons.mp hmem with hsign | hdigit
      · cases hsign
      · exact absurd (isDigit_toDigits m _ hdigit) (by decide)
  have hname := newline_not_mem_name hmetric (by decide) (by decide)
  unfold renderSample
  simp only [List.mem_append, List.mem_cons, not_or]
  exact ⟨⟨hname, by decide, hlabels⟩, by decide, by decide, hvalue⟩

/-- A line that is a sample. -/
theorem readLine_renderSample {metric : String} (hmetric : IsName metricStart metricChar metric)
    {labels : List (String × String)} (hne : labels ≠ [])
    (hnames : ∀ label ∈ labels, IsName labelStart labelChar label.1) (value : Int) :
    readLine (renderSample metric labels value) = some (.sample { metric, labels, value }) := by
  have hread := readSample_renderSample hmetric hne hnames value
  obtain ⟨c, cs, hname, hfirst, -⟩ := hmetric
  obtain ⟨tail, htail⟩ : ∃ tail, renderSample metric labels value = c :: tail := by
    unfold renderSample
    rw [hname]
    exact ⟨_, rfl⟩
  have hblank : isBlank c = false := by
    by_contra hblank
    rw [Bool.not_eq_false, isBlank, Bool.or_eq_true, beq_iff_eq, beq_iff_eq] at hblank
    rcases hblank with rfl | rfl <;> cases hfirst
  have hsharp : c ≠ '#' := by
    rintro rfl
    cases hfirst
  rw [htail] at hread ⊢
  unfold readLine
  rw [skipBlanks_cons hblank]
  split
  next hnil => cases hnil
  next rest hcons => exact absurd (List.cons.inj hcons).1 hsharp
  next => rw [hread, Option.map_some]

/-- A separator at the end stands before an empty last part. -/
theorem intercalate_append_separator {α : Type} (c : α) {parts : List (List α)} (hne : parts ≠ []) :
    [c].intercalate parts ++ [c] = [c].intercalate (parts ++ [[]]) := by
  induction parts with
  | nil => exact absurd rfl hne
  | cons part parts ih =>
      cases parts with
      | nil =>
          rw [List.intercalate_singleton, List.singleton_append, List.intercalate_cons_cons,
            List.intercalate_singleton, List.append_nil]
      | cons next parts =>
          rw [List.intercalate_cons_cons, List.append_assoc, ih (List.cons_ne_nil _ _), List.cons_append,
            List.cons_append, List.cons_append, List.intercalate_cons_cons]

theorem mapM_of_forall₂ {α β : Type} {f : α → Option β} {as : List α} {bs : List β}
    (h : List.Forall₂ (fun a b => f a = some b) as bs) : as.mapM f = some bs := by
  induction h with
  | nil => rfl
  | cons hab _ ih => simp [List.mapM_cons, hab, ih]

/-- **A page is read line by line.** -/
theorem readPage_lines {texts : List String} (hne : texts ≠ []) {page : List Line}
    (hlines : ∀ t ∈ texts, '\n' ∉ t.toList)
    (hread : List.Forall₂ (fun t line => readLine t.toList = some line) texts page) :
    readPage ("\n".intercalate texts ++ "\n") = some (page ++ [.blank]) := by
  have htext : ("\n".intercalate texts ++ "\n").toList =
      ['\n'].intercalate (texts.map String.toList ++ [[]]) := by
    rw [String.toList_append, String.toList_intercalate, ← intercalate_append_separator]
    · rfl
    · simpa using hne
  have hparts : ∀ part ∈ texts.map String.toList ++ [[]], '\n' ∉ part := by
    intro part hpart
    rcases List.mem_append.mp hpart with hline | hlast
    · obtain ⟨t, ht, rfl⟩ := List.mem_map.mp hline
      exact hlines t ht
    · rw [List.mem_singleton.mp hlast]
      exact List.not_mem_nil
  unfold readPage
  rw [htext, List.splitOn_intercalate '\n' hparts (by simp)]
  refine mapM_of_forall₂ (List.rel_append ?_ (.cons rfl .nil))
  exact List.forall₂_map_left_iff.mpr hread

end NestAmqp.Lib.Exposition
