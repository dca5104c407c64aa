/-
# NestAmqp.Lib.Nesting — texts with brackets and quotes, read from the left.

A list of texts is joined with commas.  When every text is closed (its brackets match, its quotes are
ended, and no comma of its own stands outside them) the join can be taken apart again: reading from
the left, the first comma inside nothing ends the first text.

`cut` is that reader, `Passes` says what it does to a stretch of text, and the main result is
`intercalate_inj`.
-/
import Mathlib.Data.List.Basic

namespace NestAmqp.Lib.Nesting

/-! ## The reader -/

/-- Where the reader stands: outside quotes, inside them, or there right behind a backslash. -/
inductive Mode where
  | plain
  | quoted
  | escaped
  deriving DecidableEq

/-- The mode behind a character. -/
def Mode.after : Mode → Char → Mode
  | .plain, c => if c = '"' then .quoted else .plain
  | .quoted, c => if c = '"' then .plain else if c = '\\' then .escaped else .quoted
  | .escaped, _ => .quoted

/-- How many brackets are open behind a character. -/
def depthAfter : Mode → Nat → Char → Nat
  | .plain, d, c =>
      if c = '[' ∨ c = '{' then d + 1 else if c = ']' ∨ c = '}' then d - 1 else d
  | _, d, _ => d

/-- A comma that is inside nothing. -/
def Separates (m : Mode) (d : Nat) (c : Char) : Prop := m = .plain ∧ d = 0 ∧ c = ','

instance (m : Mode) (d : Nat) (c : Char) : Decidable (Separates m d c) :=
  inferInstanceAs (Decidable (_ ∧ _))

/-- The text up to the first comma that is inside nothing, and the rest. -/
def cut : Mode → Nat → List Char → List Char × List Char
  | _, _, [] => ([], [])
  | m, d, c :: cs =>
      if Separates m d c then ([], c :: cs)
      else
        let (front, rest) := cut (m.after c) (depthAfter m d c) cs
        (c :: front, rest)

/-- Reading the text takes the reader from the one place to the other and meets no separator. -/
def Passes (m : Mode) (d : Nat) (text : List Char) (m' : Mode) (d' : Nat) : Prop :=
  ∀ rest, cut m d (text ++ rest) = (text ++ (cut m' d' rest).1, (cut m' d' rest).2)

section Passes

variable {m m' m'' : Mode} {d d' d'' : Nat} {s t : List Char}

theorem Passes.nil : Passes m d [] m d := fun _ => rfl

theorem Passes.append (hs : Passes m d s m' d') (ht : Passes m' d' t m'' d'') :
    Passes m d (s ++ t) m'' d'' := by
  intro rest
  rw [List.append_assoc, hs (t ++ rest), ht rest, List.append_assoc]

/-- One character that does not separate. -/
theorem passes_char {c : Char} (h : ¬ Separates m d c) :
    Passes m d [c] (m.after c) (depthAfter m d c) := by
  intro rest
  show cut m d (c :: rest) = _
  rw [cut, if_neg h]
  rfl

end Passes

/-! ## Closed texts -/

/-- The text can be read over at any depth, also outside all brackets. -/
def Closed (text : List Char) : Prop := ∀ d, Passes .plain d text .plain d

/-- The text can be read over inside a bracket. -/
def Enclosed (text : List Char) : Prop := ∀ d, Passes .plain (d + 1) text .plain (d + 1)

/-- The text can be read over inside quotes. -/
def Quotable (text : List Char) : Prop := ∀ d, Passes .quoted d text .quoted d

section Closed

variable {s t : List Char} {texts : List (List Char)}

theorem Closed.enclosed (h : Closed t) : Enclosed t := fun d => h (d + 1)

theorem Closed.append (hs : Closed s) (ht : Closed t) : Closed (s ++ t) := fun d => (hs d).append (ht d)

theorem Enclosed.append (hs : Enclosed s) (ht : Enclosed t) : Enclosed (s ++ t) :=
  fun d => (hs d).append (ht d)

theorem Quotable.append (hs : Quotable s) (ht : Quotable t) : Quotable (s ++ t) :=
  fun d => (hs d).append (ht d)

theorem closed_nil : Closed [] := fun _ => .nil

theorem quotable_nil : Quotable [] := fun _ => .nil

/-- A character that is no comma, bracket or quote. -/
theorem closed_char {c : Char} (h : c ∉ [',', '"', '[', ']', '{', '}']) : Closed [c] := by
  intro d
  simp only [List.mem_cons, List.not_mem_nil, or_false, not_or] at h
  obtain ⟨hcomma, hquote, hopen, hclose, hopen', hclose'⟩ := h
  have hstep := passes_char (m := .plain) (d := d) (c := c) fun hsep => hcomma hsep.2.2
  simpa [Mode.after, depthAfter, hquote, hopen, hclose, hopen', hclose'] using hstep

theorem closed_of_forall (h : ∀ c ∈ t, c ∉ [',', '"', '[', ']', '{', '}']) : Closed t := by
  induction t with
  | nil => exact closed_nil
  | cons c t ih =>
      exact (closed_char (h c (.head _))).append (ih fun x hx => h x (.tail _ hx))

/-- The same of a text that can be computed. -/
theorem closed_of_all (h : (t.all fun c =>
    !([',', '"', '[', ']', '{', '}'].contains c)) = true) : Closed t := by
  refine closed_of_forall fun c hc hspecial => ?_
  have hplain := List.all_eq_true.mp h c hc
  rw [List.contains_iff_mem.mpr hspecial] at hplain
  cases hplain

/-- A character inside quotes that neither ends them nor escapes. -/
theorem quotable_char {c : Char} (hquote : c ≠ '"') (hslash : c ≠ '\\') : Quotable [c] := by
  intro d
  have hstep := passes_char (m := .quoted) (d := d) (c := c) fun hsep => nomatch hsep.1
  simpa [Mode.after, depthAfter, hquote, hslash] using hstep

/-- An escaped character. -/
theorem quotable_escape (c : Char) : Quotable ['\\', c] := by
  intro d
  have hslash : Passes .quoted d ['\\'] .escaped d :=
    passes_char (m := .quoted) (d := d) (c := '\\') fun hsep => nomatch hsep.1
  have hescaped : Passes .escaped d [c] .quoted d :=
    passes_char (m := .escaped) (d := d) (c := c) fun hsep => nomatch hsep.1
  exact hslash.append hescaped

/-- Quotes around a text. -/
theorem Quotable.closed (h : Quotable t) : Closed ('"' :: (t ++ ['"'])) := by
  intro d
  have hopen : Passes .plain d ['"'] .quoted d :=
    passes_char (m := .plain) (d := d) (c := '"') fun hsep => absurd hsep.2.2 (by decide)
  have hclose : Passes .quoted d ['"'] .plain d :=
    passes_char (m := .quoted) (d := d) (c := '"') fun hsep => nomatch hsep.1
  exact hopen.append ((h d).append hclose)

/-- Square brackets around a text. -/
theorem Enclosed.closed_array (h : Enclosed t) : Closed ('[' :: (t ++ [']'])) := by
  intro d
  have hopen : Passes .plain d ['['] .plain (d + 1) :=
    passes_char (m := .plain) (d := d) (c := '[') fun hsep => absurd hsep.2.2 (by decide)
  have hclose : Passes .plain (d + 1) [']'] .plain d :=
    passes_char (m := .plain) (d := d + 1) (c := ']') fun hsep => absurd hsep.2.2 (by decide)
  exact hopen.append ((h d).append hclose)

/-- Braces around a text. -/
theorem Enclosed.closed_object (h : Enclosed t) : Closed ('{' :: (t ++ ['}'])) := by
  intro d
  have hopen : Passes .plain d ['{'] .plain (d + 1) :=
    passes_char (m := .plain) (d := d) (c := '{') fun hsep => absurd hsep.2.2 (by decide)
  have hclose : Passes .plain (d + 1) ['}'] .plain d :=
    passes_char (m := .plain) (d := d + 1) (c := '}') fun hsep => absurd hsep.2.2 (by decide)
  exact hopen.append ((h d).append hclose)

/-- Inside a bracket a comma separates nothing. -/
theorem enclosed_comma : Enclosed [','] := fun d =>
  passes_char (m := .plain) (d := d + 1) (c := ',') fun hsep => nomatch hsep.2.1

theorem enclosed_intercalate (h : ∀ t ∈ texts, Closed t) : Enclosed ([','].intercalate texts) := by
  induction texts with
  | nil => exact closed_nil.enclosed
  | cons t texts ih =>
      cases texts with
      | nil =>
          rw [List.intercalate_singleton]
          exact (h t (.head _)).enclosed
      | cons u texts =>
          rw [List.intercalate_cons_cons]
          exact ((h t (.head _)).enclosed.append enclosed_comma).append
            (ih fun x hx => h x (.tail _ hx))

end Closed

/-! ## Taking a join apart -/

/-- A join is its first text, and every other one behind a comma. -/
theorem intercalate_cons (t : List Char) (texts : List (List Char)) :
    [','].intercalate (t :: texts) = t ++ texts.flatMap (',' :: ·) := by
  induction texts generalizing t with
  | nil => rw [List.intercalate_singleton, List.flatMap_nil, List.append_nil]
  | cons u texts ih =>
      rw [List.intercalate_cons_cons, ih u, List.flatMap_cons, List.append_assoc]
      rfl

/-- Behind a closed text the reader stops at the comma. -/
theorem Closed.cut_flatMap {t : List Char} (h : Closed t) (texts : List (List Char)) :
    cut .plain 0 (t ++ texts.flatMap (',' :: ·)) = (t, texts.flatMap (',' :: ·)) := by
  rw [h 0]
  cases texts with
  | nil => rw [List.flatMap_nil, cut, List.append_nil]
  | cons u texts => rw [List.flatMap_cons, List.cons_append, cut, if_pos ⟨rfl, rfl, rfl⟩, List.append_nil]

/-- Texts behind commas can be told apart. -/
theorem flatMap_comma_inj {xs ys : List (List Char)} (hx : ∀ t ∈ xs, Closed t) (hy : ∀ t ∈ ys, Closed t)
    (h : xs.flatMap (',' :: ·) = ys.flatMap (',' :: ·)) : xs = ys := by
  induction xs generalizing ys with
  | nil =>
      cases ys with
      | nil => rfl
      | cons y ys => cases h
  | cons x xs ih =>
      cases ys with
      | nil => cases h
      | cons y ys =>
          rw [List.flatMap_cons, List.flatMap_cons, List.cons_append, List.cons_append] at h
          have hcut := congrArg (cut .plain 0) (List.cons.inj h).2
          rw [(hx x (.head _)).cut_flatMap, (hy y (.head _)).cut_flatMap] at hcut
          obtain ⟨hhead, htail⟩ := Prod.mk.inj hcut
          rw [hhead, ih (fun t ht => hx t (.tail _ ht)) (fun t ht => hy t (.tail _ ht)) htail]

/-- **A join of closed texts determines them**, up to the join of no text and that of an empty one. -/
theorem intercalate_inj {xs ys : List (List Char)} (hx : ∀ t ∈ xs, Closed t) (hy : ∀ t ∈ ys, Closed t)
    (hempty : xs = [] ↔ ys = []) (h : [','].intercalate xs = [','].intercalate ys) : xs = ys := by
  cases xs with
  | nil => rw [hempty.mp rfl]
  | cons x xs =>
      cases ys with
      | nil => cases hempty.mpr rfl
      | cons y ys =>
          rw [intercalate_cons, intercalate_cons] at h
          refine flatMap_comma_inj hx hy ?_
          exact congrArg (',' :: ·) h

/-- Among texts that are not empty, the join of no text stands alone. -/
theorem intercalate_inj_of_ne_nil {xs ys : List (List Char)} (hx : ∀ t ∈ xs, Closed t ∧ t ≠ [])
    (hy : ∀ t ∈ ys, Closed t ∧ t ≠ []) (h : [','].intercalate xs = [','].intercalate ys) : xs = ys := by
  have hnil {zs : List (List Char)} (hz : ∀ t ∈ zs, Closed t ∧ t ≠ []) :
      zs = [] ↔ [','].intercalate zs = [] := by
    cases zs with
    | nil => exact iff_of_true rfl rfl
    | cons z zs =>
        rw [intercalate_cons, List.append_eq_nil_iff]
        exact iff_of_false nofun fun hempty => (hz z (.head _)).2 hempty.1
  refine intercalate_inj (fun t ht => (hx t ht).1) (fun t ht => (hy t ht).1) ?_ h
  rw [hnil hx, hnil hy, h]

end NestAmqp.Lib.Nesting
