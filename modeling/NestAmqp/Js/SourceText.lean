/-
# NestAmqp.Js.SourceText — the text of a function, read by regular expressions.

`STRIP_COMMENTS` takes out comments from left to right, a line comment up to its line terminator and a block
comment with its end; `ARGUMENT_NAMES` finds the words between blanks and commas.  Neither knows of strings.

A text that is written as words, commas, blanks and comments is read as these words, provided that no word
opens a comment and that more than block comments stand between two words: those leave nothing behind.
-/
import NestAmqp.Js.Value

namespace NestAmqp.Js.SourceText

/-- Where a line ends. -/
def isTerminator (c : Char) : Bool := c ∈ ['\n', '\r', '\u2028', '\u2029']

/-- `[\s,]`. -/
def isSeparator (c : Char) : Bool := isBlank c || c == ','

/-! ## Comments -/

/-- How many characters stand before the first `*/`. -/
def blockEnd : List Char → Option Nat
  | '*' :: '/' :: _ => some 0
  | _ :: rest => (blockEnd rest).map (· + 1)
  | [] => none

/-- The length of the comment the text begins with; 0 when it begins with none. -/
def commentLength : List Char → Nat
  | '/' :: '/' :: rest => (rest.takeWhile fun c => !isTerminator c).length + 2
  | '/' :: '*' :: rest => ((blockEnd rest).map (· + 4)).getD 0
  | _ => 0

/-- The text without comments, from behind its first `skip` characters. -/
def strip : Nat → List Char → List Char
  | _, [] => []
  | skip + 1, _ :: rest => strip skip rest
  | 0, c :: rest =>
      match commentLength (c :: rest) with
      | 0 => c :: strip 0 rest
      | length + 1 => strip length rest

/-- `text.replace(/((\/\/.*$)|(\/\*[\s\S]*?\*\/))/mg, '')`. -/
def stripComments (text : List Char) : List Char := strip 0 text

/-- `text.match(/([^\s,]+)/g) || []`. -/
def words (text : List Char) : List (List Char) := (text.splitOnP isSeparator).filter (· ≠ [])

theorem strip_append (skipped rest : List Char) : strip skipped.length (skipped ++ rest) = strip 0 rest := by
  induction skipped with
  | nil => rfl
  | cons c skipped ih => exact ih

theorem stripComments_of_comment {comment : List Char} (hne : comment ≠ []) {rest : List Char}
    (h : commentLength (comment ++ rest) = comment.length) :
    stripComments (comment ++ rest) = stripComments rest := by
  cases comment with
  | nil => exact absurd rfl hne
  | cons c comment =>
      unfold stripComments
      rw [List.cons_append, strip, ← List.cons_append, h]
      exact strip_append comment rest

theorem stripComments_cons {c : Char} {rest : List Char} (h : commentLength (c :: rest) = 0) :
    stripComments (c :: rest) = c :: stripComments rest := by
  unfold stripComments
  rw [strip, h]

/-- No comment begins with another character than a slash. -/
theorem commentLength_of_ne {c : Char} (h : c ≠ '/') (rest : List Char) : commentLength (c :: rest) = 0 := by
  unfold commentLength
  split
  next heq => exact absurd (List.cons.inj heq).1 h
  next heq => exact absurd (List.cons.inj heq).1 h
  next => rfl

/-! ## Lexemes -/

/-- The pieces a list of parameters is written with. -/
inductive Lexeme where
  | word (text : List Char)
  | comma
  | blank (c : Char)
  | line (text : List Char) (stop : Char)
  | block (text : List Char)
  deriving DecidableEq

/-- Nothing in the word opens a comment, nor does its end with what follows. -/
def opensNone : List Char → Bool
  | [] => true
  | [c] => c != '/'
  | c :: d :: rest => !(c == '/' && (d == '/' || d == '*')) && opensNone (d :: rest)

namespace Lexeme

def render : Lexeme → List Char
  | word text => text
  | comma => [',']
  | blank c => [c]
  | line text stop => '/' :: '/' :: (text ++ [stop])
  | block text => '/' :: '*' :: (text ++ ['*', '/'])

/-- What is left of it without comments. -/
def plain : Lexeme → List Char
  | word text => text
  | comma => [',']
  | blank c => [c]
  | line _ stop => [stop]
  | block _ => []

def WellFormed : Lexeme → Prop
  | word text => text ≠ [] ∧ text.all (fun c => !isSeparator c) = true ∧ opensNone text = true
  | comma => True
  | blank c => isBlank c = true
  | line text stop => text.all (fun c => !isTerminator c) = true ∧ isTerminator stop = true
  | block text => blockEnd (text ++ ['*', '/']) = some text.length

instance : ∀ lexeme : Lexeme, Decidable lexeme.WellFormed
  | word text => inferInstanceAs (Decidable (text ≠ [] ∧ _ = true ∧ _ = true))
  | comma => .isTrue trivial
  | blank c => inferInstanceAs (Decidable (isBlank c = true))
  | line _ stop => inferInstanceAs (Decidable (_ = true ∧ isTerminator stop = true))
  | block text => inferInstanceAs (Decidable (blockEnd (text ++ ['*', '/']) = some text.length))

/-- It is neither a blank nor a comment. -/
def significant : Lexeme → Bool
  | word _ | comma => true
  | blank _ | line .. | block _ => false

/-- The word it is. -/
def word? : Lexeme → Option (List Char)
  | word text => some text
  | comma | blank _ | line .. | block _ => none

/-- Two words have a comma, a blank or a line comment between them; `opened` says that a word has just
ended. -/
def apart : Bool → List Lexeme → Bool
  | _, [] => true
  | opened, word _ :: rest => !opened && apart true rest
  | opened, block _ :: rest => apart opened rest
  | _, comma :: rest | _, blank _ :: rest | _, line .. :: rest => apart false rest

end Lexeme

open Lexeme

/-- The text of some lexemes. -/
def render (lexemes : List Lexeme) : List Char := lexemes.flatMap Lexeme.render

/-- Their text without comments. -/
def plain (lexemes : List Lexeme) : List Char := lexemes.flatMap Lexeme.plain

/-! ## Taking out the comments -/

theorem blockEnd_append {text : List Char} {n : Nat} (h : blockEnd text = some n) (rest : List Char) :
    blockEnd (text ++ rest) = some n := by
  fun_induction blockEnd text generalizing n with
  | case1 => exact h
  | case2 c text hne ih =>
      obtain ⟨m, hm, rfl⟩ := Option.map_eq_some_iff.mp h
      cases text with
      | nil => cases hm
      | cons d text =>
          rw [List.cons_append, blockEnd, ih hm]
          · rfl
          · intro rest' hc heq
            obtain ⟨rfl, -⟩ := List.cons.inj heq
            exact hne text hc rfl
  | case3 => cases h

/-- A word is passed over as it is. -/
theorem stripComments_word {text : List Char} (h : opensNone text = true) (rest : List Char) :
    stripComments (text ++ rest) = text ++ stripComments rest := by
  fun_induction opensNone text with
  | case1 => rfl
  | case2 c =>
      exact stripComments_cons (commentLength_of_ne (bne_iff_ne.mp h) rest)
  | case3 c d text ih =>
      obtain ⟨hpair, htext⟩ := (Bool.and_eq_true _ _).mp h
      have hnone : commentLength (c :: d :: (text ++ rest)) = 0 := by
        unfold commentLength
        split
        next heq =>
          obtain ⟨hc, hrest⟩ := List.cons.inj heq
          rw [hc, (List.cons.inj hrest).1] at hpair
          exact absurd hpair (by decide)
        next heq =>
          obtain ⟨hc, hrest⟩ := List.cons.inj heq
          rw [hc, (List.cons.inj hrest).1] at hpair
          exact absurd hpair (by decide)
        next => rfl
      rw [List.cons_append, List.cons_append, stripComments_cons hnone, ← List.cons_append, ih htext]
      rfl

/-- **One lexeme.**  A comment goes, with the terminator of its line left; everything else stays. -/
theorem stripComments_lexeme {lexeme : Lexeme} (h : lexeme.WellFormed) (rest : List Char) :
    stripComments (lexeme.render ++ rest) = lexeme.plain ++ stripComments rest := by
  cases lexeme with
  | word text => exact stripComments_word h.2.2 rest
  | comma => exact stripComments_cons (commentLength_of_ne (by decide) rest)
  | blank c =>
      refine stripComments_cons (commentLength_of_ne ?_ rest)
      rintro rfl
      have hno : isBlank '/' = false := by decide
      exact Bool.false_ne_true (hno.symm.trans h)
  | line text stop =>
      have hlength : commentLength ('/' :: '/' :: text ++ ([stop] ++ rest)) = ('/' :: '/' :: text).length := by
        have htake : (text ++ ([stop] ++ rest)).takeWhile (fun c => !isTerminator c) = text := by
          rw [List.takeWhile_append_of_pos (List.all_eq_true.mp h.1)]
          rw [List.singleton_append, List.takeWhile_cons_of_neg (by rw [h.2]; decide), List.append_nil]
        change (List.takeWhile _ (text ++ ([stop] ++ rest))).length + 2 = _
        rw [htake]
        rfl
      have htext : (line text stop).render ++ rest = '/' :: '/' :: text ++ ([stop] ++ rest) := by
        simp [Lexeme.render]
      have hstop : stop ≠ '/' := by
        rintro rfl
        exact absurd h.2 (by decide)
      rw [htext, stripComments_of_comment (by simp) hlength]
      exact stripComments_cons (commentLength_of_ne hstop rest)
  | block text =>
      have hlength : commentLength ((block text).render ++ rest) = ((block text).render).length := by
        have hend := blockEnd_append h rest
        change ((blockEnd ((text ++ ['*', '/']) ++ rest)).map (· + 4)).getD 0 = _
        rw [hend]
        simp [Lexeme.render]
      exact stripComments_of_comment (by simp [Lexeme.render]) hlength

/-- **Comments are taken out**, lexeme by lexeme. -/
theorem stripComments_render {lexemes : List Lexeme} (h : ∀ l ∈ lexemes, l.WellFormed) (rest : List Char) :
    stripComments (render lexemes ++ rest) = plain lexemes ++ stripComments rest := by
  induction lexemes with
  | nil => rfl
  | cons lexeme lexemes ih =>
      obtain ⟨hlexeme, hlexemes⟩ := List.forall_mem_cons.mp h
      unfold render plain at ih ⊢
      rw [List.flatMap_cons, List.flatMap_cons, List.append_assoc, stripComments_lexeme hlexeme,
        ih hlexemes, List.append_assoc]

/-! ## Finding the words -/

theorem words_separator {c : Char} (h : isSeparator c = true) (rest : List Char) :
    words (c :: rest) = words rest := by
  unfold words
  have hsplit : (c :: rest).splitOnP isSeparator = [] :: rest.splitOnP isSeparator := by
    have happend := @List.splitOnP_append_cons _ isSeparator [] rest c h
    rwa [List.nil_append, List.splitOnP_nil, List.singleton_append] at happend
  rw [hsplit]
  rfl

/-- A word that a separator or the end of the text follows. -/
theorem words_word {text : List Char} (hne : text ≠ []) (h : ∀ c ∈ text, isSeparator c = false)
    {rest : List Char} (hrest : ∀ c cs, rest = c :: cs → isSeparator c = true) :
    words (text ++ rest) = text :: words rest := by
  cases rest with
  | nil =>
      unfold words
      rw [List.append_nil, List.splitOnP_eq_singleton h, List.splitOnP_nil]
      simp [hne]
  | cons c rest =>
      have hc := hrest c rest rfl
      rw [words_separator hc]
      unfold words
      rw [List.splitOnP_append_cons_of_forall_mem h c hc, List.filter_cons, if_pos (decide_eq_true hne)]

theorem isSeparator_of_blank {c : Char} (h : isBlank c = true) : isSeparator c = true := by
  unfold isSeparator
  rw [h, Bool.true_or]

theorem isBlank_of_terminator {c : Char} (h : isTerminator c = true) : isBlank c = true := by
  unfold isTerminator at h
  simp only [List.mem_cons, List.not_mem_nil, or_false, decide_eq_true_eq] at h
  rcases h with rfl | rfl | rfl | rfl <;> decide

/-- Behind a word comes a separator, or nothing. -/
theorem separator_of_apart {lexemes : List Lexeme} (h : ∀ l ∈ lexemes, l.WellFormed)
    (hapart : apart true lexemes = true) (c : Char) (cs : List Char) (heq : plain lexemes = c :: cs) :
    isSeparator c = true := by
  induction lexemes with
  | nil => cases heq
  | cons lexeme lexemes ih =>
      obtain ⟨hlexeme, hlexemes⟩ := List.forall_mem_cons.mp h
      cases lexeme with
      | word text => cases hapart
      | comma =>
          obtain ⟨rfl, -⟩ := List.cons.inj heq
          decide
      | blank d =>
          obtain ⟨rfl, -⟩ := List.cons.inj heq
          exact isSeparator_of_blank hlexeme
      | line text stop =>
          obtain ⟨rfl, -⟩ := List.cons.inj heq
          exact isSeparator_of_blank (isBlank_of_terminator hlexeme.2)
      | block text => exact ih hlexemes hapart heq

/-- **The words are found**, in order. -/
theorem words_plain {lexemes : List Lexeme} (h : ∀ l ∈ lexemes, l.WellFormed) {opened : Bool}
    (hapart : apart opened lexemes = true) : words (plain lexemes) = lexemes.filterMap Lexeme.word? := by
  induction lexemes generalizing opened with
  | nil => rfl
  | cons lexeme lexemes ih =>
      obtain ⟨hlexeme, hlexemes⟩ := List.forall_mem_cons.mp h
      cases lexeme with
      | word text =>
          change words (text ++ plain lexemes) = text :: lexemes.filterMap Lexeme.word?
          have hbehind : apart true lexemes = true := ((Bool.and_eq_true _ _).mp hapart).2
          have hnone : ∀ c ∈ text, isSeparator c = false := fun c hc =>
            Bool.not_eq_eq_eq_not.mp (List.all_eq_true.mp hlexeme.2.1 c hc)
          rw [words_word hlexeme.1 hnone (separator_of_apart hlexemes hbehind), ih hlexemes hbehind]
      | comma => exact (words_separator (by decide) _).trans (ih hlexemes hapart)
      | blank c => exact (words_separator (isSeparator_of_blank hlexeme) _).trans (ih hlexemes hapart)
      | line text stop =>
          have hstop := isSeparator_of_blank (isBlank_of_terminator hlexeme.2)
          exact (words_separator hstop _).trans (ih hlexemes hapart)
      | block text => exact ih hlexemes hapart

end NestAmqp.Js.SourceText
