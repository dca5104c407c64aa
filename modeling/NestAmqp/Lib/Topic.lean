/-
# NestAmqp.Lib.Topic — topic patterns over words.

A topic pattern is a list of tokens: a literal word, `*` for exactly one word, `#` for any number of
words.  `routes` decides whether a pattern matches a list of words; `sample` is a list of words that a
pattern always matches, with one chosen word wherever the pattern leaves a choice.
-/
import Mathlib.Data.List.Infix

namespace NestAmqp.Lib.Topic

/-- One token of a topic pattern. -/
inductive Token (W : Type) where
  | word (w : W)
  | star
  | hash
  deriving DecidableEq, Repr

variable {W : Type} [DecidableEq W]

/-- Does the pattern match these words? -/
def routes : List (Token W) → List W → Bool
  | [], ks => ks.isEmpty
  | .hash :: ps, ks => ks.tails.any (routes ps)
  | .star :: ps, ks => match ks with
    | [] => false
    | _ :: ks => routes ps ks
  | .word w :: ps, ks => match ks with
    | [] => false
    | k :: ks => k == w && routes ps ks

@[simp] theorem routes_nil_nil : routes ([] : List (Token W)) [] = true := rfl

@[simp] theorem routes_nil_cons (k : W) (ks : List W) : routes [] (k :: ks) = false := rfl

@[simp] theorem routes_star_nil (ps : List (Token W)) : routes (.star :: ps) ([] : List W) = false := rfl

@[simp] theorem routes_star_cons (ps : List (Token W)) (k : W) (ks : List W) :
    routes (.star :: ps) (k :: ks) = routes ps ks := rfl

@[simp] theorem routes_word_nil (w : W) (ps : List (Token W)) : routes (.word w :: ps) [] = false := rfl

@[simp] theorem routes_word_cons (w : W) (ps : List (Token W)) (k : W) (ks : List W) :
    routes (.word w :: ps) (k :: ks) = true ↔ k = w ∧ routes ps ks = true := by
  show (k == w && routes ps ks) = true ↔ _
  rw [Bool.and_eq_true, beq_iff_eq]

/-- `#` takes any number of words. -/
theorem routes_hash_iff (ps : List (Token W)) (ks : List W) :
    routes (.hash :: ps) ks = true ↔ ∃ taken rest, ks = taken ++ rest ∧ routes ps rest = true := by
  show ks.tails.any (routes ps) = true ↔ _
  rw [List.any_eq_true]
  constructor
  · rintro ⟨rest, hmem, hrest⟩
    obtain ⟨taken, rfl⟩ := (List.mem_tails _ _).mp hmem
    exact ⟨taken, rest, rfl, hrest⟩
  · rintro ⟨taken, rest, rfl, hrest⟩
    exact ⟨rest, (List.mem_tails _ _).mpr ⟨taken, rfl⟩, hrest⟩

/-- A match of the rest is a match of the pattern with `#` in front. -/
theorem routes_hash_append {ps : List (Token W)} (taken : List W) {rest : List W}
    (h : routes ps rest = true) : routes (.hash :: ps) (taken ++ rest) = true :=
  (routes_hash_iff ps _).mpr ⟨taken, rest, rfl, h⟩

/-- A pattern matches no words only if it is all `#`. -/
theorem routes_empty_cons {p : Token W} {ps : List (Token W)} (h : routes (p :: ps) [] = true) :
    p = .hash ∧ routes ps [] = true := by
  cases p with
  | word w => cases h
  | star => cases h
  | hash =>
      obtain ⟨taken, rest, heq, hrest⟩ := (routes_hash_iff ps []).mp h
      obtain ⟨-, rfl⟩ := List.append_eq_nil_iff.mp heq.symm
      exact ⟨rfl, hrest⟩

/-- The word a token is sampled by. -/
def Token.sample (fresh : W) : Token W → W
  | .word w => w
  | .star | .hash => fresh

/-- Words the pattern matches, one for each token. -/
def sample (fresh : W) (ps : List (Token W)) : List W := ps.map (Token.sample fresh)

theorem routes_sample (fresh : W) (ps : List (Token W)) : routes ps (sample fresh ps) = true := by
  induction ps with
  | nil => rfl
  | cons p ps ih =>
      cases p with
      | word w => exact (routes_word_cons w ps w _).mpr ⟨rfl, ih⟩
      | star => exact ih
      | hash => exact routes_hash_append [fresh] ih

/-! ## Patterns within patterns -/

/-- Whatever `P` matches, `Q` matches. -/
def Within (P Q : List (Token W)) : Prop := ∀ ks, routes P ks = true → routes Q ks = true

/-- `P` matches some of what `Q` matches, but not all of it. -/
def StrictlyWithin (P Q : List (Token W)) : Prop := Within P Q ∧ ¬ Within Q P

section Within

variable {P Q : List (Token W)}

theorem within_star_cons (w : W) : Within (.star :: P) (.star :: Q) ↔ Within P Q :=
  ⟨fun h ks => h (w :: ks), fun h ks => by cases ks with
    | nil => exact id
    | cons k ks => exact h ks⟩

/-- Two literal words can only be within one another when they are the same. -/
theorem within_word_cons {v w : W} : Within (.word v :: P) (.word w :: Q) ↔ v = w ∧ Within P Q := by
  constructor
  · intro h
    have hhead : ∀ ks, routes P ks = true → v = w ∧ routes Q ks = true := fun ks hks =>
      (routes_word_cons w Q v ks).mp (h (v :: ks) ((routes_word_cons v P v ks).mpr ⟨rfl, hks⟩))
    exact ⟨(hhead _ (routes_sample v P)).1, fun ks hks => (hhead ks hks).2⟩
  · rintro ⟨rfl, h⟩ ks hks
    cases ks with
    | nil => exact hks
    | cons k ks =>
        obtain ⟨rfl, hrest⟩ := (routes_word_cons v P k ks).mp hks
        exact (routes_word_cons k Q k ks).mpr ⟨rfl, h ks hrest⟩

theorem strictlyWithin_star_cons (w : W) : StrictlyWithin (.star :: P) (.star :: Q) ↔ StrictlyWithin P Q :=
  and_congr (within_star_cons w) (not_congr (within_star_cons w))

theorem strictlyWithin_word_cons (w : W) :
    StrictlyWithin (.word w :: P) (.word w :: Q) ↔ StrictlyWithin P Q := by
  unfold StrictlyWithin
  rw [within_word_cons, within_word_cons, eq_self_iff_true, true_and, true_and]

/-- A pattern that begins with a word or with `*` is not within one that begins with another word. -/
theorem not_within_word {p : Token W} {w : W} (hp : p ≠ .hash) {other : W} (hother : other ≠ w)
    (hne : p ≠ .word w) : ¬ Within (p :: P) (.word w :: Q) := by
  intro h
  cases p with
  | hash => exact hp rfl
  | star => exact hother ((routes_word_cons w Q other _).mp
        (h (other :: sample other P) (routes_sample other P))).1
  | word v =>
      obtain ⟨rfl, -⟩ := within_word_cons.mp h
      exact hne rfl

/-- Nor is it within the empty pattern. -/
theorem not_within_nil {p : Token W} (w : W) : ¬ Within (p :: P) [] := by
  intro h
  have := h (sample w (p :: P)) (routes_sample w (p :: P))
  cases this

end Within

end NestAmqp.Lib.Topic
