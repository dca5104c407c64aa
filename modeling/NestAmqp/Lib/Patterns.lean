/-
# NestAmqp.Lib.Patterns — patterns of literals and wildcards, and which of them covers which.

A pattern is matched letter by letter: a literal matches the letters that read like it, a wildcard matches
every letter.  One pattern covers another when it matches whatever the other matches.  When no letter reads
like all letters, that is a comparison of the patterns piece by piece.
-/
import Mathlib.Data.List.Forall2

namespace NestAmqp.Lib

/-- One letter of a pattern. -/
inductive Piece (α : Type) where
  | lit (a : α)
  | any
  deriving DecidableEq

namespace Pattern

variable {α β : Type} (norm : α → β)

/-- A letter is matched by a piece; `norm` is how letters read. -/
def MatchesPiece : Piece α → α → Prop
  | .lit a, x => norm a = norm x
  | .any, _ => True

/-- A word is matched by a pattern. -/
def Matches (p : List (Piece α)) (word : List α) : Prop := List.Forall₂ (MatchesPiece norm) p word

/-- Every word of `q` is a word of `p`. -/
def Covers (p q : List (Piece α)) : Prop := ∀ word, Matches norm q word → Matches norm p word

/-- The words of `q` are some of the words of `p`, but not all of them. -/
def StrictlyCovers (p q : List (Piece α)) : Prop := Covers norm p q ∧ ¬ Covers norm q p

/-- A piece matches whatever another does. -/
def CoversPiece : Piece α → Piece α → Prop
  | .any, _ => True
  | .lit a, .lit b => norm a = norm b
  | .lit _, .any => False

variable {norm} {p q : List (Piece α)} {a b : Piece α}

theorem MatchesPiece.of_covers (h : CoversPiece norm a b) {x : α} (hx : MatchesPiece norm b x) :
    MatchesPiece norm a x := by
  cases a with
  | any => trivial
  | lit a =>
      cases b with
      | any => exact h.elim
      | lit b => exact Eq.trans h hx

theorem covers_of_forall₂ (h : List.Forall₂ (CoversPiece norm) p q) : Covers norm p q := by
  induction h with
  | nil => exact fun word hword => hword
  | cons hpiece _ ih =>
      intro word hword
      cases hword with
      | cons hx hrest => exact .cons (.of_covers hpiece hx) (ih _ hrest)

section Exact

variable [Nonempty α]

/-- Every piece matches something. -/
theorem exists_matchesPiece (norm : α → β) (a : Piece α) : ∃ x, MatchesPiece norm a x := by
  cases a with
  | lit a => exact ⟨a, rfl⟩
  | any => exact ⟨Classical.arbitrary α, trivial⟩

theorem exists_matches (norm : α → β) (p : List (Piece α)) : ∃ word, Matches norm p word := by
  induction p with
  | nil => exact ⟨[], .nil⟩
  | cons a p ih =>
      obtain ⟨x, hx⟩ := exists_matchesPiece norm a
      obtain ⟨word, hword⟩ := ih
      exact ⟨x :: word, .cons hx hword⟩

/-- **Covering is covering piece by piece**, when no letter reads like all of them. -/
theorem covers_iff (hother : ∀ a, ∃ x, norm x ≠ norm a) :
    Covers norm p q ↔ List.Forall₂ (CoversPiece norm) p q := by
  constructor
  · intro h
    induction p generalizing q with
    | nil =>
        obtain ⟨word, hword⟩ := exists_matches norm q
        cases h word hword
        cases hword
        exact .nil
    | cons a p ih =>
        cases q with
        | nil => cases h [] .nil
        | cons b q =>
            refine .cons ?_ (ih fun word hword => ?_)
            · obtain ⟨word, hword⟩ := exists_matches norm q
              cases a with
              | any => trivial
              | lit a =>
                  cases b with
                  | lit b =>
                      cases h (b :: word) (.cons rfl hword) with
                      | cons hx _ => exact hx
                  | any =>
                      -- a letter that does not read like the literal
                      obtain ⟨x, hx⟩ := hother a
                      cases h (x :: word) (.cons trivial hword) with
                      | cons hxa _ => exact hx hxa.symm
            · obtain ⟨x, hx⟩ := exists_matchesPiece norm b
              cases h (x :: word) (.cons hx hword) with
              | cons _ hrest => exact hrest
  · exact covers_of_forall₂

end Exact

end Pattern

end NestAmqp.Lib
