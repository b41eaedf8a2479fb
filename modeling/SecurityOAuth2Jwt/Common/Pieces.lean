import Mathlib.Data.List.DropRight

/-!
# Separated text: joining, splitting and trimming

A text is a list over an arbitrary alphabet `α`. It is cut at every occurrence of a separator, the
pieces are trimmed at both ends of the letters that satisfy a predicate `p`, and empty pieces are
dropped. The theorems about these operations are in `Common.Proofs.PiecesProofs`.
-/

namespace Pieces

variable {α : Type*}

/-- Remove the letters satisfying `p` from both ends of `l`. -/
def trim (p : α → Bool) (l : List α) : List α := (l.dropWhile p).rdropWhile p

/-- The non-empty trimmed pieces of `l` between separators. -/
def tokens [DecidableEq α] (sep : α) (p : α → Bool) (l : List α) : List (List α) :=
  ((l.splitOn sep).map (trim p)).filter fun t => decide (t ≠ [])

/-- A word that the split leaves alone: it holds no separator and has nothing to trim. -/
def Plain (sep : α) (p : α → Bool) (l : List α) : Prop := sep ∉ l ∧ trim p l = l

instance [DecidableEq α] (sep : α) (p : α → Bool) (l : List α) : Decidable (Plain sep p l) :=
  inferInstanceAs (Decidable (sep ∉ l ∧ trim p l = l))

end Pieces
