import Mathlib.Data.List.DropRight

/-!
# Words of a spaced text

The words of a text are its maximal non-empty stretches without the separator, whatever the number
of separators before, between and after them. The theorems that relate them to cutting a text at
every separator are in `Common.Proofs.WordsProofs`.
-/

namespace Pieces

variable {α : Type*}

/-- `Words sep l ws`: the words of the text `l` are `ws`, in order. A word ends at a separator or at
the end of the text. -/
inductive Words (sep : α) : List α → List (List α) → Prop where
  /-- The empty text has no words. -/
  | nil : Words sep [] []
  /-- A separator in front of a text belongs to no word. -/
  | skip {l : List α} {ws : List (List α)} (rest : Words sep l ws) : Words sep (sep :: l) ws
  /-- A word at the end of the text. -/
  | last {w : List α} (nonempty : w ≠ []) (letters : sep ∉ w) : Words sep w [w]
  /-- A word, the separator that ends it, and the words after it. -/
  | word {w l : List α} {ws : List (List α)} (nonempty : w ≠ []) (letters : sep ∉ w)
      (rest : Words sep l ws) : Words sep (w ++ sep :: l) (w :: ws)

variable [DecidableEq α]

/-- The pieces of the text between separators that are not empty. -/
def words (sep : α) (l : List α) : List (List α) :=
  (l.splitOn sep).filter fun p => decide (p ≠ [])

/-- The text without the separators at its end. -/
def trimEnd (sep : α) (l : List α) : List α := l.rdropWhile fun a => decide (a = sep)

/-- The pieces without the empty ones at the end. -/
def dropEmptyEnd (ps : List (List α)) : List (List α) := ps.rdropWhile fun p => decide (p = [])

/-- The text is not empty and, up to the separators at its end, has no separator in front and no
two separators in a row. -/
def SingleSpaced (sep : α) (l : List α) : Prop :=
  l ≠ [] ∧ ¬ [sep] <+: trimEnd sep l ∧ ¬ [sep, sep] <:+: trimEnd sep l

instance (sep : α) (l : List α) : Decidable (SingleSpaced sep l) :=
  inferInstanceAs (Decidable (_ ∧ _ ∧ _))

end Pieces
