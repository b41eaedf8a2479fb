import Mathlib.Data.List.Basic

/-!
# First occurrences and letterwise rewriting

The first place of a text at which a word stands, where a letter of the text stands for a letter of
the word in the sense of a relation; and the rewriting of a text letter by letter, each letter to
some letters that may depend on what is around it. How the two go together is proved in
`Common.Proofs.OccurrenceProofs`.
-/

namespace Occurrence

variable {α β : Type*}

/-- The word stands at the front of the text, letter by letter in the sense of `r`. -/
def MatchesPrefix (r : β → α → Prop) : (word : List α) → (text : List β) → Prop
  | [], _ => True
  | _ :: _, [] => False
  | a :: word, b :: text => r b a ∧ MatchesPrefix r word text

instance decidableMatchesPrefix (r : β → α → Prop) [DecidableRel r] :
    (word : List α) → (text : List β) → Decidable (MatchesPrefix r word text)
  | [], _ => inferInstanceAs (Decidable True)
  | _ :: _, [] => inferInstanceAs (Decidable False)
  | a :: word, b :: text =>
    have : Decidable (MatchesPrefix r word text) := decidableMatchesPrefix r word text
    inferInstanceAs (Decidable (r b a ∧ MatchesPrefix r word text))

/-- The number of letters in front of the first occurrence of the word, if it occurs. -/
def firstMatch (r : β → α → Prop) [DecidableRel r] (word : List α) : List β → Option Nat
  | [] => if MatchesPrefix r word [] then some 0 else none
  | b :: text =>
    if MatchesPrefix r word (b :: text) then some 0
    else (firstMatch r word text).map (· + 1)

/-- Rewrite each letter of a text to its image; an image depends on the letter and on the letters
before and after it. -/
def rewriteIn (image : List β → β → List β → List α) (before : List β) :
    (text after : List β) → List α
  | [], _ => []
  | b :: text, after =>
    image before b (text ++ after) ++ rewriteIn image (before ++ [b]) text after

/-- The rewriting sends the letters that stand for one of the given letters to that letter, no other
image contains one of them, and no letter right behind such a letter vanishes. -/
structure Recases (r : β → α → Prop) (letters : List α) (image : List β → β → List β → List α) :
    Prop where
  image_eq : ∀ a ∈ letters, ∀ before b after, r b a → image before b after = [a]
  stands : ∀ a ∈ letters, ∀ before b after, a ∈ image before b after → r b a
  image_ne_nil : ∀ a ∈ letters, ∀ before b c after, r b a → image (before ++ [b]) c after ≠ []

end Occurrence
