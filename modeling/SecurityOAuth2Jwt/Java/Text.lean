import SecurityOAuth2Jwt.Common.Pieces
import Mathlib.Data.Char

/-!
# Strings of the Java library

A `String` is a sequence of characters; every operation below looks at characters of the basic
plane only, where characters and UTF-16 units agree.
-/

namespace Java

/-- `Character.isWhitespace`: the space, line and paragraph separators that are not non-breaking,
together with the control characters U+0009 to U+000D and U+001C to U+001F. -/
def isWhitespace (c : Char) : Bool :=
  let n := c.toNat
  (0x9 ≤ n && n ≤ 0xD) || (0x1C ≤ n && n ≤ 0x20) || n == 0x1680 ||
    (0x2000 ≤ n && n ≤ 0x200A && n != 0x2007) || n == 0x2028 || n == 0x2029 || n == 0x205F ||
    n == 0x3000

/-- The characters `String.trim` removes at both ends: all up to and including the space. -/
def isTrimmed (c : Char) : Bool := c.toNat ≤ 0x20

/-- `String.trim`. -/
def trim (s : String) : String := String.ofList (Pieces.trim isTrimmed s.toList)

/-- `String.split` at a single character: the pieces between separators, with trailing empty pieces
dropped; a string without the separator is its own only piece. -/
def split (sep : Char) (s : String) : List String :=
  let pieces := s.toList.splitOn sep
  if pieces.length = 1 then [s]
  else (pieces.rdropWhile fun p => decide (p = [])).map String.ofList

/-- The string has a character that is not white space. -/
def HasText (s : String) : Prop := ∃ c ∈ s.toList, isWhitespace c = false

instance (s : String) : Decidable (HasText s) :=
  decidable_of_iff (s.toList.any (fun c => !isWhitespace c) = true) (by simp [HasText])

/-- The reference is not null and the string it points to has text. -/
def TextPresent : Option String → Prop
  | some s => HasText s
  | none => False

instance : (s : Option String) → Decidable (TextPresent s)
  | some s => inferInstanceAs (Decidable (HasText s))
  | none => inferInstanceAs (Decidable False)

theorem HasText.toList_ne_nil {s : String} (h : HasText s) : s.toList ≠ [] := by
  obtain ⟨c, hc, -⟩ := h
  exact List.ne_nil_of_mem hc

end Java
