import Mathlib.Data.Nat.Digits.Defs
import SecurityOAuth2Jwt.Common.Occurrence
import SecurityOAuth2Jwt.Java.Value

/-!
# Strings as UTF-16 units

Where the code cuts a string at an index, a string is the list of its UTF-16 units. What the
character data of the platform and the default locale decide, the lower-case forms and the values of
digits, is a parameter with its documented behaviour.
-/

namespace Java

open Occurrence

/-- A `String`, as the list of its UTF-16 units. -/
abbrev Utf16 := List UInt16

/-- A literal of characters of the basic plane. -/
def lit (s : String) : Utf16 := s.toList.map fun c => UInt16.ofNat c.toNat

/-! ## Characters -/

/-- Character data of the platform for the default locale. -/
structure CharacterData where
  /-- What `toLowerCase` writes for a unit, between the units before it and those after it. -/
  lower : Utf16 → UInt16 → Utf16 → Utf16
  /-- `Character.digit(c, 10)`; nothing stands for -1. -/
  digit : UInt16 → Option (Fin 10)

/-- The unit is the given lower-case ASCII letter or its upper-case form. -/
def SameLetter (c letter : UInt16) : Prop := c = letter ∨ c = letter - 32

instance : DecidableRel SameLetter := fun c letter =>
  inferInstanceAs (Decidable (c = letter ∨ c = letter - 32))

/-- The ASCII letters whose case forms are the same in all locales, and no others: not `i` and `j`,
whose dots depend on the locale, nor `k`, the lower-case form of the Kelvin sign. -/
def plainLetters : Utf16 := lit "abcdefghlmnopqrstuvwxyz"

/-- The decimal digit as a character. -/
def digitUnit (d : Nat) : UInt16 := UInt16.ofNat (0x30 + d)

structure CharacterData.Documented (C : CharacterData) : Prop where
  lower : Recases SameLetter plainLetters C.lower
  digit : ∀ d : Fin 10, C.digit (digitUnit d) = some d

namespace CharacterData

/-- `s.toLowerCase()`. -/
def toLowerCase (C : CharacterData) (s : Utf16) : Utf16 := rewriteIn C.lower [] s []

end CharacterData

/-! ## Parts of a string -/

/-- `s.indexOf(word)`. -/
def indexOf (s word : Utf16) : Int :=
  match firstMatch (· = ·) word s with
  | some i => i
  | none => -1

/-- `s.substring(beginIndex, endIndex)`. -/
def substring (s : Utf16) (beginIndex endIndex : Int) : Result Utf16 :=
  if 0 ≤ beginIndex ∧ beginIndex ≤ endIndex ∧ endIndex ≤ s.length then
    .ok ((s.take endIndex.toNat).drop beginIndex.toNat)
  else .error (.ofClass .stringIndexOutOfBounds)

/-! ## Decimal numbers -/

/-- The decimal digits of a number. -/
def decimal (n : Nat) : Utf16 :=
  if n = 0 then [digitUnit 0] else (Nat.digits 10 n).reverse.map digitUnit

/-- `Integer.toString`. -/
def intToString (n : Int32) : Utf16 :=
  if n.toInt < 0 then lit "-" ++ decimal n.toInt.natAbs else decimal n.toInt.natAbs

/-- The number that the digits of the string denote, if all its units are digits. -/
def CharacterData.number (C : CharacterData) (s : Utf16) : Option Nat :=
  s.foldlM (fun n c => (C.digit c).map fun d => 10 * n + d) 0

/-- The value of a digit string with a sign, if there are digits and the value is an `int`. -/
def CharacterData.signed (C : CharacterData) (negative : Bool) (digits : Utf16) : Result Int32 :=
  match digits, C.number digits with
  | _ :: _, some n =>
    let value : Int := if negative then -n else n
    if -2 ^ 31 ≤ value ∧ value < 2 ^ 31 then .ok (Int32.ofInt value)
    else .error (.ofClass .numberFormat)
  | _, _ => .error (.ofClass .numberFormat)

/-- `Integer.parseInt(s)`. -/
def CharacterData.parseInt (C : CharacterData) (s : Utf16) : Result Int32 :=
  if [0x2D] <+: s then C.signed true s.tail
  else if [0x2B] <+: s then C.signed false s.tail
  else C.signed false s

end Java
