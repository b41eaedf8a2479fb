import SecurityOAuth2Jwt.Common.JavaMap
import SecurityOAuth2Jwt.Common.LinkedHashSet

/-!
# Java objects in a claims map

The values that a JSON parser puts under a claim, the exceptions of the two servers, and the
conversions the converters apply to a value. Generics are erased: a cast to `Collection<String>`
does not look at the elements, so a collection may hold elements of any class.
-/

namespace Java

/-- The classes of the exceptions that the modelled code meets. -/
inductive ExceptionClass where
  | nullPointer
  | classCast
  | arrayStore
  | illegalArgument
  | badCredentials
  | usernameNotFound
  | locked
  | disabled
  | accountExpired
  | credentialsExpired
  | internalAuthenticationService
  | invalidToken
  | invalidClient
  | clientRegistration
  | stringIndexOutOfBounds
  | numberFormat
  deriving DecidableEq, Repr

/-- A thrown exception: its class and its message, which may be null. -/
structure JavaException where
  cls : ExceptionClass
  message : Option String
  deriving DecidableEq, Repr

/-- An exception the virtual machine raises, without a message. -/
def JavaException.ofClass (cls : ExceptionClass) : JavaException := ⟨cls, none⟩

/-- The outcome of a call: a value, or the exception it ends with. -/
abbrev Result := Except JavaException

/-- An element of a collection. -/
inductive Elem where
  | null
  | str (s : String)
  /-- An object of any other class, seen only through `toString`. -/
  | obj (id : Nat) (text : String)
  deriving DecidableEq, Repr

/-- What `StringBuilder.append` writes for the element. -/
def Elem.text : Elem → String
  | .null => "null"
  | .str s => s
  | .obj _ t => t

/-- A value of a claims map. -/
inductive JavaValue where
  | null
  | str (s : String)
  | long (n : Int64)
  /-- A `Collection`, with its elements in iteration order. -/
  | coll (elems : List Elem)
  /-- An object of any other class, seen only through `toString`. -/
  | obj (id : Nat) (text : String)
  deriving DecidableEq, Repr

namespace JavaValue

/-- A reference to a string, or null. -/
def ofString : Option String → JavaValue
  | some s => str s
  | none => null

/-- A set as a value. -/
def ofSet (s : LinkedHashSet Elem) : JavaValue := coll s.toList

/-- A set of strings as a value. -/
def ofStringSet (s : LinkedHashSet String) : JavaValue := coll (s.toList.map Elem.str)

/-- `(String) v`. -/
def castString : JavaValue → Result (Option String)
  | null => .ok none
  | str s => .ok (some s)
  | _ => .error (.ofClass .classCast)

/-- `(Long) v` followed by unboxing. -/
def castLong : JavaValue → Result Int64
  | long n => .ok n
  | null => .error (.ofClass .nullPointer)
  | _ => .error (.ofClass .classCast)

/-- `v.toString()`. -/
def text : JavaValue → Result String
  | null => .error (.ofClass .nullPointer)
  | str s => .ok s
  | long n => .ok (toString n.toInt)
  | coll xs => .ok ("[" ++ ", ".intercalate (xs.map Elem.text) ++ "]")
  | obj _ t => .ok t

end JavaValue

/-- `toArray(new String[0])`: only strings and nulls can be stored in the array. -/
def toStringArray : List Elem → Result (List (Option String))
  | [] => .ok []
  | .null :: xs => do return none :: (← toStringArray xs)
  | .str s :: xs => do return some s :: (← toStringArray xs)
  | .obj _ _ :: _ => .error (.ofClass .arrayStore)

/-- A map from claim names to values. -/
abbrev ClaimsMap := JavaMap String JavaValue

/-- `map.get(key)`: null if the key is absent. -/
def ClaimsMap.get (m : ClaimsMap) (k : String) : JavaValue := (m.find? k).getD .null

/-! ## Lemmas -/

@[simp] theorem JavaValue.castString_ofString (s : Option String) :
    (JavaValue.ofString s).castString = .ok s := by
  cases s <;> rfl

theorem JavaValue.text_of_ne_null {v : JavaValue} (h : v ≠ .null) : ∃ s, v.text = .ok s := by
  cases v with
  | null => exact absurd rfl h
  | str s => exact ⟨s, rfl⟩
  | long n => exact ⟨_, rfl⟩
  | coll xs => exact ⟨_, rfl⟩
  | obj id t => exact ⟨t, rfl⟩

/-- An array of string elements holds these strings. -/
@[simp] theorem toStringArray_map_str (ss : List String) :
    toStringArray (ss.map Elem.str) = .ok (ss.map some) := by
  induction ss with
  | nil => rfl
  | cons s ss ih => simp [toStringArray, ih]

/-- An array without nulls comes from a collection of strings. -/
theorem toStringArray_ok_map_some {xs : List Elem} {ss : List String}
    (h : toStringArray xs = .ok (ss.map some)) : xs = ss.map Elem.str := by
  induction xs generalizing ss with
  | nil =>
    cases ss with
    | nil => rfl
    | cons s ss => cases h
  | cons x xs ih =>
    cases x with
    | obj id text => cases h
    | null =>
      simp only [toStringArray] at h
      cases hrest : toStringArray xs with
      | error e =>
        rw [hrest] at h
        cases h
      | ok rest =>
        rw [hrest] at h
        cases ss with
        | nil => cases h
        | cons s ss => cases h
    | str s =>
      simp only [toStringArray] at h
      cases hrest : toStringArray xs with
      | error e =>
        rw [hrest] at h
        cases h
      | ok rest =>
        rw [hrest] at h
        cases ss with
        | nil => cases h
        | cons s' ss =>
          have hcons : some s :: rest = some s' :: ss.map some := Except.ok.inj h
          obtain ⟨hs, hss⟩ := List.cons.inj hcons
          rw [ih (hss ▸ hrest), Option.some.inj hs, List.map_cons]

theorem ClaimsMap.get_of_find? {m : ClaimsMap} {k : String} {v : JavaValue}
    (h : m.find? k = some v) : m.get k = v := by
  simp [ClaimsMap.get, h]

theorem ClaimsMap.get_of_find?_none {m : ClaimsMap} {k : String} (h : m.find? k = none) :
    m.get k = .null := by
  simp [ClaimsMap.get, h]

theorem ClaimsMap.containsKey_of_get_ne_null {m : ClaimsMap} {k : String}
    (h : ClaimsMap.get m k ≠ .null) : m.containsKey k = true := by
  by_contra hkey
  rw [Bool.not_eq_true] at hkey
  exact h (ClaimsMap.get_of_find?_none (JavaMap.containsKey_eq_false.mp hkey))

/-- A lookup that depends on one key only sees the entry of that key. -/
theorem ClaimsMap.get_congr {m n : ClaimsMap} {k : String} (h : m.find? k = n.find? k) :
    m.get k = n.get k := by
  simp [ClaimsMap.get, h]

end Java
