import Mathlib.Logic.Basic
import Mathlib.Tactic.SplitIfs

/-!
# Maps with bulk overwrites

A map is known by what it holds under each key, so two maps with the same entries are equal. `put`
and `putAll` overwrite, `putSome` writes only a present value. Maps need not be finite: every
statement about all of them covers the finite ones.
-/

/-- A map from `κ` to `ν`: `find? k` is the value stored under `k`, if `k` is a key. -/
@[ext]
structure JavaMap (κ ν : Type*) where
  /-- The value stored under a key. -/
  find? : κ → Option ν

namespace JavaMap

variable {κ ν : Type*}

instance : EmptyCollection (JavaMap κ ν) := ⟨⟨fun _ => none⟩⟩

/-- Whether `k` is a key of the map. -/
def containsKey (m : JavaMap κ ν) (k : κ) : Bool := (m.find? k).isSome

/-- Bulk overwrite: the entries of `n` replace those of `m`. -/
def putAll (m n : JavaMap κ ν) : JavaMap κ ν := ⟨fun k => (n.find? k).or (m.find? k)⟩

section Keys

variable [DecidableEq κ]

/-- Store `v` under `k`. -/
def put (m : JavaMap κ ν) (k : κ) (v : ν) : JavaMap κ ν :=
  ⟨fun i => if i = k then some v else m.find? i⟩

/-- Store `v` under `k` if there is a value, and leave the map alone otherwise. -/
def putSome (m : JavaMap κ ν) (k : κ) : Option ν → JavaMap κ ν
  | some v => m.put k v
  | none => m

/-- Store the entries one after another. -/
def puts (m : JavaMap κ ν) (entries : List (κ × ν)) : JavaMap κ ν :=
  entries.foldl (fun m e => m.put e.1 e.2) m

/-- Drop the entry of `k`. -/
def remove (m : JavaMap κ ν) (k : κ) : JavaMap κ ν :=
  ⟨fun i => if i = k then none else m.find? i⟩

end Keys

/-! ## Lookups -/

@[simp] theorem find?_empty (k : κ) : (∅ : JavaMap κ ν).find? k = none := rfl

@[simp] theorem find?_putAll (m n : JavaMap κ ν) (k : κ) :
    (m.putAll n).find? k = (n.find? k).or (m.find? k) := rfl

theorem containsKey_eq_true {m : JavaMap κ ν} {k : κ} :
    m.containsKey k = true ↔ ∃ v, m.find? k = some v := by
  simp [containsKey, Option.isSome_iff_exists]

theorem containsKey_eq_false {m : JavaMap κ ν} {k : κ} :
    m.containsKey k = false ↔ m.find? k = none := by
  simp [containsKey]

theorem containsKey_congr {m n : JavaMap κ ν} {k : κ} (h : m.find? k = n.find? k) :
    m.containsKey k = n.containsKey k := by
  simp [containsKey, h]

variable [DecidableEq κ]

@[simp] theorem find?_put (m : JavaMap κ ν) (k : κ) (v : ν) (i : κ) :
    (m.put k v).find? i = if i = k then some v else m.find? i := rfl

@[simp] theorem find?_remove (m : JavaMap κ ν) (k i : κ) :
    (m.remove k).find? i = if i = k then none else m.find? i := rfl

@[simp] theorem find?_putSome (m : JavaMap κ ν) (k : κ) (v : Option ν) (i : κ) :
    (m.putSome k v).find? i = if i = k then v.or (m.find? k) else m.find? i := by
  cases v with
  | none =>
    by_cases h : i = k
    · simp [putSome, h]
    · simp [putSome, h]
  | some v => simp [putSome]

end JavaMap
