import Mathlib.Data.List.Nodup

/-!
# Insertion-ordered sets

A duplicate-free list with the order of first insertion. Equality of two sets in the sense of their
elements is `Same`; it ignores the order.
-/

/-- A set that remembers the order in which its elements were first added. -/
structure LinkedHashSet (α : Type*) where
  /-- The elements in iteration order. -/
  toList : List α
  /-- No element is stored twice. -/
  nodup : toList.Nodup

namespace LinkedHashSet

variable {α β : Type*}

theorem toList_injective {s t : LinkedHashSet α} (h : s.toList = t.toList) : s = t := by
  obtain ⟨s, hs⟩ := s
  obtain ⟨t, ht⟩ := t
  cases h
  rfl

instance [DecidableEq α] : DecidableEq (LinkedHashSet α) := fun _ _ =>
  decidable_of_iff _ ⟨toList_injective, fun h => h ▸ rfl⟩

instance : EmptyCollection (LinkedHashSet α) := ⟨⟨[], List.nodup_nil⟩⟩

instance : Membership α (LinkedHashSet α) := ⟨fun s a => a ∈ s.toList⟩

instance [DecidableEq α] (a : α) (s : LinkedHashSet α) : Decidable (a ∈ s) :=
  inferInstanceAs (Decidable (a ∈ s.toList))

/-- The two sets have the same elements. -/
def Same (s t : LinkedHashSet α) : Prop := ∀ a, a ∈ s ↔ a ∈ t

/-- Whether the set has no element. -/
def isEmpty (s : LinkedHashSet α) : Bool := s.toList.isEmpty

/-- The set itself, or nothing when it is empty. -/
def nonEmpty? (s : LinkedHashSet α) : Option (LinkedHashSet α) := if s.isEmpty then none else some s

section Add

variable [DecidableEq α]

/-- Add an element at the end, unless it is present. -/
def add (s : LinkedHashSet α) (a : α) : LinkedHashSet α :=
  if h : a ∈ s.toList then s
  else ⟨s.toList ++ [a], by
    simpa [List.nodup_append, s.nodup] using fun b hb (e : b = a) => h (e ▸ hb)⟩

/-- Add every element of a list, in order. -/
def addAll (s : LinkedHashSet α) (l : List α) : LinkedHashSet α := l.foldl add s

/-- The set of the elements of a list, in the order of their first occurrence. -/
def ofList (l : List α) : LinkedHashSet α := addAll ∅ l

end Add

/-! ## Membership -/

theorem mem_toList {s : LinkedHashSet α} {a : α} : a ∈ s.toList ↔ a ∈ s := Iff.rfl

@[simp] theorem not_mem_empty (a : α) : a ∉ (∅ : LinkedHashSet α) := List.not_mem_nil

@[simp] theorem toList_empty : (∅ : LinkedHashSet α).toList = [] := rfl

theorem isEmpty_iff {s : LinkedHashSet α} : s.isEmpty = true ↔ s = ∅ := by
  rw [isEmpty, List.isEmpty_iff]
  exact ⟨fun h => toList_injective h, fun h => h ▸ rfl⟩

theorem Same.empty_iff {s t : LinkedHashSet α} (h : s.Same t) : s = ∅ ↔ t = ∅ := by
  rw [← isEmpty_iff, ← isEmpty_iff, isEmpty, isEmpty, List.isEmpty_iff, List.isEmpty_iff,
    List.eq_nil_iff_forall_not_mem, List.eq_nil_iff_forall_not_mem]
  exact forall_congr' fun a => not_congr (h a)

theorem nonEmpty?_of_ne {s : LinkedHashSet α} (h : s ≠ ∅) : s.nonEmpty? = some s := by
  have he : s.isEmpty = false := by
    rw [Bool.eq_false_iff]
    exact fun e => h (isEmpty_iff.mp e)
  simp [nonEmpty?, he]

theorem nonEmpty?_eq_none_iff {s : LinkedHashSet α} : s.nonEmpty? = none ↔ s = ∅ := by
  constructor
  · intro h
    by_contra hne
    rw [nonEmpty?_of_ne hne] at h
    cases h
  · rintro rfl
    rfl

section AddLemmas

variable [DecidableEq α]

@[simp] theorem mem_add {s : LinkedHashSet α} {a b : α} : b ∈ s.add a ↔ b ∈ s ∨ b = a := by
  unfold add
  split_ifs with h
  · exact ⟨Or.inl, fun hb => hb.elim id fun e => e ▸ h⟩
  · simp [← mem_toList]

@[simp] theorem mem_addAll {s : LinkedHashSet α} {l : List α} {b : α} :
    b ∈ s.addAll l ↔ b ∈ s ∨ b ∈ l := by
  unfold addAll
  induction l generalizing s with
  | nil => simp
  | cons a l ih =>
    rw [List.foldl_cons, ih, mem_add, List.mem_cons, or_assoc]

@[simp] theorem mem_ofList {l : List α} {b : α} : b ∈ ofList l ↔ b ∈ l := by
  simp [ofList]

/-- Adding the elements of a duplicate-free list that are all new appends the list. -/
theorem toList_addAll_of_nodup {s : LinkedHashSet α} {l : List α} (h : (s.toList ++ l).Nodup) :
    (s.addAll l).toList = s.toList ++ l := by
  unfold addAll
  induction l generalizing s with
  | nil => simp
  | cons a l ih =>
    have ha : a ∉ s.toList := fun hm =>
      (List.nodup_append.mp h).2.2 a hm a (List.mem_cons_self ..) rfl
    have hadd : (s.add a).toList = s.toList ++ [a] := by simp [add, ha]
    rw [List.foldl_cons, ih (by rw [hadd]; simpa using h), hadd]
    simp

/-- Copying a set gives the set back, in the same order. -/
@[simp] theorem ofList_toList (s : LinkedHashSet α) : ofList s.toList = s :=
  toList_injective (by rw [ofList, toList_addAll_of_nodup (by simpa using s.nodup)]; rfl)

end AddLemmas

end LinkedHashSet
