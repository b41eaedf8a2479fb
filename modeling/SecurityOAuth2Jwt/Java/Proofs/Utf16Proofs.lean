import SecurityOAuth2Jwt.Common.Proofs.OccurrenceProofs
import SecurityOAuth2Jwt.Common.Outcome
import SecurityOAuth2Jwt.Java.Utf16

/-!
# Proofs: strings as UTF-16 units

An index that is found in the lower-cased copy of a string is the length of the lower-cased part in
front of the first occurrence regardless of case. A substring from the front exists up to the length
of the string. The decimal text of an `int` is parsed back.
-/

namespace Java

open Occurrence

/-! ## Character data -/

namespace CharacterData

/-- Character data that behaves as documented: the ASCII letters, and the capital dotted I, whose
lower-case form has two units. -/
def reference : CharacterData where
  lower _ c _ :=
    if c = 0x130 then [0x69, 0x307] else if 0x41 ≤ c ∧ c ≤ 0x5A then [c + 32] else [c]
  digit c := if h : c.toNat - 0x30 < 10 then if 0x30 ≤ c then some ⟨c.toNat - 0x30, h⟩ else none
    else none

theorem reference_documented : reference.Documented where
  lower := {
    image_eq := by
      have hboth : plainLetters.all (fun a => decide (reference.lower [] a [] = [a] ∧
          reference.lower [] (a - 32) [] = [a])) = true := by decide
      rintro a ha before b after (rfl | rfl)
      · exact (of_decide_eq_true (List.all_eq_true.mp hboth b ha)).1
      · exact (of_decide_eq_true (List.all_eq_true.mp hboth a ha)).2
    stands := by
      intro a ha before b after hmem
      have hdot : plainLetters.all (fun a => decide (a ∉ ([0x69, 0x307] : Utf16))) = true := by
        decide
      simp only [reference] at hmem
      split_ifs at hmem with h₁ h₂
      · exact absurd hmem (of_decide_eq_true (List.all_eq_true.mp hdot a ha))
      · refine Or.inr ?_
        rw [List.mem_singleton.mp hmem, UInt16.add_sub_cancel]
      · exact Or.inl (List.mem_singleton.mp hmem).symm
    image_ne_nil := by
      intro a ha before b c after hb
      simp only [reference]
      split_ifs
      · simp
      · simp
      · simp }
  digit := by decide

end CharacterData

/-! ## Indices in the lower-cased copy -/

/-- Each unit of the string is a plain letter. -/
def IsPlain (s : Utf16) : Prop := s.all (fun a => decide (a ∈ plainLetters)) = true

instance (s : Utf16) : Decidable (IsPlain s) := inferInstanceAs (Decidable (_ = true))

theorem IsPlain.mem {s : Utf16} (h : IsPlain s) {a : UInt16} (ha : a ∈ s) : a ∈ plainLetters :=
  of_decide_eq_true (List.all_eq_true.mp h a ha)

/-- The length of the first `i` units of the string after lower-casing, each in its context. -/
def loweredLength (C : CharacterData) (s : Utf16) (i : Nat) : Nat :=
  (rewriteIn C.lower [] (s.take i) (s.drop i)).length

@[simp] theorem loweredLength_zero (C : CharacterData) (s : Utf16) : loweredLength C s 0 = 0 := by
  simp [loweredLength, rewriteIn]

theorem indexOf_toLowerCase {C : CharacterData} (hC : C.Documented) {word : Utf16}
    (hne : word ≠ []) (hword : IsPlain word) (s : Utf16) :
    indexOf (C.toLowerCase s) word =
      match firstMatch SameLetter word s with
      | some i => (loweredLength C s i : Int)
      | none => -1 := by
  have hfirst := firstMatch_rewriteIn hC.lower hne (fun a ha => hword.mem ha) [] s
  unfold indexOf CharacterData.toLowerCase
  rw [hfirst]
  cases firstMatch SameLetter word s with
  | none => rfl
  | some i => rfl

/-! ## Substrings -/

theorem substring_zero_ok_iff {s t : Utf16} {k : Nat} :
    substring s 0 k = .ok t ↔ k ≤ s.length ∧ t = s.take k := by
  unfold substring
  by_cases hk : k ≤ s.length
  · have hrange : (0 : Int) ≤ 0 ∧ (0 : Int) ≤ k ∧ (k : Int) ≤ s.length := by omega
    rw [if_pos hrange]
    simp [hk, eq_comm]
  · have hrange : ¬ ((0 : Int) ≤ 0 ∧ (0 : Int) ≤ k ∧ (k : Int) ≤ s.length) := by omega
    rw [if_neg hrange]
    simp [hk]

theorem substring_first_ok_iff {s t : Utf16} :
    substring s 0 1 = .ok t ↔ ∃ c rest, s = c :: rest ∧ t = [c] := by
  have hone : substring s 0 1 = substring s 0 ((1 : Nat) : Int) := rfl
  rw [hone, substring_zero_ok_iff]
  cases s with
  | nil => simp
  | cons c rest => simp

theorem substring_rest (c : UInt16) (rest : Utf16) :
    substring (c :: rest) 1 (c :: rest).length = .ok rest := by
  have hrange : (0 : Int) ≤ 1 ∧ (1 : Int) ≤ (c :: rest).length ∧
      ((c :: rest).length : Int) ≤ (c :: rest).length := by
    rw [List.length_cons]
    omega
  rw [substring, if_pos hrange]
  simp

/-! ## Decimal texts -/

theorem number_digits {C : CharacterData} (hC : C.Documented) {ds : List Nat}
    (hds : ∀ d ∈ ds, d < 10) :
    C.number (ds.reverse.map digitUnit) = some (Nat.ofDigits 10 ds) := by
  induction ds with
  | nil => rfl
  | cons d ds ih =>
    have hd : d < 10 := hds d (List.mem_cons_self ..)
    have hrest := ih fun x hx => hds x (List.mem_cons_of_mem _ hx)
    have hdigit : C.digit (digitUnit d) = some ⟨d, hd⟩ := hC.digit ⟨d, hd⟩
    unfold CharacterData.number at hrest ⊢
    rw [List.reverse_cons, List.map_append, List.foldlM_append, hrest]
    simp [hdigit, Nat.ofDigits_cons, Nat.add_comm]

theorem number_decimal {C : CharacterData} (hC : C.Documented) (n : Nat) :
    C.number (decimal n) = some n := by
  unfold decimal
  by_cases hn : n = 0
  · subst hn
    have hzero : C.number ([0].reverse.map digitUnit) = some (Nat.ofDigits 10 [0]) :=
      number_digits hC (by simp)
    simpa using hzero
  · rw [if_neg hn, number_digits hC fun d hd => Nat.digits_lt_base (by omega) hd,
      Nat.ofDigits_digits]

/-- A decimal text begins with a digit, so not with a sign. -/
theorem decimal_eq_cons (n : Nat) : ∃ d rest, d < 10 ∧ decimal n = digitUnit d :: rest := by
  unfold decimal
  by_cases hn : n = 0
  · exact ⟨0, [], by omega, by rw [if_pos hn]⟩
  · have hne : (Nat.digits 10 n).reverse ≠ [] := by
      simpa using Nat.digits_ne_nil_iff_ne_zero.mpr hn
    obtain ⟨d, rest, hd⟩ := List.exists_cons_of_ne_nil hne
    have hmem : d ∈ Nat.digits 10 n := by
      rw [← List.mem_reverse, hd]
      exact List.mem_cons_self ..
    refine ⟨d, rest.map digitUnit, Nat.digits_lt_base (by omega) hmem, ?_⟩
    rw [if_neg hn, hd, List.map_cons]

theorem signed_decimal {C : CharacterData} (hC : C.Documented) {negative : Bool} {n : Nat}
    {value : Int32} (hvalue : (if negative then -(n : Int) else n) = value.toInt) :
    C.signed negative (decimal n) = .ok value := by
  have hlow := Int32.le_toInt value
  have hhigh := Int32.toInt_lt value
  obtain ⟨d, rest, -, hdecimal⟩ := decimal_eq_cons n
  have hnumber := number_decimal hC n
  rw [hdecimal] at hnumber ⊢
  simp only [CharacterData.signed, hnumber, hvalue]
  rw [if_pos ⟨hlow, hhigh⟩, Int32.ofInt_toInt]

/-- The decimal text of an `int` is parsed back. -/
theorem parseInt_intToString {C : CharacterData} (hC : C.Documented) (n : Int32) :
    C.parseInt (intToString n) = .ok n := by
  unfold intToString CharacterData.parseInt
  by_cases hneg : n.toInt < 0
  · have hminus : [0x2D] <+: lit "-" ++ decimal n.toInt.natAbs := by simp [lit]
    have htail : (lit "-" ++ decimal n.toInt.natAbs).tail = decimal n.toInt.natAbs := by simp [lit]
    have habs : -(n.toInt.natAbs : Int) = n.toInt := by omega
    rw [if_pos hneg, if_pos hminus, htail]
    exact signed_decimal hC ((if_pos rfl).trans habs)
  · obtain ⟨d, rest, hd, hdecimal⟩ := decimal_eq_cons n.toInt.natAbs
    have hsign : ∀ d < 10, digitUnit d ≠ 0x2D ∧ digitUnit d ≠ 0x2B := by decide
    have hminus : ¬ [0x2D] <+: decimal n.toInt.natAbs := by
      simpa [hdecimal] using (hsign d hd).1.symm
    have hplus : ¬ [0x2B] <+: decimal n.toInt.natAbs := by
      simpa [hdecimal] using (hsign d hd).2.symm
    have habs : (n.toInt.natAbs : Int) = n.toInt := by omega
    rw [if_neg hneg, if_neg hminus, if_neg hplus]
    exact signed_decimal hC ((if_neg Bool.false_ne_true).trans habs)

end Java
