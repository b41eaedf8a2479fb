import Mathlib.Data.Int.Order.Basic

/-!
# Proofs: whole seconds as 64-bit milliseconds

A time in milliseconds divided by 1000 rounds towards zero, so the seconds it leaves can be
multiplied by 1000 again without overflow.
-/

namespace Java

/-- A 64-bit time divided by 1000 rounds towards zero. -/
theorem toInt_div_1000 (ms : Int64) : (ms / 1000).toInt = ms.toInt.tdiv 1000 :=
  Int64.toInt_div_of_ne_right ms 1000 (by decide)

/-- Multiplying the seconds of a 64-bit time by 1000 does not overflow. -/
theorem toInt_seconds_mul (ms : Int64) :
    (ms / 1000 * 1000).toInt = ms.toInt.tdiv 1000 * 1000 := by
  have hlo := ms.le_toInt
  have hhi := ms.toInt_lt
  have h1000 : (1000 : Int64).toInt = 1000 := by decide
  rw [Int64.toInt_mul, toInt_div_1000, h1000]
  have habs : (ms.toInt.tdiv 1000).natAbs = ms.toInt.natAbs / 1000 := Int.natAbs_tdiv ms.toInt 1000
  refine Int.bmod_eq_of_le ?_ ?_
  · omega
  · omega

/-- Whole seconds survive the way to milliseconds and back. -/
theorem seconds_mul_div (ms : Int64) : ms / 1000 * 1000 / 1000 = ms / 1000 := by
  apply Int64.toInt.inj
  rw [toInt_div_1000, toInt_seconds_mul, toInt_div_1000, Int.mul_tdiv_cancel _ (by decide)]

/-- The seconds whose milliseconds are 64-bit numbers. -/
def FitsMillis (e : Int64) : Prop := -9223372036854775 ≤ e.toInt ∧ e.toInt ≤ 9223372036854775

instance (e : Int64) : Decidable (FitsMillis e) := inferInstanceAs (Decidable (_ ∧ _))

/-- The 64-bit product is the exact one for these seconds only. -/
theorem toInt_millis_iff (e : Int64) : (e * 1000).toInt = 1000 * e.toInt ↔ FitsMillis e := by
  unfold FitsMillis
  have h1000 : (1000 : Int64).toInt = 1000 := by decide
  constructor
  · intro h
    have hlo := (e * 1000).le_toInt
    have hhi := (e * 1000).toInt_lt
    omega
  · rintro ⟨hlo, hhi⟩
    rw [Int64.toInt_mul, h1000, Int.mul_comm]
    refine Int.bmod_eq_of_le ?_ ?_
    · omega
    · omega

/-- Only these seconds come back from the 64-bit milliseconds. -/
theorem millis_div_iff (e : Int64) : e * 1000 / 1000 = e ↔ FitsMillis e := by
  constructor
  · intro h
    have hdiv : e.toInt = (e * 1000).toInt.tdiv 1000 := by
      rw [← toInt_div_1000, h]
    have habs : ((e * 1000).toInt.tdiv 1000).natAbs = (e * 1000).toInt.natAbs / 1000 :=
      Int.natAbs_tdiv _ 1000
    have hlo := (e * 1000).le_toInt
    have hhi := (e * 1000).toInt_lt
    unfold FitsMillis
    omega
  · intro h
    apply Int64.toInt.inj
    rw [toInt_div_1000, (toInt_millis_iff e).mpr h, Int.mul_comm,
      Int.mul_tdiv_cancel _ (by decide)]

/-! ## Deadlines -/

theorem toInt_max (a b : Int64) : (max a b).toInt = max a.toInt b.toInt := by
  have hmax : max a b = if a ≤ b then b else a := rfl
  rw [hmax]
  split_ifs with h
  · exact (max_eq_right (Int64.le_iff_toInt_le.mp h)).symm
  · exact (max_eq_left (Int64.le_iff_toInt_le.mp (Int64.le_of_lt (Int64.not_le.mp h)))).symm

theorem tdiv_mul_le {x y : Int} (hx : x ≤ y) (hy : 0 ≤ y) : x.tdiv 1000 * 1000 ≤ y := by
  rcases Int.le_total 0 x with hpos | hneg
  · rw [Int.tdiv_eq_ediv_of_nonneg hpos]
    omega
  · have hquot : 0 ≤ (-x).tdiv 1000 := Int.tdiv_nonneg (by omega) (by decide)
    rw [Int.neg_tdiv] at hquot
    omega

/-- A deadline that went through seconds is no later than the exact one. -/
theorem deadline_le {now : Int64} (hnow : 0 ≤ now.toInt) {v : Int32} (hv : 0 < v.toInt) :
    ((now + v.toInt64 * 1000) / 1000 * 1000).toInt ≤ now.toInt + v.toInt * 1000 := by
  have h1000 : (1000 : Int64).toInt = 1000 := by decide
  have hvhi := v.toInt_lt
  have hhi := now.toInt_lt
  have hmul : (v.toInt64 * 1000).toInt = v.toInt * 1000 := by
    rw [Int64.toInt_mul, h1000, Int32.toInt_toInt64]
    refine Int.bmod_eq_of_le ?_ ?_
    · omega
    · omega
  rw [toInt_seconds_mul, Int64.toInt_add, hmul]
  -- a sum past the 64-bit range wraps around to a time in the past
  have hwrap : (now.toInt + v.toInt * 1000).bmod (2 ^ 64) ≤ now.toInt + v.toInt * 1000 := by
    rw [Int.bmod_def]
    split_ifs
    · omega
    · omega
  exact tdiv_mul_le hwrap (by omega)

end Java
