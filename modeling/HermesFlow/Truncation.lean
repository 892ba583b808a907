import Mathlib.Algebra.Order.Floor.Ring
import Mathlib.Tactic.Linarith

/-!
# Conversion to integers

A number is converted to an integer toward zero. The language defines the
conversion when the result is in the range of the integer type; out of the range
it is what x86 makes of it.
-/

namespace HermesFlow.Truncation

variable {K : Type*} [Field K] [LinearOrder K] [FloorRing K]

/-- The conversion toward zero. -/
def toInt (x : K) : ℤ := if 0 ≤ x then ⌊x⌋ else ⌈x⌉

/-- Numbers that are not negative are truncated downwards. -/
theorem toInt_of_nonneg {x : K} (h : 0 ≤ x) : toInt x = ⌊x⌋ := if_pos h

/-- Negative numbers are truncated upwards. -/
theorem toInt_of_neg {x : K} (h : x < 0) : toInt x = ⌈x⌉ := if_neg h.not_ge

/-- Truncation is monotone. -/
theorem toInt_mono {x y : K} (h : x ≤ y) : toInt x ≤ toInt y := by
  rcases lt_or_ge y 0 with hy | hy
  · rw [toInt_of_neg hy, toInt_of_neg (h.trans_lt hy)]
    exact Int.ceil_mono h
  · rw [toInt_of_nonneg hy]
    rcases lt_or_ge x 0 with hx | hx
    · rw [toInt_of_neg hx]
      have hceil : ⌈x⌉ ≤ 0 := Int.ceil_nonpos.mpr hx.le
      exact hceil.trans (Int.floor_nonneg.mpr hy)
    · rw [toInt_of_nonneg hx]
      exact Int.floor_mono h

/-- The range of a signed integer type of `w + 1` bits. -/
def InSigned (w : ℕ) (n : ℤ) : Prop := -2 ^ w ≤ n ∧ n < 2 ^ w

/-- The range of an unsigned integer type. -/
def InUnsigned (w : ℕ) (n : ℤ) : Prop := 0 ≤ n ∧ n < 2 ^ w

instance (w : ℕ) (n : ℤ) : Decidable (InSigned w n) := inferInstanceAs (Decidable (_ ∧ _))

instance (w : ℕ) (n : ℤ) : Decidable (InUnsigned w n) := inferInstanceAs (Decidable (_ ∧ _))

/-- The conversion to a signed type: out of the range it gives the least value. -/
def toSigned (w : ℕ) (x : K) : ℤ := if InSigned w (toInt x) then toInt x else -2 ^ w

/-- The conversion of a number that is not negative to an unsigned type: above the range
it gives zero. -/
def toUnsigned (w : ℕ) (x : K) : ℤ := if InUnsigned w (toInt x) then toInt x else 0

/-- In the range of the type a conversion is the conversion toward zero. -/
theorem toSigned_of_inSigned {w : ℕ} {x : K} (h : InSigned w (toInt x)) : toSigned w x = toInt x :=
  if_pos h

/-- So it is for an unsigned type. -/
theorem toUnsigned_of_inUnsigned {w : ℕ} {x : K} (h : InUnsigned w (toInt x)) :
    toUnsigned w x = toInt x :=
  if_pos h

/-- A conversion that gives a positive number was in the range. -/
theorem inSigned_of_toSigned_pos {w : ℕ} {x : K} (h : 0 < toSigned w x) : InSigned w (toInt x) := by
  by_contra hout
  have hpow : (0 : ℤ) < 2 ^ w := by positivity
  rw [toSigned, if_neg hout] at h
  omega

variable [IsStrictOrderedRing K]

/-- An integer is kept. -/
@[simp] theorem toInt_intCast (k : ℤ) : toInt (k : K) = k := by
  unfold toInt
  rw [Int.floor_intCast, Int.ceil_intCast, ite_self]

/-- A bound above zero is not passed by the conversion. -/
theorem toInt_lt_iff {x : K} {k : ℤ} (hk : 0 < k) : toInt x < k ↔ x < k := by
  rcases lt_or_ge x 0 with hx | hx
  · have hceil : ⌈x⌉ ≤ 0 := Int.ceil_nonpos.mpr hx.le
    have hcast : (0 : K) < k := by exact_mod_cast hk
    rw [toInt_of_neg hx]
    exact iff_of_true (by omega) (hx.trans hcast)
  · rw [toInt_of_nonneg hx, Int.floor_lt]

/-- A bound that is not above zero is passed by less than one. -/
theorem le_toInt_iff {x : K} {k : ℤ} (hk : k ≤ 0) : k ≤ toInt x ↔ k - 1 < x := by
  rcases lt_or_ge x 0 with hx | hx
  · rw [toInt_of_neg hx, Int.le_ceil_iff]
  · have hfloor : 0 ≤ ⌊x⌋ := Int.floor_nonneg.mpr hx
    have hcast : (k : K) ≤ 0 := by exact_mod_cast hk
    rw [toInt_of_nonneg hx]
    exact iff_of_true (by omega) (by linarith)

/-- The numbers whose conversions are in the range of a signed type. -/
theorem inSigned_toInt_iff {w : ℕ} {x : K} :
    InSigned w (toInt x) ↔ -2 ^ w - 1 < x ∧ x < 2 ^ w := by
  have hpow : (0 : ℤ) < 2 ^ w := by positivity
  rw [InSigned, toInt_lt_iff hpow, le_toInt_iff (by omega)]
  push_cast
  exact Iff.rfl

end HermesFlow.Truncation
