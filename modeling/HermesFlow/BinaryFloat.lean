import Mathlib.Algebra.Order.Floor.Ring
import Mathlib.Data.Int.Log
import Mathlib.Data.Rat.Floor
import Mathlib.Tactic.Linarith
import Mathlib.Tactic.Positivity
import Mathlib.Tactic.Ring
import Mathlib.Tactic.FieldSimp

/-!
# Binary floating-point formats

Rounding of numbers to the nearest value of a binary format, ties to even.
A format has a precision in bits and a least exponent; the largest finite value
is dealt with by the arithmetic that uses the format.
-/

namespace HermesFlow.BinaryFloat

variable {K : Type*} [Field K] [LinearOrder K] [FloorRing K]

/-- The nearest integer, of two the even one. -/
def roundEven (q : K) : ℤ :=
  if q - ⌊q⌋ < 1 / 2 then ⌊q⌋
  else if 1 / 2 < q - ⌊q⌋ then ⌊q⌋ + 1
  else if ⌊q⌋ % 2 = 0 then ⌊q⌋ else ⌊q⌋ + 1

/-- Rounding is not below the floor. -/
theorem floor_le_roundEven (q : K) : ⌊q⌋ ≤ roundEven q := by
  unfold roundEven
  split_ifs <;> omega

/-- Rounding is at most one above the floor. -/
theorem roundEven_le (q : K) : roundEven q ≤ ⌊q⌋ + 1 := by
  unfold roundEven
  split_ifs <;> omega

variable [IsStrictOrderedRing K]

/-- An integer rounds to itself. -/
@[simp] theorem roundEven_intCast (k : ℤ) : roundEven (k : K) = k := by
  unfold roundEven
  rw [Int.floor_intCast, sub_self, if_pos (by norm_num)]

/-- Rounding to even is monotone. -/
theorem roundEven_mono {x y : K} (h : x ≤ y) : roundEven x ≤ roundEven y := by
  rcases (Int.floor_le_floor h).lt_or_eq with hlt | heq
  · have hx := roundEven_le x
    have hy := floor_le_roundEven y
    omega
  · unfold roundEven
    rw [heq]
    have hle : x - ⌊y⌋ ≤ y - ⌊y⌋ := by linarith
    by_cases hy : y - ⌊y⌋ < 1 / 2
    · rw [if_pos hy, if_pos (lt_of_le_of_lt hle hy)]
    · rw [if_neg hy]
      by_cases hx : 1 / 2 < x - ⌊y⌋
      · rw [if_neg (not_lt.mpr hx.le), if_pos hx, if_pos (lt_of_lt_of_le hx hle)]
      · rw [if_neg hx]
        split_ifs <;> omega

/-- An integer that is nearer than the half, or that is even, is the nearest one. -/
theorem roundEven_eq {q : K} {m : ℤ} (h : |q - m| ≤ 1 / 2) (heven : |q - m| = 1 / 2 → m % 2 = 0) :
    roundEven q = m := by
  obtain ⟨hlow, hhigh⟩ := abs_le.mp h
  rcases le_or_gt (m : K) q with hle | hgt
  · have hfloor : ⌊q⌋ = m := Int.floor_eq_iff.mpr ⟨hle, by linarith⟩
    rw [abs_of_nonneg (sub_nonneg.mpr hle)] at heven
    unfold roundEven
    rw [hfloor]
    rcases hhigh.lt_or_eq with hlt | heq
    · rw [if_pos hlt]
    · rw [if_neg heq.not_lt, if_neg heq.not_gt, if_pos (heven heq)]
  · have hcast : (((m - 1 : ℤ)) : K) = m - 1 := by push_cast; rfl
    have hfloor : ⌊q⌋ = m - 1 := Int.floor_eq_iff.mpr ⟨by linarith, by linarith⟩
    rw [abs_of_neg (sub_neg.mpr hgt)] at heven
    unfold roundEven
    rw [hfloor, hcast, if_neg (by linarith), sub_add_cancel]
    split_ifs with hnear hodd
    · rfl
    · have hpar := heven (by linarith)
      omega
    · rfl

/-- Powers of two are positive. -/
theorem two_zpow_pos (e : ℤ) : (0 : K) < 2 ^ e := zpow_pos two_pos e

/-- Rounding to a multiple of a power of two. -/
def roundAt (e : ℤ) (q : K) : K := roundEven (q / 2 ^ e) * 2 ^ e

/-- Rounding at an exponent is monotone. -/
theorem roundAt_mono (e : ℤ) {x y : K} (h : x ≤ y) : roundAt e x ≤ roundAt e y := by
  have hround := roundEven_mono (div_le_div_of_nonneg_right h (two_zpow_pos e).le)
  exact mul_le_mul_of_nonneg_right (by exact_mod_cast hround) (two_zpow_pos e).le

/-- Multiples of a larger power of two are kept. -/
theorem roundAt_of_multiple {e e' : ℤ} (h : e ≤ e') (m : ℤ) :
    roundAt e ((m : K) * 2 ^ e') = m * 2 ^ e' := by
  obtain ⟨k, rfl⟩ := Int.le.dest h
  have hpow : (2 : K) ^ e ≠ 0 := (two_zpow_pos e).ne'
  have hmul : (m : K) * 2 ^ (e + k) = ((m * 2 ^ k : ℤ) : K) * 2 ^ e := by
    rw [zpow_add₀ two_ne_zero, zpow_natCast]
    push_cast
    ring
  rw [roundAt, hmul, mul_div_cancel_right₀ _ hpow, roundEven_intCast]

/-- A power of two is its own rounding at every exponent that is not larger. -/
theorem roundAt_zpow {e e' : ℤ} (h : e ≤ e') : roundAt e ((2 : K) ^ e') = 2 ^ e' := by
  have hone := roundAt_of_multiple h 1 (K := K)
  rw [Int.cast_one, one_mul] at hone
  exact hone

/-- Zero rounds to itself. -/
@[simp] theorem roundAt_zero (e : ℤ) : roundAt e (0 : K) = 0 := by
  have hzero := roundAt_of_multiple le_rfl 0 (K := K) (e := e)
  rw [Int.cast_zero, zero_mul] at hzero
  exact hzero

/-- A binary format: the bits of a significand and the exponent of the least step. -/
structure Format where
  /-- The bits of a significand. -/
  precision : ℕ
  /-- The exponent of the least step. -/
  minExp : ℤ
  /-- A significand has a bit. -/
  precision_pos : 0 < precision

/-- The format of a single-precision number. -/
def binary32 : Format := ⟨24, -149, by decide⟩

/-- The format of a double-precision number. -/
def binary64 : Format := ⟨53, -1074, by decide⟩

/-- The exponent of the last bit of a positive number. -/
def Format.lastBit (f : Format) (q : K) : ℤ := max (Int.log 2 q + 1 - f.precision) f.minExp

/-- Rounding of a number that is not negative. -/
def Format.roundAbs (f : Format) (q : K) : K := roundAt (f.lastBit q) q

/-- The nearest value of the format, as if its exponents had no upper bound. -/
def Format.round (f : Format) (q : K) : K := if q < 0 then -f.roundAbs (-q) else f.roundAbs q

section Rounding

variable (f : Format)

/-- Zero rounds to itself. -/
@[simp] theorem roundAbs_zero : f.roundAbs (0 : K) = 0 := roundAt_zero _

/-- A magnitude stays one. -/
theorem roundAbs_nonneg {q : K} (hq : 0 ≤ q) : 0 ≤ f.roundAbs q := by
  have hround := roundAt_mono (f.lastBit q) hq
  rw [roundAt_zero] at hround
  exact hround

/-- The last bit of a larger number is not smaller. -/
theorem lastBit_mono {x y : K} (hx : 0 < x) (h : x ≤ y) : f.lastBit x ≤ f.lastBit y := by
  have hlog := Int.log_mono_right (b := 2) hx h
  unfold Format.lastBit
  omega

/-- A number is below the power of two above its significand. -/
theorem lt_lastBit (q : K) : q < 2 ^ (f.lastBit q + f.precision) := by
  have hlog := Int.lt_zpow_succ_log_self (b := 2) one_lt_two q
  have hle : Int.log 2 q + 1 ≤ f.lastBit q + f.precision := by
    unfold Format.lastBit
    omega
  refine lt_of_lt_of_le hlog ?_
  rw [Nat.cast_ofNat]
  exact zpow_le_zpow_right₀ one_le_two hle

/-- A number whose last bit is above the least one fills the significand. -/
theorem le_of_minExp_lt {q : K} (hq : 0 < q) (h : f.minExp < f.lastBit q) :
    2 ^ (f.lastBit q + f.precision - 1) ≤ q := by
  have hlog := Int.zpow_log_le_self (b := 2) one_lt_two hq
  have heq : f.lastBit q + f.precision - 1 = Int.log 2 q := by
    unfold Format.lastBit at h ⊢
    omega
  rw [heq]
  rw [Nat.cast_ofNat] at hlog
  exact hlog

/-- Numbers with the same last bit keep their order. Between two with different
last bits lies a power of two, which is rounded with both. -/
theorem roundAbs_mono {x y : K} (hx : 0 ≤ x) (h : x ≤ y) : f.roundAbs x ≤ f.roundAbs y := by
  rcases hx.eq_or_lt with rfl | hx
  · rw [roundAbs_zero]
    exact roundAbs_nonneg f h
  rcases (lastBit_mono f hx h).eq_or_lt with heq | hlt
  · rw [Format.roundAbs, Format.roundAbs, heq]
    exact roundAt_mono _ h
  · have hpos := f.precision_pos
    have hmin : f.minExp < f.lastBit y := lt_of_le_of_lt (le_max_right _ _) hlt
    have hbelow : x ≤ 2 ^ (f.lastBit y + f.precision - 1) :=
      (lt_lastBit f x).le.trans (zpow_le_zpow_right₀ one_le_two (by omega))
    calc f.roundAbs x ≤ roundAt (f.lastBit x) (2 ^ (f.lastBit y + f.precision - 1)) :=
          roundAt_mono _ hbelow
      _ = roundAt (f.lastBit y) (2 ^ (f.lastBit y + f.precision - 1)) := by
          rw [roundAt_zpow (by omega), roundAt_zpow (by omega)]
      _ ≤ f.roundAbs y := roundAt_mono _ (le_of_minExp_lt f (hx.trans_le h) hmin)

/-- Rounding is symmetric about zero. -/
@[simp] theorem round_neg (q : K) : f.round (-q) = -f.round q := by
  rcases lt_trichotomy q 0 with h | rfl | h
  · rw [Format.round, if_neg (by linarith), Format.round, if_pos h, neg_neg]
  · simp [Format.round]
  · rw [Format.round, if_pos (by linarith), neg_neg, Format.round, if_neg (by linarith)]

omit [IsStrictOrderedRing K] in
/-- A number that is not negative is rounded as a magnitude. -/
theorem round_of_nonneg {q : K} (hq : 0 ≤ q) : f.round q = f.roundAbs q :=
  if_neg (not_lt.mpr hq)

/-- Rounding keeps the order. -/
theorem round_mono {x y : K} (h : x ≤ y) : f.round x ≤ f.round y := by
  by_cases hx : 0 ≤ x
  · rw [round_of_nonneg f hx, round_of_nonneg f (hx.trans h)]
    exact roundAbs_mono f hx h
  · rw [Format.round, if_pos (not_le.mp hx)]
    by_cases hy : 0 ≤ y
    · rw [round_of_nonneg f hy]
      have hneg := roundAbs_nonneg f (q := -x) (by linarith)
      have hpos := roundAbs_nonneg f hy
      linarith
    · rw [Format.round, if_pos (not_le.mp hy)]
      exact neg_le_neg (roundAbs_mono f (by linarith) (by linarith))

/-- Below a bound a number is rounded below what the bound is rounded to. -/
theorem round_le_of_le {c r q : K} (hc : f.round c = r) (h : q ≤ c) : f.round q ≤ r := by
  rw [← hc]
  exact round_mono f h

/-- A lower bound is rounded to a lower bound. -/
theorem neg_le_round_of_neg_le {c r q : K} (hc : f.round c = r) (h : -c ≤ q) :
    -r ≤ f.round q := by
  rw [← hc, ← round_neg]
  exact round_mono f h

/-- An upper bound below zero is rounded to an upper bound. -/
theorem round_le_neg_of_le_neg {c r q : K} (hc : f.round c = r) (h : q ≤ -c) :
    f.round q ≤ -r := by
  rw [← hc, ← round_neg]
  exact round_mono f h

/-- A number with a significand of the precision and an exponent of the format is a
value of the format. -/
theorem round_natCast_mul {m : ℕ} {e : ℤ} (hm : m < 2 ^ f.precision) (he : f.minExp ≤ e) :
    f.round ((m : K) * 2 ^ e) = m * 2 ^ e := by
  rcases Nat.eq_zero_or_pos m with rfl | hpos
  · simp [Format.round]
  have hcast : (0 : K) < m := Nat.cast_pos.mpr hpos
  have hq : (0 : K) < m * 2 ^ e := mul_pos hcast (two_zpow_pos e)
  have hbits : (m : K) < 2 ^ (f.precision : ℤ) := by
    rw [zpow_natCast]
    exact_mod_cast hm
  have hlog : Int.log 2 ((m : K) * 2 ^ e) < f.precision + e := by
    rw [← Int.lt_zpow_iff_log_lt one_lt_two hq, Nat.cast_ofNat, zpow_add₀ two_ne_zero]
    exact mul_lt_mul_of_pos_right hbits (two_zpow_pos e)
  have hlast : f.lastBit ((m : K) * 2 ^ e) ≤ e := by
    unfold Format.lastBit
    omega
  rw [round_of_nonneg f hq.le, Format.roundAbs]
  have hround := roundAt_of_multiple (K := K) hlast m
  rw [Int.cast_natCast] at hround
  exact hround

/-- A multiple of the last bit that is nearer than its half, or that is even, is the
nearest value. -/
theorem round_eq_of_near {q : K} {m e : ℤ} (hmin : f.minExp ≤ e)
    (hlow : 2 ^ (e + f.precision - 1) ≤ q) (hhigh : q < 2 ^ (e + f.precision))
    (hnear : |q - m * 2 ^ e| ≤ 2 ^ e / 2) (heven : |q - m * 2 ^ e| = 2 ^ e / 2 → m % 2 = 0) :
    f.round q = m * 2 ^ e := by
  have hpow : (0 : K) < 2 ^ e := two_zpow_pos e
  have hq : 0 < q := (two_zpow_pos _).trans_le hlow
  have hlog : Int.log 2 q = e + f.precision - 1 := by
    have hle := (Int.zpow_le_iff_le_log one_lt_two hq).mp (by rwa [Nat.cast_ofNat])
    have hlt := (Int.lt_zpow_iff_log_lt one_lt_two hq).mp (by rwa [Nat.cast_ofNat])
    omega
  have hlast : f.lastBit q = e := by
    unfold Format.lastBit
    omega
  have hdist : |q / 2 ^ e - m| * 2 ^ e = |q - m * 2 ^ e| := by
    rw [← abs_of_pos hpow, ← abs_mul, abs_of_pos hpow, sub_mul, div_mul_cancel₀ _ hpow.ne']
  have hround : roundEven (q / 2 ^ e) = m := by
    refine roundEven_eq ?_ fun heq => heven ?_
    · rw [← mul_le_mul_iff_of_pos_right hpow, hdist]
      linarith
    · rw [← hdist, heq]
      ring
  rw [round_of_nonneg f hq.le, Format.roundAbs, hlast, roundAt, hround]

/-- The integers up to the power of two above the significand are values of a format
that has integers. -/
theorem round_natCast {n : ℕ} (hmin : f.minExp ≤ 0) (hn : n ≤ 2 ^ f.precision) :
    f.round (n : K) = n := by
  rcases hn.lt_or_eq with hlt | rfl
  · have hround := round_natCast_mul (K := K) f hlt hmin
    rw [zpow_zero, mul_one] at hround
    exact hround
  · have hone : 1 < 2 ^ f.precision := Nat.one_lt_two_pow f.precision_pos.ne'
    have hround := round_natCast_mul (K := K) f (e := f.precision) hone (hmin.trans (by omega))
    rw [Nat.cast_one, one_mul, zpow_natCast] at hround
    push_cast
    exact hround

/-- An integer that the significand holds rounds to itself. -/
theorem round_intCast {k : ℤ} (hmin : f.minExp ≤ 0) (hk : k.natAbs ≤ 2 ^ f.precision) :
    f.round (k : K) = k := by
  have hnat := round_natCast (K := K) f hmin hk
  rcases Int.natAbs_eq k with h | h
  · rw [h, Int.cast_natCast]
    exact hnat
  · rw [h, Int.cast_neg, Int.cast_natCast, round_neg, hnat]

end Rounding

end HermesFlow.BinaryFloat
