import HermesFlow.BinaryFloat
import HermesFlow.Truncation
import Mathlib.Tactic.NormNum

/-!
# Single precision

The numbers of `binary32` with infinities and NaN. An operation is the exact one,
rounded; a result that is rounded to `2^128` or more is infinite. Zeros have no sign.
-/

namespace HermesFlow.BinaryFloat

/-- A number in single precision. -/
inductive Single (K : Type*) where
  | nan
  | inf (negative : Bool)
  | num (q : K)

namespace Single

variable {K : Type*} [Field K] [LinearOrder K] [FloorRing K]

/-- The nearest number, or an infinity. -/
def ofReal (q : K) : Single K :=
  if |binary32.round q| < ((2 ^ 128 : ℕ) : K) then .num (binary32.round q)
  else .inf (decide (q < 0))

/-- The negative. -/
def neg : Single K → Single K
  | .nan => .nan
  | .inf negative => .inf !negative
  | .num q => .num (-q)

/-- The sum. -/
def add : Single K → Single K → Single K
  | .num p, .num q => ofReal (p + q)
  | .inf s, .inf t => if s = t then .inf s else .nan
  | .inf s, .num _ => .inf s
  | .num _, .inf s => .inf s
  | .nan, _ => .nan
  | _, .nan => .nan

/-- The difference. -/
def sub (x y : Single K) : Single K := add x (neg y)

/-- The product. -/
def mul : Single K → Single K → Single K
  | .num p, .num q => ofReal (p * q)
  | .inf s, .inf t => .inf (s != t)
  | .inf s, .num q => if q = 0 then .nan else .inf (s != decide (q < 0))
  | .num q, .inf s => if q = 0 then .nan else .inf (s != decide (q < 0))
  | .nan, _ => .nan
  | _, .nan => .nan

/-- The quotient. -/
def div : Single K → Single K → Single K
  | .num p, .num q =>
    if q = 0 then if p = 0 then .nan else .inf (decide (p < 0)) else ofReal (p / q)
  | .inf _, .inf _ => .nan
  | .inf s, .num q => .inf (s != decide (q < 0))
  | .num _, .inf _ => .num 0
  | .nan, _ => .nan
  | _, .nan => .nan

/-- The magnitude. -/
def abs : Single K → Single K
  | .nan => .nan
  | .inf _ => .inf false
  | .num q => .num |q|

/-- The strict comparison; nothing compares with what is not a number. -/
def lt : Single K → Single K → Bool
  | .num p, .num q => decide (p < q)
  | .inf s, .inf t => s && !t
  | .inf s, .num _ => s
  | .num _, .inf s => !s
  | .nan, _ => false
  | _, .nan => false

/-- The comparison. -/
def le : Single K → Single K → Bool
  | .num p, .num q => decide (p ≤ q)
  | .inf s, .inf t => s || !t
  | .inf s, .num _ => s
  | .num _, .inf s => !s
  | .nan, _ => false
  | _, .nan => false

/-- The conversion toward zero. That of an infinity and of NaN is undefined. -/
def toInt : Single K → ℤ
  | .num q => Truncation.toInt q
  | .inf _ => 0
  | .nan => 0

/-- A number, or minus infinity, up to a bound. -/
def AtMost (c : K) : Single K → Prop
  | .num q => q ≤ c
  | .inf negative => negative = true
  | .nan => False

/-- A number, or infinity, from a bound on. -/
def AtLeast (c : K) : Single K → Prop
  | .num q => c ≤ q
  | .inf negative => negative = false
  | .nan => False

/-- A number between two integers. -/
def Between (a b : ℤ) (x : Single K) : Prop := ∃ q, x = .num q ∧ (a : K) ≤ q ∧ q ≤ b

/-- The difference of two numbers is rounded once. -/
theorem sub_num (p q : K) : sub (.num p) (.num q) = ofReal (p - q) := by
  rw [sub_eq_add_neg]
  rfl

variable [IsStrictOrderedRing K]

/-- Integers of 24 bits are single floats. -/
theorem binary32_round_intCast {k : ℤ} (hk : k.natAbs ≤ 2 ^ 24) : binary32.round (k : K) = k :=
  round_intCast binary32 (by decide) hk

/-- The nearest number of the format among those with 24 bits and a given last one. -/
theorem binary32_round_eq {q r : K} (m : ℤ) (e : ℕ) (hr : m * 2 ^ e = r) (hlow : 2 ^ (e + 23) ≤ q)
    (hhigh : q < 2 ^ (e + 24)) (hnear : |q - r| ≤ 2 ^ e / 2)
    (heven : |q - r| = 2 ^ e / 2 → m % 2 = 0) : binary32.round q = r := by
  subst hr
  have hmin : binary32.minExp ≤ (e : ℤ) := (by decide : binary32.minExp ≤ 0).trans (by omega)
  have hexp : (e : ℤ) + binary32.precision - 1 = ((e + 23 : ℕ) : ℤ) := by
    change (e : ℤ) + 24 - 1 = _
    omega
  have hexp' : (e : ℤ) + binary32.precision = ((e + 24 : ℕ) : ℤ) := by
    change (e : ℤ) + 24 = _
    omega
  have hround := round_eq_of_near binary32 (q := q) (m := m) hmin
  rw [hexp, hexp'] at hround
  simp only [zpow_natCast] at hround
  exact hround hlow hhigh hnear heven

/-- A number that is not large is rounded and stays finite. -/
theorem ofReal_eq_num {q : K} (h : |q| ≤ 2 ^ 127) : ofReal q = .num (binary32.round q) := by
  have hround : binary32.round ((2 : K) ^ 127) = 2 ^ 127 := by
    have hvalue := round_natCast_mul (K := K) binary32 (m := 1) (e := (127 : ℕ)) (by decide)
      (by decide)
    rw [Nat.cast_one, one_mul, zpow_natCast] at hvalue
    exact hvalue
  obtain ⟨hlow, hhigh⟩ := abs_le.mp h
  have hlow' := neg_le_round_of_neg_le binary32 hround hlow
  have hhigh' := round_le_of_le binary32 hround hhigh
  have hlt : (2 : K) ^ 127 < ((2 ^ 128 : ℕ) : K) := by norm_num
  rw [ofReal, if_pos ((abs_le.mpr ⟨hlow', hhigh'⟩).trans_lt hlt)]

/-- Between two integers of the format a number is rounded between them. -/
theorem ofReal_between {q : K} {a b : ℤ} (ha : a.natAbs ≤ 2 ^ 24) (hb : b.natAbs ≤ 2 ^ 24)
    (hq : (a : K) ≤ q ∧ q ≤ b) : Between a b (ofReal q) := by
  have hcast {k : ℤ} (hk : k.natAbs ≤ 2 ^ 24) : |(k : K)| ≤ 2 ^ 127 := by
    have hle : (2 : K) ^ 24 ≤ 2 ^ 127 := pow_le_pow_right₀ one_le_two (by norm_num)
    refine le_trans ?_ hle
    rw [← Int.cast_abs, Int.abs_eq_natAbs]
    exact_mod_cast hk
  have habs : |q| ≤ 2 ^ 127 :=
    abs_le.mpr ⟨(abs_le.mp (hcast ha)).1.trans hq.1, hq.2.trans (abs_le.mp (hcast hb)).2⟩
  have hlow := round_mono binary32 hq.1
  have hhigh := round_mono binary32 hq.2
  rw [binary32_round_intCast ha] at hlow
  rw [binary32_round_intCast hb] at hhigh
  exact ⟨_, ofReal_eq_num habs, hlow, hhigh⟩

/-- Integers of 24 bits are kept. -/
theorem ofReal_intCast {k : ℤ} (hk : k.natAbs ≤ 2 ^ 24) : ofReal (k : K) = .num (k : K) := by
  obtain ⟨r, hr, hlow, hhigh⟩ := ofReal_between hk hk (q := (k : K)) ⟨le_rfl, le_rfl⟩
  rw [hr, le_antisymm hhigh hlow]

/-- Zero is kept. -/
theorem ofReal_zero : ofReal (0 : K) = .num 0 := by
  have hcast := ofReal_intCast (K := K) (k := 0) (by decide)
  rwa [Int.cast_zero] at hcast

/-- One is a single float. -/
theorem binary32_round_one : binary32.round (1 : K) = 1 := by
  have hcast := binary32_round_intCast (K := K) (k := 1) (by decide)
  rwa [Int.cast_one] at hcast

/-- A number that is not negative stays one. -/
theorem round_nonneg {q : K} (hq : 0 ≤ q) : 0 ≤ binary32.round q := by
  rw [round_of_nonneg binary32 hq]
  exact roundAbs_nonneg binary32 hq

/-- A bound of the rounded number is one of the result. -/
theorem atMost_ofReal {q c : K} (h : binary32.round q ≤ c) (hc : c < 2 ^ 128) :
    AtMost c (ofReal q) := by
  rw [ofReal, Nat.cast_pow, Nat.cast_ofNat]
  split_ifs with hlt
  · exact h
  · have hneg : binary32.round q < 0 := by
      by_contra hnonneg
      rw [abs_of_nonneg (not_lt.mp hnonneg)] at hlt
      exact hlt (h.trans_lt hc)
    refine decide_eq_true (lt_of_not_ge fun hq => ?_)
    exact absurd (round_nonneg hq) (not_le.mpr hneg)

/-- A lower bound of the rounded number is one of the float. -/
theorem atLeast_ofReal {q c : K} (h : c ≤ binary32.round q) (hc : -2 ^ 128 < c) :
    AtLeast c (ofReal q) := by
  rw [ofReal, Nat.cast_pow, Nat.cast_ofNat]
  split_ifs with hlt
  · exact h
  · refine decide_eq_false (not_lt.mpr (le_of_not_gt fun hq => hlt ?_))
    have hneg : binary32.round q ≤ 0 := by
      have hpos := round_nonneg (q := -q) (by linarith)
      rw [round_neg] at hpos
      linarith
    rw [abs_of_nonpos hneg]
    linarith

end Single

end HermesFlow.BinaryFloat
