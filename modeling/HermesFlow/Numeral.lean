import Mathlib.Data.List.TakeWhile
import Mathlib.Data.Nat.Digits.Defs

/-!
# Numerals as the C library reads them

The conversions of the `strto` family read a number at the front of a string:
blanks, a sign, a prefix `0x` in base 16, and the longest run of digits. What
follows the digits is left alone.
-/

namespace HermesFlow.Numeral

/-- `isspace` in the C locale. -/
def isSpace (c : Char) : Bool := c = ' ' ∨ '\t' ≤ c ∧ c ≤ '\r'

/-- The value of a digit or letter; 36 for every other character. -/
def digitValue (c : Char) : ℕ :=
  if c.isDigit then c.toNat - 48
  else if c.isLower then c.toNat - 87
  else if c.isUpper then c.toNat - 55
  else 36

/-- The values of the digits at the front. -/
def digits (base : ℕ) (text : List Char) : List ℕ :=
  (text.map digitValue).takeWhile (· < base)

/-- The number that digits write, the leading digit first. -/
def value (base : ℕ) (ds : List ℕ) : ℕ := ds.foldl (fun v d => v * base + d) 0

/-- What is left behind a sign, and whether the sign is a minus. -/
def unsign : List Char → Bool × List Char
  | '-' :: text => (true, text)
  | '+' :: text => (false, text)
  | text => (false, text)

/-- What is left behind `0x`, when a digit follows it. -/
def dropHexMark : List Char → List Char
  | '0' :: x :: d :: text =>
    if (x = 'x' ∨ x = 'X') ∧ digitValue d < 16 then d :: text else '0' :: x :: d :: text
  | text => text

/-- The sign and the digits of the number at the front; nothing without a digit. -/
def subject (base : ℕ) (text : List Char) : Option (Bool × List ℕ) :=
  let (negative, unsigned) := unsign (text.dropWhile isSpace)
  let ds := digits base (if base = 16 then dropHexMark unsigned else unsigned)
  if ds = [] then none else some (negative, ds)

/-- `strtol`: zero without a number, and the ends of a `long` for a number beyond them. -/
def strtol (base : ℕ) (text : List Char) : ℤ :=
  match subject base text with
  | none => 0
  | some (negative, ds) =>
    if negative then max (-2 ^ 63) (-value base ds) else min (value base ds) (2 ^ 63 - 1)

/-- `std::stoull`; nothing when it throws. A minus wraps around. -/
def stoull (text : List Char) : Option ℕ :=
  match subject 10 text with
  | none => none
  | some (negative, ds) =>
    if 2 ^ 64 ≤ value 10 ds then none
    else some (if negative then (2 ^ 64 - value 10 ds) % 2 ^ 64 else value 10 ds)

/-- Digits and letters come behind the blanks and the signs. -/
theorem le_toNat_of_digitValue_lt {c : Char} (h : digitValue c < 36) : 48 ≤ c.toNat := by
  unfold digitValue at h
  split_ifs at h with hdigit hlower hupper
  · have hlow : 48 ≤ c.val := of_decide_eq_true (Bool.and_eq_true_iff.mp hdigit).1
    exact UInt32.le_iff_toNat_le.mp hlow
  · have hlow : 97 ≤ c.val := of_decide_eq_true (Bool.and_eq_true_iff.mp hlower).1
    have hval : 97 ≤ c.toNat := UInt32.le_iff_toNat_le.mp hlow
    omega
  · have hlow : 65 ≤ c.val := (of_decide_eq_true hupper).1
    have hval : 65 ≤ c.toNat := UInt32.le_iff_toNat_le.mp hlow
    omega
  · exact absurd h (by decide)

/-- A digit is no space. -/
theorem isSpace_eq_false {c : Char} (h : digitValue c < 36) : isSpace c = false := by
  have hlow := le_toNat_of_digitValue_lt h
  refine decide_eq_false ?_
  rintro (rfl | ⟨-, hle⟩)
  · exact absurd hlow (by decide)
  · have hval : c.toNat ≤ 13 := UInt32.le_iff_toNat_le.mp hle
    omega

/-- A digit is no sign. -/
theorem unsign_eq_self {c : Char} {text : List Char} (h : digitValue c < 36) :
    unsign (c :: text) = (false, c :: text) := by
  have hlow := le_toNat_of_digitValue_lt h
  unfold unsign
  split
  · rename_i hc
    obtain ⟨rfl, -⟩ := List.cons.inj hc
    exact absurd hlow (by decide)
  · rename_i hc
    obtain ⟨rfl, -⟩ := List.cons.inj hc
    exact absurd hlow (by decide)
  · rfl

/-- The mark is not read as digits. -/
theorem dropHexMark_eq_self {text : List Char} (h : ∀ c ∈ text, digitValue c < 16) :
    dropHexMark text = text := by
  unfold dropHexMark
  split
  · rename_i x d text
    refine if_neg fun hmark => ?_
    have hx := h x (List.mem_cons_of_mem _ List.mem_cons_self)
    rcases hmark.1 with rfl | rfl
    · exact absurd hx (by decide)
    · exact absurd hx (by decide)
  · rfl

/-- A text of digits is read as a whole. -/
theorem subject_of_digits {base : ℕ} (hbase : base ≤ 36) {text : List Char} (hne : text ≠ [])
    (hdigits : ∀ c ∈ text, digitValue c < base) :
    subject base text = some (false, text.map digitValue) := by
  obtain ⟨c, rest, rfl⟩ := List.exists_cons_of_ne_nil hne
  have hc : digitValue c < 36 := (hdigits c List.mem_cons_self).trans_le hbase
  have hmark : (if base = 16 then dropHexMark (c :: rest) else c :: rest) = c :: rest := by
    split_ifs with h16
    · exact dropHexMark_eq_self fun d hd => h16 ▸ hdigits d hd
    · rfl
  have hall : digits base (c :: rest) = (c :: rest).map digitValue := by
    refine List.takeWhile_eq_self_iff.mpr fun v hv => ?_
    obtain ⟨d, hd, rfl⟩ := List.mem_map.mp hv
    exact decide_eq_true (hdigits d hd)
  unfold subject
  rw [List.dropWhile_cons_of_neg (by rw [isSpace_eq_false hc]; nofun), unsign_eq_self hc]
  dsimp only
  rw [hmark, hall, if_neg (mt List.map_eq_nil_iff.mp hne)]

/-- `strtol` on a text of digits whose number is not too large. -/
theorem strtol_of_digits {base : ℕ} (hbase : base ≤ 36) {text : List Char} (hne : text ≠ [])
    (hdigits : ∀ c ∈ text, digitValue c < base)
    (hvalue : value base (text.map digitValue) < 2 ^ 63) :
    strtol base text = value base (text.map digitValue) := by
  rw [strtol, subject_of_digits hbase hne hdigits]
  exact min_eq_left (by omega)

example : stoull " 0120 bytes".toList = some 120 := by decide

example : strtol 16 "-0x1fg".toList = -31 := by decide

end HermesFlow.Numeral
