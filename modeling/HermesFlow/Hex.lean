import Mathlib.Data.Nat.Notation
import Mathlib.Tactic.SplitIfs

/-!
# Hexadecimal texts

A text is a list of ASCII codes. Two digits of either case write a byte, the high half
first; the encoding is the text in lower case.
-/

namespace HermesFlow.Hex

/-- The value of a digit. -/
def nibble (c : UInt8) : Option ℕ :=
  if 48 ≤ c.toNat ∧ c.toNat ≤ 57 then some (c.toNat - 48)
  else if 97 ≤ c.toNat ∧ c.toNat ≤ 102 then some (c.toNat - 87)
  else if 65 ≤ c.toNat ∧ c.toNat ≤ 70 then some (c.toNat - 55)
  else none

/-- A digit. -/
def IsDigit (c : UInt8) : Prop := (nibble c).isSome

instance : DecidablePred IsDigit := fun c => inferInstanceAs (Decidable ((nibble c).isSome = true))

/-- The digit of a value, in lower case. -/
def digit (n : ℕ) : UInt8 := UInt8.ofNat (if n < 10 then 48 + n else 87 + n)

/-- A character in lower case. -/
def lower (c : UInt8) : UInt8 :=
  if 65 ≤ c.toNat ∧ c.toNat ≤ 90 then UInt8.ofNat (c.toNat + 32) else c

/-- The text of bytes. -/
def encode : List UInt8 → List UInt8
  | [] => []
  | byte :: bytes => digit (byte.toNat / 16) :: digit (byte.toNat % 16) :: encode bytes

/-- The bytes of a text of pairs of digits. -/
def decode : List UInt8 → Option (List UInt8)
  | [] => some []
  | [_] => none
  | a :: b :: text => do
    let high ← nibble a
    let low ← nibble b
    let bytes ← decode text
    return UInt8.ofNat (16 * high + low) :: bytes

/-- The code of a digit. -/
theorem toNat_digit {n : ℕ} (h : n < 16) :
    (digit n).toNat = if n < 10 then 48 + n else 87 + n := by
  unfold digit
  split_ifs <;> rw [UInt8.toNat_ofNat'] <;> omega

/-- Only a capital letter is changed by lowering. -/
theorem toNat_lower (c : UInt8) :
    (lower c).toNat = if 65 ≤ c.toNat ∧ c.toNat ≤ 90 then c.toNat + 32 else c.toNat := by
  unfold lower
  split_ifs
  · rw [UInt8.toNat_ofNat']
    omega
  · rfl

/-- A digit is that of its value, up to its case. -/
theorem nibble_eq_some_iff {c : UInt8} {n : ℕ} :
    nibble c = some n ↔ n < 16 ∧ lower c = digit n := by
  have hsame : n < 16 → (lower c = digit n ↔ (if 65 ≤ c.toNat ∧ c.toNat ≤ 90 then c.toNat + 32
      else c.toNat) = if n < 10 then 48 + n else 87 + n) := fun hn => by
    rw [← UInt8.toNat_inj, toNat_lower, toNat_digit hn]
  unfold nibble
  constructor
  · intro h
    have hn : n < 16 := by
      split_ifs at h <;> obtain rfl := Option.some.inj h <;> omega
    refine ⟨hn, (hsame hn).mpr ?_⟩
    split_ifs at h <;> obtain rfl := Option.some.inj h <;> split_ifs <;> omega
  · rintro ⟨hn, h⟩
    rw [hsame hn] at h
    split_ifs at h ⊢ <;> first | omega | exact congrArg some (by omega)

/-- A text is decoded to the bytes whose encoding it is, up to its case. -/
theorem decode_eq_some_iff {text bytes : List UInt8} :
    decode text = some bytes ↔ encode bytes = text.map lower := by
  induction text using decode.induct generalizing bytes with
  | case1 =>
    cases bytes with
    | nil => exact iff_of_true rfl rfl
    | cons byte bytes => exact iff_of_false nofun nofun
  | case2 c =>
    cases bytes with
    | nil => exact iff_of_false nofun nofun
    | cons byte bytes =>
      exact iff_of_false nofun fun h => List.cons_ne_nil _ _ (List.cons.inj h).2
  | case3 a b text ih =>
    rw [decode, List.map_cons, List.map_cons]
    constructor
    · intro h
      obtain ⟨high, hhigh, h⟩ := Option.bind_eq_some_iff.mp h
      obtain ⟨low, hlow, h⟩ := Option.bind_eq_some_iff.mp h
      obtain ⟨rest, hrest, h⟩ := Option.bind_eq_some_iff.mp h
      obtain rfl := Option.some.inj h
      obtain ⟨hhigh16, ha⟩ := nibble_eq_some_iff.mp hhigh
      obtain ⟨hlow16, hb⟩ := nibble_eq_some_iff.mp hlow
      have hvalue : (UInt8.ofNat (16 * high + low)).toNat = 16 * high + low := by
        rw [UInt8.toNat_ofNat']
        omega
      have hdiv : (16 * high + low) / 16 = high := by omega
      have hmod : (16 * high + low) % 16 = low := by omega
      rw [encode, hvalue, hdiv, hmod, ha, hb, ih.mp hrest]
    · intro h
      cases bytes with
      | nil => cases h
      | cons byte bytes =>
        rw [encode] at h
        obtain ⟨ha, h⟩ := List.cons.inj h
        obtain ⟨hb, h⟩ := List.cons.inj h
        have hlt := byte.toNat_lt
        have hhigh := nibble_eq_some_iff.mpr ⟨by omega, ha.symm⟩
        have hlow := nibble_eq_some_iff.mpr ⟨by omega, hb.symm⟩
        have hvalue : 16 * (byte.toNat / 16) + byte.toNat % 16 = byte.toNat := by omega
        rw [hhigh, hlow, ih.mpr h]
        change some (UInt8.ofNat (16 * (byte.toNat / 16) + byte.toNat % 16) :: bytes) = _
        rw [hvalue, UInt8.ofNat_toNat]

/-- Any text of pairs of digits is decoded, and no other. -/
theorem decode_isSome_iff {text : List UInt8} :
    (decode text).isSome ↔ text.length % 2 = 0 ∧ ∀ c ∈ text, IsDigit c := by
  induction text using decode.induct with
  | case1 => exact iff_of_true rfl ⟨rfl, nofun⟩
  | case2 c => exact iff_of_false nofun fun h => Nat.one_ne_zero h.1
  | case3 a b text ih =>
    rw [decode, List.forall_mem_cons, List.forall_mem_cons, List.length_cons, List.length_cons,
      Nat.add_assoc, Nat.add_mod_right]
    unfold IsDigit at ih ⊢
    cases nibble a with
    | none => exact iff_of_false nofun nofun
    | some high =>
      cases nibble b with
      | none => exact iff_of_false nofun nofun
      | some low =>
        have hrest : (decode text).isSome ↔ ((decode text).bind fun bytes =>
            some (UInt8.ofNat (16 * high + low) :: bytes)).isSome := by
          cases decode text <;> rfl
        refine hrest.symm.trans (ih.trans ?_)
        exact ⟨fun h => ⟨h.1, rfl, rfl, h.2⟩, fun h => ⟨h.1, h.2.2.2⟩⟩

end HermesFlow.Hex
