import Mathlib.Algebra.Order.Ring.Nat
import Mathlib.Tactic.Ring

/-!
# Numbers as bytes

Bytes of a number in either order, for any width. Loading after storing keeps
the number modulo the width, storing after loading keeps the bytes, and both
split along a concatenation.
-/

namespace HermesFlow.ByteOrder

/-- The number with these bytes, least significant first. -/
def loadLE : List UInt8 → ℕ
  | [] => 0
  | b :: bs => b.toNat + 256 * loadLE bs

/-- The low `width` bytes of a number, least significant first. -/
def storeLE : ℕ → ℕ → List UInt8
  | 0, _ => []
  | width + 1, n => UInt8.ofNat n :: storeLE width (n / 256)

/-- The number with these bytes, most significant first. -/
def loadBE (bs : List UInt8) : ℕ := loadLE bs.reverse

/-- The low `width` bytes of a number, most significant first. -/
def storeBE (width n : ℕ) : List UInt8 := (storeLE width n).reverse

/-- A little-endian store has the width asked for. -/
@[simp] theorem length_storeLE (width n : ℕ) : (storeLE width n).length = width := by
  induction width generalizing n with
  | zero => rfl
  | succ width ih => simp only [storeLE, List.length_cons, ih]

/-- A big-endian store has the width asked for. -/
@[simp] theorem length_storeBE (width n : ℕ) : (storeBE width n).length = width := by
  simp only [storeBE, List.length_reverse, length_storeLE]

/-- A number of `k` bytes is below `256 ^ k`. -/
theorem loadLE_lt (bs : List UInt8) : loadLE bs < 256 ^ bs.length := by
  induction bs with
  | nil => simp [loadLE]
  | cons b bs ih =>
    have hb : b.toNat < 256 := b.toNat_lt
    rw [loadLE, List.length_cons, pow_succ]
    omega

/-- Loading stored bytes truncates to their width. -/
theorem loadLE_storeLE (width n : ℕ) : loadLE (storeLE width n) = n % 256 ^ width := by
  induction width generalizing n with
  | zero => simp [storeLE, loadLE, Nat.mod_one]
  | succ width ih =>
    have hsplit : n % 256 ^ (width + 1) = n % 256 + 256 * (n / 256 % 256 ^ width) := by
      rw [pow_succ, mul_comm, Nat.mod_mul]
    rw [storeLE, loadLE, ih, hsplit, UInt8.toNat_ofNat']

/-- Storing loaded bytes gives the bytes back. -/
theorem storeLE_loadLE (bs : List UInt8) : storeLE bs.length (loadLE bs) = bs := by
  induction bs with
  | nil => rfl
  | cons b bs ih =>
    have hb : b.toNat < 256 := b.toNat_lt
    have hhead : UInt8.ofNat (b.toNat + 256 * loadLE bs) = b := by
      apply UInt8.toNat_inj.mp
      rw [UInt8.toNat_ofNat']
      omega
    have htail : (b.toNat + 256 * loadLE bs) / 256 = loadLE bs := by omega
    rw [List.length_cons, loadLE, storeLE, hhead, htail, ih]

/-- A little-endian load of two parts, the low one first. -/
theorem loadLE_append (as bs : List UInt8) :
    loadLE (as ++ bs) = loadLE as + 256 ^ as.length * loadLE bs := by
  induction as with
  | nil => simp [loadLE]
  | cons a as ih =>
    rw [List.cons_append, loadLE, ih, loadLE, List.length_cons]
    ring

/-- The bytes of a number are its low bytes followed by those of the rest. -/
theorem storeLE_add (v w n : ℕ) : storeLE (v + w) n = storeLE v n ++ storeLE w (n / 256 ^ v) := by
  induction v generalizing n with
  | zero => simp [storeLE]
  | succ v ih =>
    rw [Nat.add_right_comm, storeLE, ih, storeLE, List.cons_append, Nat.div_div_eq_div_mul, pow_succ,
      mul_comm 256]

/-- A big-endian load of two parts, the high one first. -/
theorem loadBE_append (as bs : List UInt8) :
    loadBE (as ++ bs) = loadBE as * 256 ^ bs.length + loadBE bs := by
  rw [loadBE, List.reverse_append, loadLE_append, List.length_reverse, loadBE, loadBE]
  ring

/-- A load is below the power of its length. -/
theorem loadBE_lt (bs : List UInt8) : loadBE bs < 256 ^ bs.length := by
  rw [loadBE, ← List.length_reverse]
  exact loadLE_lt bs.reverse

/-- A load gives the stored number, cut to the width. -/
theorem loadBE_storeBE (width n : ℕ) : loadBE (storeBE width n) = n % 256 ^ width := by
  rw [loadBE, storeBE, List.reverse_reverse, loadLE_storeLE]

/-- A store gives back the loaded bytes. -/
theorem storeBE_loadBE (bs : List UInt8) : storeBE bs.length (loadBE bs) = bs := by
  rw [loadBE, storeBE, ← List.length_reverse, storeLE_loadLE, List.reverse_reverse]

/-- Storing loaded bytes back, at the width they were loaded with. -/
theorem storeBE_loadBE_of_length {bs : List UInt8} {width : ℕ} (h : bs.length = width) :
    storeBE width (loadBE bs) = bs := by
  rw [← h, storeBE_loadBE]

/-- Loading `width` bytes and what follows them, after storing. -/
theorem take_storeBE (width n : ℕ) (rest : List UInt8) :
    (storeBE width n ++ rest).take width = storeBE width n :=
  List.take_left' (length_storeBE width n)

/-- Behind a store comes the rest. -/
theorem drop_storeBE (width n : ℕ) (rest : List UInt8) :
    (storeBE width n ++ rest).drop width = rest :=
  List.drop_left' (length_storeBE width n)

/-- Byte strings of one length are told apart by the numbers they denote. -/
theorem loadLE_inj {as bs : List UInt8} (hlen : as.length = bs.length) :
    loadLE as = loadLE bs ↔ as = bs := by
  refine ⟨fun h => ?_, fun h => h ▸ rfl⟩
  rw [← storeLE_loadLE as, ← storeLE_loadLE bs, hlen, h]

/-- Loads of one length are equal exactly for equal bytes. -/
theorem loadBE_inj {as bs : List UInt8} (hlen : as.length = bs.length) :
    loadBE as = loadBE bs ↔ as = bs := by
  rw [loadBE, loadBE, loadLE_inj (by simpa using hlen), List.reverse_inj]

/-- A number that fits is told apart by its bytes. -/
theorem storeLE_inj {width m n : ℕ} (hm : m < 256 ^ width) (hn : n < 256 ^ width) :
    storeLE width m = storeLE width n ↔ m = n := by
  refine ⟨fun h => ?_, fun h => h ▸ rfl⟩
  have hload := congrArg loadLE h
  rwa [loadLE_storeLE, loadLE_storeLE, Nat.mod_eq_of_lt hm, Nat.mod_eq_of_lt hn] at hload

end HermesFlow.ByteOrder
