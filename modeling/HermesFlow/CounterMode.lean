import Mathlib.Data.List.Basic
import Mathlib.Data.Nat.ModEq

/-!
# Counter mode

A message uses the counter values from its initial value on, one for each
block, modulo `2 ^ w`. Initial values that differ and agree in their low `k`
bits leave room for `2 ^ k` blocks each.
-/

namespace HermesFlow.CounterMode

variable {w : ℕ}

/-- The counter values of a message of `blocks` blocks. -/
def counters (iv : BitVec w) (blocks : ℕ) : List (BitVec w) :=
  (List.range blocks).map fun t => iv + BitVec.ofNat w t

/-- The data combined with the keystream of its counter values. -/
def process (cipher : BitVec w → List UInt8) (values : List (BitVec w)) (data : List UInt8) :
    List UInt8 :=
  List.zipWith (· ^^^ ·) data (values.flatMap cipher)

/-- A counter of a message is the start moved by a block's number. -/
theorem mem_counters {iv v : BitVec w} {blocks : ℕ} :
    v ∈ counters iv blocks ↔ ∃ t < blocks, iv + BitVec.ofNat w t = v := by
  simp only [counters, List.mem_map, List.mem_range]

/-- Modulo `2 ^ k` with `k ≤ w` a counter value advances like a number. -/
theorem toNat_counter_mod {k : ℕ} (hk : k ≤ w) (iv : BitVec w) (t : ℕ) :
    (iv + BitVec.ofNat w t).toNat % 2 ^ k = (iv.toNat + t) % 2 ^ k := by
  have hdvd : 2 ^ k ∣ 2 ^ w := Nat.pow_dvd_pow 2 hk
  rw [BitVec.toNat_add, BitVec.toNat_ofNat, Nat.add_mod_mod, Nat.mod_mod_of_dvd _ hdvd]

/-- Two messages of at most `2 ^ k` blocks whose initial values differ and
agree modulo `2 ^ k` share no counter value. -/
theorem counters_disjoint {k m n : ℕ} (hk : k ≤ w) {iv jv : BitVec w}
    (hmod : iv.toNat % 2 ^ k = jv.toNat % 2 ^ k) (hne : iv ≠ jv) (hm : m ≤ 2 ^ k)
    (hn : n ≤ 2 ^ k) : List.Disjoint (counters iv m) (counters jv n) := by
  intro v hv hv'
  obtain ⟨s, hs, rfl⟩ := mem_counters.mp hv
  obtain ⟨t, ht, heq⟩ := mem_counters.mp hv'
  have hlow : (jv.toNat + t) % 2 ^ k = (iv.toNat + s) % 2 ^ k := by
    rw [← toNat_counter_mod hk, ← toNat_counter_mod hk, heq]
  have hts : Nat.ModEq (2 ^ k) t s := Nat.ModEq.add_left_cancel hmod.symm hlow
  have hst : t = s := by
    have hmods : t % 2 ^ k = s % 2 ^ k := hts
    rwa [Nat.mod_eq_of_lt (by omega), Nat.mod_eq_of_lt (by omega)] at hmods
  rw [hst] at heq
  exact hne ((BitVec.add_left_inj _).mp heq).symm

/-- The keystream of a cipher with blocks of `n` bytes. -/
theorem length_keystream {cipher : BitVec w → List UInt8} {n : ℕ}
    (hblock : ∀ value, (cipher value).length = n) (values : List (BitVec w)) :
    (values.flatMap cipher).length = values.length * n := by
  rw [List.length_flatMap]
  simp only [hblock, List.map_const', List.sum_replicate_nat]

/-- Data that the keystream covers keeps its length. -/
theorem length_process {cipher : BitVec w → List UInt8} {values : List (BitVec w)}
    {data : List UInt8} (hcover : data.length ≤ (values.flatMap cipher).length) :
    (process cipher values data).length = data.length := by
  rw [process, List.length_zipWith, Nat.min_eq_left hcover]

/-- The same keystream twice gives the data back. -/
theorem process_process {cipher : BitVec w → List UInt8} {values : List (BitVec w)}
    {data : List UInt8} (hcover : data.length ≤ (values.flatMap cipher).length) :
    process cipher values (process cipher values data) = data := by
  unfold process
  generalize values.flatMap cipher = stream at hcover
  induction data generalizing stream with
  | nil => rfl
  | cons b data ih =>
    cases stream with
    | nil => simp at hcover
    | cons x stream =>
      rw [List.zipWith_cons_cons, List.zipWith_cons_cons, ih stream (by simpa using hcover),
        UInt8.xor_assoc, UInt8.xor_self, UInt8.xor_zero]

/-- A message of as many blocks as its bytes begin is covered. -/
theorem le_length_keystream {cipher : BitVec w → List UInt8} {n : ℕ} (hn : 0 < n)
    (hblock : ∀ value, (cipher value).length = n) (iv : BitVec w) (data : List UInt8) :
    data.length ≤ ((counters iv ((data.length + n - 1) / n)).flatMap cipher).length := by
  have hdiv := Nat.lt_div_mul_add hn (a := data.length + n - 1)
  rw [length_keystream hblock, counters, List.length_map, List.length_range]
  omega

end HermesFlow.CounterMode
