import HermesFlow.ByteOrder
import HermesFlow.CounterMode

/-!
# AES-CTR encryption of a payload

The strategy XORs the packet index into bytes 8 to 15 of its base IV, in the
byte order of a little-endian host, and restarts the cipher there. The block
cipher and the exceptions of Crypto++ are parameters.
-/

namespace HermesFlow.Crypto

open ByteOrder CounterMode

/-- The bytes of a block. -/
def AES_BLOCK_SIZE : ℕ := 16
/-- Where the packet index is mixed into the initialisation vector. -/
def AES_XOR_OFFSET : ℕ := 8

/-- `IEncryptionStrategy`: the payload after the call and the size returned. -/
structure IEncryptionStrategy where
  /-- `encrypt` with a payload and a packet index. -/
  encrypt : List UInt8 → UInt64 → List UInt8 × ℕ

/-- What the strategy takes from Crypto++. -/
structure CryptoPP where
  /-- One block of AES: key and counter value. -/
  aes : List UInt8 → BitVec 128 → List UInt8
  /-- The exception `Resynchronize` or `ProcessData` raises on an IV and data,
  if any, and the data it leaves. -/
  raises : List UInt8 → List UInt8 → Option (String × List UInt8)

/-- Crypto++ works in place: a block of AES has sixteen bytes, and an exception
leaves as many bytes as there were. -/
structure CryptoPP.InPlace (cryptopp : CryptoPP) : Prop where
  /-- The size of a block. -/
  block : ∀ key value, (cryptopp.aes key value).length = AES_BLOCK_SIZE
  /-- The size of what an exception leaves. -/
  raised : ∀ iv data what left, cryptopp.raises iv data = some (what, left) →
    left.length = data.length

/-- `AESEncryptionStrategy`; a key or an IV of another size cannot be built. -/
structure AESEncryptionStrategy where
  /-- `key_`. -/
  key : List UInt8
  /-- `base_iv_`. -/
  baseIv : List UInt8
  /-- The constructor's test of the key. -/
  key_size : key.length = AES_BLOCK_SIZE
  /-- The constructor's test of the IV. -/
  baseIv_size : baseIv.length = AES_BLOCK_SIZE

/-- `create_aes_encryption_strategy`; the error is the exception thrown. -/
def createAesEncryptionStrategy (key baseIv : List UInt8) :
    Except String AESEncryptionStrategy :=
  if h : key.length = AES_BLOCK_SIZE ∧ baseIv.length = AES_BLOCK_SIZE then
    .ok ⟨key, baseIv, h.1, h.2⟩
  else .error "AES-128 requires 16-byte key and IV"

namespace AESEncryptionStrategy

/-- `current_iv` after the XOR: `tail` is loaded and stored little-endian. -/
def currentIv (s : AESEncryptionStrategy) (packetIndex : UInt64) : List UInt8 :=
  let tail := UInt64.ofNat (loadLE (s.baseIv.drop AES_XOR_OFFSET))
  s.baseIv.take AES_XOR_OFFSET ++ storeLE 8 (tail ^^^ packetIndex).toNat

/-- The counter blocks that the payload of a packet consumes: none if it is
empty, else one for each block begun, from the IV as a big-endian number. -/
def counterBlocks (s : AESEncryptionStrategy) (pcm : List UInt8) (packetIndex : UInt64) :
    List (BitVec 128) :=
  counters (BitVec.ofNat 128 (loadBE (s.currentIv packetIndex)))
    ((pcm.length + AES_BLOCK_SIZE - 1) / AES_BLOCK_SIZE)

/-- `encrypt`: the payload after the call and the size returned. -/
def encrypt (cryptopp : CryptoPP) (s : AESEncryptionStrategy) (pcm : List UInt8)
    (packetIndex : UInt64) : List UInt8 × ℕ :=
  if pcm = [] then (pcm, 0)
  else if s.baseIv.length ≠ AES_BLOCK_SIZE then (pcm, 0)
  else
    match cryptopp.raises (s.currentIv packetIndex) pcm with
    | some (_, left) => (left, 0)
    | none => (process (cryptopp.aes s.key) (s.counterBlocks pcm packetIndex) pcm, pcm.length)

/-- The strategy behind its interface. -/
def strategy (cryptopp : CryptoPP) (s : AESEncryptionStrategy) : IEncryptionStrategy :=
  ⟨s.encrypt cryptopp⟩

/-- The number in the last eight bytes of the IV is that of the base IV with
the index XORed in. -/
theorem loadLE_currentIv (s : AESEncryptionStrategy) (packetIndex : UInt64) :
    s.currentIv packetIndex = s.baseIv.take AES_XOR_OFFSET ++
      storeLE 8 (loadLE (s.baseIv.drop AES_XOR_OFFSET) ^^^ packetIndex.toNat) := by
  have hlt := loadLE_lt (s.baseIv.drop AES_XOR_OFFSET)
  rw [List.length_drop, s.baseIv_size] at hlt
  have htail : (UInt64.ofNat (loadLE (s.baseIv.drop AES_XOR_OFFSET))).toNat =
      loadLE (s.baseIv.drop AES_XOR_OFFSET) := UInt64.toNat_ofNat_of_lt' hlt
  simp only [currentIv, UInt64.toNat_xor, htail]

/-- An initialisation vector is one block. -/
@[simp] theorem length_currentIv (s : AESEncryptionStrategy) (packetIndex : UInt64) :
    (s.currentIv packetIndex).length = AES_BLOCK_SIZE := by
  rw [loadLE_currentIv, List.length_append, List.length_take, length_storeLE, s.baseIv_size]
  rfl

/-- Packets with different indices have different IVs. -/
theorem currentIv_inj {s : AESEncryptionStrategy} {m n : UInt64} :
    s.currentIv m = s.currentIv n ↔ m = n := by
  refine ⟨fun h => ?_, fun h => h ▸ rfl⟩
  have htail := (List.append_right_inj _).mp h
  have hnat := (storeLE_inj (UInt64.toNat_lt _) (UInt64.toNat_lt _)).mp htail
  exact (UInt64.xor_right_inj _).mp (UInt64.toNat_inj.mp hnat)

/-- An index of at most 48 bits leaves the last two bytes of the IV, the low
ones of the counter, as they are in the base IV. -/
theorem loadBE_currentIv_mod {s : AESEncryptionStrategy} {packetIndex : UInt64}
    (h : packetIndex.toNat < 2 ^ 48) :
    loadBE (s.currentIv packetIndex) % 2 ^ 16 =
      loadBE (storeLE 2 (loadLE (s.baseIv.drop AES_XOR_OFFSET) / 2 ^ 48)) := by
  have hsplit : storeLE 8 (loadLE (s.baseIv.drop AES_XOR_OFFSET) ^^^ packetIndex.toNat) =
      storeLE 6 (loadLE (s.baseIv.drop AES_XOR_OFFSET) ^^^ packetIndex.toNat) ++
        storeLE 2 (loadLE (s.baseIv.drop AES_XOR_OFFSET) / 2 ^ 48) := by
    rw [storeLE_add 6 2]
    congr 2
    rw [show (256 : ℕ) ^ 6 = 2 ^ 48 from rfl, ← Nat.shiftRight_eq_div_pow, Nat.shiftRight_xor_distrib,
      Nat.shiftRight_eq_div_pow, Nat.shiftRight_eq_div_pow, Nat.div_eq_of_lt h, Nat.xor_zero]
  have hlast := loadBE_lt (storeLE 2 (loadLE (s.baseIv.drop AES_XOR_OFFSET) / 2 ^ 48))
  rw [length_storeLE] at hlast
  rw [loadLE_currentIv, hsplit, ← List.append_assoc, loadBE_append, length_storeLE,
    show (256 : ℕ) ^ 2 = 2 ^ 16 from rfl, Nat.mul_add_mod']
  exact Nat.mod_eq_of_lt hlast

/-- Payloads of at most `2 ^ 16` blocks under different 48-bit indices consume
different counter blocks. -/
theorem counterBlocks_disjoint {s : AESEncryptionStrategy} {m n : UInt64} {pcm pcm' : List UInt8}
    (hm : m.toNat < 2 ^ 48) (hn : n.toNat < 2 ^ 48) (hne : m ≠ n)
    (hpcm : pcm.length ≤ AES_BLOCK_SIZE * 2 ^ 16) (hpcm' : pcm'.length ≤ AES_BLOCK_SIZE * 2 ^ 16) :
    List.Disjoint (s.counterBlocks pcm m) (s.counterBlocks pcm' n) := by
  have hlt : ∀ i, loadBE (s.currentIv i) < 2 ^ 128 := fun i => by
    have h := loadBE_lt (s.currentIv i)
    rwa [length_currentIv] at h
  have hblocks : ∀ {l : ℕ}, l ≤ AES_BLOCK_SIZE * 2 ^ 16 →
      (l + AES_BLOCK_SIZE - 1) / AES_BLOCK_SIZE ≤ 2 ^ 16 := fun hl => by
    simp only [AES_BLOCK_SIZE] at hl ⊢
    omega
  refine counters_disjoint (show 16 ≤ 128 by omega) ?_ ?_ (hblocks hpcm) (hblocks hpcm')
  · rw [BitVec.toNat_ofNat, BitVec.toNat_ofNat, Nat.mod_eq_of_lt (hlt m), Nat.mod_eq_of_lt (hlt n),
      loadBE_currentIv_mod hm, loadBE_currentIv_mod hn]
  · intro heq
    have hload := congrArg BitVec.toNat heq
    rw [BitVec.toNat_ofNat, BitVec.toNat_ofNat, Nat.mod_eq_of_lt (hlt m), Nat.mod_eq_of_lt (hlt n)]
      at hload
    exact hne (currentIv_inj.mp ((loadBE_inj (by simp)).mp hload))

/-- Then `encrypt` keeps the size of the payload. -/
theorem length_encrypt {cryptopp : CryptoPP} (hplace : cryptopp.InPlace)
    (aes : AESEncryptionStrategy) (pcm : List UInt8) (index : UInt64) :
    ((aes.strategy cryptopp).encrypt pcm index).1.length = pcm.length := by
  change (aes.encrypt cryptopp pcm index).1.length = pcm.length
  unfold encrypt
  split
  · rfl
  · split
    · rfl
    · split
      · rename_i what left hraises
        exact hplace.raised _ _ what left hraises
      · have hkeystream : ((aes.counterBlocks pcm index).flatMap
            (cryptopp.aes aes.key)).length = (pcm.length + AES_BLOCK_SIZE - 1) / AES_BLOCK_SIZE *
              AES_BLOCK_SIZE := by
          rw [List.length_flatMap]
          simp only [hplace.block, List.map_const', List.sum_replicate_nat]
          rw [counterBlocks, counters, List.length_map, List.length_range]
        rw [process, List.length_zipWith, hkeystream]
        simp only [AES_BLOCK_SIZE]
        omega

end AESEncryptionStrategy

/-- The session key that HKDF-SHA256 derives from a zero master key for SSRC 1. -/
def exampleKey : Vector UInt8 16 :=
  #v[124, 129, 97, 173, 162, 249, 152, 50, 201, 58, 37, 175, 22, 215, 94, 205]

/-- The strategy of a stream with SSRC 1, zero master key and zero salt. -/
def exampleStrategy : AESEncryptionStrategy :=
  ⟨exampleKey.toList, [0, 0, 0, 1, 0, 0, 0, 0, 0, 0, 0, 0, 0, 0, 0, 0], rfl, rfl⟩

/-- The keystream under that key, from the first counter value on, of the packets with the indices 10 and 11
and of the first block of two more. -/
def exampleKeystream : List (BitVec 128 × List (Vector UInt8 16)) :=
  [(0x00000001000000000a00000000000000#128,
      [#v[218, 199, 116, 238, 38, 139, 70, 38, 135, 241, 96, 93, 134, 195, 50, 132],
        #v[194, 7, 32, 185, 59, 15, 40, 226, 42, 107, 17, 201, 194, 176, 181, 172],
        #v[211, 198, 183, 198, 110, 117, 228, 33, 39, 92, 244, 103, 229, 165, 12, 122],
        #v[153, 48, 250, 96, 187, 101, 178, 233, 10, 8, 134, 80, 86, 191, 135, 4],
        #v[85, 193, 102, 73, 242, 232, 116, 98, 230, 17, 133, 122, 113, 201, 213, 21],
        #v[232, 103, 74, 27, 212, 235, 101, 188, 224, 166, 41, 9, 182, 193, 9, 62],
        #v[124, 179, 195, 174, 214, 91, 248, 208, 146, 8, 52, 54, 51, 177, 184, 88],
        #v[184, 249, 207, 142, 54, 162, 124, 33, 110, 164, 148, 65, 199, 2, 215, 125],
        #v[192, 57, 124, 34, 191, 237, 203, 64, 229, 202, 8, 99, 80, 124, 162, 16],
        #v[115, 188, 209, 17, 241, 40, 158, 123, 151, 120, 126, 43, 108, 145, 6, 22]]),
    (0x00000001000000000b00000000000000#128,
      [#v[76, 91, 45, 172, 196, 131, 118, 204, 113, 239, 60, 220, 254, 33, 43, 84],
        #v[255, 2, 239, 84, 106, 133, 86, 196, 62, 237, 207, 1, 205, 51, 188, 90],
        #v[129, 215, 50, 137, 245, 87, 3, 63, 143, 18, 179, 147, 172, 174, 84, 253],
        #v[140, 14, 20, 144, 123, 185, 173, 138, 237, 24, 73, 127, 93, 219, 91, 150],
        #v[197, 111, 48, 235, 252, 106, 92, 217, 23, 186, 13, 215, 8, 33, 154, 22],
        #v[73, 242, 164, 254, 67, 231, 187, 245, 163, 224, 145, 30, 199, 113, 245, 21],
        #v[236, 111, 119, 231, 179, 52, 101, 160, 69, 106, 226, 101, 44, 200, 109, 228],
        #v[13, 32, 93, 120, 216, 248, 70, 248, 87, 178, 210, 164, 12, 139, 25, 141],
        #v[170, 220, 32, 107, 115, 114, 214, 114, 180, 179, 126, 208, 230, 213, 35, 190],
        #v[41, 204, 176, 46, 170, 175, 225, 95, 233, 176, 248, 31, 209, 157, 46, 153]]),
    (0x0000000100000000ffff010000000000#128,
      [#v[165, 138, 48, 213, 83, 62, 168, 3, 5, 114, 250, 195, 234, 192, 117, 63]]),
    (0x0000000100000000ffff000000000000#128,
      [#v[174, 79, 80, 14, 16, 160, 194, 196, 251, 142, 70, 210, 79, 87, 27, 190]])]

/-- AES under that key, at these counter values. -/
def exampleAes (_ : List UInt8) (value : BitVec 128) : List UInt8 :=
  ((exampleKeystream.findSome? fun blocks => blocks.2[(value - blocks.1).toNat]?).getD
    (Vector.replicate 16 0)).toList

/-- The example's cipher writes as many bytes as it reads. -/
theorem inPlace_exampleAes : CryptoPP.InPlace ⟨exampleAes, fun _ _ => none⟩ :=
  ⟨fun _ _ => Vector.length_toList, fun _ _ _ _ h => by cases h⟩

/-- The encryptor of that stream. -/
def exampleEncryptor : IEncryptionStrategy := exampleStrategy.strategy ⟨exampleAes, fun _ _ => none⟩

end HermesFlow.Crypto
