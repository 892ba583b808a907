import HermesFlow.EncryptionStrategy
import HermesFlow.Packet

/-!
# The packetizer

`packetize` draws the next sequence number, encrypts the payload under the
48-bit index of the rollover counter and the sequence number, and builds the
packet. The counter is advanced before the index is formed.
-/

namespace HermesFlow.Rtp

open ByteOrder CounterMode Crypto

/-- `version_`. -/
def version : UInt8 := 2

/-- `RTPPacketizer`. -/
structure RTPPacketizer where
  /-- `payload_type_`. -/
  payloadType : UInt8
  /-- `ssrc_`. -/
  ssrc : UInt32
  /-- `sequence_num_`. -/
  sequenceNum : UInt16
  /-- `roc_`. -/
  roc : UInt32
  /-- `timestamp_`. -/
  timestamp : UInt32
  /-- `timestamp_increment_`. -/
  timestampIncrement : UInt32
  deriving DecidableEq

/-- The constructor, with the two numbers it draws. -/
def create (payloadType : UInt8) (ssrc timestampIncrement : UInt32) (sequenceNum : UInt16)
    (timestamp : UInt32) : RTPPacketizer where
  payloadType := payloadType
  ssrc := ssrc
  sequenceNum := sequenceNum
  roc := 0
  timestamp := timestamp
  timestampIncrement := timestampIncrement

/-- What a call of `packetize` leaves and returns. -/
structure Packetized where
  /-- The packetizer after the call. -/
  packetizer : RTPPacketizer
  /-- The payload after the call. -/
  payload : List UInt8
  /-- The output buffer after the call. -/
  outBuffer : List UInt8
  /-- The size returned. -/
  size : ℕ

namespace RTPPacketizer

/-- `sequence_num_++`, and `roc_++` when it wraps. -/
def advance (p : RTPPacketizer) : RTPPacketizer :=
  { p with
    sequenceNum := p.sequenceNum + 1
    roc := if p.sequenceNum + 1 = 0 then p.roc + 1 else p.roc }

/-- The index of the packet about to be built, formed after `advance`. -/
def packetIndex (p : RTPPacketizer) : UInt64 :=
  p.advance.roc.toUInt64 <<< 16 ||| p.sequenceNum.toUInt64

/-- The header of the packet about to be built. -/
def header (p : RTPPacketizer) : Header where
  padding := false
  version := version
  payloadType := p.payloadType
  marker := false
  sequenceNum := p.sequenceNum
  timestamp := p.timestamp
  ssrc := p.ssrc
  csrcList := []
  extension := none

/-- `packetize`, for a payload that does not overlap the output buffer. -/
def packetize (p : RTPPacketizer) (payload outBuffer : List UInt8)
    (ency : Option IEncryptionStrategy) : Packetized :=
  let payload' := match ency with
    | some strategy => (strategy.encrypt payload p.packetIndex).1
    | none => payload
  match (⟨p.header, payload'⟩ : RTPPacket).toBuffer outBuffer with
  | some (buffer, size) =>
    ⟨{ p.advance with timestamp := p.timestamp + p.timestampIncrement }, payload', buffer, size⟩
  | none => ⟨p.advance, payload', outBuffer, 0⟩

/-- The 48-bit number of the packet about to be built: the rollovers so far,
this one included when the sequence number is its last, and the sequence
number. -/
def index (p : RTPPacketizer) : ℕ := p.advance.roc.toNat * 2 ^ 16 + p.sequenceNum.toNat

/-- The index that is passed is the index of the packet. -/
theorem packetIndex_toNat (p : RTPPacketizer) : p.packetIndex.toNat = p.index := by
  have hroc := p.advance.roc.toNat_lt
  have hseq := p.sequenceNum.toNat_lt
  have hshift : p.advance.roc.toNat <<< 16 < 2 ^ 64 := by
    rw [Nat.shiftLeft_eq]
    omega
  rw [packetIndex, UInt64.toNat_or, UInt64.toNat_shiftLeft, UInt32.toNat_toUInt64,
    UInt16.toNat_toUInt64, show (16 : UInt64).toNat % 64 = 16 from rfl, Nat.mod_eq_of_lt hshift,
    ← Nat.shiftLeft_add_eq_or_of_lt hseq, Nat.shiftLeft_eq, index]

/-- `packetize` gives `encrypt` this index: whatever the strategy is, the payload it leaves
is the one that `encrypt` makes under the index. -/
def EncryptsUnder (p : RTPPacketizer) (index : UInt64) : Prop :=
  ∀ (strategy : IEncryptionStrategy) (payload outBuffer : List UInt8),
    (p.packetize payload outBuffer (some strategy)).payload = (strategy.encrypt payload index).1

/-- A packet that is built or not, its payload is what `encrypt` has made of it. -/
theorem payload_packetize (p : RTPPacketizer) (payload outBuffer : List UInt8)
    (strategy : IEncryptionStrategy) :
    (p.packetize payload outBuffer (some strategy)).payload =
      (strategy.encrypt payload p.packetIndex).1 := by
  unfold packetize
  dsimp only
  split <;> rfl

/-- There is one such index, `packet_index`: a strategy that writes the index into the
payload tells it from any other. -/
theorem encryptsUnder_iff {p : RTPPacketizer} {index : UInt64} :
    p.EncryptsUnder index ↔ index = p.packetIndex := by
  constructor
  · intro h
    have hwritten := h ⟨fun _ index => (storeLE 8 index.toNat, 8)⟩ [] []
    rw [payload_packetize] at hwritten
    have hnat := (storeLE_inj (UInt64.toNat_lt _) (UInt64.toNat_lt _)).mp hwritten
    exact (UInt64.toNat_inj.mp hnat).symm
  · rintro rfl strategy payload outBuffer
    exact p.payload_packetize payload outBuffer strategy

/-- The index is below `2 ^ 48`. -/
theorem index_lt (p : RTPPacketizer) : p.index < 2 ^ 48 := by
  have hroc := p.advance.roc.toNat_lt
  have hseq := p.sequenceNum.toNat_lt
  rw [index]
  omega

/-- The 48-bit counter of the packetizer. -/
def position (p : RTPPacketizer) : ℕ := p.roc.toNat * 2 ^ 16 + p.sequenceNum.toNat

/-- A position has 48 bits. -/
theorem position_lt (p : RTPPacketizer) : p.position < 2 ^ 48 := by
  have hroc := p.roc.toNat_lt
  have hseq := p.sequenceNum.toNat_lt
  rw [position]
  omega

/-- The sequence number is the low part of the position. -/
theorem sequenceNum_toNat (p : RTPPacketizer) : p.sequenceNum.toNat = p.position % 2 ^ 16 := by
  have hseq := p.sequenceNum.toNat_lt
  rw [position]
  omega

/-- Both counters advance as one. -/
theorem position_advance (p : RTPPacketizer) : p.advance.position = (p.position + 1) % 2 ^ 48 := by
  have hroc := p.roc.toNat_lt
  have hseq := p.sequenceNum.toNat_lt
  have hnext : (p.sequenceNum + 1).toNat = (p.sequenceNum.toNat + 1) % 2 ^ 16 :=
    UInt16.toNat_add p.sequenceNum 1
  have hlap : (p.roc + 1).toNat = (p.roc.toNat + 1) % 2 ^ 32 := UInt32.toNat_add p.roc 1
  have hwrap : p.sequenceNum + 1 = 0 ↔ (p.sequenceNum + 1).toNat = 0 := UInt16.toNat_inj.symm
  simp only [position, advance]
  split
  · rename_i h
    rw [hlap, hnext]
    rw [hwrap, hnext] at h
    omega
  · rename_i h
    rw [hnext]
    rw [hwrap, hnext] at h
    omega

/-- The rollover counter of an index is that of the next packet. -/
theorem advance_roc_toNat (p : RTPPacketizer) :
    p.advance.roc.toNat = (p.position + 1) / 2 ^ 16 % 2 ^ 32 := by
  have hadvance := position_advance p
  have hseq := p.advance.sequenceNum.toNat_lt
  rw [position] at hadvance
  omega

/-- Different positions have different indices. -/
theorem index_inj {p q : RTPPacketizer} : p.index = q.index ↔ p.position = q.position := by
  have hp := p.position_lt
  have hq := q.position_lt
  simp only [index, advance_roc_toNat, sequenceNum_toNat]
  constructor
  · intro h
    omega
  · intro h
    rw [h]

/-- Whatever becomes of the packet, `packetize` advances the counters. -/
theorem position_packetize (p : RTPPacketizer) (payload outBuffer : List UInt8)
    (ency : Option IEncryptionStrategy) :
    (p.packetize payload outBuffer ency).packetizer.position = (p.position + 1) % 2 ^ 48 := by
  rw [← position_advance]
  unfold packetize
  dsimp only
  split <;> rfl

/-- A packet keeps the source. -/
theorem ssrc_packetize (p : RTPPacketizer) (payload outBuffer : List UInt8)
    (ency : Option IEncryptionStrategy) :
    (p.packetize payload outBuffer ency).packetizer.ssrc = p.ssrc := by
  unfold packetize
  dsimp only
  split <;> rfl

/-- A packet that is built is the header and the payload left by the encryption. -/
theorem packetize_bytes (p : RTPPacketizer) (payload outBuffer : List UInt8)
    (ency : Option IEncryptionStrategy) :
    (p.packetize payload outBuffer ency).size = 0 ∨
      (p.packetize payload outBuffer ency).outBuffer.take
        (p.packetize payload outBuffer ency).size =
          headerBytes p.header ++ (p.packetize payload outBuffer ency).payload := by
  unfold packetize
  dsimp only
  split
  · rename_i buffer size hbuffer
    have hbytes := RTPPacket.toBuffer_take hbuffer
    right
    exact hbytes
  · exact .inl rfl

end RTPPacketizer

/-- One call of `packetize`. -/
structure Call where
  /-- The payload given. -/
  payload : List UInt8
  /-- The output buffer given. -/
  outBuffer : List UInt8

/-- The calls of a run, each with the packetizer it finds. -/
def runCalls (ency : Option IEncryptionStrategy) :
    RTPPacketizer → List Call → List (RTPPacketizer × Call)
  | _, [] => []
  | p, c :: cs => (p, c) :: runCalls ency (p.packetize c.payload c.outBuffer ency).packetizer cs

/-- The packetizer that the `k`-th call finds has advanced `k` times. -/
theorem runCalls_position {ency : Option IEncryptionStrategy} {p q : RTPPacketizer}
    {calls : List Call} {c : Call} {k : ℕ} (h : (runCalls ency p calls)[k]? = some (q, c)) :
    q.position = (p.position + k) % 2 ^ 48 ∧ calls[k]? = some c := by
  induction calls generalizing p k with
  | nil => simp [runCalls] at h
  | cons d ds ih =>
    cases k with
    | zero =>
      simp only [runCalls, List.getElem?_cons_zero, Option.some.injEq, Prod.mk.injEq] at h
      obtain ⟨rfl, rfl⟩ := h
      rw [Nat.add_zero, Nat.mod_eq_of_lt p.position_lt]
      exact ⟨rfl, rfl⟩
    | succ k =>
      simp only [runCalls, List.getElem?_cons_succ] at h ⊢
      obtain ⟨hpos, hcall⟩ := ih h
      refine ⟨?_, hcall⟩
      rw [hpos, RTPPacketizer.position_packetize]
      omega

/-- Every call of a run has the source it began with. -/
theorem runCalls_ssrc {ency : Option IEncryptionStrategy} {p : RTPPacketizer} {calls : List Call}
    {call : RTPPacketizer × Call} (h : call ∈ runCalls ency p calls) : call.1.ssrc = p.ssrc := by
  induction calls generalizing p with
  | nil => simp [runCalls] at h
  | cons d ds ih =>
    rcases List.mem_cons.mp h with rfl | hrest
    · rfl
    · rw [ih hrest, RTPPacketizer.ssrc_packetize]

/-- Every call is recorded once. -/
@[simp] theorem length_runCalls (ency : Option IEncryptionStrategy) (p : RTPPacketizer)
    (calls : List Call) : (runCalls ency p calls).length = calls.length := by
  induction calls generalizing p with
  | nil => rfl
  | cons c cs ih => simp only [runCalls, List.length_cons, ih]

/-- The datagram of a call: the span built, or nothing when `packetize` returns 0. -/
def datagram (ency : Option IEncryptionStrategy) (call : RTPPacketizer × Call) :
    Option (List UInt8) :=
  let result := call.1.packetize call.2.payload call.2.outBuffer ency
  if result.size = 0 then none else some (result.outBuffer.take result.size)

/-- A datagram is the header of the packetizer that built it and the payload
that the encryption left. -/
theorem datagram_eq {ency : Option IEncryptionStrategy} {call : RTPPacketizer × Call}
    {bytes : List UInt8} (h : datagram ency call = some bytes) :
    bytes = headerBytes call.1.header ++
      (call.1.packetize call.2.payload call.2.outBuffer ency).payload := by
  simp only [datagram, Option.ite_none_left_eq_some, Option.some.injEq] at h
  obtain ⟨hsize, rfl⟩ := h
  exact (call.1.packetize_bytes call.2.payload call.2.outBuffer ency).resolve_left hsize

/-- The counter blocks that a call's payload consumes. -/
def consumed (s : AESEncryptionStrategy) (call : RTPPacketizer × Call) : List (BitVec 128) :=
  s.counterBlocks call.2.payload call.1.packetIndex

/-- The `encrypt` call of `packetize` combines the payload with the cipher at these blocks
and no others, unless Crypto++ raises an exception. -/
theorem payload_eq_process_consumed {cryptopp : CryptoPP} {s : AESEncryptionStrategy}
    {call : RTPPacketizer × Call} {index : UInt64} (hindex : call.1.EncryptsUnder index)
    (hraises : cryptopp.raises (s.currentIv index) call.2.payload = none) :
    (call.1.packetize call.2.payload call.2.outBuffer (some (s.strategy cryptopp))).payload =
      process (cryptopp.aes s.key) (consumed s call) call.2.payload := by
  have hpassed := RTPPacketizer.encryptsUnder_iff.mp hindex
  rw [hindex, AESEncryptionStrategy.strategy, consumed, ← hpassed]
  rcases eq_or_ne call.2.payload [] with hempty | hbytes
  · rw [hempty]
    rfl
  · simp only [AESEncryptionStrategy.encrypt, if_neg hbytes, s.baseIv_size, ne_eq,
      not_true_eq_false, if_false, hraises]

/-- Packetizers at different positions give different packet indices. -/
theorem RTPPacketizer.packetIndex_ne {p q : RTPPacketizer} (h : p.position ≠ q.position) :
    p.packetIndex ≠ q.packetIndex := by
  intro heq
  apply h
  rw [← RTPPacketizer.index_inj, ← RTPPacketizer.packetIndex_toNat,
    ← RTPPacketizer.packetIndex_toNat, heq]

/-- An index has 48 bits. -/
theorem RTPPacketizer.packetIndex_lt (p : RTPPacketizer) : p.packetIndex.toNat < 2 ^ 48 := by
  rw [RTPPacketizer.packetIndex_toNat]
  exact p.index_lt

/-- No counter block serves two packets, in up to `2 ^ 48` calls with payloads
of up to `2 ^ 16` blocks. The blocks of a call are those of its `encrypt` call
(`payload_eq_process_consumed`). -/
theorem keystream_never_reused (cryptopp : CryptoPP) (s : AESEncryptionStrategy) (payloadType : UInt8)
    (ssrc timestampIncrement : UInt32) (sequenceNum : UInt16) (timestamp : UInt32)
    {calls : List Call} (hcalls : calls.length ≤ 2 ^ 48)
    (hpayload : ∀ c ∈ calls, c.payload.length ≤ AES_BLOCK_SIZE * 2 ^ 16) :
    ((runCalls (some (s.strategy cryptopp))
      (create payloadType ssrc timestampIncrement sequenceNum timestamp) calls).map
        (consumed s)).Pairwise List.Disjoint := by
  rw [List.pairwise_map, List.pairwise_iff_getElem]
  intro i j hi hj hij
  obtain ⟨hpos, hcall⟩ := runCalls_position (List.getElem?_eq_getElem hi)
  obtain ⟨hpos', hcall'⟩ := runCalls_position (List.getElem?_eq_getElem hj)
  have hsize := length_runCalls (some (s.strategy cryptopp))
    (create payloadType ssrc timestampIncrement sequenceNum timestamp) calls
  -- fewer than `2 ^ 48` calls lie between the two
  have hindex := RTPPacketizer.packetIndex_ne (hpos.trans_ne fun h => by
    rw [← h] at hpos'
    omega)
  exact AESEncryptionStrategy.counterBlocks_disjoint (RTPPacketizer.packetIndex_lt _)
    (RTPPacketizer.packetIndex_lt _) hindex (hpayload _ (List.mem_of_getElem? hcall))
    (hpayload _ (List.mem_of_getElem? hcall'))

/-- AES under a key of ones, at the two counter values used below. -/
def rolloverAes (_ : List UInt8) (value : BitVec 128) : List UInt8 :=
  if value = 0xffffffffffffffff0000feffffffffff#128 then
    [122, 217, 210, 25, 184, 16, 60, 33, 123, 51, 222, 117, 207, 78, 72, 241]
  else [132, 221, 154, 195, 97, 165, 142, 228, 157, 102, 150, 190, 109, 77, 67, 101]

/-- The strategy with that key, and an IV that a carry would run through. -/
def rolloverStrategy : AESEncryptionStrategy :=
  ⟨List.replicate 16 1, List.replicate 16 255, rfl, rfl⟩

/-- Two packets around the rollover of the sequence number. -/
theorem keystream_never_reused_rollover :
    ((runCalls (some (rolloverStrategy.strategy ⟨rolloverAes, fun _ _ => none⟩))
      (create 8 7 160 65535 0) [⟨List.replicate 16 0, List.replicate 28 0⟩,
        ⟨List.replicate 16 0, List.replicate 28 0⟩]).map
          (consumed rolloverStrategy)).Pairwise List.Disjoint :=
  keystream_never_reused ⟨rolloverAes, fun _ _ => none⟩ rolloverStrategy 8 7 160 65535 0
    (by simp) (by simp [AES_BLOCK_SIZE])

end HermesFlow.Rtp
