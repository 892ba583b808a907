import HermesFlow.PacketRoundTrip
import HermesFlow.RTPPacketizer
import Mathlib.Data.Nat.Count

/-!
# The numbers of the packets

The fields of the `k`-th packet of a packetizer and the index under which it is
encrypted. The sequence number and the rollover counter advance before the
index is formed, the timestamp after the packet is built.
-/

namespace HermesFlow.Rtp

open ByteOrder Crypto

/-- The sequence number field of a packet. -/
def sequenceNumField (bytes : List UInt8) : ℕ := loadBE ((bytes.drop 2).take 2)

/-- The timestamp field of a packet. -/
def timestampField (bytes : List UInt8) : ℕ := loadBE ((bytes.drop 4).take 4)

/-- The two fields hold the numbers of the header. -/
theorem fields_headerBytes (header : Header) (payload : List UInt8) :
    sequenceNumField (headerBytes header ++ payload) = header.sequenceNum.toNat ∧
      timestampField (headerBytes header ++ payload) = header.timestamp.toNat := by
  obtain ⟨hseq, htime, -, -⟩ := fixedFields header.sequenceNum.toNat header.timestamp.toNat
    header.ssrc.toNat ((header.csrcList.flatMap fun csrc => storeBE 4 csrc.toNat) ++
      ((header.extension.map extensionBytes).getD [] ++ payload))
  have hseqLt := header.sequenceNum.toNat_lt
  have htimeLt := header.timestamp.toNat_lt
  rw [headerBytes_append, sequenceNumField, timestampField]
  simp only [List.drop_succ_cons, List.drop_zero]
  rw [hseq, htime, loadBE_storeBE, loadBE_storeBE]
  omega

/-- The packets before the `k`-th whose sequence number is the last before it
wraps. -/
def wrapsBefore (sequenceNum : UInt16) (k : ℕ) : ℕ :=
  Nat.count (fun j => (sequenceNum.toNat + j) % 2 ^ 16 = 2 ^ 16 - 1) k

/-- The wraps so far are the laps of the count. -/
theorem wrapsBefore_eq (sequenceNum : UInt16) (k : ℕ) :
    wrapsBefore sequenceNum k = (sequenceNum.toNat + k) / 2 ^ 16 := by
  have hseq := sequenceNum.toNat_lt
  induction k with
  | zero =>
    rw [wrapsBefore, Nat.count_zero]
    omega
  | succ k ih =>
    rw [wrapsBefore] at ih ⊢
    rw [Nat.count_succ, ih]
    split <;> omega

/-- A call builds its packet as the `k`-th of a stream that starts at the given
sequence number and timestamp. -/
structure Numbered (ency : Option IEncryptionStrategy) (sequenceNum : UInt16)
    (timestamp timestampIncrement : UInt32) (k : ℕ) (p : RTPPacketizer) (bytes : List UInt8) :
    Prop where
  /-- The sequence number, from the first one on. -/
  sequence : sequenceNumField bytes = (sequenceNum.toNat + k) % 2 ^ 16
  /-- The timestamp, one increment a packet. -/
  time : timestampField bytes = (timestamp.toNat + k * timestampIncrement.toNat) % 2 ^ 32
  /-- The index passed to `encrypt`, which is called when there is a strategy. -/
  index : ency ≠ none → ∀ index, p.EncryptsUnder index →
    index.toNat = (sequenceNum.toNat + k) % 2 ^ 48
  /-- The same index, from the wraps before the packet. -/
  rollover : ency ≠ none → ∀ index, p.EncryptsUnder index →
    index.toNat = wrapsBefore sequenceNum k % 2 ^ 32 * 2 ^ 16 + sequenceNumField bytes

namespace RTPPacketizer

/-- The index of a packetizer that stands at a count: it is that count, but at
the last sequence number of a lap it is a lap ahead. -/
theorem packetIndex_eq_iff {p : RTPPacketizer} {n : ℕ} (hposition : p.position = n % 2 ^ 48) :
    p.packetIndex.toNat = n % 2 ^ 48 ↔ n % 2 ^ 16 ≠ 2 ^ 16 - 1 := by
  rw [packetIndex_toNat, index, advance_roc_toNat, sequenceNum_toNat, hposition]
  omega

/-- A call that builds its packet advances the timestamp. -/
theorem timestamp_packetize {p : RTPPacketizer} {payload outBuffer : List UInt8}
    {ency : Option IEncryptionStrategy} (h : (p.packetize payload outBuffer ency).size ≠ 0) :
    (p.packetize payload outBuffer ency).packetizer.timestamp =
      p.timestamp + p.timestampIncrement := by
  unfold packetize at h ⊢
  dsimp only at h ⊢
  split
  · rfl
  · rename_i hnone
    simp only [hnone, ne_eq, not_true_eq_false] at h

/-- A packet keeps the increment of the timestamp. -/
theorem timestampIncrement_packetize (p : RTPPacketizer) (payload outBuffer : List UInt8)
    (ency : Option IEncryptionStrategy) :
    (p.packetize payload outBuffer ency).packetizer.timestampIncrement =
      p.timestampIncrement := by
  unfold packetize
  dsimp only
  split <;> rfl

end RTPPacketizer

/-- The packetizer that the `k`-th call finds, when the calls before it build
their packets, is `k` increments on. -/
theorem runCalls_timestamp {ency : Option IEncryptionStrategy} {p q : RTPPacketizer}
    {calls : List Call} {c : Call} {k : ℕ}
    (hall : ∀ call ∈ runCalls ency p calls, (datagram ency call).isSome)
    (h : (runCalls ency p calls)[k]? = some (q, c)) :
    q.timestamp.toNat = (p.timestamp.toNat + k * p.timestampIncrement.toNat) % 2 ^ 32 := by
  induction calls generalizing p k with
  | nil => simp [runCalls] at h
  | cons d ds ih =>
    rw [runCalls, List.forall_mem_cons] at hall
    cases k with
    | zero =>
      simp only [runCalls, List.getElem?_cons_zero, Option.some.injEq, Prod.mk.injEq] at h
      have htime := p.timestamp.toNat_lt
      rw [← h.1]
      omega
    | succ k =>
      simp only [runCalls, List.getElem?_cons_succ] at h
      have hbuilt : (p.packetize d.payload d.outBuffer ency).size ≠ 0 := by
        intro hsize
        simp [datagram, hsize] at hall
      have hrest := ih hall.2 h
      rw [RTPPacketizer.timestamp_packetize hbuilt, RTPPacketizer.timestampIncrement_packetize,
        UInt32.toNat_add] at hrest
      rw [hrest, Nat.add_mul, Nat.one_mul]
      omega

/-- The `k`-th packet has the numbers of the `k`-th packet if and only if it is not encrypted
or its sequence number is not the last before it wraps. The index is the one that the call
gives to `encrypt` (`encryptsUnder_iff`, `payload_eq_process_consumed`). -/
theorem numbered_iff (ency : Option IEncryptionStrategy) (payloadType : UInt8)
    (ssrc timestampIncrement : UInt32) (sequenceNum : UInt16) (timestamp : UInt32)
    {calls : List Call} {k : ℕ} {call : RTPPacketizer × Call} {bytes : List UInt8}
    (hall : ∀ call ∈ runCalls ency
      (create payloadType ssrc timestampIncrement sequenceNum timestamp) calls,
        (datagram ency call).isSome)
    (hcall : (runCalls ency
      (create payloadType ssrc timestampIncrement sequenceNum timestamp) calls)[k]? = some call)
    (hbytes : datagram ency call = some bytes) :
    Numbered ency sequenceNum timestamp timestampIncrement k call.1 bytes ↔
      ency = none ∨ (sequenceNum.toNat + k) % 2 ^ 16 ≠ 65535 := by
  obtain ⟨p, c⟩ := call
  have hposition := (runCalls_position hcall).1
  have htimestamp := runCalls_timestamp hall hcall
  have hstart : (create payloadType ssrc timestampIncrement sequenceNum timestamp).position =
      sequenceNum.toNat := by
    simp [RTPPacketizer.position, create]
  rw [hstart] at hposition
  have hfields := fields_headerBytes p.header (p.packetize c.payload c.outBuffer ency).payload
  rw [← datagram_eq hbytes] at hfields
  have hsequence : sequenceNumField bytes = (sequenceNum.toNat + k) % 2 ^ 16 := by
    rw [hfields.1]
    change p.sequenceNum.toNat = _
    rw [RTPPacketizer.sequenceNum_toNat, hposition]
    omega
  have hindex := RTPPacketizer.packetIndex_eq_iff hposition
  constructor
  · intro hnumbered
    rcases Option.eq_none_or_eq_some ency with hplain | ⟨strategy, hsome⟩
    · exact .inl hplain
    · right
      have hency : ency ≠ none := hsome.trans_ne (Option.some_ne_none strategy)
      exact hindex.mp (hnumbered.index hency _ (RTPPacketizer.encryptsUnder_iff.mpr rfl))
  · intro hholds
    have hcounted : ency ≠ none → ∀ index, p.EncryptsUnder index →
        index.toNat = (sequenceNum.toNat + k) % 2 ^ 48 := by
      intro hency index hpassed
      rw [RTPPacketizer.encryptsUnder_iff.mp hpassed]
      exact hindex.mpr (hholds.resolve_left hency)
    refine ⟨hsequence, hfields.2.trans htimestamp, hcounted, fun hency index hpassed => ?_⟩
    rw [hcounted hency index hpassed, hsequence, wrapsBefore_eq]
    omega

/-- The second packet of an encrypted stream, whose sequence number has just wrapped. -/
theorem numbered_iff_second :
    ∃ call bytes, (runCalls (some (rolloverStrategy.strategy ⟨rolloverAes, fun _ _ => none⟩))
        (create 8 7 160 65535 4294967200)
        [⟨[213], List.replicate 13 0⟩, ⟨[85], List.replicate 13 0⟩])[1]? = some call ∧
      datagram (some (rolloverStrategy.strategy ⟨rolloverAes, fun _ _ => none⟩)) call =
        some bytes ∧
      Numbered (some (rolloverStrategy.strategy ⟨rolloverAes, fun _ _ => none⟩)) 65535 4294967200
        160 1 call.1 bytes := by
  refine ⟨_, _, rfl, rfl, ?_⟩
  refine (@numbered_iff (some (rolloverStrategy.strategy ⟨rolloverAes, fun _ _ => none⟩)) 8 7 160
    65535 4294967200 [⟨[213], List.replicate 13 0⟩, ⟨[85], List.replicate 13 0⟩] 1 _ _ ?_ rfl
    rfl).mpr (.inr (by decide))
  decide

/-- The packet with the last sequence number is encrypted under an index of the
next lap. -/
theorem numbered_last_number :
    ∃ call bytes, (runCalls (some (rolloverStrategy.strategy ⟨rolloverAes, fun _ _ => none⟩))
        (create 8 7 160 65535 0) [⟨[213], List.replicate 13 0⟩])[0]? = some call ∧
      datagram (some (rolloverStrategy.strategy ⟨rolloverAes, fun _ _ => none⟩)) call =
        some bytes ∧ sequenceNumField bytes = 65535 ∧ call.1.EncryptsUnder 131071 ∧
      ¬Numbered (some (rolloverStrategy.strategy ⟨rolloverAes, fun _ _ => none⟩)) 65535 0 160 0
        call.1 bytes := by
  refine ⟨_, _, rfl, rfl, rfl, RTPPacketizer.encryptsUnder_iff.mpr rfl, ?_⟩
  intro hnumbered
  have hindex := hnumbered.index (Option.some_ne_none _) 131071
    (RTPPacketizer.encryptsUnder_iff.mpr rfl)
  exact absurd hindex (by decide)

end HermesFlow.Rtp
