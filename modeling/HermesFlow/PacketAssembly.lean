import HermesFlow.PacketNumbering
import HermesFlow.PacketRing

/-!
# Packets that are built and packets that are refused

What a call of `packetize` or `packet_to_rtp` leaves and returns, by whether
its packet fits the buffer, and the packets that a sequence of both emits. An
encryptor works in the span it is given.
-/

namespace HermesFlow.Rtp

open Audio Crypto

/-- The payload as the encryptor leaves it, if there is one. -/
def encrypted (ency : Option IEncryptionStrategy) (payload : List UInt8) (packetIndex : UInt64) :
    List UInt8 :=
  match ency with
  | some strategy => (strategy.encrypt payload packetIndex).1
  | none => payload

/-- The encryptor writes in the span of the payload, which keeps its size. -/
def KeepsSpan (ency : Option IEncryptionStrategy) : Prop :=
  ∀ strategy ∈ ency, ∀ pcm index, (strategy.encrypt pcm index).1.length = pcm.length

/-- A payload keeps its length. -/
theorem length_encrypted {ency : Option IEncryptionStrategy} (hspan : KeepsSpan ency)
    (payload : List UInt8) (packetIndex : UInt64) :
    (encrypted ency payload packetIndex).length = payload.length := by
  cases ency with
  | none => rfl
  | some strategy => exact hspan strategy rfl payload packetIndex

/-- AES in counter mode works in place. -/
theorem keepsSpan_strategy {cryptopp : CryptoPP} (hplace : cryptopp.InPlace)
    (aes : AESEncryptionStrategy) : KeepsSpan (some (aes.strategy cryptopp)) := by
  intro strategy hstrategy
  cases hstrategy
  exact AESEncryptionStrategy.length_encrypt hplace aes

namespace RTPPacketizer

/-- A header of the server takes its fixed bytes. -/
theorem length_header (p : RTPPacketizer) : (headerBytes p.header).length = RTP_HEADER_SIZE := by
  have hbytes := RTPPacket.length_bytes ⟨p.header, []⟩
  rw [List.append_nil] at hbytes
  exact hbytes

/-- The packetizer after a packet that is built. -/
def next (p : RTPPacketizer) : RTPPacketizer :=
  { p.advance with timestamp := p.timestamp + p.timestampIncrement }

variable {ency : Option IEncryptionStrategy} {p : RTPPacketizer}

/-- The size that `to_buffer` computes. -/
theorem bufferSize_encrypted (hspan : KeepsSpan ency) (payload : List UInt8) :
    (⟨p.header, encrypted ency payload p.packetIndex⟩ : RTPPacket).bufferSize =
      RTP_HEADER_SIZE + payload.length := by
  have hbytes := RTPPacket.length_bytes ⟨p.header, encrypted ency payload p.packetIndex⟩
  rw [List.length_append, length_header, length_encrypted hspan] at hbytes
  exact hbytes.symm

/-- What `packetize` leaves, by what `to_buffer` returns. -/
theorem packetize_eq (payload outBuffer : List UInt8) :
    p.packetize payload outBuffer ency =
      match (⟨p.header, encrypted ency payload p.packetIndex⟩ : RTPPacket).toBuffer outBuffer with
      | some (buffer, size) => ⟨p.next, encrypted ency payload p.packetIndex, buffer, size⟩
      | none => ⟨p.advance, encrypted ency payload p.packetIndex, outBuffer, 0⟩ := by
  cases ency with
  | none => rfl
  | some strategy => rfl

/-- A payload that fits behind the header. -/
theorem packetize_of_fits (hspan : KeepsSpan ency) {payload outBuffer : List UInt8}
    (hfits : RTP_HEADER_SIZE + payload.length ≤ outBuffer.length) :
    p.packetize payload outBuffer ency =
      ⟨p.next, encrypted ency payload p.packetIndex,
        headerBytes p.header ++ encrypted ency payload p.packetIndex ++
          outBuffer.drop (RTP_HEADER_SIZE + payload.length),
        RTP_HEADER_SIZE + payload.length⟩ := by
  have hsize := bufferSize_encrypted (p := p) hspan payload
  have hbuffer : (⟨p.header, encrypted ency payload p.packetIndex⟩ : RTPPacket).toBuffer
      outBuffer = some (headerBytes p.header ++ encrypted ency payload p.packetIndex ++
        outBuffer.drop (RTP_HEADER_SIZE + payload.length), RTP_HEADER_SIZE + payload.length) := by
    rw [RTPPacket.toBuffer, hsize, if_neg (by omega)]
  rw [packetize_eq, hbuffer]

/-- A payload that does not fit: the numbers have been drawn all the same. -/
theorem packetize_of_not_fits (hspan : KeepsSpan ency) {payload outBuffer : List UInt8}
    (hfits : outBuffer.length < RTP_HEADER_SIZE + payload.length) :
    p.packetize payload outBuffer ency =
      ⟨p.advance, encrypted ency payload p.packetIndex, outBuffer, 0⟩ := by
  have hsize := bufferSize_encrypted (p := p) hspan payload
  have hbuffer : (⟨p.header, encrypted ency payload p.packetIndex⟩ : RTPPacket).toBuffer
      outBuffer = none := by
    rw [RTPPacket.toBuffer, hsize, if_pos hfits]
  rw [packetize_eq, hbuffer]

end RTPPacketizer

section PacketToRtp

variable {ency : Option IEncryptionStrategy} {p : RTPPacketizer} {pcmFrame outBuffer : List UInt8}

/-- A frame whose samples fit behind the header. -/
theorem packetToRtp_of_fits (hspan : KeepsSpan ency) (hsamples : 0 < pcmFrame.length / 2)
    (hfits : RTP_HEADER_SIZE + pcmFrame.length / 2 ≤ outBuffer.length) :
    packetToRtp pcmFrame p ency outBuffer =
      ⟨p.next, headerBytes p.header ++
        encrypted ency (encodeAlaw (asSamples pcmFrame)) p.packetIndex ++
          outBuffer.drop (RTP_HEADER_SIZE + pcmFrame.length / 2),
        RTP_HEADER_SIZE + pcmFrame.length / 2⟩ := by
  have hlength : (encodeAlaw (asSamples pcmFrame)).length = pcmFrame.length / 2 := by
    rw [encodeAlaw, List.length_map, length_asSamples]
  have hencode : ALawCodecStrategy.encode pcmFrame (outBuffer.drop RTP_HEADER_SIZE) =
      (encodeAlaw (asSamples pcmFrame) ++
        outBuffer.drop (RTP_HEADER_SIZE + pcmFrame.length / 2), pcmFrame.length / 2) := by
    rw [ALawCodecStrategy.encode, BYTES_PER_SAMPLE, List.length_drop, if_neg (by omega),
      List.drop_drop]
  have htake : (encodeAlaw (asSamples pcmFrame) ++
      outBuffer.drop (RTP_HEADER_SIZE + pcmFrame.length / 2)).take (pcmFrame.length / 2) =
        encodeAlaw (asSamples pcmFrame) := List.take_left' hlength
  have hbehind : (outBuffer.take RTP_HEADER_SIZE ++ (encodeAlaw (asSamples pcmFrame) ++
      outBuffer.drop (RTP_HEADER_SIZE + pcmFrame.length / 2))).drop
        (RTP_HEADER_SIZE + pcmFrame.length / 2) =
          outBuffer.drop (RTP_HEADER_SIZE + pcmFrame.length / 2) := by
    rw [← List.append_assoc]
    refine List.drop_left' ?_
    rw [List.length_append, List.length_take, hlength]
    omega
  have hroom : RTP_HEADER_SIZE + (encodeAlaw (asSamples pcmFrame)).length ≤
      (outBuffer.take RTP_HEADER_SIZE ++ (encodeAlaw (asSamples pcmFrame) ++
        outBuffer.drop (RTP_HEADER_SIZE + pcmFrame.length / 2))).length := by
    rw [List.length_append, List.length_take, List.length_append, List.length_drop, hlength]
    omega
  have hpacket := RTPPacketizer.packetize_of_fits (p := p) hspan hroom
  rw [hlength, hbehind] at hpacket
  have hsize : RTP_HEADER_SIZE + pcmFrame.length / 2 ≠ 0 := by omega
  rw [packetToRtp, if_neg (by omega), hencode]
  simp only [if_neg hsamples.ne', htake, hpacket, if_neg hsize]

/-- A frame that has no sample or does not fit is refused before the packetizer
is called. -/
theorem packetToRtp_of_not_fits
    (h : ¬(0 < pcmFrame.length / 2 ∧ RTP_HEADER_SIZE + pcmFrame.length / 2 ≤ outBuffer.length)) :
    packetToRtp pcmFrame p ency outBuffer = ⟨p, outBuffer, 0⟩ := by
  unfold packetToRtp
  split
  · rfl
  · rename_i hheader
    have hrefused : (ALawCodecStrategy.encode pcmFrame (outBuffer.drop RTP_HEADER_SIZE)).2 = 0 := by
      unfold ALawCodecStrategy.encode
      rw [BYTES_PER_SAMPLE, List.length_drop]
      dsimp only
      split
      · rfl
      · dsimp only
        omega
    rw [if_pos hrefused, ALawCodecStrategy.encode_of_size_zero hrefused, List.take_append_drop]

end PacketToRtp

/-- A call that may build a packet. -/
inductive PacketCall where
  /-- `packetize`. -/
  | packetize (payload outBuffer : List UInt8)
  /-- `packet_to_rtp`. -/
  | packetToRtp (pcmFrame outBuffer : List UInt8)
  deriving DecidableEq

namespace PacketCall

/-- What the call leaves and returns. -/
def run (ency : Option IEncryptionStrategy) (p : RTPPacketizer) : PacketCall → Assembled
  | .packetize payload outBuffer =>
    let packetized := p.packetize payload outBuffer ency
    ⟨packetized.packetizer, packetized.outBuffer, packetized.size⟩
  | .packetToRtp pcmFrame outBuffer => Rtp.packetToRtp pcmFrame p ency outBuffer

/-- A payload given to `packetize` has a buffer that is twelve bytes larger;
`packet_to_rtp` makes its own test. -/
def Fits : PacketCall → Prop
  | .packetize payload outBuffer => RTP_HEADER_SIZE + payload.length ≤ outBuffer.length
  | .packetToRtp _ _ => True

instance : DecidablePred Fits
  | .packetize payload outBuffer =>
    inferInstanceAs (Decidable (RTP_HEADER_SIZE + payload.length ≤ outBuffer.length))
  | .packetToRtp _ _ => inferInstanceAs (Decidable True)

variable {ency : Option IEncryptionStrategy} {p : RTPPacketizer} {call : PacketCall}

/-- A call that fits either builds the packet of the packetizer's numbers and
advances them together, or leaves the packetizer as it is. -/
theorem run_of_fits (hspan : KeepsSpan ency) (hfits : call.Fits) :
    ((call.run ency p).size ≠ 0 ∧ (call.run ency p).packetizer = p.next ∧
        ∃ payload, (call.run ency p).outBuffer.take (call.run ency p).size =
          headerBytes p.header ++ payload) ∨
      ((call.run ency p).size = 0 ∧ (call.run ency p).packetizer = p) := by
  cases call with
  | packetize payload outBuffer =>
    have hlength : (headerBytes p.header ++ encrypted ency payload p.packetIndex).length =
        RTP_HEADER_SIZE + payload.length := by
      rw [List.length_append, RTPPacketizer.length_header, length_encrypted hspan]
    left
    simp only [run, RTPPacketizer.packetize_of_fits hspan hfits]
    refine ⟨?_, trivial, encrypted ency payload p.packetIndex, List.take_left' hlength⟩
    rw [RTP_HEADER_SIZE]
    omega
  | packetToRtp pcmFrame outBuffer =>
    by_cases h : 0 < pcmFrame.length / 2 ∧
        RTP_HEADER_SIZE + pcmFrame.length / 2 ≤ outBuffer.length
    · have hlength : (headerBytes p.header ++
          encrypted ency (encodeAlaw (asSamples pcmFrame)) p.packetIndex).length =
            RTP_HEADER_SIZE + pcmFrame.length / 2 := by
        rw [List.length_append, RTPPacketizer.length_header, length_encrypted hspan, encodeAlaw,
          List.length_map, length_asSamples]
      left
      simp only [run, packetToRtp_of_fits hspan h.1 h.2]
      refine ⟨?_, trivial, encrypted ency (encodeAlaw (asSamples pcmFrame)) p.packetIndex,
        List.take_left' hlength⟩
      omega
    · right
      simp only [run, packetToRtp_of_not_fits h, and_self]

/-- A call that does not fit returns 0 and has drawn a sequence number. -/
theorem run_of_not_fits (hspan : KeepsSpan ency) (hfits : ¬call.Fits) :
    (call.run ency p).size = 0 ∧ (call.run ency p).packetizer = p.advance := by
  cases call with
  | packetize payload outBuffer =>
    rw [Fits, Nat.not_le] at hfits
    simp only [run, RTPPacketizer.packetize_of_not_fits hspan hfits, and_self]
  | packetToRtp pcmFrame outBuffer => exact absurd trivial hfits

/-- The calls of a run, each with the packetizer it finds. -/
def found (ency : Option IEncryptionStrategy) :
    RTPPacketizer → List PacketCall → List (RTPPacketizer × PacketCall)
  | _, [] => []
  | p, call :: calls => (p, call) :: found ency (call.run ency p).packetizer calls

/-- The packets of a run: the spans returned that are not empty. -/
def emitted (ency : Option IEncryptionStrategy) : RTPPacketizer → List PacketCall → List (List UInt8)
  | _, [] => []
  | p, call :: calls =>
    let assembled := call.run ency p
    (if assembled.size = 0 then [] else [assembled.outBuffer.take assembled.size]) ++
      emitted ency assembled.packetizer calls

end PacketCall

/-- Calls that return 0 leave no trace in the packets of a run. -/
structure Traceless (ency : Option IEncryptionStrategy) (p : RTPPacketizer)
    (calls : List PacketCall) : Prop where
  /-- A call that returns 0 leaves `sequence_num_`, `roc_` and `timestamp_`. -/
  refused : ∀ call ∈ PacketCall.found ency p calls, (call.2.run ency call.1).size = 0 →
    (call.2.run ency call.1).packetizer.sequenceNum = call.1.sequenceNum ∧
      (call.2.run ency call.1).packetizer.roc = call.1.roc ∧
      (call.2.run ency call.1).packetizer.timestamp = call.1.timestamp
  /-- The packets have consecutive sequence numbers, and timestamps that advance
  with them. -/
  consecutive : ∀ i bytes, (PacketCall.emitted ency p calls)[i]? = some bytes →
    sequenceNumField bytes = (p.sequenceNum.toNat + i) % 2 ^ 16 ∧
      timestampField bytes = (p.timestamp.toNat + i * p.timestampIncrement.toNat) % 2 ^ 32

section Traceless

variable {ency : Option IEncryptionStrategy} {p : RTPPacketizer} {calls : List PacketCall}

/-- The packets of a run whose calls fit. -/
theorem consecutive_of_fits (hspan : KeepsSpan ency) (hfits : ∀ call ∈ calls, call.Fits) :
    ∀ i bytes, (PacketCall.emitted ency p calls)[i]? = some bytes →
      sequenceNumField bytes = (p.sequenceNum.toNat + i) % 2 ^ 16 ∧
        timestampField bytes = (p.timestamp.toNat + i * p.timestampIncrement.toNat) % 2 ^ 32 := by
  induction calls generalizing p with
  | nil =>
    intro i bytes h
    simp [PacketCall.emitted] at h
  | cons call rest ih =>
    intro i bytes h
    rw [List.forall_mem_cons] at hfits
    rw [PacketCall.emitted] at h
    rcases PacketCall.run_of_fits (p := p) hspan hfits.1 with
      ⟨hsize, hnext, payload, hbytes⟩ | ⟨hsize, hsame⟩
    · -- the numbers of the packet, or those of one that comes after it
      rw [if_neg hsize, hnext, hbytes, List.singleton_append] at h
      cases i with
      | zero =>
        rw [List.getElem?_cons_zero, Option.some.injEq] at h
        obtain ⟨hseq, htime⟩ := fields_headerBytes p.header payload
        have hseqLt := p.sequenceNum.toNat_lt
        have htimeLt := p.timestamp.toNat_lt
        have hseqHeader : p.header.sequenceNum = p.sequenceNum := rfl
        have htimeHeader : p.header.timestamp = p.timestamp := rfl
        rw [← h, hseq, htime, hseqHeader, htimeHeader]
        omega
      | succ i =>
        rw [List.getElem?_cons_succ] at h
        obtain ⟨hseq, htime⟩ := ih hfits.2 i bytes h
        have hseqNext : p.next.sequenceNum.toNat = (p.sequenceNum.toNat + 1) % 2 ^ 16 :=
          UInt16.toNat_add p.sequenceNum 1
        have htimeNext : p.next.timestamp.toNat =
            (p.timestamp.toNat + p.timestampIncrement.toNat) % 2 ^ 32 :=
          UInt32.toNat_add p.timestamp p.timestampIncrement
        have hincrement : p.next.timestampIncrement = p.timestampIncrement := rfl
        rw [hseq, htime, hseqNext, htimeNext, hincrement, Nat.add_mul, Nat.one_mul]
        omega
    · rw [if_pos hsize, hsame, List.nil_append] at h
      exact ih hfits.2 i bytes h

/-- A packetizer that has drawn a number is not as it was. -/
theorem sequenceNum_advance (p : RTPPacketizer) : p.advance.sequenceNum ≠ p.sequenceNum := by
  have hnext : p.advance.sequenceNum.toNat = (p.sequenceNum.toNat + 1) % 2 ^ 16 :=
    UInt16.toNat_add p.sequenceNum 1
  have hseq := p.sequenceNum.toNat_lt
  intro h
  rw [h] at hnext
  omega

/-- No refused packet leaves a trace if and only if every buffer given to
`packetize` is twelve bytes larger than its payload. -/
theorem traceless_iff (hspan : KeepsSpan ency) (p : RTPPacketizer) (calls : List PacketCall) :
    Traceless ency p calls ↔ ∀ call ∈ calls, call.Fits := by
  constructor
  · intro htraceless
    have hrefused := htraceless.refused
    clear htraceless
    induction calls generalizing p with
    | nil => exact fun call h => absurd h List.not_mem_nil
    | cons call rest ih =>
      rw [PacketCall.found, List.forall_mem_cons] at hrefused
      rw [List.forall_mem_cons]
      refine ⟨?_, ih _ hrefused.2⟩
      by_contra hfits
      obtain ⟨hsize, hadvance⟩ := PacketCall.run_of_not_fits (p := p) hspan hfits
      have hsame := (hrefused.1 hsize).1
      rw [hadvance] at hsame
      exact sequenceNum_advance p hsame
  · intro hfits
    refine ⟨?_, consecutive_of_fits hspan hfits⟩
    induction calls generalizing p with
    | nil => exact fun call h => absurd h List.not_mem_nil
    | cons call rest ih =>
      rw [List.forall_mem_cons] at hfits
      rw [PacketCall.found, List.forall_mem_cons]
      refine ⟨?_, ih _ hfits.2⟩
      intro hsize
      rcases PacketCall.run_of_fits (p := p) hspan hfits.1 with ⟨hbuilt, -⟩ | ⟨-, hsame⟩
      · exact absurd hsize hbuilt
      · rw [hsame]
        exact ⟨rfl, rfl, rfl⟩

/-- An encrypted call of each kind, with a buffer that fits. -/
theorem traceless_iff_two_calls :
    Traceless (some exampleEncryptor) (create 8 1 160 10 0)
        [.packetize [213] (List.replicate 13 0), .packetToRtp [0, 0] (List.replicate 12 0)] ↔
      ∀ call ∈ [PacketCall.packetize [213] (List.replicate 13 0),
        .packetToRtp [0, 0] (List.replicate 12 0)], call.Fits :=
  traceless_iff (keepsSpan_strategy inPlace_exampleAes exampleStrategy) (create 8 1 160 10 0) _

/-- A packet that does not fit its buffer uses up a sequence number: the next
one follows with a gap, and with the timestamp of the first. -/
theorem refused_packet_leaves_gap :
    ((create 8 7 160 5 0).packetize [213] [] none).size = 0 ∧
      ((create 8 7 160 5 0).packetize [213] [] none).packetizer.sequenceNum = 6 ∧
      ((create 8 7 160 5 0).packetize [213] [] none).packetizer.timestamp = 0 ∧
      ¬Traceless none (create 8 7 160 5 0) [.packetize [213] []] := by
  refine ⟨by decide, by decide, by decide, ?_⟩
  intro htraceless
  have hsame := (htraceless.refused _ (List.mem_singleton.mpr rfl) (by decide)).1
  exact absurd hsame (by decide)

end Traceless

end HermesFlow.Rtp
