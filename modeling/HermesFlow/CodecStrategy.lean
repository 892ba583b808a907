import HermesFlow.ByteOrder
import HermesFlow.Types

/-!
# Samples and the A-law codec

PCM bytes are read as 16-bit samples, and each sample is encoded by the entry
that `make_encode_table` computes for it.
-/

namespace HermesFlow.Audio

open ByteOrder

/-- `pcm::as_samples` on a little-endian host; an odd byte at the end is left out. -/
def asSamples : List UInt8 → List ℤ
  | low :: high :: bytes => Int.bmod (loadLE [low, high]) (2 ^ 16) :: asSamples bytes
  | _ => []

/-- Two bytes make a sample. -/
theorem length_asSamples (bytes : List UInt8) :
    (asSamples bytes).length = bytes.length / 2 := by
  induction bytes using asSamples.induct with
  | case1 low high bytes ih =>
    rw [asSamples, List.length_cons, ih, List.length_cons, List.length_cons]
    omega
  | case2 bytes hshort =>
    have hlt : bytes.length < 2 := by
      by_contra hlong
      match bytes, hshort with
      | low :: high :: rest, hshort => exact hshort low high rest rfl
      | [_], _ => simp at hlong
      | [], _ => simp at hlong
    rw [asSamples, List.length_nil, Nat.div_eq_of_lt hlt]
    exact hshort

namespace Alaw

/-- Every second bit is inverted on the wire. -/
def BASE_ALAW_MASK : UInt8 := 0b01010101
/-- The bit of the sign. -/
def SIGN_BIT_MASK : UInt8 := 0b10000000

/-- `SEGMENT_EDGES`. -/
def SEGMENT_EDGES : List ℤ := [0xFF, 0x1FF, 0x3FF, 0x7FF, 0xFFF, 0x1FFF, 0x3FFF, 0x7FFF]

/-- The entry of `make_encode_table` for a sample. -/
def encodeEntry (pcmSample : ℤ) : UInt8 :=
  let alawMask := if pcmSample ≥ 0 then BASE_ALAW_MASK ||| SIGN_BIT_MASK else BASE_ALAW_MASK
  let normalizedPcmSample := if pcmSample ≥ 0 then pcmSample else -pcmSample - 8
  let segmentIdx := SEGMENT_EDGES.findIdx (normalizedPcmSample ≤ ·)
  let unmaskedAlawSample : UInt8 :=
    if segmentIdx = SEGMENT_EDGES.length then 0b01111111
    else
      let pcmShift := if segmentIdx = 0 then 4 else 3 + segmentIdx
      let shiftedPcm := (normalizedPcmSample >>> pcmShift) % 16
      UInt8.ofNat shiftedPcm.toNat ||| UInt8.ofNat (segmentIdx * 16)
  unmaskedAlawSample ^^^ alawMask

end Alaw

/-- `encode_alaw`, to an output with room for the samples. -/
def encodeAlaw (pcm : List ℤ) : List UInt8 := pcm.map Alaw.encodeEntry

namespace ALawCodecStrategy

/-- `encode`: the output buffer after the call and the size returned. -/
def encode (pcm outBuffer : List UInt8) : List UInt8 × ℕ :=
  let sampleCount := pcm.length / BYTES_PER_SAMPLE
  if outBuffer.length < sampleCount then (outBuffer, 0)
  else (encodeAlaw (asSamples pcm) ++ outBuffer.drop sampleCount, sampleCount)

/-- `get_payload_type`: PCMA. -/
def getPayloadType : UInt8 := 8

/-- `get_timestamp_increment`. -/
def getTimestampIncrement (pcmByteSize : ℕ) : UInt32 := UInt32.ofNat (pcmByteSize / BYTES_PER_SAMPLE)

/-- Encoding keeps the size of the output buffer. -/
theorem length_encode (pcm outBuffer : List UInt8) :
    (encode pcm outBuffer).1.length = outBuffer.length := by
  unfold encode
  dsimp only
  split
  · rfl
  · rename_i hroom
    rw [List.length_append, encodeAlaw, List.length_map, length_asSamples, List.length_drop]
    unfold BYTES_PER_SAMPLE at hroom ⊢
    omega

/-- A frame that is not encoded leaves the output buffer as it is. -/
theorem encode_of_size_zero {pcm outBuffer : List UInt8} (h : (encode pcm outBuffer).2 = 0) :
    (encode pcm outBuffer).1 = outBuffer := by
  unfold encode at h ⊢
  dsimp only at h ⊢
  split
  · rfl
  · rename_i hroom
    rw [if_neg hroom] at h
    have hcount : pcm.length / BYTES_PER_SAMPLE = 0 := h
    have hnil : asSamples pcm = [] := by
      rw [← List.length_eq_zero_iff, length_asSamples]
      exact hcount
    rw [hnil, hcount, encodeAlaw, List.map_nil, List.nil_append, List.drop_zero]

end ALawCodecStrategy

end HermesFlow.Audio
