import HermesFlow.CheckedBuffer
import HermesFlow.PacketAssembly
import HermesFlow.PacketRoundTrip

/-!
# Packets assembled in one buffer

`packet_to_rtp` with its output as one buffer of bytes. The encoder, the
encryptor and `to_buffer` work on views of it, given by an offset and a size,
and each byte is written where and when the source writes it. The frame lies
outside the buffer.
-/

namespace HermesFlow.Rtp

open Audio ByteOrder CheckedBuffer Crypto

/-- A view of the buffer: `subspan` and `first`. -/
structure Span where
  /-- Where it starts. -/
  offset : ℕ
  /-- Its size. -/
  size : ℕ

namespace InPlace

/-- `encode_alaw`: one store a sample, if the output has room. -/
def encodeAlaw (pcm : List ℤ) (alawOut : Span) (buf : List UInt8) : Option (List UInt8) :=
  if pcm.length > alawOut.size then some buf
  else storeAll buf alawOut.offset (pcm.map Alaw.encodeEntry)

/-- `ALawCodecStrategy::encode`: the buffer and the size returned. -/
def encode (pcm : List UInt8) (outBuffer : Span) (buf : List UInt8) :
    Option (List UInt8 × ℕ) := do
  let sampleCount := pcm.length / BYTES_PER_SAMPLE
  if outBuffer.size < sampleCount then return (buf, 0)
  let samples := asSamples pcm
  let buf ← encodeAlaw samples outBuffer buf
  return (buf, sampleCount)

/-- `encrypt` on a view: the bytes it holds are replaced. -/
def encrypt (strategy : IEncryptionStrategy) (pcm : Span) (packetIndex : UInt64)
    (buf : List UInt8) : Option (List UInt8) := do
  let bytes ← load buf pcm.offset pcm.size
  storeAll buf pcm.offset (strategy.encrypt bytes packetIndex).1

/-- The payload encrypted if there is an encryptor. -/
def encryptPayload (ency : Option IEncryptionStrategy) (payload : Span) (packetIndex : UInt64)
    (buf : List UInt8) : Option (List UInt8) :=
  match ency with
  | some strategy => encrypt strategy payload packetIndex buf
  | none => some buf

/-- Bytes written at `bufPtr`, and the pointer after them. -/
def put (bytes : List UInt8) (cursor : List UInt8 × ℕ) : Option (List UInt8 × ℕ) := do
  let buf ← storeAll cursor.1 cursor.2 bytes
  return (buf, cursor.2 + bytes.length)

/-- The loop over words of 32 bits. -/
def putWords (words : List UInt32) (cursor : List UInt8 × ℕ) : Option (List UInt8 × ℕ) :=
  match words with
  | [] => some cursor
  | word :: words => do
    let cursor ← put (storeBE 4 word.toNat) cursor
    putWords words cursor

/-- The extension of `to_buffer`. -/
def putExtension (extension : Extension) (cursor : List UInt8 × ℕ) :
    Option (List UInt8 × ℕ) := do
  let cursor ← put (storeBE 2 extension.id.toNat) cursor
  let cursor ← put (storeBE 2 extension.data.length) cursor
  putWords extension.data cursor

/-- The header of `to_buffer`, field by field. -/
def putHeader (header : Header) (cursor : List UInt8 × ℕ) : Option (List UInt8 × ℕ) := do
  let cursor ← put [firstOctet header] cursor
  let cursor ← put [secondOctet header] cursor
  let cursor ← put (storeBE 2 header.sequenceNum.toNat) cursor
  let cursor ← put (storeBE 4 header.timestamp.toNat) cursor
  let cursor ← put (storeBE 4 header.ssrc.toNat) cursor
  let cursor ← putWords header.csrcList cursor
  match header.extension with
  | some extension => putExtension extension cursor
  | none => some cursor

/-- `to_buffer` for a payload in the buffer it writes: the header over the first
bytes, and then `memcpy`. -/
def toBuffer (header : Header) (payload packetBuffer : Span) (buf : List UInt8) :
    Option (List UInt8 × Option Span) := do
  let csrcListSize := header.csrcList.length * 4
  let extensionSize := match header.extension with
    | some extension => MINIMUM_EXTENSION_SIZE + extension.data.length * 4
    | none => 0
  let bufferSize := MINIMUM_HEADER_SIZE + csrcListSize + extensionSize + payload.size
  if bufferSize > packetBuffer.size then return (buf, none)
  let (buf, bufPtr) ← putHeader header (buf, packetBuffer.offset)
  let buf ← copy buf bufPtr payload.offset payload.size
  return (buf, some ⟨packetBuffer.offset, bufferSize⟩)

/-- `packetize` for views of one buffer. -/
def packetize (p : RTPPacketizer) (payload outBuffer : Span)
    (ency : Option IEncryptionStrategy) (buf : List UInt8) : Option Assembled := do
  let buf ← encryptPayload ency payload p.packetIndex buf
  let (buf, maybeSpan) ← toBuffer p.header payload outBuffer buf
  match maybeSpan with
  | some span => return ⟨p.next, buf, span.size⟩
  | none => return ⟨p.advance, buf, 0⟩

/-- `packet_to_rtp` on one buffer. -/
def packetToRtp (pcmFrame : List UInt8) (packetizer : RTPPacketizer)
    (encryptor : Option IEncryptionStrategy) (buf : List UInt8) : Option Assembled := do
  let outBuffer : Span := ⟨0, buf.length⟩
  if outBuffer.size < RTP_HEADER_SIZE then return ⟨packetizer, buf, 0⟩
  let payloadBuffer : Span := ⟨outBuffer.offset + RTP_HEADER_SIZE, outBuffer.size - RTP_HEADER_SIZE⟩
  let (buf, encodedSize) ← encode pcmFrame payloadBuffer buf
  if encodedSize = 0 then return ⟨packetizer, buf, 0⟩
  let actualPayload : Span := ⟨payloadBuffer.offset, encodedSize⟩
  packetize packetizer actualPayload outBuffer encryptor buf

/-- Writing two runs of bytes is writing them as one. -/
theorem put_append (bytes bytes' : List UInt8) (cursor : List UInt8 × ℕ) :
    (put bytes cursor).bind (put bytes') = put (bytes ++ bytes') cursor := by
  unfold put
  rw [storeAll_append, List.length_append, ← Nat.add_assoc]
  cases storeAll cursor.1 cursor.2 bytes with
  | none => rfl
  | some buf => rfl

/-- Words put one after the other are their bytes put at once. -/
theorem putWords_eq (words : List UInt32) (cursor : List UInt8 × ℕ) :
    putWords words cursor = put (words.flatMap fun word => storeBE 4 word.toNat) cursor := by
  induction words generalizing cursor with
  | nil => rfl
  | cons word words ih =>
    rw [List.flatMap_cons, ← put_append, putWords, Option.bind_eq_bind]
    congr 1
    funext cursor
    exact ih cursor

/-- An extension put piece by piece is its bytes put at once. -/
theorem putExtension_eq (extension : Extension) (cursor : List UInt8 × ℕ) :
    putExtension extension cursor = put (extensionBytes extension) cursor := by
  simp only [putExtension, extensionBytes, Option.bind_eq_bind, putWords_eq, ← put_append,
    Option.bind_assoc]

/-- The fields are written one behind the other. -/
theorem putHeader_eq (header : Header) (cursor : List UInt8 × ℕ) :
    putHeader header cursor = put (headerBytes header) cursor := by
  have hoctets : [firstOctet header, secondOctet header] =
      [firstOctet header] ++ [secondOctet header] := rfl
  have hextension : ∀ cursor : List UInt8 × ℕ, (match header.extension with
      | some extension => putExtension extension cursor
      | none => some cursor) = put ((header.extension.map extensionBytes).getD []) cursor := by
    intro cursor
    cases header.extension with
    | none => rfl
    | some extension => exact putExtension_eq extension cursor
  simp only [putHeader, headerBytes, Option.bind_eq_bind, putWords_eq, hoctets, ← put_append,
    Option.bind_assoc, hextension]

section Stages

variable {ency : Option IEncryptionStrategy} {p : RTPPacketizer} {head body rest : List UInt8}

/-- The encoder fills the bytes behind the header. -/
theorem encode_eq {pcm : List UInt8} (hbody : body.length = pcm.length / 2) :
    encode pcm ⟨head.length, body.length + rest.length⟩ (head ++ (body ++ rest)) =
      some (head ++ (Audio.encodeAlaw (asSamples pcm) ++ rest), pcm.length / 2) := by
  have hencoded : ((asSamples pcm).map Alaw.encodeEntry).length = body.length := by
    rw [List.length_map, length_asSamples, hbody]
  have hroom : ¬(body.length + rest.length < pcm.length / BYTES_PER_SAMPLE) := by
    rw [BYTES_PER_SAMPLE]
    omega
  have hroom' : ¬(asSamples pcm).length > body.length + rest.length := by
    rw [length_asSamples]
    omega
  simp only [encode, if_neg hroom, encodeAlaw, if_neg hroom', storeAll_middle hencoded,
    Option.bind_eq_bind, Option.bind_some]
  rfl

/-- The encryptor replaces the payload where it is. -/
theorem encryptPayload_eq (hspan : KeepsSpan ency) (packetIndex : UInt64) :
    encryptPayload ency ⟨head.length, body.length⟩ packetIndex (head ++ (body ++ rest)) =
      some (head ++ (encrypted ency body packetIndex ++ rest)) := by
  cases ency with
  | none => rfl
  | some strategy =>
    simp only [encryptPayload, encrypt, load_middle, Option.bind_eq_bind, Option.bind_some]
    exact storeAll_middle (hspan strategy rfl body packetIndex) head rest

/-- `to_buffer` writes the header over the bytes before the payload, and the
payload onto itself. -/
theorem toBuffer_eq (hhead : head.length = RTP_HEADER_SIZE) :
    toBuffer p.header ⟨head.length, body.length⟩ ⟨0, (head ++ (body ++ rest)).length⟩
        (head ++ (body ++ rest)) =
      some (headerBytes p.header ++ (body ++ rest),
        some ⟨0, RTP_HEADER_SIZE + body.length⟩) := by
  have hheader := p.length_header
  have hlength : (head ++ (body ++ rest)).length =
      RTP_HEADER_SIZE + (body.length + rest.length) := by
    rw [List.length_append, List.length_append, hhead]
  have hsize : MINIMUM_HEADER_SIZE + 0 * 4 + 0 + body.length = RTP_HEADER_SIZE + body.length := rfl
  have hroom : ¬RTP_HEADER_SIZE + body.length > RTP_HEADER_SIZE + (body.length + rest.length) := by
    omega
  have hput : put (headerBytes p.header) (head ++ (body ++ rest), 0) =
      some (headerBytes p.header ++ (body ++ rest), RTP_HEADER_SIZE) := by
    have hstore := storeAll_middle (hheader.trans hhead.symm) [] (body ++ rest)
    rw [List.nil_append, List.nil_append, List.length_nil] at hstore
    simp only [put, hstore, Option.bind_eq_bind, Option.bind_some, hheader, Nat.zero_add]
    rfl
  have hcopy : copy (headerBytes p.header ++ (body ++ rest)) RTP_HEADER_SIZE head.length
      body.length = some (headerBytes p.header ++ (body ++ rest)) := by
    rw [hhead]
    refine copy_self ?_
    rw [List.length_append, List.length_append, hheader]
    omega
  have hcsrcs : p.header.csrcList.length = 0 := rfl
  have hextension : p.header.extension = none := rfl
  simp only [toBuffer, hcsrcs, hextension, hsize, hlength, if_neg hroom, putHeader_eq, hput,
    hcopy, Option.bind_eq_bind, Option.bind_some]
  rfl

/-- `packetize` on a payload that stands behind the room for its header. -/
theorem packetize_eq (hspan : KeepsSpan ency) (hhead : head.length = RTP_HEADER_SIZE) :
    packetize p ⟨head.length, body.length⟩ ⟨0, (head ++ (body ++ rest)).length⟩ ency
        (head ++ (body ++ rest)) =
      some ⟨p.next, headerBytes p.header ++ (encrypted ency body p.packetIndex ++ rest),
        RTP_HEADER_SIZE + body.length⟩ := by
  have hlength := length_encrypted hspan body p.packetIndex
  have hbuffer := @toBuffer_eq p head (encrypted ency body p.packetIndex) rest hhead
  have hsame : (head ++ (encrypted ency body p.packetIndex ++ rest)).length =
      (head ++ (body ++ rest)).length := by
    simp only [List.length_append, hlength]
  rw [hlength, hsame] at hbuffer
  simp only [packetize, encryptPayload_eq hspan, Option.bind_eq_bind, Option.bind_some, hbuffer]
  rfl

end Stages

/-- The buffer as the room for the header, the room for the payload and the rest. -/
theorem exists_parts {size : ℕ} {buf : List UInt8} (hroom : RTP_HEADER_SIZE + size ≤ buf.length) :
    ∃ head body rest : List UInt8, buf = head ++ (body ++ rest) ∧
      head.length = RTP_HEADER_SIZE ∧ body.length = size := by
  refine ⟨buf.take RTP_HEADER_SIZE, (buf.drop RTP_HEADER_SIZE).take size,
    (buf.drop RTP_HEADER_SIZE).drop size, ?_, ?_, ?_⟩
  · rw [List.take_append_drop, List.take_append_drop]
  · rw [List.length_take]
    omega
  · rw [List.length_take, List.length_drop]
    omega

/-- A frame that has no sample or does not fit is not encoded. -/
theorem encode_of_not_fits {pcmFrame buf : List UInt8} (hheader : ¬buf.length < RTP_HEADER_SIZE)
    (h : ¬(0 < pcmFrame.length / 2 ∧ RTP_HEADER_SIZE + pcmFrame.length / 2 ≤ buf.length)) :
    encode pcmFrame ⟨RTP_HEADER_SIZE, buf.length - RTP_HEADER_SIZE⟩ buf = some (buf, 0) := by
  by_cases hroom : buf.length - RTP_HEADER_SIZE < pcmFrame.length / BYTES_PER_SAMPLE
  · simp only [encode, if_pos hroom]
    rfl
  · -- the frame has no sample
    have hnone : asSamples pcmFrame = [] := by
      rw [← List.length_eq_zero_iff, length_asSamples]
      rw [BYTES_PER_SAMPLE] at hroom
      omega
    have hcount : pcmFrame.length / BYTES_PER_SAMPLE = 0 := by
      rw [BYTES_PER_SAMPLE, ← length_asSamples, hnone]
      rfl
    simp only [encode, hnone, hcount, encodeAlaw, Nat.not_lt_zero, if_false]
    rfl

/-- In one buffer and out of it the same packet is assembled, and no access
leaves the buffer. -/
theorem packetToRtp_eq {ency : Option IEncryptionStrategy} (hspan : KeepsSpan ency)
    (pcmFrame : List UInt8) (p : RTPPacketizer) (buf : List UInt8) :
    packetToRtp pcmFrame p ency buf = some (Rtp.packetToRtp pcmFrame p ency buf) := by
  by_cases hfits : 0 < pcmFrame.length / 2 ∧ RTP_HEADER_SIZE + pcmFrame.length / 2 ≤ buf.length
  · rw [packetToRtp_of_fits hspan hfits.1 hfits.2]
    obtain ⟨hsamples, hroom⟩ := hfits
    have hheader : ¬buf.length < RTP_HEADER_SIZE := by omega
    obtain ⟨head, body, rest, rfl, hhead, hbody⟩ := exists_parts hroom
    have hencoded : (Audio.encodeAlaw (asSamples pcmFrame)).length = pcmFrame.length / 2 := by
      rw [Audio.encodeAlaw, List.length_map, length_asSamples]
    have hbehind : (head ++ (body ++ rest)).length - RTP_HEADER_SIZE =
        body.length + rest.length := by
      rw [List.length_append, List.length_append, hhead]
      omega
    have hencode := @encode_eq head body rest pcmFrame hbody
    have hpacket := @packetize_eq ency p head (Audio.encodeAlaw (asSamples pcmFrame)) rest hspan hhead
    have hsame : (head ++ (Audio.encodeAlaw (asSamples pcmFrame) ++ rest)).length =
        (head ++ (body ++ rest)).length := by
      simp only [List.length_append, hencoded, hbody]
    have hdrop : (head ++ (body ++ rest)).drop (RTP_HEADER_SIZE + pcmFrame.length / 2) = rest := by
      rw [← hhead, ← hbody, ← List.drop_drop, List.drop_left, List.drop_left]
    rw [hhead] at hencode
    rw [hsame, hhead, hencoded] at hpacket
    simp only [packetToRtp, if_neg hheader, Nat.zero_add, hbehind, hencode, Option.bind_eq_bind,
      Option.bind_some, if_neg hsamples.ne', hpacket, hdrop, List.append_assoc]
  · rw [packetToRtp_of_not_fits hfits]
    by_cases hheader : buf.length < RTP_HEADER_SIZE
    · simp only [packetToRtp, if_pos hheader]
      rfl
    · have hencode := encode_of_not_fits hheader hfits
      simp only [packetToRtp, if_neg hheader, Nat.zero_add, hencode, Option.bind_eq_bind,
        Option.bind_some, if_true]
      rfl

end InPlace

/-- The header that `from_buffer` reads: of the payload type it has seven bits. -/
def wireHeader (header : Header) : Header :=
  { header with payloadType := UInt8.ofNat (header.payloadType.toNat % 128) }

/-- A payload type of seven bits leaves the header as it is. -/
theorem wireHeader_of_lt {header : Header} (h : header.payloadType.toNat < 128) :
    wireHeader header = header := by
  rw [wireHeader, Nat.mod_eq_of_lt h, UInt8.ofNat_toNat]

/-- Decoding the packet of a packetizer. -/
theorem fromBuffer_header (p : RTPPacketizer) (payload : List UInt8) :
    RTPPacket.fromBuffer (headerBytes p.header ++ payload) =
      some ⟨wireHeader p.header, payload⟩ := by
  have htype : (UInt8.ofNat (p.payloadType.toNat % 128)).toNat = p.payloadType.toNat % 128 := by
    rw [UInt8.toNat_ofNat']
    omega
  have hbytes : headerBytes p.header = headerBytes (wireHeader p.header) := by
    have hsecond : secondOctet p.header = secondOctet (wireHeader p.header) := by
      change UInt8.ofNat (p.payloadType.toNat % 128 + 0) =
        UInt8.ofNat ((UInt8.ofNat (p.payloadType.toNat % 128)).toNat % 128 + 0)
      rw [htype, Nat.mod_mod]
    simp only [headerBytes, hsecond]
    rfl
  have hfit : (wireHeader p.header).FitsWire := by
    refine ⟨Nat.two_pow_pos 4, show (2 : ℕ) < 2 ^ 2 by omega, ?_, fun extension h => ?_⟩
    · change (UInt8.ofNat (p.payloadType.toNat % 128)).toNat < 2 ^ 7
      rw [htype]
      omega
    · cases h
  rw [hbytes]
  exact fromBuffer_headerBytes hfit payload

/-- A buffer of a given content holds a packet after the call. -/
structure HoldsPacket (header : Header) (payload buf : List UInt8) (assembled : Assembled) :
    Prop where
  /-- The size returned. -/
  size : assembled.size = 12 + payload.length
  /-- The first twelve bytes. -/
  start : assembled.outBuffer.take 12 = headerBytes header
  /-- The bytes behind the header. -/
  content : (assembled.outBuffer.drop 12).take payload.length = payload
  /-- The bytes behind the packet, as they were. -/
  behind : assembled.outBuffer.drop (12 + payload.length) = buf.drop (12 + payload.length)
  /-- What `from_buffer` makes of it. -/
  decoded : RTPPacket.fromBuffer (assembled.outBuffer.take assembled.size) =
    some ⟨wireHeader header, payload⟩
  /-- A payload type of seven bits comes back with the rest of the header. -/
  decoded_of_lt : header.payloadType.toNat < 128 →
    RTPPacket.fromBuffer (assembled.outBuffer.take assembled.size) = some ⟨header, payload⟩

/-- `packet_to_rtp` on one buffer gives what it gives on buffers of their own.
It succeeds if and only if the buffer has room for the header and a byte for
each sample, and then the buffer holds the packet. -/
theorem assembled_in_place {ency : Option IEncryptionStrategy} (hspan : KeepsSpan ency)
    {pcmFrame : List UInt8} (hsamples : 1 ≤ (asSamples pcmFrame).length) (p : RTPPacketizer)
    (buf : List UInt8) :
    InPlace.packetToRtp pcmFrame p ency buf = some (packetToRtp pcmFrame p ency buf) ∧
      ((packetToRtp pcmFrame p ency buf).size ≠ 0 ↔
        12 + (asSamples pcmFrame).length ≤ buf.length) ∧
      ((packetToRtp pcmFrame p ency buf).size ≠ 0 →
        HoldsPacket p.header (encrypted ency (encodeAlaw (asSamples pcmFrame)) p.packetIndex) buf
            (packetToRtp pcmFrame p ency buf) ∧
          (encrypted ency (encodeAlaw (asSamples pcmFrame)) p.packetIndex).length =
            (asSamples pcmFrame).length) := by
  have hheader : RTP_HEADER_SIZE = 12 := rfl
  rw [length_asSamples] at hsamples ⊢
  refine ⟨InPlace.packetToRtp_eq hspan pcmFrame p buf, ?_⟩
  have hlength : (encrypted ency (encodeAlaw (asSamples pcmFrame)) p.packetIndex).length =
      pcmFrame.length / 2 := by
    rw [length_encrypted hspan, encodeAlaw, List.length_map, length_asSamples]
  by_cases hfits : RTP_HEADER_SIZE + pcmFrame.length / 2 ≤ buf.length
  · rw [packetToRtp_of_fits hspan hsamples hfits]
    refine ⟨by dsimp only; omega, fun _ => ⟨?_, hlength⟩⟩
    have hsize := p.length_header
    have htake : (headerBytes p.header ++
        encrypted ency (encodeAlaw (asSamples pcmFrame)) p.packetIndex).length =
          RTP_HEADER_SIZE + pcmFrame.length / 2 := by
      rw [List.length_append, hsize, hlength]
    constructor
    · rw [hlength]
      rfl
    · rw [List.append_assoc]
      exact List.take_left' hsize
    · rw [List.append_assoc]
      exact (congrArg (List.take _) (List.drop_left' hsize)).trans (List.take_left' rfl)
    · rw [hlength]
      exact List.drop_left' htake
    · dsimp only
      rw [List.take_left' htake]
      exact fromBuffer_header p _
    · intro htype
      dsimp only
      rw [List.take_left' htake, fromBuffer_header, wireHeader_of_lt htype]
  · rw [packetToRtp_of_not_fits (fun h => hfits h.2)]
    refine ⟨by dsimp only; omega, fun h => absurd rfl h⟩

/-- A frame of two samples, encrypted, in a buffer with a byte to spare. -/
theorem assembled_in_place_two_samples :
    InPlace.packetToRtp [0, 0, 1, 16] (create 8 1 160 10 0) (some exampleEncryptor)
        (List.replicate 15 9) = some (packetToRtp [0, 0, 1, 16] (create 8 1 160 10 0)
          (some exampleEncryptor) (List.replicate 15 9)) ∧
      ((packetToRtp [0, 0, 1, 16] (create 8 1 160 10 0) (some exampleEncryptor)
          (List.replicate 15 9)).size ≠ 0 ↔
        12 + (asSamples [0, 0, 1, 16]).length ≤ (List.replicate 15 (9 : UInt8)).length) ∧
      ((packetToRtp [0, 0, 1, 16] (create 8 1 160 10 0) (some exampleEncryptor)
          (List.replicate 15 9)).size ≠ 0 →
        HoldsPacket (create 8 1 160 10 0).header (encrypted (some exampleEncryptor)
            (encodeAlaw (asSamples [0, 0, 1, 16])) (create 8 1 160 10 0).packetIndex)
            (List.replicate 15 9) (packetToRtp [0, 0, 1, 16] (create 8 1 160 10 0)
              (some exampleEncryptor) (List.replicate 15 9)) ∧
          (encrypted (some exampleEncryptor) (encodeAlaw (asSamples [0, 0, 1, 16]))
            (create 8 1 160 10 0).packetIndex).length = (asSamples [0, 0, 1, 16]).length) :=
  assembled_in_place (keepsSpan_strategy inPlace_exampleAes exampleStrategy) (by decide)
    (create 8 1 160 10 0) (List.replicate 15 9)

/-- A payload type of eight bits is read back without its highest. -/
theorem payloadType_loses_high_bit :
    (packetToRtp [0, 0] (create 200 7 160 5 0) none (List.replicate 13 0)).size = 13 ∧
      RTPPacket.fromBuffer ((packetToRtp [0, 0] (create 200 7 160 5 0) none
        (List.replicate 13 0)).outBuffer.take 13) ≠
          some ⟨(create 200 7 160 5 0).header, encodeAlaw (asSamples [0, 0])⟩ := by
  decide

end HermesFlow.Rtp
