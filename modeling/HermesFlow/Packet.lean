import HermesFlow.ByteOrder

/-!
# RTP packets

The header, its extension, the bytes `to_buffer` writes and how `from_buffer`
reads them, in the order and the bit positions of the source: bit fields are
filled from the low bit, and multi-byte fields are big-endian.
-/

namespace HermesFlow.Rtp

open ByteOrder

/-- The bytes of the fixed fields. -/
def MINIMUM_HEADER_SIZE : ℕ := 12
/-- The bytes in front of the words of an extension. -/
def MINIMUM_EXTENSION_SIZE : ℕ := 4

/-- `Header::Extension`. -/
structure Extension where
  /-- The profile-defined identifier. -/
  id : UInt16
  /-- The words after it. -/
  data : List UInt32
  deriving DecidableEq

/-- `RTPPacket::Header`. -/
structure Header where
  /-- Whether the payload is padded. -/
  padding : Bool
  /-- The version of the protocol. -/
  version : UInt8
  /-- The type of the payload. -/
  payloadType : UInt8
  /-- The marker. -/
  marker : Bool
  /-- The sequence number. -/
  sequenceNum : UInt16
  /-- The timestamp. -/
  timestamp : UInt32
  /-- The source. -/
  ssrc : UInt32
  /-- The contributing sources. -/
  csrcList : List UInt32
  /-- The extension, if there is one. -/
  extension : Option Extension
  deriving DecidableEq

/-- `RTPPacket`. -/
structure RTPPacket where
  /-- The header. -/
  header : Header
  /-- The payload. -/
  payload : List UInt8
  deriving DecidableEq

/-- `FirstOctet`: four bits of the CSRC count, extension, padding, version. -/
def firstOctet (header : Header) : UInt8 :=
  UInt8.ofNat (header.csrcList.length % 16 + 16 * header.extension.isSome.toNat +
    32 * header.padding.toNat + 64 * (header.version.toNat % 4))

/-- `SecondOctet`: seven bits of payload type, marker. -/
def secondOctet (header : Header) : UInt8 :=
  UInt8.ofNat (header.payloadType.toNat % 128 + 128 * header.marker.toNat)

/-- The extension's bytes; its length field is a `uint16_t`. -/
def extensionBytes (extension : Extension) : List UInt8 :=
  storeBE 2 extension.id.toNat ++ storeBE 2 extension.data.length ++
    extension.data.flatMap fun word => storeBE 4 word.toNat

/-- The bytes before the payload, in the order in which they are written. -/
def headerBytes (header : Header) : List UInt8 :=
  [firstOctet header, secondOctet header] ++ storeBE 2 header.sequenceNum.toNat ++
    storeBE 4 header.timestamp.toNat ++ storeBE 4 header.ssrc.toNat ++
    (header.csrcList.flatMap fun csrc => storeBE 4 csrc.toNat) ++
    (header.extension.map extensionBytes).getD []

/-- `buffer_size` of `to_buffer`. -/
def RTPPacket.bufferSize (packet : RTPPacket) : ℕ :=
  let csrcListSize := packet.header.csrcList.length * 4
  let extensionSize := match packet.header.extension with
    | some extension => MINIMUM_EXTENSION_SIZE + extension.data.length * 4
    | none => 0
  MINIMUM_HEADER_SIZE + csrcListSize + extensionSize + packet.payload.length

/-- `to_buffer`: the buffer after the call and the size of the span returned;
`none` when the packet does not fit. -/
def RTPPacket.toBuffer (packet : RTPPacket) (packetBuffer : List UInt8) :
    Option (List UInt8 × ℕ) :=
  if packet.bufferSize > packetBuffer.length then none
  else some (headerBytes packet.header ++ packet.payload ++ packetBuffer.drop packet.bufferSize,
    packet.bufferSize)

/-- `count` words read at `bufPtr`. -/
def loadWords : ℕ → List UInt8 → List UInt32
  | 0, _ => []
  | count + 1, bufPtr => UInt32.ofNat (loadBE (bufPtr.take 4)) :: loadWords count (bufPtr.drop 4)

/-- The extension at `bufPtr` and what follows it; `none` when the buffer is
shorter than the extension says. -/
def loadExtension (bufPtr : List UInt8) : Option (Extension × List UInt8) :=
  if bufPtr.length < MINIMUM_EXTENSION_SIZE then none
  else
    let id := UInt16.ofNat (loadBE (bufPtr.take 2))
    let extensionDataSize := loadBE ((bufPtr.drop 2).take 2)
    if bufPtr.length < MINIMUM_EXTENSION_SIZE + extensionDataSize * 4 then none
    else some (⟨id, loadWords extensionDataSize (bufPtr.drop MINIMUM_EXTENSION_SIZE)⟩,
      bufPtr.drop (MINIMUM_EXTENSION_SIZE + extensionDataSize * 4))

/-- The header with the two octets read and `bufPtr` after them. -/
def loadHeader (firstOctet secondOctet : UInt8) (bufPtr : List UInt8)
    (extension : Option Extension) : Header where
  padding := firstOctet.toNat / 32 % 2 == 1
  version := UInt8.ofNat (firstOctet.toNat / 64)
  payloadType := UInt8.ofNat (secondOctet.toNat % 128)
  marker := secondOctet.toNat / 128 == 1
  sequenceNum := UInt16.ofNat (loadBE (bufPtr.take 2))
  timestamp := UInt32.ofNat (loadBE ((bufPtr.drop 2).take 4))
  ssrc := UInt32.ofNat (loadBE ((bufPtr.drop 6).take 4))
  csrcList := loadWords (firstOctet.toNat % 16) (bufPtr.drop 10)
  extension := extension

/-- `from_buffer` after its first test, with the two octets read. -/
def loadPacket (firstOctet secondOctet : UInt8) (bufPtr : List UInt8) : Option RTPPacket :=
  let cc := firstOctet.toNat % 16
  if bufPtr.length + 2 < MINIMUM_HEADER_SIZE + cc * 4 then none
  else
    let afterCsrcs := bufPtr.drop (10 + cc * 4)
    if firstOctet.toNat / 16 % 2 == 1 then
      (loadExtension afterCsrcs).map fun (extension, payload) =>
        ⟨loadHeader firstOctet secondOctet bufPtr (some extension), payload⟩
    else some ⟨loadHeader firstOctet secondOctet bufPtr none, afterCsrcs⟩

/-- `from_buffer`. -/
def RTPPacket.fromBuffer (buffer : List UInt8) : Option RTPPacket :=
  match buffer with
  | firstOctet :: secondOctet :: bufPtr =>
    if buffer.length < MINIMUM_HEADER_SIZE then none
    else loadPacket firstOctet secondOctet bufPtr
  | _ => none

/-- `add_ssrc`. -/
def RTPPacket.addSsrc (packet : RTPPacket) (newSsrc : UInt32) : RTPPacket :=
  { packet with
    header := { packet.header with
      csrcList := packet.header.csrcList ++ [packet.header.ssrc]
      ssrc := newSsrc } }

/-- Every word takes four bytes. -/
theorem length_words (words : List UInt32) :
    (words.flatMap fun word => storeBE 4 word.toNat).length = words.length * 4 := by
  rw [List.length_flatMap]
  simp only [length_storeBE, List.map_const', List.sum_replicate_nat]

/-- The size computed up front is that of the bytes written. -/
theorem RTPPacket.length_bytes (packet : RTPPacket) :
    (headerBytes packet.header ++ packet.payload).length = packet.bufferSize := by
  cases hext : packet.header.extension with
  | none =>
    simp only [headerBytes, hext, bufferSize, List.length_append, length_storeBE, length_words,
      List.length_cons, List.length_nil, Option.map_none, Option.getD_none, MINIMUM_HEADER_SIZE]
  | some extension =>
    simp only [headerBytes, hext, bufferSize, extensionBytes, List.length_append, length_storeBE,
      length_words, List.length_cons, List.length_nil, Option.map_some, Option.getD_some,
      MINIMUM_HEADER_SIZE, MINIMUM_EXTENSION_SIZE]

/-- The span returned holds the header bytes and the payload. -/
theorem RTPPacket.toBuffer_take {packet : RTPPacket} {packetBuffer buffer : List UInt8} {size : ℕ}
    (h : packet.toBuffer packetBuffer = some (buffer, size)) :
    buffer.take size = headerBytes packet.header ++ packet.payload := by
  simp only [toBuffer, Option.ite_none_left_eq_some, Option.some.injEq, Prod.mk.injEq] at h
  obtain ⟨-, rfl, rfl⟩ := h
  exact List.take_left' packet.length_bytes

end HermesFlow.Rtp
