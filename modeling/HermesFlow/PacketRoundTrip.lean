import HermesFlow.Packet

/-!
# Encoding and decoding packets

Each part of a packet is read back from the bytes written for it, whatever
follows them, and written back as the bytes it was read from. Decoding gives
back an encoded packet exactly when its counts and numbers fit the fields they
are written through; encoding gives back every buffer that decodes.
-/

namespace HermesFlow.Rtp

open ByteOrder

section Words

/-- Two octets give back a number of 16 bits. -/
theorem loadBE_storeBE_two (n : UInt16) : UInt16.ofNat (loadBE (storeBE 2 n.toNat)) = n := by
  have hn : n.toNat < 256 ^ 2 := n.toNat_lt
  rw [loadBE_storeBE, Nat.mod_eq_of_lt hn, UInt16.ofNat_toNat]

/-- Four octets give back a number of 32 bits. -/
theorem loadBE_storeBE_four (n : UInt32) : UInt32.ofNat (loadBE (storeBE 4 n.toNat)) = n := by
  have hn : n.toNat < 256 ^ 4 := n.toNat_lt
  rw [loadBE_storeBE, Nat.mod_eq_of_lt hn, UInt32.ofNat_toNat]

/-- A number of 16 bits gives back two octets. -/
theorem storeBE_loadBE_two {bytes : List UInt8} (h : bytes.length = 2) :
    storeBE 2 (UInt16.ofNat (loadBE bytes)).toNat = bytes := by
  have hlt : loadBE bytes < 256 ^ bytes.length := loadBE_lt bytes
  rw [h] at hlt
  rw [UInt16.toNat_ofNat_of_lt' hlt, ← h, storeBE_loadBE]

/-- A number of 32 bits gives back four octets. -/
theorem storeBE_loadBE_four {bytes : List UInt8} (h : bytes.length = 4) :
    storeBE 4 (UInt32.ofNat (loadBE bytes)).toNat = bytes := by
  have hlt : loadBE bytes < 256 ^ bytes.length := loadBE_lt bytes
  rw [h] at hlt
  rw [UInt32.toNat_ofNat_of_lt' hlt, ← h, storeBE_loadBE]

/-- As many words are loaded as asked for. -/
@[simp] theorem length_loadWords (count : ℕ) (bufPtr : List UInt8) :
    (loadWords count bufPtr).length = count := by
  induction count generalizing bufPtr with
  | zero => rfl
  | succ count ih => rw [loadWords, List.length_cons, ih]

/-- Words are read back from their bytes. -/
theorem loadWords_storeBE (words : List UInt32) (rest : List UInt8) :
    loadWords words.length ((words.flatMap fun word => storeBE 4 word.toNat) ++ rest) = words := by
  induction words with
  | nil => rfl
  | cons word words ih =>
    rw [List.flatMap_cons, List.append_assoc, List.length_cons, loadWords, take_storeBE,
      drop_storeBE, ih, loadBE_storeBE_four]

/-- Behind the words comes the rest. -/
theorem drop_words (words : List UInt32) (rest : List UInt8) :
    ((words.flatMap fun word => storeBE 4 word.toNat) ++ rest).drop (words.length * 4) = rest :=
  List.drop_left' (length_words words)

/-- Words that were read are written as the bytes they were read from. -/
theorem storeBE_loadWords (count : ℕ) (bufPtr : List UInt8) (h : count * 4 ≤ bufPtr.length) :
    ((loadWords count bufPtr).flatMap fun word => storeBE 4 word.toNat) =
      bufPtr.take (count * 4) := by
  induction count generalizing bufPtr with
  | zero => rw [loadWords, List.flatMap_nil, Nat.zero_mul, List.take_zero]
  | succ count ih =>
    have hlen : (bufPtr.take 4).length = 4 := by
      rw [List.length_take]
      omega
    have hrest : count * 4 ≤ (bufPtr.drop 4).length := by
      rw [List.length_drop]
      omega
    rw [loadWords, List.flatMap_cons, ih _ hrest, storeBE_loadBE_four hlen, Nat.succ_mul,
      Nat.add_comm (count * 4), List.take_add]

end Words

section Extension

/-- An extension has its fixed bytes and four for each word. -/
theorem length_extensionBytes (extension : Extension) :
    (extensionBytes extension).length = MINIMUM_EXTENSION_SIZE + extension.data.length * 4 := by
  simp only [extensionBytes, List.length_append, length_storeBE, length_words,
    MINIMUM_EXTENSION_SIZE]

/-- An extension is its two numbers and its words. -/
theorem extensionBytes_append (extension : Extension) (rest : List UInt8) :
    extensionBytes extension ++ rest =
      storeBE 2 extension.id.toNat ++ (storeBE 2 extension.data.length ++
        ((extension.data.flatMap fun word => storeBE 4 word.toNat) ++ rest)) := by
  simp only [extensionBytes, List.append_assoc]

/-- The count an extension is read with is what is left of its length. -/
theorem loadExtension_storeBE {extension : Extension} (hfit : extension.data.length < 2 ^ 16)
    (rest : List UInt8) :
    loadExtension (extensionBytes extension ++ rest) = some (extension, rest) := by
  have hlen := length_extensionBytes extension
  have hsize : loadBE (storeBE 2 extension.data.length) = extension.data.length := by
    have hlt : extension.data.length < 256 ^ 2 := hfit
    rw [loadBE_storeBE, Nat.mod_eq_of_lt hlt]
  have hid : (extensionBytes extension ++ rest).take 2 = storeBE 2 extension.id.toNat := by
    rw [extensionBytes_append, take_storeBE]
  have hcount : ((extensionBytes extension ++ rest).drop 2).take 2 =
      storeBE 2 extension.data.length := by
    rw [extensionBytes_append, drop_storeBE, take_storeBE]
  have hdata : (extensionBytes extension ++ rest).drop MINIMUM_EXTENSION_SIZE =
      (extension.data.flatMap fun word => storeBE 4 word.toNat) ++ rest := by
    rw [show MINIMUM_EXTENSION_SIZE = 2 + 2 from rfl, ← List.drop_drop, extensionBytes_append,
      drop_storeBE, drop_storeBE]
  have hrest : (extensionBytes extension ++ rest).drop
      (MINIMUM_EXTENSION_SIZE + extension.data.length * 4) = rest := List.drop_left' hlen
  have hlong : MINIMUM_EXTENSION_SIZE + extension.data.length * 4 ≤
      (extensionBytes extension ++ rest).length := by
    rw [List.length_append, hlen]
    omega
  simp only [loadExtension, hid, hcount, hdata, hsize, hrest, loadBE_storeBE_two,
    loadWords_storeBE]
  rw [if_neg (by omega), if_neg (by omega)]

/-- An extension that was read is written as the bytes it was read from. -/
theorem storeBE_loadExtension {bufPtr rest : List UInt8} {extension : Extension}
    (h : loadExtension bufPtr = some (extension, rest)) :
    extensionBytes extension ++ rest = bufPtr ∧ extension.data.length < 2 ^ 16 := by
  unfold loadExtension at h
  split at h
  · cases h
  · rename_i hmin
    simp only [Option.ite_none_left_eq_some, Option.some.injEq, Prod.mk.injEq] at h
    obtain ⟨hlong, rfl, rfl⟩ := h
    simp only [MINIMUM_EXTENSION_SIZE] at hmin hlong ⊢
    have hidLen : (bufPtr.take 2).length = 2 := by
      rw [List.length_take]
      omega
    have hcountLen : ((bufPtr.drop 2).take 2).length = 2 := by
      rw [List.length_take, List.length_drop]
      omega
    have hcount : loadBE ((bufPtr.drop 2).take 2) < 256 ^ 2 := by
      have hlt := loadBE_lt ((bufPtr.drop 2).take 2)
      rwa [hcountLen] at hlt
    have hwords : loadBE ((bufPtr.drop 2).take 2) * 4 ≤ (bufPtr.drop 4).length := by
      rw [List.length_drop]
      omega
    refine ⟨?_, by rw [length_loadWords]; exact hcount⟩
    have hsplit : bufPtr.drop 4 = (bufPtr.drop 2).drop 2 := by rw [List.drop_drop]
    rw [extensionBytes_append, length_loadWords, storeBE_loadBE_two hidLen,
      storeBE_loadBE_of_length hcountLen, storeBE_loadWords _ _ hwords, ← List.drop_drop,
      List.take_append_drop, hsplit, List.take_append_drop, List.take_append_drop]

end Extension

section Octets

/-- The fields of the first octet. -/
theorem firstOctet_toNat (header : Header) :
    (firstOctet header).toNat =
      header.csrcList.length % 16 + 16 * header.extension.isSome.toNat +
        32 * header.padding.toNat + 64 * (header.version.toNat % 4) := by
  have hext := header.extension.isSome.toNat_le
  have hpad := header.padding.toNat_le
  rw [firstOctet, UInt8.toNat_ofNat']
  omega

/-- The fields of the second octet. -/
theorem secondOctet_toNat (header : Header) :
    (secondOctet header).toNat = header.payloadType.toNat % 128 + 128 * header.marker.toNat := by
  have hmarker := header.marker.toNat_le
  rw [secondOctet, UInt8.toNat_ofNat']
  omega

/-- A bit is read back as the flag it was written from. -/
theorem toNat_beq_one (flag : Bool) : (flag.toNat == 1) = flag := by cases flag <;> rfl

/-- A bit is one or nothing. -/
theorem beq_one_toNat {n : ℕ} (h : n < 2) : (n == 1).toNat = n := by
  obtain rfl | rfl : n = 0 ∨ n = 1 := by omega
  · rfl
  · rfl

end Octets

/-- Every count and number of a header fits the field it is written through. -/
structure Header.FitsWire (header : Header) : Prop where
  /-- The count of sources has four bits. -/
  csrcs : header.csrcList.length < 2 ^ 4
  /-- The version has two bits. -/
  version : header.version.toNat < 2 ^ 2
  /-- The type of the payload has seven bits. -/
  payloadType : header.payloadType.toNat < 2 ^ 7
  /-- The length of the extension has sixteen bits. -/
  extension : ∀ extension ∈ header.extension, extension.data.length < 2 ^ 16

/-- A header is its octets, one field after the other. -/
theorem headerBytes_append (header : Header) (rest : List UInt8) :
    headerBytes header ++ rest = firstOctet header :: secondOctet header ::
      (storeBE 2 header.sequenceNum.toNat ++ (storeBE 4 header.timestamp.toNat ++
        (storeBE 4 header.ssrc.toNat ++
          ((header.csrcList.flatMap fun csrc => storeBE 4 csrc.toNat) ++
            ((header.extension.map extensionBytes).getD [] ++ rest))))) := by
  simp only [headerBytes, List.append_assoc, List.cons_append, List.nil_append]

/-- Where the fixed fields and what follows them are read. -/
theorem fixedFields (sequenceNum timestamp ssrc : ℕ) (rest : List UInt8) :
    let bufPtr := storeBE 2 sequenceNum ++ (storeBE 4 timestamp ++ (storeBE 4 ssrc ++ rest))
    bufPtr.take 2 = storeBE 2 sequenceNum ∧ (bufPtr.drop 2).take 4 = storeBE 4 timestamp ∧
      (bufPtr.drop 6).take 4 = storeBE 4 ssrc ∧ bufPtr.drop 10 = rest := by
  intro bufPtr
  have htwo : bufPtr.drop 2 = storeBE 4 timestamp ++ (storeBE 4 ssrc ++ rest) := drop_storeBE _ _ _
  have hsix : bufPtr.drop 6 = storeBE 4 ssrc ++ rest := by
    rw [show (6 : ℕ) = 2 + 4 from rfl, ← List.drop_drop, htwo, drop_storeBE]
  have hten : bufPtr.drop 10 = rest := by
    rw [show (10 : ℕ) = 6 + 4 from rfl, ← List.drop_drop, hsix, drop_storeBE]
  refine ⟨take_storeBE _ _ _, ?_, ?_, hten⟩
  · rw [htwo, take_storeBE]
  · rw [hsix, take_storeBE]

/-- A header whose fields fit is read back with what follows it. -/
theorem fromBuffer_headerBytes {header : Header} (hfit : header.FitsWire) (payload : List UInt8) :
    RTPPacket.fromBuffer (headerBytes header ++ payload) = some ⟨header, payload⟩ := by
  have hext := header.extension.isSome.toNat_le
  have hpad := header.padding.toNat_le
  have hmarker := header.marker.toNat_le
  have hcsrcs := hfit.csrcs
  have hversion := hfit.version
  have hpayloadType := hfit.payloadType
  have hfirst := firstOctet_toNat header
  have hsecond := secondOctet_toNat header
  have hcc : (firstOctet header).toNat % 16 = header.csrcList.length := by omega
  have hextBit : (firstOctet header).toNat / 16 % 2 = header.extension.isSome.toNat := by omega
  have hpadBit : (firstOctet header).toNat / 32 % 2 = header.padding.toNat := by omega
  have hversionBits : (firstOctet header).toNat / 64 = header.version.toNat := by omega
  have htypeBits : (secondOctet header).toNat % 128 = header.payloadType.toNat := by omega
  have hmarkerBit : (secondOctet header).toNat / 128 = header.marker.toNat := by omega
  obtain ⟨hseq, htime, hssrc, hten⟩ := fixedFields header.sequenceNum.toNat
    header.timestamp.toNat header.ssrc.toNat
    ((header.csrcList.flatMap fun csrc => storeBE 4 csrc.toNat) ++
      ((header.extension.map extensionBytes).getD [] ++ payload))
  have hlong : 10 + header.csrcList.length * 4 ≤
      (storeBE 2 header.sequenceNum.toNat ++ (storeBE 4 header.timestamp.toNat ++
        (storeBE 4 header.ssrc.toNat ++
          ((header.csrcList.flatMap fun csrc => storeBE 4 csrc.toNat) ++
            ((header.extension.map extensionBytes).getD [] ++ payload))))).length := by
    simp only [List.length_append, length_storeBE, length_words]
    omega
  rw [headerBytes_append, RTPPacket.fromBuffer, if_neg (by
    simp only [List.length_cons, MINIMUM_HEADER_SIZE]
    omega)]
  simp only [loadPacket, loadHeader, hcc, hextBit, hpadBit, hversionBits, htypeBits, hmarkerBit, toNat_beq_one,
    hseq, htime, hssrc, ← List.drop_drop, hten, drop_words, loadWords_storeBE, loadBE_storeBE_two,
    loadBE_storeBE_four, UInt8.ofNat_toNat]
  rw [if_neg (by
    simp only [MINIMUM_HEADER_SIZE]
    omega)]
  cases hextension : header.extension with
  | none =>
    simp only [Option.isSome_none, Bool.false_eq_true, if_false, Option.map_none, Option.getD_none,
      List.nil_append]
    rw [← hextension]
  | some extension =>
    simp only [Option.isSome_some, if_true, Option.map_some, Option.getD_some,
      loadExtension_storeBE (hfit.extension extension hextension)]
    rw [← hextension]

/-- The fixed fields of a buffer and what follows them make up the buffer. -/
theorem fixedFields_append {bufPtr : List UInt8} (hlong : 10 ≤ bufPtr.length) :
    storeBE 2 (UInt16.ofNat (loadBE (bufPtr.take 2))).toNat ++
      (storeBE 4 (UInt32.ofNat (loadBE ((bufPtr.drop 2).take 4))).toNat ++
        (storeBE 4 (UInt32.ofNat (loadBE ((bufPtr.drop 6).take 4))).toNat ++ bufPtr.drop 10)) =
      bufPtr := by
  have hseq : (bufPtr.take 2).length = 2 := by
    rw [List.length_take]
    omega
  have htime : ((bufPtr.drop 2).take 4).length = 4 := by
    rw [List.length_take, List.length_drop]
    omega
  have hssrc : ((bufPtr.drop 6).take 4).length = 4 := by
    rw [List.length_take, List.length_drop]
    omega
  have hten : bufPtr.drop 10 = (bufPtr.drop 6).drop 4 := by rw [List.drop_drop]
  have hsix : bufPtr.drop 6 = (bufPtr.drop 2).drop 4 := by rw [List.drop_drop]
  rw [storeBE_loadBE_two hseq, storeBE_loadBE_four htime, storeBE_loadBE_four hssrc, hten,
    List.take_append_drop, hsix, List.take_append_drop, List.take_append_drop]

section Load

variable {first second : UInt8} {bufPtr : List UInt8} {extension : Option Extension}

/-- An octet is what its bits say: a header read from two octets has them. -/
theorem octets_loadHeader (hbit : extension.isSome = (first.toNat / 16 % 2 == 1)) :
    firstOctet (loadHeader first second bufPtr extension) = first ∧
      secondOctet (loadHeader first second bufPtr extension) = second := by
  have hfirst := first.toNat_lt
  have hsecond := second.toNat_lt
  have hext : extension.isSome.toNat = first.toNat / 16 % 2 := by
    rw [hbit, beq_one_toNat (Nat.mod_lt _ Nat.two_pos)]
  have hpad : (first.toNat / 32 % 2 == 1).toNat = first.toNat / 32 % 2 :=
    beq_one_toNat (Nat.mod_lt _ Nat.two_pos)
  have hmarker : (second.toNat / 128 == 1).toNat = second.toNat / 128 := beq_one_toNat (by omega)
  constructor
  · apply UInt8.toNat_inj.mp
    rw [firstOctet_toNat]
    simp only [loadHeader, length_loadWords, hext, hpad, UInt8.toNat_ofNat']
    omega
  · apply UInt8.toNat_inj.mp
    rw [secondOctet_toNat]
    simp only [loadHeader, hmarker, UInt8.toNat_ofNat']
    omega

/-- A header that was read fits its fields when its extension does. -/
theorem fitsWire_loadHeader (hfit : ∀ e ∈ extension, e.data.length < 2 ^ 16) :
    (loadHeader first second bufPtr extension).FitsWire where
  csrcs := by
    simp only [loadHeader, length_loadWords]
    omega
  version := by
    have hfirst := first.toNat_lt
    simp only [loadHeader, UInt8.toNat_ofNat']
    omega
  payloadType := by
    simp only [loadHeader, UInt8.toNat_ofNat']
    omega
  extension := hfit

/-- A header that was read is written as the bytes it was read from. -/
theorem headerBytes_loadHeader (hlong : 10 + first.toNat % 16 * 4 ≤ bufPtr.length)
    (hbit : extension.isSome = (first.toNat / 16 % 2 == 1)) {payload : List UInt8}
    (hrest : (extension.map extensionBytes).getD [] ++ payload =
      bufPtr.drop (10 + first.toNat % 16 * 4)) :
    headerBytes (loadHeader first second bufPtr extension) ++ payload =
      first :: second :: bufPtr := by
  have hwords : first.toNat % 16 * 4 ≤ (bufPtr.drop 10).length := by
    rw [List.length_drop]
    omega
  obtain ⟨hfirst, hsecond⟩ := @octets_loadHeader first second bufPtr extension hbit
  rw [headerBytes_append, hfirst, hsecond]
  simp only [loadHeader]
  rw [hrest, storeBE_loadWords _ _ hwords, ← List.drop_drop, List.take_append_drop,
    fixedFields_append (by omega)]

/-- A packet that was read is written as the bytes it was read from, and its
fields fit. -/
theorem loadPacket_spec {packet : RTPPacket} (h : loadPacket first second bufPtr = some packet) :
    headerBytes packet.header ++ packet.payload = first :: second :: bufPtr ∧
      packet.header.FitsWire := by
  simp only [loadPacket, Option.ite_none_left_eq_some, MINIMUM_HEADER_SIZE] at h
  obtain ⟨hlong, h⟩ := h
  split at h
  · rename_i hbit
    obtain ⟨⟨extension, payload⟩, hload, rfl⟩ := Option.map_eq_some_iff.mp h
    obtain ⟨hbytes, hfit⟩ := storeBE_loadExtension hload
    constructor
    · exact headerBytes_loadHeader (by omega) (by simpa using hbit) hbytes
    · exact fitsWire_loadHeader (by simpa using hfit)
  · rename_i hbit
    cases h
    constructor
    · exact headerBytes_loadHeader (by omega) (by simpa using hbit) rfl
    · exact fitsWire_loadHeader (by simp)

end Load

/-- A buffer that is accepted is the packet's, and every field fits. -/
theorem fromBuffer_spec {buffer : List UInt8} {packet : RTPPacket}
    (h : RTPPacket.fromBuffer buffer = some packet) :
    headerBytes packet.header ++ packet.payload = buffer ∧ packet.header.FitsWire := by
  unfold RTPPacket.fromBuffer at h
  split at h
  · exact loadPacket_spec (Option.ite_none_left_eq_some.mp h).2
  · cases h

/-- Decoding gives back what was encoded exactly when the packet does not fit
its buffer, and nothing is encoded, or its fields fit the wire. -/
theorem fromBuffer_toBuffer_iff (packet : RTPPacket) (packetBuffer : List UInt8) :
    (∀ buffer size, packet.toBuffer packetBuffer = some (buffer, size) →
        RTPPacket.fromBuffer (buffer.take size) = some packet) ↔
      packetBuffer.length < packet.bufferSize ∨ packet.header.FitsWire := by
  constructor
  · intro hdecode
    by_cases hsize : packet.bufferSize > packetBuffer.length
    · exact .inl hsize
    · have hencode : packet.toBuffer packetBuffer = some (_, _) := if_neg hsize
      exact .inr (fromBuffer_spec (hdecode _ _ hencode)).2
  · intro hfit buffer size hencode
    rw [RTPPacket.toBuffer_take hencode]
    rcases hfit with hsize | hfit
    · rw [RTPPacket.toBuffer, if_pos hsize] at hencode
      cases hencode
    · exact fromBuffer_headerBytes hfit packet.payload

/-- A packet that has been through sixteen mixers. -/
def mixedPacket : RTPPacket :=
  (List.range 16).foldl (fun packet ssrc => packet.addSsrc (UInt32.ofNat ssrc))
    { header :=
        { padding := false, version := 2, payloadType := 8, marker := false, sequenceNum := 1
          timestamp := 160, ssrc := 77, csrcList := [], extension := none }
      payload := [213, 213] }

/-- Sixteen contributing sources are written after a count of zero, and are read
back as payload. -/
theorem fromBuffer_toBuffer_mixedPacket :
    ∃ buffer, mixedPacket.toBuffer (List.replicate 78 0) = some (buffer, 78) ∧
      RTPPacket.fromBuffer (buffer.take 78) ≠ some mixedPacket := by
  have hencode : mixedPacket.toBuffer (List.replicate 78 0) = some (_, 78) := if_neg (by decide)
  refine ⟨_, hencode, fun hdecode => ?_⟩
  have hfit := (fromBuffer_spec hdecode).2.csrcs
  exact absurd hfit (by decide)

/-- Encoding gives back the bytes of every buffer that decodes. -/
theorem toBuffer_fromBuffer {buffer : List UInt8} {packet : RTPPacket}
    (hdecode : RTPPacket.fromBuffer buffer = some packet) (packetBuffer : List UInt8)
    (hroom : buffer.length ≤ packetBuffer.length) :
    ∃ encoded, packet.toBuffer packetBuffer = some (encoded, buffer.length) ∧
      encoded.take buffer.length = buffer := by
  obtain ⟨hbytes, -⟩ := fromBuffer_spec hdecode
  have hsize : packet.bufferSize = buffer.length := by rw [← packet.length_bytes, hbytes]
  have hencode : packet.toBuffer packetBuffer = some (_, _) := if_neg (by omega)
  rw [hsize] at hencode
  refine ⟨_, hencode, ?_⟩
  rw [RTPPacket.toBuffer_take hencode, hbytes]

/-- One CSRC, an extension of one word, the padding bit and two bytes after
them. -/
theorem toBuffer_fromBuffer_extension :
    ∃ packet encoded,
      RTPPacket.fromBuffer [177, 136, 0, 1, 0, 0, 0, 160, 0, 0, 0, 77, 0, 0, 0, 5, 190, 222, 0, 1, 1,
        2, 3, 4, 213, 85] = some packet ∧
      packet.toBuffer (List.replicate 30 0) = some (encoded, 26) ∧
      encoded.take 26 = [177, 136, 0, 1, 0, 0, 0, 160, 0, 0, 0, 77, 0, 0, 0, 5, 190, 222, 0, 1, 1,
        2, 3, 4, 213, 85] := by
  have hdecode : RTPPacket.fromBuffer [177, 136, 0, 1, 0, 0, 0, 160, 0, 0, 0, 77, 0, 0, 0, 5, 190,
      222, 0, 1, 1, 2, 3, 4, 213, 85] =
      some ⟨⟨true, 2, 8, true, 1, 160, 77, [5], some ⟨48862, [16909060]⟩⟩, [213, 85]⟩ := by decide
  obtain ⟨encoded, hencode, hbytes⟩ :=
    toBuffer_fromBuffer hdecode (List.replicate 30 0) (by decide)
  exact ⟨_, encoded, hdecode, hencode, hbytes⟩

end HermesFlow.Rtp
