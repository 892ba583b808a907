import HermesFlow.CheckedBuffer
import HermesFlow.Packet

/-!
# The reads of `from_buffer`

`from_buffer` with its pointer as an offset into the buffer and each read as an
access that has no result outside it. The sizes it asks for are tested in
steps, and each test stands before the reads that rely on it.
-/

namespace HermesFlow.Rtp

open ByteOrder CheckedBuffer

/-- `count` words read in a loop from `bufPtr` on, and the pointer after them. -/
def readWords (buffer : List UInt8) : ℕ → ℕ → Option (List UInt32 × ℕ)
  | bufPtr, 0 => some ([], bufPtr)
  | bufPtr, count + 1 => do
    let word ← load buffer bufPtr 4
    let (words, bufPtr) ← readWords buffer (bufPtr + 4) count
    return (UInt32.ofNat (loadBE word) :: words, bufPtr)

/-- The extension at `bufPtr` and the pointer after it; `some none` when the
buffer is shorter than the extension says. -/
def readExtension (buffer : List UInt8) (bufPtr expectedSize : ℕ) :
    Option (Option (Extension × ℕ)) := do
  let expectedSize := expectedSize + MINIMUM_EXTENSION_SIZE
  if buffer.length < expectedSize then return none
  let id ← load buffer bufPtr 2
  let bufPtr := bufPtr + 2
  let extensionDataSize ← load buffer bufPtr 2
  let bufPtr := bufPtr + 2
  let extensionDataSize := loadBE extensionDataSize
  let expectedSize := expectedSize + extensionDataSize * 4
  if buffer.length < expectedSize then return none
  let (extensionData, bufPtr) ← readWords buffer bufPtr extensionDataSize
  return some (⟨UInt16.ofNat (loadBE id), extensionData⟩, bufPtr)

/-- `payload_span`: what is left of the buffer. -/
def readPayload (buffer : List UInt8) (bufPtr : ℕ) : Option (List UInt8) :=
  if bufPtr ≤ buffer.length then load buffer bufPtr (buffer.length - bufPtr) else none

/-- `from_buffer`; no result is a read outside the buffer. -/
def readPacket (buffer : List UInt8) : Option (Option RTPPacket) := do
  if buffer.length < MINIMUM_HEADER_SIZE then return none
  let bufPtr := 0
  let firstOctet ← buffer[bufPtr]?
  let cc := firstOctet.toNat % 16
  let expectedSize := MINIMUM_HEADER_SIZE + cc * 4
  if buffer.length < expectedSize then return none
  let bufPtr := bufPtr + 1
  let secondOctet ← buffer[bufPtr]?
  let bufPtr := bufPtr + 1
  let sequenceNum ← load buffer bufPtr 2
  let bufPtr := bufPtr + 2
  let timestamp ← load buffer bufPtr 4
  let bufPtr := bufPtr + 4
  let ssrc ← load buffer bufPtr 4
  let bufPtr := bufPtr + 4
  let (csrcList, bufPtr) ← readWords buffer bufPtr cc
  let header (extension : Option Extension) : Header :=
    { padding := firstOctet.toNat / 32 % 2 == 1
      version := UInt8.ofNat (firstOctet.toNat / 64)
      payloadType := UInt8.ofNat (secondOctet.toNat % 128)
      marker := secondOctet.toNat / 128 == 1
      sequenceNum := UInt16.ofNat (loadBE sequenceNum)
      timestamp := UInt32.ofNat (loadBE timestamp)
      ssrc := UInt32.ofNat (loadBE ssrc)
      csrcList := csrcList
      extension := extension }
  if firstOctet.toNat / 16 % 2 == 1 then
    match ← readExtension buffer bufPtr expectedSize with
    | none => return none
    | some (extension, bufPtr) =>
      let payload ← readPayload buffer bufPtr
      return some ⟨header (some extension), payload⟩
  else
    let payload ← readPayload buffer bufPtr
    return some ⟨header none, payload⟩

section Reads

variable {buffer : List UInt8} {bufPtr : ℕ}

/-- Words inside the buffer are read. -/
theorem readWords_of_le {count : ℕ} (h : bufPtr + count * 4 ≤ buffer.length) :
    readWords buffer bufPtr count =
      some (loadWords count (buffer.drop bufPtr), bufPtr + count * 4) := by
  induction count generalizing bufPtr with
  | zero => rw [readWords, loadWords, Nat.zero_mul, Nat.add_zero]
  | succ count ih =>
    rw [readWords, load_of_le (by omega), ih (by omega), loadWords, List.drop_drop]
    have hptr : bufPtr + 4 + count * 4 = bufPtr + (count + 1) * 4 := by omega
    rw [hptr]
    rfl

/-- Behind the fixed fields the payload is what is left. -/
theorem readPayload_of_le (h : bufPtr ≤ buffer.length) :
    readPayload buffer bufPtr = some (buffer.drop bufPtr) := by
  rw [readPayload, if_pos h, load_of_le (by omega), List.take_of_length_le]
  rw [List.length_drop]

/-- The extension is read inside the buffer, behind what has been tested. -/
theorem readExtension_eq (h : bufPtr ≤ buffer.length) :
    readExtension buffer bufPtr bufPtr =
      some ((loadExtension (buffer.drop bufPtr)).map fun (extension, payload) =>
        (extension, buffer.length - payload.length)) := by
  have hmin : MINIMUM_EXTENSION_SIZE = 4 := rfl
  have hlength : (buffer.drop bufPtr).length = buffer.length - bufPtr := List.length_drop
  by_cases hfixed : buffer.length < bufPtr + MINIMUM_EXTENSION_SIZE
  · have hshort : (buffer.drop bufPtr).length < MINIMUM_EXTENSION_SIZE := by omega
    rw [loadExtension, if_pos hshort]
    simp only [readExtension, if_pos hfixed]
    rfl
  · have hlong : ¬(buffer.drop bufPtr).length < MINIMUM_EXTENSION_SIZE := by omega
    have hid := @load_of_le _ buffer bufPtr 2 (by omega)
    have hsize := @load_of_le _ buffer (bufPtr + 2) 2 (by omega)
    simp only [readExtension, loadExtension, if_neg hfixed, if_neg hlong, hid, hsize,
      Option.bind_eq_bind, Option.bind_some, List.drop_drop]
    generalize loadBE ((buffer.drop (bufPtr + 2)).take 2) = extensionDataSize
    by_cases hdata : buffer.length < bufPtr + MINIMUM_EXTENSION_SIZE + extensionDataSize * 4
    · have hdata' : (buffer.drop bufPtr).length <
          MINIMUM_EXTENSION_SIZE + extensionDataSize * 4 := by omega
      simp only [if_pos hdata, if_pos hdata']
      rfl
    · have hdata' : ¬(buffer.drop bufPtr).length <
          MINIMUM_EXTENSION_SIZE + extensionDataSize * 4 := by omega
      have hwords := @readWords_of_le buffer (bufPtr + 2 + 2) extensionDataSize (by omega)
      have hptr : bufPtr + 2 + 2 + extensionDataSize * 4 = buffer.length -
          (buffer.drop (bufPtr + (MINIMUM_EXTENSION_SIZE + extensionDataSize * 4))).length := by
        rw [List.length_drop]
        omega
      simp only [if_neg hdata, if_neg hdata', hwords, Option.bind_some, Option.map_some, hptr]
      rfl

/-- What follows an extension is a suffix of the buffer. -/
theorem drop_loadExtension {extension : Extension} {payload : List UInt8}
    (h : loadExtension (buffer.drop bufPtr) = some (extension, payload)) :
    buffer.drop (buffer.length - payload.length) = payload ∧
      buffer.length - payload.length ≤ buffer.length := by
  refine ⟨?_, Nat.sub_le _ _⟩
  simp only [loadExtension, Option.ite_none_left_eq_some, Option.some.injEq, Prod.mk.injEq,
    List.drop_drop] at h
  obtain ⟨-, -, -, rfl⟩ := h
  rw [List.length_drop]
  rcases Nat.le_total buffer.length (bufPtr + (MINIMUM_EXTENSION_SIZE +
    loadBE ((buffer.drop (bufPtr + 2)).take 2) * 4)) with hle | hle
  · rw [Nat.sub_eq_zero_of_le hle, Nat.sub_zero, List.drop_length, List.drop_eq_nil_of_le hle]
  · rw [Nat.sub_sub_self hle]

/-- Offsets in a packet, from what follows its two octets. -/
theorem drop_two_octets (first second : UInt8) (rest : List UInt8) (i : ℕ) :
    (first :: second :: rest).drop (2 + i) = rest.drop i := by
  rw [← List.drop_drop]
  rfl

/-- Behind the fixed fields ten bytes follow the first two octets. -/
theorem drop_fixed_fields (first second : UInt8) (rest : List UInt8) (i : ℕ) :
    (first :: second :: rest).drop (12 + i) = rest.drop (10 + i) := by
  rw [← drop_two_octets first second rest]
  congr 1
  omega

/-- The pointer behind the fixed fields and the words it passes. -/
theorem readPacket_of_size {first second : UInt8} {rest : List UInt8}
    (hbuffer : buffer = first :: second :: rest)
    (hsize : MINIMUM_HEADER_SIZE + first.toNat % 16 * 4 ≤ buffer.length) :
    readPacket buffer = some (loadPacket first second rest) := by
  have hmin : MINIMUM_HEADER_SIZE = 12 := rfl
  have hlength : buffer.length = rest.length + 2 := by rw [hbuffer]; rfl
  have hfirst : buffer[0]? = some first := by rw [hbuffer]; rfl
  have hsecond : buffer[1]? = some second := by rw [hbuffer]; rfl
  have hdrop : ∀ i, buffer.drop (2 + i) = rest.drop i := by
    intro i
    rw [hbuffer, drop_two_octets]
  have hseq := @load_of_le _ buffer 2 2 (by omega)
  have htime := @load_of_le _ buffer 4 4 (by omega)
  have hssrc := @load_of_le _ buffer 8 4 (by omega)
  have hcsrcs := @readWords_of_le buffer 12 (first.toNat % 16) (by omega)
  rw [show buffer.drop 2 = rest from hdrop 0] at hseq
  rw [show buffer.drop 4 = rest.drop 2 from hdrop 2] at htime
  rw [show buffer.drop 8 = rest.drop 6 from hdrop 6] at hssrc
  rw [show buffer.drop 12 = rest.drop 10 from hdrop 10] at hcsrcs
  have hafter : buffer.drop (12 + first.toNat % 16 * 4) = rest.drop (10 + first.toNat % 16 * 4) := by
    rw [hbuffer, drop_fixed_fields]
  have hextension := @readExtension_eq buffer (12 + first.toNat % 16 * 4) (by omega)
  have hpayload := @readPayload_of_le buffer (12 + first.toNat % 16 * 4) (by omega)
  have htest : ¬buffer.length < 12 := by omega
  have htest' : ¬buffer.length < 12 + first.toNat % 16 * 4 := by omega
  have htest'' : ¬rest.length + 2 < 12 + first.toNat % 16 * 4 := by omega
  rw [hafter] at hextension hpayload
  simp only [readPacket, loadPacket, hmin, if_neg htest, hfirst, hsecond, if_neg htest',
    if_neg htest'', Option.bind_eq_bind, Option.bind_some, Nat.zero_add, Nat.reduceAdd, hseq, htime,
    hssrc, hcsrcs]
  by_cases hbit : (first.toNat / 16 % 2 == 1) = true
  · simp only [if_pos hbit, hextension, Option.bind_some]
    cases hload : loadExtension (rest.drop (10 + first.toNat % 16 * 4)) with
    | none => rfl
    | some loaded =>
      obtain ⟨extension, payload⟩ := loaded
      rw [← hafter] at hload
      obtain ⟨hsuffix, hle⟩ := drop_loadExtension hload
      have hpayload' := readPayload_of_le hle
      rw [hsuffix] at hpayload'
      simp only [Option.map_some, hpayload', Option.bind_some]
      rfl
  · simp only [if_neg hbit, hpayload, Option.bind_some]
    rfl

/-- Every read of `from_buffer` lies in the buffer, on every path. -/
theorem readPacket_eq (buffer : List UInt8) :
    readPacket buffer = some (RTPPacket.fromBuffer buffer) := by
  by_cases hshort : buffer.length < MINIMUM_HEADER_SIZE
  · have hnone : RTPPacket.fromBuffer buffer = none := by
      unfold RTPPacket.fromBuffer
      split
      · rw [if_pos hshort]
      · rfl
    rw [hnone]
    simp only [readPacket, if_pos hshort]
    rfl
  · match buffer, hshort with
    | first :: second :: rest, hshort =>
      rw [RTPPacket.fromBuffer, if_neg hshort]
      by_cases hsize : (first :: second :: rest).length < MINIMUM_HEADER_SIZE + first.toNat % 16 * 4
      · rw [loadPacket, if_pos (show rest.length + 2 < _ from hsize)]
        simp only [readPacket, if_neg hshort, List.getElem?_cons_zero, Option.bind_eq_bind,
          Option.bind_some, if_pos hsize]
        rfl
      · exact readPacket_of_size rfl (by omega)
    | [_], hshort => exact absurd (by decide : 1 < 12) hshort
    | [], hshort => exact absurd (by decide : 0 < 12) hshort

end Reads

/-- The CSRC count in the first byte. -/
def csrcCount (buffer : List UInt8) : ℕ := (buffer.getD 0 0).toNat % 16

/-- The X bit. -/
def HasExtension (buffer : List UInt8) : Prop := (buffer.getD 0 0).toNat / 16 % 2 = 1

instance (buffer : List UInt8) : Decidable (HasExtension buffer) :=
  inferInstanceAs (Decidable (_ = _))

/-- The number of words in the extension, the 16-bit field behind its
identifier. -/
def extensionLength (buffer : List UInt8) : ℕ :=
  loadBE ((buffer.drop (14 + 4 * csrcCount buffer)).take 2)

/-- The bytes before the payload. -/
def payloadOffset (buffer : List UInt8) : ℕ :=
  12 + 4 * csrcCount buffer +
    if HasExtension buffer then 4 + 4 * extensionLength buffer else 0

/-- The buffer is as long as its own fields say. -/
structure WellSized (buffer : List UInt8) : Prop where
  /-- The fixed fields and the CSRCs. -/
  csrcs : 12 + 4 * csrcCount buffer ≤ buffer.length
  /-- The extension, when the X bit is set. -/
  extension : HasExtension buffer →
    12 + 4 * csrcCount buffer + 4 + 4 * extensionLength buffer ≤ buffer.length

/-- A packet is well sized exactly when its payload starts within it. -/
theorem wellSized_iff (buffer : List UInt8) :
    WellSized buffer ↔ payloadOffset buffer ≤ buffer.length := by
  unfold payloadOffset
  constructor
  · intro hwell
    have hcsrcs := hwell.csrcs
    split
    · rename_i hbit
      have hextension := hwell.extension hbit
      omega
    · exact hcsrcs
  · intro hle
    refine ⟨by omega, fun hbit => ?_⟩
    rw [if_pos hbit] at hle
    omega

/-- An extension is accepted when its words are in the buffer. -/
theorem loadExtension_payload (bufPtr : List UInt8) :
    (loadExtension bufPtr).map Prod.snd =
      if 4 + loadBE ((bufPtr.drop 2).take 2) * 4 ≤ bufPtr.length then
        some (bufPtr.drop (4 + loadBE ((bufPtr.drop 2).take 2) * 4)) else none := by
  unfold loadExtension
  rw [MINIMUM_EXTENSION_SIZE]
  by_cases hfixed : bufPtr.length < 4
  · rw [if_pos hfixed, if_neg (by omega)]
    rfl
  · simp only [if_neg hfixed]
    generalize loadBE ((bufPtr.drop 2).take 2) = extensionDataSize
    by_cases hdata : 4 + extensionDataSize * 4 ≤ bufPtr.length
    · rw [if_pos hdata, if_neg (by omega)]
      rfl
    · rw [if_neg hdata, if_pos (by omega)]
      rfl

/-- The length of the extension is read behind the contributing sources. -/
theorem extensionLength_cons (first second : UInt8) (rest : List UInt8) :
    extensionLength (first :: second :: rest) =
      loadBE ((rest.drop (10 + first.toNat % 16 * 4 + 2)).take 2) := by
  have hcount : csrcCount (first :: second :: rest) = first.toNat % 16 := rfl
  rw [extensionLength, hcount, ← drop_two_octets first second rest]
  congr 3
  omega

/-- The extension's flag is read from the first octet. -/
theorem hasExtension_cons (first second : UInt8) (rest : List UInt8) :
    HasExtension (first :: second :: rest) ↔ (first.toNat / 16 % 2 == 1) = true := by
  rw [beq_iff_eq]
  rfl

/-- `from_buffer` accepts what is as long as its fields say, and the payload is
what is left of it. -/
theorem fromBuffer_payload (buffer : List UInt8) :
    (RTPPacket.fromBuffer buffer).map RTPPacket.payload =
      if payloadOffset buffer ≤ buffer.length then some (buffer.drop (payloadOffset buffer))
      else none := by
  have hmin : MINIMUM_HEADER_SIZE = 12 := rfl
  match buffer with
  | first :: second :: rest =>
    have hlength : (first :: second :: rest).length = rest.length + 2 := rfl
    have hcount : csrcCount (first :: second :: rest) = first.toNat % 16 := rfl
    have hsuffix : (first :: second :: rest).drop (12 + 4 * (first.toNat % 16)) =
        rest.drop (10 + first.toNat % 16 * 4) := by
      rw [Nat.mul_comm, drop_fixed_fields]
    rw [payloadOffset, hcount, hlength]
    by_cases hcsrcs : rest.length + 2 < 12 + first.toNat % 16 * 4
    · have hlong : ¬12 + 4 * (first.toNat % 16) +
          (if HasExtension (first :: second :: rest) then
            4 + 4 * extensionLength (first :: second :: rest) else 0) ≤ rest.length + 2 := by omega
      rw [if_neg hlong, RTPPacket.fromBuffer, hlength, hmin, loadPacket, hmin, if_pos hcsrcs,
        ite_self]
      rfl
    · rw [RTPPacket.fromBuffer, hlength, hmin, if_neg (by omega), loadPacket, hmin, if_neg hcsrcs]
      by_cases hx : (first.toNat / 16 % 2 == 1) = true
      · rw [if_pos hx, if_pos ((hasExtension_cons first second rest).mpr hx), Option.map_map]
        have hload := loadExtension_payload (rest.drop (10 + first.toNat % 16 * 4))
        rw [List.drop_drop, ← extensionLength_cons first second, List.length_drop,
          List.drop_drop] at hload
        change Option.map Prod.snd _ = _
        rw [hload]
        by_cases hfits : 4 + extensionLength (first :: second :: rest) * 4 ≤
            rest.length - (10 + first.toNat % 16 * 4)
        · rw [if_pos hfits, if_pos (by omega), ← drop_two_octets first second rest]
          congr 2
          omega
        · rw [if_neg hfits, if_neg (by omega)]
      · rw [if_neg hx, if_neg (fun h => hx ((hasExtension_cons first second rest).mp h)),
          Nat.add_zero, if_pos (by omega), hsuffix]
        rfl
  | [first] =>
    have hlong : ¬payloadOffset [first] ≤ 1 := by
      rw [payloadOffset]
      omega
    exact (if_neg hlong).symm
  | [] =>
    have hlong : ¬payloadOffset [] ≤ 0 := by
      rw [payloadOffset]
      omega
    exact (if_neg hlong).symm

/-- `from_buffer` reads inside its buffer on every path, accepts a buffer if and
only if it is as long as its own fields say, and then the payload is the suffix
that they leave. -/
theorem fromBuffer_exact (buffer : List UInt8) :
    readPacket buffer = some (RTPPacket.fromBuffer buffer) ∧
      ((RTPPacket.fromBuffer buffer).isSome ↔ WellSized buffer) ∧
      ∀ packet, RTPPacket.fromBuffer buffer = some packet →
        packet.payload = buffer.drop (payloadOffset buffer) := by
  have hpayload := fromBuffer_payload buffer
  refine ⟨readPacket_eq buffer, ?_, ?_⟩
  · rw [wellSized_iff, ← Option.isSome_map (f := RTPPacket.payload), hpayload]
    split <;> simp [*]
  · intro packet hpacket
    rw [hpacket, Option.map_some] at hpayload
    split at hpayload
    · exact Option.some.inj hpayload
    · cases hpayload

end HermesFlow.Rtp
