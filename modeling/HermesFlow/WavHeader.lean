import HermesFlow.CheckedBuffer
import HermesFlow.FileInputNode

/-!
# The chunks of a WAV header

`wav::get_audio_data_offset` on files of the RIFF grammar, where a chunk of odd
size is followed by a pad byte. The walk over the chunks takes no account of
that byte, and does not take a header that ends with the buffer.
-/

namespace HermesFlow.Audio

open ByteOrder CheckedBuffer

/-- The walk with its reads. -/
def readChunkWalk (buffer : List UInt8) (pos : ℕ) : Option ℕ :=
  if pos + 8 < buffer.length then do
    let chunkSize ← load buffer (pos + 4) 4
    let chunkId ← load buffer pos 4
    if chunkId = [0x64, 0x61, 0x74, 0x61] then return pos + 8
    else
      let nextPos := pos + 8 + loadLE chunkSize
      if nextPos > buffer.length ∨ nextPos < pos then return 44
      else readChunkWalk buffer nextPos
  else return 44
termination_by buffer.length - pos

/-- `wav::get_audio_data_offset`; no result is a read outside the buffer. -/
def readAudioDataOffset (buffer : List UInt8) : Option ℕ := do
  if buffer.length < 44 then return 44
  let magic ← load buffer 0 4
  if magic ≠ [0x52, 0x49, 0x46, 0x46] then return 0
  readChunkWalk buffer 12

/-- `chunk_id` at a position. -/
def chunkIdAt (buffer : List UInt8) (pos : ℕ) : List UInt8 := (buffer.drop pos).take 4

/-- `chunk_size` there. -/
def chunkSizeAt (buffer : List UInt8) (pos : ℕ) : ℕ := loadLE ((buffer.drop (pos + 4)).take 4)

/-- The name of the container. -/
def RIFF : List UInt8 := [0x52, 0x49, 0x46, 0x46]
/-- The name of the format. -/
def WAVE : List UInt8 := [0x57, 0x41, 0x56, 0x45]
/-- The name of the chunk of the samples. -/
def DATA : List UInt8 := [0x64, 0x61, 0x74, 0x61]

section Walk

variable {buffer : List UInt8} {pos : ℕ}

/-- Without room for a chunk's head the walk gives up. -/
theorem wavChunkWalk_of_not_room (hroom : ¬pos + 8 < buffer.length) :
    wavChunkWalk buffer pos = 44 := by
  rw [wavChunkWalk, if_neg hroom]

/-- At the data chunk the walk ends. -/
theorem wavChunkWalk_data (hroom : pos + 8 < buffer.length) (hdata : chunkIdAt buffer pos = DATA) :
    wavChunkWalk buffer pos = pos + 8 := by
  rw [wavChunkWalk, if_pos hroom]
  exact if_pos hdata

/-- Where a chunk does not end in the buffer the walk gives up. -/
theorem wavChunkWalk_long (hroom : pos + 8 < buffer.length) (hdata : chunkIdAt buffer pos ≠ DATA)
    (hend : buffer.length < pos + 8 + chunkSizeAt buffer pos) : wavChunkWalk buffer pos = 44 := by
  rw [wavChunkWalk, if_pos hroom]
  exact (if_neg hdata).trans (if_pos (.inl hend))

/-- At another chunk the walk goes behind it. -/
theorem wavChunkWalk_next (hroom : pos + 8 < buffer.length) (hdata : chunkIdAt buffer pos ≠ DATA)
    (hend : pos + 8 + chunkSizeAt buffer pos ≤ buffer.length) :
    wavChunkWalk buffer pos = wavChunkWalk buffer (pos + 8 + chunkSizeAt buffer pos) := by
  have hgoes : ¬(pos + 8 + chunkSizeAt buffer pos > buffer.length ∨
      pos + 8 + chunkSizeAt buffer pos < pos) := by omega
  rw [wavChunkWalk, if_pos hroom]
  exact (if_neg hdata).trans (if_neg hgoes)

/-- One turn of the walk with its reads checked. -/
theorem readChunkWalk_of_room (hroom : pos + 8 < buffer.length) :
    readChunkWalk buffer pos =
      if chunkIdAt buffer pos = DATA then some (pos + 8)
      else if pos + 8 + chunkSizeAt buffer pos > buffer.length ∨
        pos + 8 + chunkSizeAt buffer pos < pos then some 44
      else readChunkWalk buffer (pos + 8 + chunkSizeAt buffer pos) := by
  have hsize := @load_of_le _ buffer (pos + 4) 4 (by omega)
  have hid := @load_of_le _ buffer pos 4 (by omega)
  rw [readChunkWalk, if_pos hroom, hsize, hid]
  rfl

end Walk

/-- Every read of the walk lies within the buffer. -/
theorem readChunkWalk_eq (buffer : List UInt8) (pos : ℕ) :
    readChunkWalk buffer pos = some (wavChunkWalk buffer pos) := by
  induction pos using wavChunkWalk.induct buffer with
  | case1 pos hroom hdata =>
    rw [readChunkWalk_of_room hroom, wavChunkWalk_data hroom hdata]
    exact if_pos hdata
  | case2 pos hroom chunkSize hdata nextPos hend =>
    have hlong : buffer.length < pos + 8 + chunkSizeAt buffer pos := by
      change buffer.length < pos + 8 + chunkSize
      omega
    rw [readChunkWalk_of_room hroom, wavChunkWalk_long hroom hdata hlong]
    exact (if_neg hdata).trans (if_pos hend)
  | case3 pos hroom chunkSize hdata nextPos hend ih =>
    have hfits : pos + 8 + chunkSizeAt buffer pos ≤ buffer.length :=
      Nat.not_lt.mp fun h => hend (.inl h)
    rw [readChunkWalk_of_room hroom, wavChunkWalk_next hroom hdata hfits]
    exact ((if_neg hdata).trans (if_neg hend)).trans ih
  | case4 pos hroom =>
    rw [readChunkWalk, wavChunkWalk, if_neg hroom, if_neg hroom]
    rfl

/-- Every read lies in the buffer. -/
theorem readAudioDataOffset_eq (buffer : List UInt8) :
    readAudioDataOffset buffer = some (getAudioDataOffset buffer) := by
  unfold readAudioDataOffset getAudioDataOffset
  by_cases hshort : buffer.length < 44
  · rw [if_pos hshort, if_pos hshort]
    rfl
  · have hmagic := @load_of_le _ buffer 0 4 (by omega)
    rw [List.drop_zero] at hmagic
    rw [if_neg hshort, if_neg hshort, hmagic, Option.bind_eq_bind, Option.bind_some,
      readChunkWalk_eq]
    split <;> rfl

/-- A chunk of a RIFF file. -/
structure Chunk where
  /-- Its name. -/
  id : List UInt8
  /-- Its bytes. -/
  data : List UInt8
  /-- The byte behind data of odd size. -/
  pad : UInt8
  /-- The name has four characters. -/
  id_size : id.length = 4
  /-- The size fits its field. -/
  data_size : data.length < 2 ^ 32

namespace Chunk

/-- The identifier and the size. -/
def header (chunk : Chunk) : List UInt8 := chunk.id ++ storeLE 4 chunk.data.length

/-- The bytes of a chunk in a file. -/
def bytes (chunk : Chunk) : List UInt8 :=
  chunk.header ++ chunk.data ++ if chunk.data.length % 2 = 1 then [chunk.pad] else []

/-- The head of a chunk takes eight bytes. -/
theorem length_header (chunk : Chunk) : chunk.header.length = 8 := by
  rw [header, List.length_append, chunk.id_size, length_storeLE]

end Chunk

/-- A WAV file: chunks of which the first with the identifier `data` is told
apart. -/
structure WaveFile where
  /-- The chunks in front. -/
  before : List Chunk
  /-- The chunk of the samples. -/
  data : Chunk
  /-- The chunks behind. -/
  after : List Chunk
  /-- None in front is named as the data. -/
  before_id : ∀ chunk ∈ before, chunk.id ≠ DATA
  /-- The data have their name. -/
  data_id : data.id = DATA

namespace WaveFile

variable (file : WaveFile)

/-- `RIFF`, the size of the rest and `WAVE`. -/
def preamble : List UInt8 :=
  RIFF ++ storeLE 4 (4 + ((file.before ++ file.data :: file.after).flatMap Chunk.bytes).length) ++
    WAVE

/-- The bytes of the file. -/
def bytes : List UInt8 :=
  file.preamble ++ (file.before ++ file.data :: file.after).flatMap Chunk.bytes

/-- Where the header of the data chunk starts. -/
def dataHeader : ℕ := 12 + (file.before.flatMap Chunk.bytes).length

/-- The offset of the first audio byte. -/
def firstAudioByte : ℕ := file.dataHeader + 8

/-- No chunk before the data has a pad byte. -/
def Unpadded : Prop := ∀ chunk ∈ file.before, chunk.data.length % 2 = 0

instance : Decidable file.Unpadded :=
  inferInstanceAs (Decidable (∀ chunk ∈ file.before, chunk.data.length % 2 = 0))

/-- What is in front of the chunks takes twelve bytes. -/
theorem length_preamble : file.preamble.length = 12 := by
  simp only [preamble, List.length_append, length_storeLE]
  rfl

end WaveFile

/-- The positions that the walk comes to: a chunk that is not `data` and ends in
the buffer is followed by the next one, without a pad byte. -/
inductive Visits (buffer : List UInt8) : ℕ → ℕ → Prop
  | here (pos : ℕ) : Visits buffer pos pos
  | next {pos q : ℕ} (hroom : pos + 8 < buffer.length) (hdata : chunkIdAt buffer pos ≠ DATA)
      (hend : pos + 8 + chunkSizeAt buffer pos ≤ buffer.length)
      (hrest : Visits buffer (pos + 8 + chunkSizeAt buffer pos) q) : Visits buffer pos q

/-- A `data` header is found at a position. -/
def DataAt (buffer : List UInt8) (pos : ℕ) : Prop :=
  pos + 8 < buffer.length ∧ chunkIdAt buffer pos = DATA

section Visits

variable {buffer : List UInt8} {pos q : ℕ}

/-- The walk from a place that is visited ends the same. -/
theorem wavChunkWalk_of_visits (h : Visits buffer pos q) :
    wavChunkWalk buffer pos = wavChunkWalk buffer q := by
  induction h with
  | here pos => rfl
  | next hroom hdata hend hrest ih => exact (wavChunkWalk_next hroom hdata hend).trans ih

/-- The walk finds a header at a position that it comes to, or falls back. -/
theorem wavChunkWalk_cases (buffer : List UInt8) (pos : ℕ) :
    (∃ q, Visits buffer pos q ∧ DataAt buffer q ∧ wavChunkWalk buffer pos = q + 8) ∨
      ((∀ q, Visits buffer pos q → ¬DataAt buffer q) ∧ wavChunkWalk buffer pos = 44) := by
  by_cases hfound : ∃ q, Visits buffer pos q ∧ DataAt buffer q
  · obtain ⟨q, hvisits, hdata⟩ := hfound
    left
    refine ⟨q, hvisits, hdata, ?_⟩
    rw [wavChunkWalk_of_visits hvisits, wavChunkWalk_data hdata.1 hdata.2]
  · right
    refine ⟨fun q hvisits hdata => hfound ⟨q, hvisits, hdata⟩, ?_⟩
    induction pos using wavChunkWalk.induct buffer with
    | case1 pos hroom hdata => exact absurd ⟨pos, .here pos, hroom, hdata⟩ hfound
    | case2 pos hroom chunkSize hdata nextPos hend =>
      refine wavChunkWalk_long hroom hdata ?_
      change buffer.length < pos + 8 + chunkSize
      omega
    | case3 pos hroom chunkSize hdata nextPos hend ih =>
      have hfits : pos + 8 + chunkSizeAt buffer pos ≤ buffer.length :=
        Nat.not_lt.mp fun h => hend (.inl h)
      rw [wavChunkWalk_next hroom hdata hfits]
      refine ih ?_
      rintro ⟨q, hvisits, hq⟩
      exact hfound ⟨q, .next hroom hdata hfits hvisits, hq⟩
    | case4 pos hroom => exact wavChunkWalk_of_not_room hroom

end Visits

/-- The header of a chunk between two other parts of a buffer. -/
theorem chunkIdAt_middle (front behind : List UInt8) (chunk : Chunk) :
    chunkIdAt (front ++ (chunk.header ++ behind)) front.length = chunk.id := by
  rw [chunkIdAt, List.drop_left, Chunk.header, List.append_assoc]
  exact List.take_left' chunk.id_size

/-- The size of a chunk is read where it stands. -/
theorem chunkSizeAt_middle (front behind : List UInt8) (chunk : Chunk) :
    chunkSizeAt (front ++ (chunk.header ++ behind)) front.length = chunk.data.length := by
  have hsize : (256 : ℕ) ^ 4 = 2 ^ 32 := rfl
  have hdrop : (front ++ (chunk.header ++ behind)).drop (front.length + 4) =
      storeLE 4 chunk.data.length ++ behind := by
    rw [← List.drop_drop, List.drop_left, Chunk.header, List.append_assoc]
    exact List.drop_left' chunk.id_size
  rw [chunkSizeAt, hdrop, List.take_left' (length_storeLE _ _), loadLE_storeLE, hsize,
    Nat.mod_eq_of_lt chunk.data_size]

/-- The walk passes chunks of even size one by one. -/
theorem visits_chunks {chunks : List Chunk} (hid : ∀ chunk ∈ chunks, chunk.id ≠ DATA)
    (heven : ∀ chunk ∈ chunks, chunk.data.length % 2 = 0) (front behind : List UInt8)
    (hbehind : 8 ≤ behind.length) :
    Visits (front ++ (chunks.flatMap Chunk.bytes ++ behind)) front.length
      (front.length + (chunks.flatMap Chunk.bytes).length) := by
  induction chunks generalizing front with
  | nil => exact .here _
  | cons chunk chunks ih =>
    rw [List.forall_mem_cons] at hid heven
    have hbytes : chunk.bytes = chunk.header ++ chunk.data := by
      rw [Chunk.bytes, if_neg (by omega), List.append_nil]
    have hbuffer : front ++ ((chunk :: chunks).flatMap Chunk.bytes ++ behind) =
        front ++ (chunk.header ++ (chunk.data ++ (chunks.flatMap Chunk.bytes ++ behind))) := by
      rw [List.flatMap_cons, hbytes, List.append_assoc, List.append_assoc]
    have hlength : (front ++ chunk.bytes).length = front.length + 8 + chunk.data.length := by
      rw [hbytes, List.length_append, List.length_append, chunk.length_header, Nat.add_assoc]
    have hnext := ih hid.2 heven.2 (front ++ chunk.bytes)
    rw [hlength, List.append_assoc, ← List.append_assoc chunk.bytes, ← List.flatMap_cons] at hnext
    have hend : front.length + 8 + chunk.data.length +
        (chunks.flatMap Chunk.bytes ++ behind).length =
          (front ++ ((chunk :: chunks).flatMap Chunk.bytes ++ behind)).length := by
      simp only [hbuffer, List.length_append, chunk.length_header]
      omega
    rw [List.length_append] at hend
    have htotal : (((chunk :: chunks).flatMap Chunk.bytes).length) =
        8 + chunk.data.length + (chunks.flatMap Chunk.bytes).length := by
      rw [List.flatMap_cons, List.length_append, hbytes, List.length_append, chunk.length_header]
    have hchunkId : chunkIdAt (front ++ ((chunk :: chunks).flatMap Chunk.bytes ++ behind))
        front.length = chunk.id := by
      rw [hbuffer, chunkIdAt_middle]
    have hchunkSize : chunkSizeAt (front ++ ((chunk :: chunks).flatMap Chunk.bytes ++ behind))
        front.length = chunk.data.length := by
      rw [hbuffer, chunkSizeAt_middle]
    refine .next (by omega) ?_ ?_ ?_
    · rw [hchunkId]
      exact hid.1
    · rw [hchunkSize]
      omega
    · rw [hchunkSize, htotal]
      convert hnext using 1
      omega

namespace WaveFile

/-- Where a chunk before the data has a pad byte, the walk is off by it, and comes
to the header of the data by accident only, as it may give the default offset. -/
def ByAccident (file : WaveFile) (buffer : List UInt8) : Prop :=
  (Visits buffer 12 file.dataHeader ∧ file.firstAudioByte < buffer.length) ∨
    (file.firstAudioByte = 44 ∧ ∀ q, Visits buffer 12 q → ¬DataAt buffer q)

variable {file : WaveFile} {buffer : List UInt8}

/-- A prefix that holds the header of the data. -/
theorem exists_parts (hfront : buffer <+: file.bytes)
    (hheader : file.firstAudioByte ≤ buffer.length) : ∃ behind, buffer =
      file.preamble ++ (file.before.flatMap Chunk.bytes ++ (file.data.header ++ behind)) := by
  have hparts : file.bytes = file.preamble ++ (file.before.flatMap Chunk.bytes ++
      file.data.header) ++ (file.data.data ++ (if file.data.data.length % 2 = 1 then
        [file.data.pad] else []) ++ file.after.flatMap Chunk.bytes) := by
    simp only [bytes, List.flatMap_append, List.flatMap_cons, Chunk.bytes, List.append_assoc]
  have hlength : (file.preamble ++ (file.before.flatMap Chunk.bytes ++
      file.data.header)).length = file.firstAudioByte := by
    rw [List.length_append, List.length_append, file.length_preamble, file.data.length_header,
      firstAudioByte, dataHeader, Nat.add_assoc]
  have hhead : file.preamble ++ (file.before.flatMap Chunk.bytes ++ file.data.header) <+: buffer := by
    refine List.prefix_of_prefix_length_le ?_ hfront (by rw [hlength]; exact hheader)
    rw [hparts]
    exact List.prefix_append _ _
  obtain ⟨behind, hbehind⟩ := hhead
  refine ⟨behind, ?_⟩
  rw [← hbehind]
  simp only [List.append_assoc]

/-- The data header is where the file has it. -/
theorem chunkIdAt_dataHeader (hfront : buffer <+: file.bytes)
    (hheader : file.firstAudioByte ≤ buffer.length) :
    chunkIdAt buffer file.dataHeader = DATA := by
  obtain ⟨behind, rfl⟩ := exists_parts hfront hheader
  have hid := chunkIdAt_middle (file.preamble ++ file.before.flatMap Chunk.bytes) behind file.data
  rw [List.length_append, file.length_preamble, List.append_assoc] at hid
  exact hid.trans file.data_id

/-- The first chunk is looked for behind the preamble. -/
theorem getAudioDataOffset_eq (hfront : buffer <+: file.bytes)
    (hheader : file.firstAudioByte ≤ buffer.length) (hlong : 44 ≤ buffer.length) :
    getAudioDataOffset buffer = wavChunkWalk buffer 12 := by
  obtain ⟨behind, hparts⟩ := exists_parts hfront hheader
  have hmagic : buffer.take 4 = RIFF := by
    rw [hparts, preamble, List.append_assoc, List.append_assoc]
    exact List.take_left' rfl
  rw [getAudioDataOffset, if_neg (Nat.not_lt.mpr hlong)]
  exact if_neg (not_not.mpr hmagic)

/-- Without pad bytes the walk comes to the data header. -/
theorem visits_dataHeader (hunpadded : file.Unpadded) (hfront : buffer <+: file.bytes)
    (hheader : file.firstAudioByte ≤ buffer.length) : Visits buffer 12 file.dataHeader := by
  obtain ⟨behind, rfl⟩ := exists_parts hfront hheader
  have hvisits := visits_chunks file.before_id hunpadded file.preamble
    (file.data.header ++ behind) (by
      rw [List.length_append, file.data.length_header]
      exact Nat.le_add_right _ _)
  rw [file.length_preamble] at hvisits
  exact hvisits

/-- The walk gives the first audio byte if it comes to the data header with a
byte behind it, or falls back to 44 where that is right. -/
theorem wavChunkWalk_iff (hfront : buffer <+: file.bytes)
    (hheader : file.firstAudioByte ≤ buffer.length) :
    wavChunkWalk buffer 12 = file.firstAudioByte ↔ file.ByAccident buffer := by
  have hdata := chunkIdAt_dataHeader hfront hheader
  rcases wavChunkWalk_cases buffer 12 with ⟨q, hvisits, hq, hwalk⟩ | ⟨hnone, hwalk⟩
  · rw [hwalk]
    constructor
    · intro hsame
      obtain rfl : q = file.dataHeader := Nat.add_right_cancel hsame
      exact .inl ⟨hvisits, hq.1⟩
    · rintro (⟨hvisits', hbehind⟩ | ⟨-, hnone⟩)
      · rw [← hwalk, wavChunkWalk_of_visits hvisits', wavChunkWalk_data hbehind hdata]
        rfl
      · exact absurd hq (hnone q hvisits)
  · rw [hwalk]
    constructor
    · exact fun hsame => .inr ⟨hsame.symm, hnone⟩
    · rintro (⟨hvisits, hbehind⟩ | ⟨hdefault, -⟩)
      · exact absurd ⟨hbehind, hdata⟩ (hnone _ hvisits)
      · exact hdefault.symm

end WaveFile

/-- The offset of a prefix of a WAV file is that of its first audio byte exactly
if no chunk before the data has a pad byte and a byte follows the data header,
or the offset is 44; with a pad byte it is right by accident only. No read leaves
the buffer, whatever bytes it holds. -/
theorem readAudioDataOffset_iff {file : WaveFile} {buffer : List UInt8}
    (hfront : buffer <+: file.bytes) (hheader : file.firstAudioByte ≤ buffer.length)
    (hlong : 44 ≤ buffer.length) :
    (readAudioDataOffset buffer = some file.firstAudioByte ↔
        (file.Unpadded ∧ (file.firstAudioByte < buffer.length ∨ file.firstAudioByte = 44)) ∨
          (¬file.Unpadded ∧ file.ByAccident buffer)) ∧
      ∀ bytes, (readAudioDataOffset bytes).isSome := by
  refine ⟨?_, fun bytes => by rw [readAudioDataOffset_eq]; rfl⟩
  rw [readAudioDataOffset_eq, Option.some.injEq,
    WaveFile.getAudioDataOffset_eq hfront hheader hlong]
  by_cases hunpadded : file.Unpadded
  · have hvisits := WaveFile.visits_dataHeader hunpadded hfront hheader
    have hdata := WaveFile.chunkIdAt_dataHeader hfront hheader
    rw [wavChunkWalk_of_visits hvisits, or_iff_left fun h => h.1 hunpadded,
      and_iff_right hunpadded]
    by_cases hbehind : file.firstAudioByte < buffer.length
    · rw [wavChunkWalk_data hbehind hdata]
      exact iff_of_true rfl (.inl hbehind)
    · rw [wavChunkWalk_of_not_room hbehind, or_iff_right hbehind]
      exact eq_comm
  · rw [WaveFile.wavChunkWalk_iff hfront hheader, or_iff_right fun h => hunpadded h.1,
      and_iff_right hunpadded]

/-- A chunk of zeros. -/
def zeroChunk (id : List UInt8) (hid : id.length = 4) (size : Fin 256) : Chunk where
  id := id
  data := List.replicate size 0
  pad := 0
  id_size := hid
  data_size := by
    rw [List.length_replicate]
    exact size.isLt.trans (by decide)

/-- A file with a format of 16 bytes, a further chunk of a size and four bytes of audio. -/
def listFile (size : Fin 256) : WaveFile where
  before := [zeroChunk [0x66, 0x6D, 0x74, 0x20] rfl 16, zeroChunk [0x4C, 0x49, 0x53, 0x54] rfl size]
  data := zeroChunk DATA rfl 4
  after := []
  before_id := by
    rintro chunk hchunk
    simp only [List.mem_cons, List.not_mem_nil, or_false] at hchunk
    rcases hchunk with rfl | rfl
    · exact (by decide : [0x66, 0x6D, 0x74, 0x20] ≠ DATA)
    · exact (by decide : [0x4C, 0x49, 0x53, 0x54] ≠ DATA)
  data_id := rfl

/-- A chunk of two bytes before the data. -/
theorem readAudioDataOffset_even :
    readAudioDataOffset (listFile 2).bytes = some (listFile 2).firstAudioByte :=
  (@readAudioDataOffset_iff (listFile 2) (listFile 2).bytes List.prefix_rfl (by decide)
    (by decide)).1.mpr (.inl ⟨by decide, .inl (by decide)⟩)

/-- A chunk of one byte before the data hides it, and so does the end of the
buffer behind its header. -/
theorem data_not_found : readAudioDataOffset (listFile 1).bytes = some 44 ∧
    (listFile 1).firstAudioByte = 54 ∧
    readAudioDataOffset ((listFile 2).bytes.take 54) ≠ some (listFile 2).firstAudioByte := by
  refine ⟨?_, by decide, fun hfound => ?_⟩
  · have hformat : wavChunkWalk (listFile 1).bytes 12 = wavChunkWalk (listFile 1).bytes 36 :=
      wavChunkWalk_next (by decide) (by decide) (by decide)
    have hlist : wavChunkWalk (listFile 1).bytes 36 = wavChunkWalk (listFile 1).bytes 45 :=
      wavChunkWalk_next (by decide) (by decide) (by decide)
    have hmissed : wavChunkWalk (listFile 1).bytes 45 = 44 :=
      wavChunkWalk_long (by decide) (by decide) (by decide)
    rw [readAudioDataOffset_eq,
      WaveFile.getAudioDataOffset_eq List.prefix_rfl (by decide) (by decide), hformat, hlist,
      hmissed]
  · have hunpadded : (listFile 2).Unpadded := by decide
    have hiff := (readAudioDataOffset_iff (List.take_prefix 54 (listFile 2).bytes) (by decide)
      (by decide)).1.mp hfound
    rcases hiff with ⟨-, hbehind | hdefault⟩ | ⟨hpadded, -⟩
    · exact absurd hbehind (by decide)
    · exact absurd hdefault (by decide)
    · exact hpadded hunpadded

end HermesFlow.Audio
