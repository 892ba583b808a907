import HermesFlow.BufferOwnership
import HermesFlow.FileInputNode

/-!
# Playback of a file

A block has room for 409 frames and 192 bytes more, and each swap skips these
192 bytes. In runs whose refills are in time the frames delivered are slices
of the blocks, so they are the file's bytes in order exactly as long as the
file needs no frame of a second block.
-/

namespace HermesFlow.Audio.FileInputNode

open EventRun Buffering

variable {Shifter : Type} {fx : Effects Shifter}

/-- Frames that fit in a block. -/
def FRAMES_PER_BLOCK : ℕ := BUFFER_SIZE / FRAME_SIZE_BYTES

/-- A block holds a frame exactly when it holds its bytes. -/
theorem le_framesPerBlock {j : ℕ} : j ≤ FRAMES_PER_BLOCK ↔ j * FRAME_SIZE_BYTES ≤ BUFFER_SIZE :=
  Nat.le_div_iff_mul_le (by decide)

/-- A call swaps when it has taken the frames of the block. -/
theorem needsSwap_iff_frames {c : AsyncBufferController} :
    c.needsSwap 0 ↔ FRAMES_PER_BLOCK ≤ c.inBufferProcessedFrames := by
  rw [AsyncBufferController.needsSwap_iff, Nat.add_zero, ← Nat.succ_mul, ← Nat.not_le,
    ← le_framesPerBlock, Nat.not_le, Nat.lt_succ_iff]

/-- Block `c` of the audio bytes, as a refill leaves it. -/
def chunk (audio : List UInt8) (c : ℕ) : List UInt8 := padded (audio.drop (c * BUFFER_SIZE))

/-- Frame `k` of a playback: a slice of its block. -/
def frameAt (audio : List UInt8) (k : ℕ) : List UInt8 :=
  ((chunk audio (k / FRAMES_PER_BLOCK)).drop (k % FRAMES_PER_BLOCK * FRAME_SIZE_BYTES)).take
    FRAME_SIZE_BYTES

/-- What is behind a block does not change its padding. -/
theorem padded_take (data : List UInt8) : padded (data.take BUFFER_SIZE) = padded data := by
  have hrest : BUFFER_SIZE - min BUFFER_SIZE data.length = BUFFER_SIZE - data.length := by omega
  rw [padded, padded, List.take_take, Nat.min_self, List.length_take, hrest]

/-- A frame buffer receives one frame of the block. -/
theorem take_copyFrame {block : List UInt8} {bufferOffset : ℕ} (outputBuffer : List UInt8)
    (h : bufferOffset + FRAME_SIZE_BYTES ≤ block.length) :
    (copyFrame block bufferOffset outputBuffer).take FRAME_SIZE_BYTES =
      (block.drop bufferOffset).take FRAME_SIZE_BYTES := by
  apply List.take_left'
  rw [List.length_take, List.length_drop]
  omega

/-- The open file stands at block `c` of its audio bytes. -/
def AtChunk (n : FileInputNode Shifter) (audio : List UInt8) (c : ℕ) : Prop :=
  ∃ file position, n.file = some file ∧ n.handle = some position ∧
    file.drop position = audio.drop (c * BUFFER_SIZE)

/-- A read gives the bytes of the block. -/
theorem AtChunk.readBlock {n : FileInputNode Shifter} {audio : List UInt8} {c : ℕ}
    (h : AtChunk n audio c) : n.readBlock = (audio.drop (c * BUFFER_SIZE)).take BUFFER_SIZE := by
  obtain ⟨file, position, hfile, hhandle, hdrop⟩ := h
  simp only [FileInputNode.readBlock, hfile, hhandle, hdrop]

/-- So it fills a block with them. -/
theorem AtChunk.padded_readBlock {n : FileInputNode Shifter} {audio : List UInt8} {c : ℕ}
    (h : AtChunk n audio c) : padded n.readBlock = chunk audio c := by
  rw [h.readBlock, padded_take, chunk]

/-- After it the file stands at the next block. -/
theorem AtChunk.advanceHandle {n : FileInputNode Shifter} {audio : List UInt8} {c : ℕ}
    (h : AtChunk n audio c) : AtChunk n.advanceHandle audio (c + 1) := by
  have hread := h.readBlock
  obtain ⟨file, position, hfile, hhandle, hdrop⟩ := h
  refine ⟨file, position + n.readBlock.length, hfile, ?_, ?_⟩
  · rw [FileInputNode.advanceHandle, hhandle, Option.map_some]
  · rw [← List.drop_drop, hdrop, hread, List.drop_drop, List.length_take, List.length_drop,
      Nat.succ_mul]
    rcases Nat.le_total BUFFER_SIZE (audio.length - c * BUFFER_SIZE) with hfull | hshort
    · rw [Nat.min_eq_left hfull]
    · rw [Nat.min_eq_right hshort, List.drop_of_length_le (by omega),
        List.drop_of_length_le (by omega)]

/-- The node is about to return frame `w * FRAMES_PER_BLOCK + j` of its file: it
reads block `w`, and the next block is in the back buffer or about to be. -/
structure Playing (audio : List UInt8) (total : ℤ) (w j : ℕ) (n : FileInputNode Shifter) :
    Prop where
  /-- Frames are returned as they are. -/
  options : n.options = none
  /-- The blocks are owned by their users. -/
  owned : Owned n.buffer
  /-- The number of frames to return. -/
  totalFrames : n.base.totalFrames = total
  /-- Those returned. -/
  processed : n.base.processedFrames = (w * FRAMES_PER_BLOCK + j : ℕ)
  /-- Those returned from this block. -/
  count : n.buffer.controller.inBufferProcessedFrames = j
  /-- No more than the block has. -/
  bound : j ≤ FRAMES_PER_BLOCK
  /-- The read block. -/
  reading : n.buffer.controller.bf.getReadSpan = chunk audio w
  /-- The back block. -/
  back : (BackRefilled n.buffer ∧
      n.buffer.controller.bf.blocks n.buffer.controller.bf.writeIndex = chunk audio (w + 1) ∧
        AtChunk n audio (w + 2)) ∨
    ((n.buffer.refills.getLast? = some .spawned ∨
        n.buffer.refills.getLast? = some (.fetching n.buffer.controller.bf.writeIndex)) ∧
      AtChunk n audio (w + 1))

/-- `process_frame` reports the end of the stream. -/
def Ended (n : FileInputNode Shifter) : Prop :=
  n.base.processedFrames ≥ n.base.totalFrames ∧ n.base.totalFrames > 0

instance (n : FileInputNode Shifter) : Decidable (Ended n) :=
  inferInstanceAs (Decidable (_ ∧ _))

/-- The guard of runs whose refills are in time: each is completed before its
block is swapped in. -/
def Timely (n : FileInputNode Shifter) : Event → Prop
  | .processFrame _ => ¬Ended n → n.buffer.controller.needsSwap 0 → BackRefilled n.buffer
  | _ => True

/-- The events of a playback: calls of `process_frame`, and refills that read. -/
def Event.IsPlayback : Event → Prop
  | .processFrame _ | .task (.refillStart _) | .task (.refillDone _ true) => True
  | _ => False

/-- The calls of `process_frame`. -/
def Event.isCall : Event → Bool
  | .processFrame _ => true
  | _ => false

/-- A call at the end of the stream. -/
theorem processFrame_of_ended {n : FileInputNode Shifter} (hended : Ended n)
    (frameBuffer : List UInt8) :
    n.processFrame fx frameBuffer =
      ⟨n, .error (n.base.error .endOfStream s!"End of stream for {n.base.id}"),
        List.replicate frameBuffer.length 0⟩ := if_pos hended

/-- A call of a node without options that gets a frame. -/
theorem processFrame_of_ok {n : FileInputNode Shifter} {frameBuffer : List UInt8}
    (hended : ¬Ended n) (hoptions : n.options = none)
    (hok : (n.buffer.controller.getFrame frameBuffer 0).result = .ok ()) :
    n.processFrame fx frameBuffer =
      ⟨{ n with
          buffer := Buffering.getFrame n.buffer frameBuffer 0
          base := { n.base with processedFrames := n.base.processedFrames + 1 } },
        .ok (), (n.buffer.controller.getFrame frameBuffer 0).outputBuffer⟩ := by
  unfold FileInputNode.processFrame
  rw [if_neg (show ¬(n.base.processedFrames ≥ n.base.totalFrames ∧ n.base.totalFrames > 0)
    from hended)]
  simp only [hok, hoptions]

/-- A frame is read from the chunk it lies in. -/
theorem frameAt_eq {audio : List UInt8} {w j : ℕ} (hj : j < FRAMES_PER_BLOCK) :
    frameAt audio (w * FRAMES_PER_BLOCK + j) =
      ((chunk audio w).drop (j * FRAME_SIZE_BYTES)).take FRAME_SIZE_BYTES := by
  have hpos : 0 < FRAMES_PER_BLOCK := by omega
  have hblock : (w * FRAMES_PER_BLOCK + j) / FRAMES_PER_BLOCK = w := by
    rw [Nat.add_comm, Nat.add_mul_div_right _ _ hpos, Nat.div_eq_of_lt hj, Nat.zero_add]
  have hframe : (w * FRAMES_PER_BLOCK + j) % FRAMES_PER_BLOCK = j := by
    rw [Nat.add_comm, Nat.add_mul_mod_self_right, Nat.mod_eq_of_lt hj]
  rw [frameAt, hblock, hframe]

/-- A call that finds its frame in the read block, or in the block it swaps in,
returns the next frame of the file. -/
theorem Playing.processFrame {audio : List UInt8} {total : ℤ} {w j : ℕ}
    {n : FileInputNode Shifter} (h : Playing audio total w j n) (hended : ¬Ended n)
    (htimely : n.buffer.controller.needsSwap 0 → BackRefilled n.buffer) (frameBuffer : List UInt8) :
    (n.processFrame fx frameBuffer).result = .ok () ∧
      (n.processFrame fx frameBuffer).frameBuffer.take FRAME_SIZE_BYTES =
        frameAt audio (w * FRAMES_PER_BLOCK + j) ∧
      ∃ w' j', w' * FRAMES_PER_BLOCK + j' = w * FRAMES_PER_BLOCK + j + 1 ∧
        Playing audio total w' j' (n.processFrame fx frameBuffer).node := by
  have howned : Owned (Buffering.getFrame n.buffer frameBuffer 0) :=
    @owned_step _ _ (.getFrame frameBuffer 0) h.owned trivial htimely rfl
  have hneeds := @needsSwap_iff_frames n.buffer.controller
  rw [h.count] at hneeds
  by_cases hswap : n.buffer.controller.needsSwap 0
  · -- the block is used up and the next one has been read
    have hframe := AsyncBufferController.getFrame_of_swap hswap h.owned.ready frameBuffer
    have hj : j = FRAMES_PER_BLOCK := Nat.le_antisymm h.bound (hneeds.mp hswap)
    have hdone := htimely hswap
    obtain ⟨-, hnext, hat⟩ : BackRefilled n.buffer ∧
        n.buffer.controller.bf.blocks n.buffer.controller.bf.writeIndex = chunk audio (w + 1) ∧
          AtChunk n audio (w + 2) := by
      rcases h.back with hready | ⟨hpending | hpending, -⟩
      · exact hready
      · cases hdone _ hpending
      · cases hdone _ hpending
    have hlen : (chunk audio (w + 1)).length = BUFFER_SIZE := length_padded _
    have hindex : w * FRAMES_PER_BLOCK + j = (w + 1) * FRAMES_PER_BLOCK + 0 := by
      rw [hj, Nat.succ_mul, Nat.add_zero]
    rw [processFrame_of_ok hended h.options (by rw [hframe])]
    refine ⟨rfl, ?_, w + 1, 1, by rw [hindex], ?_⟩
    · rw [hframe, hindex, frameAt_eq (by decide), take_copyFrame, Nat.zero_mul]
      · exact congrArg (fun block => (List.drop 0 block).take FRAME_SIZE_BYTES) hnext
      · rw [DoubleBuffer.getReadSpan, DoubleBuffer.blocks_size]
        decide
    · refine ⟨h.options, howned, h.totalFrames, ?_, ?_, by decide, ?_, .inr ⟨.inl ?_, hat⟩⟩
      · change n.base.processedFrames + 1 = _
        rw [h.processed, hindex]
        push_cast
        ring
      · simp only [Buffering.getFrame, hframe]
      · simp only [Buffering.getFrame, hframe]
        exact hnext
      · simp only [Buffering.getFrame, hframe, if_true, List.getLast?_concat]
  · -- the frame is in the read block
    have hframe := AsyncBufferController.getFrame_of_fits hswap frameBuffer
    have hj : j < FRAMES_PER_BLOCK := Nat.lt_of_not_le (mt hneeds.mpr hswap)
    have hfits := le_framesPerBlock.mp hj
    rw [Nat.succ_mul] at hfits
    rw [processFrame_of_ok hended h.options (by rw [hframe])]
    refine ⟨rfl, ?_, w, j + 1, (Nat.add_assoc _ _ _).symm, ?_⟩
    · have hoffset : n.buffer.controller.bufferOffset 0 = j * FRAME_SIZE_BYTES := by
        rw [AsyncBufferController.bufferOffset, h.count, Nat.add_zero]
      rw [hframe, frameAt_eq hj, hoffset, h.reading]
      exact take_copyFrame frameBuffer (by rw [chunk, length_padded]; exact hfits)
    · refine ⟨h.options, howned, h.totalFrames, ?_, ?_, hj, ?_, ?_⟩
      · change n.base.processedFrames + 1 = _
        rw [h.processed]
        push_cast
        ring
      · simp only [Buffering.getFrame, hframe, h.count]
      · simp only [Buffering.getFrame, hframe]
        exact h.reading
      · simp only [Buffering.getFrame, hframe]
        exact h.back

/-- At a chunk the file is open, so a fetch starts as it is. -/
theorem AtChunk.beginFetch {n : FileInputNode Shifter} {audio : List UInt8} {c : ℕ}
    (h : AtChunk n audio c) : n.beginFetch = n := by
  obtain ⟨file, position, -, hhandle, -⟩ := h
  rw [FileInputNode.beginFetch, hhandle]

/-- While it plays the file is open, so a fetch starts as it is. -/
theorem Playing.beginFetch {audio : List UInt8} {total : ℤ} {w j : ℕ} {n : FileInputNode Shifter}
    (h : Playing audio total w j n) : n.beginFetch = n := by
  rcases h.back with ⟨-, -, hat⟩ | ⟨-, hat⟩ <;> exact hat.beginFetch

/-- A refill that has not completed is the one of the back block. -/
theorem Playing.pending {audio : List UInt8} {total : ℤ} {w j : ℕ} {n : FileInputNode Shifter}
    (h : Playing audio total w j n) {k : ℕ} {pc : RefillPc} (hk : n.buffer.refills[k]? = some pc)
    (hdone : pc ≠ .done) (hfaulted : pc ≠ .faulted) :
    (pc = .spawned ∨ pc = .fetching n.buffer.controller.bf.writeIndex) ∧
      AtChunk n audio (w + 1) := by
  have hlast := h.owned.getLast? hk hdone hfaulted
  rcases h.back with ⟨hready, -, -⟩ | ⟨hpending | hpending, hat⟩
  · exact absurd (hready pc hlast) hdone
  · exact ⟨.inl (Option.some.inj (hlast.symm.trans hpending)), hat⟩
  · exact ⟨.inr (Option.some.inj (hlast.symm.trans hpending)), hat⟩

/-- The last refill stays the last one when it moves on. -/
theorem getLast?_set {s : Buffering.State} (hs : Owned s) {k : ℕ} {old pc : RefillPc}
    (hk : s.refills[k]? = some old) (hdone : old ≠ .done) (hfaulted : old ≠ .faulted) :
    (s.refills.set k pc).getLast? = some pc := by
  have hlast := hs.last k old hk hdone hfaulted
  have hlt := (List.getElem?_eq_some_iff.mp hk).1
  rw [List.getLast?_eq_getElem?, List.length_set, ← hlast, Nat.add_sub_cancel,
    List.getElem?_set_self hlt]

/-- A step of a refill moves no frame. -/
theorem Playing.runTask {audio : List UInt8} {total : ℤ} {w j : ℕ} {n n' : FileInputNode Shifter}
    (h : Playing audio total w j n) {t : Task} (hplay : (Event.task t).IsPlayback)
    (hrun : n.runTask t = some n') : Playing audio total w j n' := by
  cases t with
  | refillStart k =>
    obtain ⟨buffer, hstep, rfl⟩ := Option.map_eq_some_iff.mp hrun
    have howned := @owned_step _ _ (.refillStart k) h.owned trivial trivial hstep
    cases step_moves hstep with
    | refillStart hk =>
      have hat := (h.pending hk nofun nofun).2
      rw [h.beginFetch]
      exact ⟨h.options, howned, h.totalFrames, h.processed, h.count, h.bound, h.reading,
        .inr ⟨.inr (getLast?_set h.owned hk nofun nofun), hat⟩⟩
  | refillDone k ok =>
    obtain rfl : ok = true := by
      cases ok with
      | true => rfl
      | false => exact hplay.elim
    obtain ⟨buffer, hstep, rfl⟩ := Option.map_eq_some_iff.mp hrun
    have howned := @owned_step _ _ (.refillDone k _) h.owned trivial trivial hstep
    cases step_moves hstep with
    | @refillDone _ block hk =>
      obtain ⟨hblock | hblock, hat⟩ := h.pending hk nofun nofun
      · cases hblock
      · obtain rfl := RefillPc.fetching.inj hblock
        refine ⟨h.options, howned, h.totalFrames, h.processed, h.count, h.bound, ?_,
          .inl ⟨?_, ?_, hat.advanceHandle⟩⟩
        · refine Eq.trans ?_ h.reading
          exact Function.update_of_ne n.buffer.controller.bf.writeIndex_ne.symm _ _
        · intro pc hpc
          have hlast : (n.buffer.refills.set k .done).getLast? = some .done :=
            getLast?_set h.owned hk nofun nofun
          exact (Option.some.inj (hlast.symm.trans hpc)).symm
        · exact (Function.update_self _ _ _).trans hat.padded_readBlock
  | _ => exact hplay.elim

/-- The frames that a number of calls return after the first `k` frames. -/
def framesLeft (total : ℤ) (k calls : ℕ) : ℕ :=
  if 0 < total then min calls (total.toNat - k) else calls

/-- A node that has ended has no frame left. -/
theorem Playing.framesLeft_of_ended {audio : List UInt8} {total : ℤ} {w j : ℕ}
    {n : FileInputNode Shifter} (h : Playing audio total w j n) (hended : Ended n) (calls : ℕ) :
    framesLeft total (w * FRAMES_PER_BLOCK + j) calls = 0 := by
  obtain ⟨hall, hpos⟩ := hended
  rw [h.processed, h.totalFrames] at hall
  rw [h.totalFrames] at hpos
  rw [framesLeft, if_pos hpos]
  omega

/-- Until then a call takes one of the frames left. -/
theorem Playing.framesLeft_succ {audio : List UInt8} {total : ℤ} {w j : ℕ}
    {n : FileInputNode Shifter} (h : Playing audio total w j n) (hended : ¬Ended n) (calls : ℕ) :
    framesLeft total (w * FRAMES_PER_BLOCK + j) (calls + 1) =
      framesLeft total (w * FRAMES_PER_BLOCK + j + 1) calls + 1 := by
  unfold framesLeft
  split
  · have hleft : (w * FRAMES_PER_BLOCK + j : ℕ) < total := by
      by_contra hall
      refine hended ⟨?_, h.totalFrames ▸ ‹0 < total›⟩
      rw [h.processed, h.totalFrames]
      omega
    omega
  · rfl

/-- The frames delivered in a run whose refills are in time. -/
theorem Playing.delivered {audio : List UInt8} {total : ℤ} {w j : ℕ} {n : FileInputNode Shifter}
    (h : Playing audio total w j n) {es : List Event} {t : FileInputNode Shifter}
    (hplay : ∀ e ∈ es, e.IsPlayback) (htimely : Meets (step fx) Timely n es)
    (hrun : runEvents (step fx) n es = some t) :
    delivered fx n es = (List.range' (w * FRAMES_PER_BLOCK + j)
      (framesLeft total (w * FRAMES_PER_BLOCK + j) (es.countP Event.isCall))).map
        (frameAt audio) := by
  induction es generalizing n w j with
  | nil =>
    have hnone : framesLeft total (w * FRAMES_PER_BLOCK + j) 0 = 0 := by
      unfold framesLeft
      split <;> omega
    rw [List.countP_nil, hnone]
    rfl
  | cons e es ih =>
    have hrest : ∀ d ∈ es, d.IsPlayback := fun d hd => hplay d (List.mem_cons_of_mem e hd)
    obtain ⟨n', hstep, ht⟩ := runEvents_cons_iff.mp hrun
    cases e with
    | processFrame frameBuffer =>
      rw [List.countP_cons_of_pos (show Event.isCall (.processFrame frameBuffer) = true from rfl)]
      by_cases hended : Ended n
      · -- the end of the stream is reported again
        have hsame := @processFrame_of_ended _ fx n hended frameBuffer
        have hnode : n' = n := by
          rw [← Option.some.inj hstep, hsame]
        subst hnode
        have hlist := ih h hrest (htimely.2 n' hstep) ht
        rw [h.framesLeft_of_ended hended] at hlist ⊢
        rw [FileInputNode.delivered, hstep, hsame]
        exact hlist
      · obtain ⟨hresult, hframe, w', j', hindex, hnext⟩ :=
          @Playing.processFrame _ fx _ _ _ _ _ h hended (htimely.1 hended) frameBuffer
        obtain rfl := Option.some.inj hstep
        have hlist := ih hnext hrest (htimely.2 _ hstep) ht
        rw [hindex] at hlist
        rw [FileInputNode.delivered, hstep, hresult, hframe, h.framesLeft_succ hended,
          List.range'_succ, List.map_cons, ← hlist]
        rfl
    | close fault => exact (hplay _ List.mem_cons_self).elim
    | task task =>
      have hsame := h.runTask (hplay _ List.mem_cons_self) hstep
      have hlist := ih hsame hrest (htimely.2 n' hstep) ht
      have hsplit : FileInputNode.delivered fx n (.task task :: es) =
          FileInputNode.delivered fx n' es := by
        simp only [FileInputNode.delivered, hstep, List.nil_append]
      rw [List.countP_cons_of_neg (by simp [Event.isCall]), hsplit]
      exact hlist

/-- A node without options on a file, as the graph creates it. -/
structure Fresh (n : FileInputNode Shifter) (file : List UInt8) : Prop where
  /-- The node names this file. -/
  file : n.file = some file
  /-- The file is not open. -/
  handle : n.handle = none
  /-- It has no options. -/
  options : n.options = none
  /-- Nothing has been played. -/
  processed : n.base.processedFrames = 0
  /-- Its buffers are not initialised. -/
  buffer : n.buffer = ⟨.create, [], []⟩

/-- The first `initialize_buffers`, with the reads of its two fetches. -/
def prepareEvents : List Event :=
  [.task .initializeBuffers, .task (.initStart 0), .task (.initFirst 0 true),
    .task (.initSecond 0 true)]

/-- The node after it. -/
def prepared (n : FileInputNode Shifter) : FileInputNode Shifter :=
  let opened := n.openFile.1
  let once := opened.advanceHandle
  { once.advanceHandle with buffer := Buffering.initialized opened.readBlock once.readBlock }

/-- A fresh node is prepared by these events. -/
theorem Fresh.run_prepare {n : FileInputNode Shifter} {file : List UInt8} (h : Fresh n file) :
    runEvents (step fx) n prepareEvents = some (prepared n) := by
  obtain ⟨base, fileName, filePath, _, _, _, shifter, _⟩ := n
  obtain ⟨rfl, rfl, rfl, -, rfl⟩ := h
  rfl

/-- A fresh node opens its file at the first chunk. -/
theorem Fresh.atChunk {n : FileInputNode Shifter} {file : List UInt8} (h : Fresh n file) :
    AtChunk n.openFile.1 (audioOf file) 0 := by
  refine ⟨file, audioOffset file, ?_, ?_, ?_⟩
  · rw [openFile, h.file]
  · rw [openFile, h.file]
  · rw [Nat.zero_mul, List.drop_zero, audioOf]

/-- Playback starts at the first frame. -/
theorem Fresh.playing {n : FileInputNode Shifter} {file : List UInt8} (h : Fresh n file) :
    Playing (audioOf file) (totalFramesOf file) 0 0 (prepared n) := by
  have hfirst := h.atChunk
  have hsecond := hfirst.advanceHandle
  have hthird := hsecond.advanceHandle
  have hopen : n.openFile.1 = { n with
      handle := some (audioOffset file)
      base := { n.base with totalFrames := totalFramesOf file } } := by
    rw [openFile, h.file]
  refine ⟨?_, owned_initialized _ _, ?_, ?_, rfl, Nat.zero_le _, ?_, .inl ⟨nofun, ?_, hthird⟩⟩
  · simp only [prepared, hopen, advanceHandle, h.options]
  · simp only [prepared, hopen, advanceHandle]
  · simp only [prepared, hopen, advanceHandle, h.processed]
    rfl
  · exact hfirst.padded_readBlock
  · exact hsecond.padded_readBlock

/-- A file of this audio size is played without loss: in runs whose refills are
in time the frames returned are the first bytes of its audio, in order. -/
def Lossless (fx : Effects Shifter) (size : ℕ) : Prop :=
  ∀ (n p t : FileInputNode Shifter) (file : List UInt8) (es : List Event), Fresh n file →
    (audioOf file).length = size → runEvents (step fx) n prepareEvents = some p →
      (∀ e ∈ es, e.IsPlayback) → Meets (step fx) Timely p es →
        runEvents (step fx) p es = some t →
          (delivered fx p es).flatten = (audioOf file).take
            (min (es.countP Event.isCall) (size / FRAME_SIZE_BYTES) * FRAME_SIZE_BYTES)

/-- The frames of such a run, from the first one on. -/
theorem delivered_prepared {n p t : FileInputNode Shifter} {file : List UInt8} {es : List Event}
    (h : Fresh n file) (hprepare : runEvents (step fx) n prepareEvents = some p)
    (hplay : ∀ e ∈ es, e.IsPlayback) (htimely : Meets (step fx) Timely p es)
    (hrun : runEvents (step fx) p es = some t) :
    delivered fx p es = (List.range' 0 (framesLeft (totalFramesOf file) 0
      (es.countP Event.isCall))).map (frameAt (audioOf file)) := by
  obtain rfl := Option.some.inj (h.run_prepare.symm.trans hprepare)
  have hlist := h.playing.delivered hplay htimely hrun
  rw [Nat.zero_mul, Nat.add_zero] at hlist
  exact hlist

/-- Every frame has its full size. -/
theorem length_frameAt (audio : List UInt8) (k : ℕ) : (frameAt audio k).length = FRAME_SIZE_BYTES := by
  have hmod : k % FRAMES_PER_BLOCK < FRAMES_PER_BLOCK := Nat.mod_lt k (by decide)
  have hfits := le_framesPerBlock.mp hmod
  rw [Nat.succ_mul] at hfits
  rw [frameAt, chunk, List.length_take, List.length_drop, length_padded]
  omega

/-- Frames in a row have their full size each. -/
theorem length_flatten_frames (audio : List UInt8) (k m : ℕ) :
    ((List.range' k m).map (frameAt audio)).flatten.length = m * FRAME_SIZE_BYTES := by
  induction m generalizing k with
  | zero => rw [List.range'_zero, List.map_nil, List.flatten_nil, List.length_nil, Nat.zero_mul]
  | succ m ih =>
    rw [List.range'_succ, List.map_cons, List.flatten_cons, List.length_append, ih, length_frameAt,
      Nat.succ_mul, Nat.add_comm]

/-- The frames of the first block are the bytes of the file. -/
theorem flatten_frames {audio : List UInt8} {m : ℕ} (hm : m ≤ FRAMES_PER_BLOCK)
    (hlen : m * FRAME_SIZE_BYTES ≤ audio.length) :
    ((List.range' 0 m).map (frameAt audio)).flatten = audio.take (m * FRAME_SIZE_BYTES) := by
  induction m with
  | zero => rw [List.range'_zero, List.map_nil, List.flatten_nil, Nat.zero_mul, List.take_zero]
  | succ m ih =>
    have hblock := le_framesPerBlock.mp hm
    rw [Nat.succ_mul] at hlen hblock
    have hframe : frameAt audio m = (audio.drop (m * FRAME_SIZE_BYTES)).take FRAME_SIZE_BYTES := by
      have hfirst := @frameAt_eq audio 0 m hm
      rw [Nat.zero_mul, Nat.zero_add] at hfirst
      have hfits : m * FRAME_SIZE_BYTES + FRAME_SIZE_BYTES ≤ (audio.take BUFFER_SIZE).length := by
        rw [List.length_take]
        omega
      have hrest : FRAME_SIZE_BYTES ≤
          ((audio.take BUFFER_SIZE).drop (m * FRAME_SIZE_BYTES)).length := by
        rw [List.length_drop]
        omega
      rw [hfirst, chunk, Nat.zero_mul, List.drop_zero, padded,
        List.drop_append_of_le_length (by omega), List.take_append_of_le_length hrest,
        List.drop_take, List.take_take, Nat.min_eq_left (by omega)]
    rw [List.range'_concat, List.map_append, List.flatten_append, ih (by omega) (by omega),
      List.map_singleton, List.flatten_singleton, Nat.one_mul, Nat.zero_add, hframe, Nat.succ_mul,
      List.take_add]

/-- Files that need no frame of a second block are played without loss. -/
theorem lossless_of_first_block {size : ℕ} (hsize : FRAME_SIZE_BYTES ≤ size)
    (hshort : size < (FRAMES_PER_BLOCK + 1) * FRAME_SIZE_BYTES) : Lossless fx size := by
  intro n p t file es hfresh hlen hprepare hplay htimely hrun
  have hframes : size / FRAME_SIZE_BYTES < FRAMES_PER_BLOCK + 1 := by
    rw [Nat.div_lt_iff_lt_mul (by decide)]
    exact hshort
  have hpos : 0 < size / FRAME_SIZE_BYTES := Nat.div_pos hsize (by decide)
  have htotal : totalFramesOf file = (size / FRAME_SIZE_BYTES : ℕ) := by
    have hblock : FRAMES_PER_BLOCK = 409 := by decide
    unfold totalFramesOf
    rw [hlen]
    generalize size / FRAME_SIZE_BYTES = total at hframes ⊢
    apply Int.bmod_eq_of_le <;> omega
  have hcount : framesLeft (totalFramesOf file) 0 (es.countP Event.isCall) =
      min (es.countP Event.isCall) (size / FRAME_SIZE_BYTES) := by
    rw [htotal, framesLeft, if_pos (by omega), Int.toNat_natCast, Nat.sub_zero]
  rw [delivered_prepared hfresh hprepare hplay htimely hrun, hcount]
  refine flatten_frames (by omega) ?_
  rw [hlen]
  exact (Nat.mul_le_mul_right _ (Nat.min_le_right _ _)).trans (Nat.div_mul_le_self _ _)

/-- A file without a header whose first byte after the frames of block 0 is not zero. -/
def markedFile (size : ℕ) : List UInt8 :=
  List.replicate (FRAMES_PER_BLOCK * FRAME_SIZE_BYTES) 0 ++
    1 :: List.replicate (size - FRAMES_PER_BLOCK * FRAME_SIZE_BYTES - 1) 0

/-- A node on a file. -/
def create (file : List UInt8) (shifter : Shifter) : FileInputNode Shifter where
  base := ⟨"n1", none, 0, 0, 0, false⟩
  fileName := "track.wav"
  filePath := "downloads/track.wav"
  file := some file
  handle := none
  options := none
  pitchShifter := shifter
  buffer := ⟨.create, [], []⟩

/-- A node just created is fresh. -/
theorem fresh_create (file : List UInt8) (shifter : Shifter) : Fresh (create file shifter) file :=
  ⟨rfl, rfl, rfl, rfl, rfl⟩

/-- A file without a RIFF header is all audio. -/
theorem audioOf_eq_self {file : List UInt8} (hlen : 44 ≤ file.length)
    (hriff : file.take 4 ≠ [0x52, 0x49, 0x46, 0x46]) : audioOf file = file := by
  have hhead : ¬(file.take 256).length < 44 := by
    rw [List.length_take]
    omega
  have hstart : (file.take 256).take 4 ≠ [0x52, 0x49, 0x46, 0x46] := by
    rw [List.take_take]
    exact hriff
  rw [audioOf, audioOffset, getAudioDataOffset, if_neg hhead, if_pos hstart, ite_self,
    List.drop_zero]

/-- A file of so many frames without a header. -/
theorem totalFramesOf_of_length {file : List UInt8} {frames : ℕ} (hpos : 0 < frames)
    (hmax : frames < 2147483648) (hlen : file.length = frames * FRAME_SIZE_BYTES)
    (hriff : file.take 4 ≠ [0x52, 0x49, 0x46, 0x46]) : totalFramesOf file = frames := by
  have hsize : 320 ≤ frames * FRAME_SIZE_BYTES := Nat.le_mul_of_pos_left 320 hpos
  unfold totalFramesOf
  rw [audioOf_eq_self (by omega) hriff, hlen, Nat.mul_div_cancel _ (by decide)]
  apply Int.bmod_eq_of_le <;> omega

/-- A file of one byte over and over. -/
theorem totalFramesOf_replicate {frames : ℕ} (hpos : 0 < frames) (hmax : frames < 2147483648) :
    totalFramesOf (List.replicate (frames * FRAME_SIZE_BYTES) 7) = frames := by
  have hsize : 320 ≤ frames * FRAME_SIZE_BYTES := Nat.le_mul_of_pos_left 320 hpos
  refine totalFramesOf_of_length hpos hmax List.length_replicate ?_
  rw [List.take_replicate, Nat.min_eq_left (by omega)]
  decide

/-- A file whose frame `k` repeats the byte `k`. -/
def numberedFile (frames : ℕ) : List UInt8 :=
  (List.range frames).flatMap fun k => List.replicate FRAME_SIZE_BYTES (UInt8.ofNat k)

/-- The numbered file has a whole number of frames. -/
@[simp] theorem length_numberedFile (frames : ℕ) :
    (numberedFile frames).length = frames * FRAME_SIZE_BYTES := by
  simp [numberedFile, List.length_flatMap]

/-- Its first bytes are those of frame 0. -/
theorem take_numberedFile {frames : ℕ} (hpos : 0 < frames) :
    (numberedFile frames).take 4 ≠ [0x52, 0x49, 0x46, 0x46] := by
  obtain ⟨frames, rfl⟩ := Nat.exists_eq_add_of_lt hpos
  rw [numberedFile, Nat.zero_add, List.range_succ_eq_map, List.flatMap_cons,
    List.take_append_of_le_length (by rw [List.length_replicate]; decide), List.take_replicate]
  decide

/-- The marked file has no header. -/
theorem audioOf_markedFile (size : ℕ) : audioOf (markedFile size) = markedFile size := by
  have hlen : 44 ≤ (List.replicate (FRAMES_PER_BLOCK * FRAME_SIZE_BYTES) (0 : UInt8)).length := by
    rw [List.length_replicate]
    decide
  refine audioOf_eq_self ?_ ?_
  · rw [markedFile, List.length_append]
    omega
  · rw [markedFile, List.take_append_of_le_length (by omega), List.take_replicate]
    decide

/-- The mark is the first byte of the second block. -/
theorem markedFile_getElem? (size : ℕ) :
    (markedFile size)[FRAMES_PER_BLOCK * FRAME_SIZE_BYTES]? = some 1 := by
  rw [markedFile, List.getElem?_append_right List.length_replicate.le, List.length_replicate,
    Nat.sub_self, List.getElem?_cons_zero]

/-- The marked byte is in no frame of block 1. -/
theorem frameAt_markedFile (size : ℕ) :
    ∀ b ∈ frameAt (markedFile size) FRAMES_PER_BLOCK, b = 0 := by
  intro b hb
  have hindex : 1 * FRAMES_PER_BLOCK + 0 = FRAMES_PER_BLOCK := by decide
  rw [← hindex, frameAt_eq (by decide), chunk, padded] at hb
  rcases List.mem_append.mp (List.mem_of_mem_drop (List.mem_of_mem_take hb)) with hread | hzero
  · have hdrop : (markedFile size).drop (1 * BUFFER_SIZE) =
        (List.replicate (size - FRAMES_PER_BLOCK * FRAME_SIZE_BYTES - 1) 0).drop 191 := by
      have hnone : FRAMES_PER_BLOCK * FRAME_SIZE_BYTES - 1 * BUFFER_SIZE = 0 := by decide
      have hskip : 1 * BUFFER_SIZE - FRAMES_PER_BLOCK * FRAME_SIZE_BYTES = 191 + 1 := by decide
      rw [markedFile, List.drop_append, List.drop_replicate, List.length_replicate, hnone, hskip,
        List.replicate_zero, List.nil_append, List.drop_succ_cons]
    have hmem := List.mem_of_mem_take hread
    rw [hdrop] at hmem
    exact List.eq_of_mem_replicate (List.mem_of_mem_drop hmem)
  · exact List.eq_of_mem_replicate hzero

/-- A call with the frame buffer of a frame. -/
def call : Event := .processFrame (List.replicate FRAME_SIZE_BYTES 0)

/-- A node can be asked for any number of frames. -/
theorem runEvents_calls (n : FileInputNode Shifter) (frameBuffer : List UInt8) (calls : ℕ) :
    ∃ t, runEvents (step fx) n (List.replicate calls (.processFrame frameBuffer)) = some t := by
  induction calls generalizing n with
  | zero => exact ⟨n, rfl⟩
  | succ calls ih => exact ih (n.processFrame fx frameBuffer).node

/-- Calls are playback. -/
theorem isPlayback_calls (calls : ℕ) : ∀ e ∈ List.replicate calls call, e.IsPlayback := by
  intro e he
  rw [List.eq_of_mem_replicate he]
  trivial

/-- Before its end a frame is taken from the buffers. -/
theorem processFrame_buffer {n : FileInputNode Shifter} (hended : ¬Ended n)
    (frameBuffer : List UInt8) :
    (n.processFrame fx frameBuffer).node.buffer = Buffering.getFrame n.buffer frameBuffer 0 := by
  unfold FileInputNode.processFrame
  rw [if_neg (show ¬(n.base.processedFrames ≥ n.base.totalFrames ∧ n.base.totalFrames > 0)
    from hended)]
  dsimp only
  split <;> rfl

/-- A call that finds its frame in the read block counts it. -/
theorem processFrame_of_fits (fx : Effects Shifter) {n : FileInputNode Shifter}
    (hmore : ¬Ended n) (hfits : ¬n.buffer.controller.needsSwap 0)
    (frameBuffer : List UInt8) :
    (n.processFrame fx frameBuffer).result = .ok () ∧
      (n.processFrame fx frameBuffer).node.base.processedFrames = n.base.processedFrames + 1 := by
  have hframe := AsyncBufferController.getFrame_of_fits hfits frameBuffer
  have hmore' : ¬(n.base.processedFrames ≥ n.base.totalFrames ∧ n.base.totalFrames > 0) := hmore
  unfold FileInputNode.processFrame
  rw [if_neg hmore']
  simp only [hframe]
  exact ⟨trivial, trivial⟩

/-- The calls of a block and the first swap are in time with no refill at all. -/
theorem timely_calls {n : FileInputNode Shifter} (hrefills : n.buffer.refills = [])
    (frameBuffer : List UInt8) {calls : ℕ}
    (hcalls : n.buffer.controller.inBufferProcessedFrames + calls ≤ FRAMES_PER_BLOCK + 1) :
    Meets (step fx) Timely n (List.replicate calls (.processFrame frameBuffer)) := by
  induction calls generalizing n with
  | zero => trivial
  | succ calls ih =>
    refine ⟨fun _ _ pc hpc => ?_, fun n' hn' => ?_⟩
    · rw [hrefills] at hpc
      cases hpc
    · obtain rfl := Option.some.inj hn'
      by_cases hended : Ended n
      · rw [processFrame_of_ended hended]
        exact @ih n hrefills (by omega)
      · have hbuffer := @processFrame_buffer _ fx n hended frameBuffer
        by_cases hswap : n.buffer.controller.needsSwap 0
        · -- it is the last call
          have hused := needsSwap_iff_frames.mp hswap
          obtain rfl : calls = 0 := by omega
          trivial
        · have hframe := AsyncBufferController.getFrame_of_fits hswap frameBuffer
          refine ih ?_ ?_
          · rw [hbuffer]
            simp only [Buffering.getFrame, hframe]
            exact hrefills
          · rw [hbuffer]
            simp only [Buffering.getFrame, hframe]
            omega

/-- A longer file loses the bytes that block 0 has after its frames. -/
theorem not_lossless {size : ℕ} (shifter : Shifter)
    (hlong : (FRAMES_PER_BLOCK + 1) * FRAME_SIZE_BYTES ≤ size) : ¬Lossless fx size := by
  intro h
  have hfresh := fresh_create (markedFile size) shifter
  have hmarked : FRAMES_PER_BLOCK * FRAME_SIZE_BYTES < size := by
    rw [Nat.succ_mul] at hlong
    exact Nat.lt_of_lt_of_le (Nat.lt_add_of_pos_right (by decide)) hlong
  have hlen : (markedFile size).length = size := by
    rw [markedFile, List.length_append, List.length_cons, List.length_replicate,
      List.length_replicate]
    omega
  have htimely : Meets (step fx) Timely (prepared (create (markedFile size) shifter))
      (List.replicate (FRAMES_PER_BLOCK + 1) call) := timely_calls rfl _ (Nat.zero_add _).le
  obtain ⟨t, hrun⟩ := @runEvents_calls _ fx (prepared (create (markedFile size) shifter))
    (List.replicate FRAME_SIZE_BYTES 0) (FRAMES_PER_BLOCK + 1)
  have hframes := h _ _ t (markedFile size) _ hfresh (by rw [audioOf_markedFile, hlen])
    hfresh.run_prepare (isPlayback_calls _) htimely hrun
  rw [delivered_prepared hfresh hfresh.run_prepare (isPlayback_calls _) htimely hrun,
    audioOf_markedFile] at hframes
  generalize framesLeft (totalFramesOf (markedFile size)) 0 _ = m at hframes
  -- no fewer frames than up to the first of block 1 have the length
  have hcount : (List.replicate (FRAMES_PER_BLOCK + 1) call).countP Event.isCall =
      FRAMES_PER_BLOCK + 1 := by
    rw [List.countP_replicate, if_pos (by rfl)]
  have hmin : min (FRAMES_PER_BLOCK + 1) (size / FRAME_SIZE_BYTES) = FRAMES_PER_BLOCK + 1 :=
    Nat.min_eq_left ((Nat.le_div_iff_mul_le (by decide)).mpr hlong)
  rw [hcount, hmin] at hframes
  have hm : m = FRAMES_PER_BLOCK + 1 := by
    have hlength := congrArg List.length hframes
    rw [length_flatten_frames, List.length_take, hlen, Nat.min_eq_left hlong] at hlength
    exact Nat.eq_of_mul_eq_mul_right (by decide) hlength
  subst hm
  -- so the first frame of block 1 must start with the marked byte
  have hbyte := congrArg (fun bytes => bytes[FRAMES_PER_BLOCK * FRAME_SIZE_BYTES]?) hframes
  have hstart : FRAMES_PER_BLOCK * FRAME_SIZE_BYTES < (FRAMES_PER_BLOCK + 1) * FRAME_SIZE_BYTES :=
    by decide
  rw [List.getElem?_take_of_lt hstart, markedFile_getElem?, List.range'_concat, List.map_append,
    List.flatten_append, List.getElem?_append_right (length_flatten_frames _ _ _).le,
    length_flatten_frames, Nat.sub_self, Nat.one_mul, Nat.zero_add, List.map_singleton,
    List.flatten_singleton] at hbyte
  exact absurd (frameAt_markedFile size 1 (List.mem_of_getElem? hbyte)) (by decide)

/-- Playback of a file is lossless if and only if its audio has less than one
frame more than the frames of one block. -/
theorem lossless_iff (fx : Effects Shifter) (shifter : Shifter) {size : ℕ}
    (hsize : FRAME_SIZE_BYTES ≤ size) :
    Lossless fx size ↔ size < (FRAMES_PER_BLOCK + 1) * FRAME_SIZE_BYTES := by
  refine ⟨fun h => ?_, lossless_of_first_block hsize⟩
  by_contra hshort
  exact not_lossless shifter (Nat.le_of_not_lt hshort) h

/-- Effects that do nothing. -/
def noEffects : Effects Unit := ⟨fun _ shifter frame => (frame, shifter), id⟩

/-- Three calls on a file of three frames return the file. -/
theorem lossless_iff_three_frames :
    (delivered noEffects (prepared (create (numberedFile 3) ())) (List.replicate 3 call)).flatten =
      numberedFile 3 := by
  have haudio : audioOf (numberedFile 3) = numberedFile 3 :=
    audioOf_eq_self (by rw [length_numberedFile]; decide) (take_numberedFile (by decide))
  have hfresh := fresh_create (numberedFile 3) ()
  have hlossless : Lossless noEffects (3 * FRAME_SIZE_BYTES) := by
    refine (lossless_iff noEffects () ?_).mpr ?_ <;> decide
  have htimely : Meets (step noEffects) Timely (prepared (create (numberedFile 3) ()))
      (List.replicate 3 call) := timely_calls rfl _ (by decide)
  obtain ⟨t, hrun⟩ := @runEvents_calls _ noEffects (prepared (create (numberedFile 3) ()))
    (List.replicate FRAME_SIZE_BYTES 0) 3
  have hframes := hlossless _ _ t _ (List.replicate 3 call) hfresh
    (by rw [haudio, length_numberedFile]) hfresh.run_prepare (isPlayback_calls 3) htimely hrun
  rw [haudio, List.take_of_length_le (by rw [length_numberedFile]; decide)] at hframes
  exact hframes

/-- A file of 410 frames loses 192 bytes. -/
theorem lossy_second_block : ¬∀ size, FRAME_SIZE_BYTES ≤ size → Lossless noEffects size := by
  intro h
  exact not_lossless () (by decide) (h 131200 (by decide))

end HermesFlow.Audio.FileInputNode
