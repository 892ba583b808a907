import HermesFlow.AsyncBufferController
import HermesFlow.ByteOrder
import HermesFlow.Node

/-!
# The file input node

The node opens its file on the first fetch, skips the WAV header, and plays
the rest through the double buffer. The gain and the pitch shifter work on
floating-point numbers and are a parameter. An event is a call of the executor
or a step of one of the buffer's coroutines.
-/

namespace HermesFlow.Audio

open ByteOrder EventRun

/-- The chunk walk of `wav::get_audio_data_offset` from a position. -/
def wavChunkWalk (buffer : List UInt8) (pos : ℕ) : ℕ :=
  if pos + 8 < buffer.length then
    let chunkSize := loadLE ((buffer.drop (pos + 4)).take 4)
    if (buffer.drop pos).take 4 = [0x64, 0x61, 0x74, 0x61] then pos + 8
    else
      let nextPos := pos + 8 + chunkSize
      if nextPos > buffer.length ∨ nextPos < pos then 44
      else wavChunkWalk buffer nextPos
  else 44
termination_by buffer.length - pos

/-- `wav::get_audio_data_offset`. -/
def getAudioDataOffset (buffer : List UInt8) : ℕ :=
  if buffer.length < 44 then 44
  else if buffer.take 4 ≠ [0x52, 0x49, 0x46, 0x46] then 0
  else wavChunkWalk buffer 12

/-- The effects of `apply_effects` on the samples of a frame, with the state of
the pitch shifter, and its `reset`. -/
structure Effects (Shifter : Type) where
  /-- Gain and pitch shift by the options. -/
  apply : FileOptionsNode → Shifter → List UInt8 → List UInt8 × Shifter
  /-- `PitchShifter::reset`. -/
  reset : Shifter → Shifter

/-- `FileInputNode`, with the file it names. -/
structure FileInputNode (Shifter : Type) where
  /-- What every node has. -/
  base : NodeBase
  /-- `file_name_`. -/
  fileName : String
  /-- `file_path_`. -/
  filePath : String
  /-- The bytes at the path; `none` when it cannot be opened. -/
  file : Option (List UInt8)
  /-- `file_handle_`: its position while it is open. -/
  handle : Option ℕ
  /-- `options_`. -/
  options : Option FileOptionsNode
  /-- `pitch_shifter_`. -/
  pitchShifter : Shifter
  /-- `buffer_controller_` and its coroutines. -/
  buffer : Buffering.State

/-- The offset of the audio bytes: `read_some` gives up to 256 bytes, and none
of an empty file. -/
def audioOffset (file : List UInt8) : ℕ :=
  if file.length = 0 then 0 else getAudioDataOffset (file.take 256)

/-- The audio bytes of a file. -/
def audioOf (file : List UInt8) : List UInt8 := file.drop (audioOffset file)

/-- `total_frames_` of an opened file: a `uint64_t` cast to `int`. -/
def totalFramesOf (file : List UInt8) : ℤ :=
  Int.bmod ((audioOf file).length / FRAME_SIZE_BYTES : ℕ) (2 ^ 32)

namespace FileInputNode

variable {Shifter : Type}

/-- `open`. -/
def openFile (n : FileInputNode Shifter) : FileInputNode Shifter × Except NodeError Unit :=
  match n.file with
  | some file =>
    ({ n with
        handle := some (audioOffset file)
        base := { n.base with totalFrames := totalFramesOf file } }, .ok ())
  | none =>
    ({ n with base := { n.base with totalFrames := 0 } },
      .error (n.base.error .fileIOError
        s!"Failed to open file {n.fileName} ({n.filePath}) after 3 attempts."))

/-- `fetch_bytes` up to its read: a handle that is not open is opened. -/
def beginFetch (n : FileInputNode Shifter) : FileInputNode Shifter :=
  match n.handle with
  | some _ => n
  | none => n.openFile.1

/-- The read of `fetch_bytes`: the bytes from the position on, as many as the
block takes. -/
def readBlock (n : FileInputNode Shifter) : List UInt8 :=
  match n.file, n.handle with
  | some file, some position => (file.drop position).take BUFFER_SIZE
  | _, _ => []

/-- The position after the read. -/
def advanceHandle (n : FileInputNode Shifter) : FileInputNode Shifter :=
  { n with handle := n.handle.map (· + n.readBlock.length) }

/-- `process_frame`. -/
def processFrame (fx : Effects Shifter) (n : FileInputNode Shifter) (frameBuffer : List UInt8) :
    Processed (FileInputNode Shifter) :=
  if n.base.processedFrames ≥ n.base.totalFrames ∧ n.base.totalFrames > 0 then
    ⟨n, .error (n.base.error .endOfStream s!"End of stream for {n.base.id}"),
      List.replicate frameBuffer.length 0⟩
  else
    let r := n.buffer.controller.getFrame frameBuffer 0
    let n := { n with buffer := Buffering.getFrame n.buffer frameBuffer 0 }
    match r.result with
    | .error error => ⟨n, .error error, r.outputBuffer⟩
    | .ok () =>
      let (frame, shifter) := match n.options with
        | none => (r.outputBuffer, n.pitchShifter)
        | some options => fx.apply options n.pitchShifter r.outputBuffer
      ⟨{ n with
          pitchShifter := shifter
          base := { n.base with processedFrames := n.base.processedFrames + 1 } }, .ok (), frame⟩

/-- `close`, with the error the file system reports, if any; the handle is
closed in either case. -/
def close (fx : Effects Shifter) (n : FileInputNode Shifter) (fault : Option String) :
    FileInputNode Shifter × Except NodeError Unit :=
  match fault with
  | some message =>
    ({ n with handle := none },
      .error (n.base.error .fileIOError
        s!"Failed to close file {n.fileName} {n.filePath}: {message}"))
  | none =>
    ({ n with
        handle := none
        base := { n.base with processedFrames := 0 }
        pitchShifter := fx.reset n.pitchShifter
        buffer :=
          { n.buffer with
            controller := n.buffer.controller.reset
            inits := if n.base.isInLoop then n.buffer.inits ++ [.spawned] else n.buffer.inits } },
      .ok ())

/-- A step of one of the buffer's coroutines. -/
inductive Task where
  /-- A refill starts its fetch. -/
  | refillStart (k : ℕ)
  /-- The fetch of a refill ends; a read that fails three times gives no bytes. -/
  | refillDone (k : ℕ) (ok : Bool)
  /-- `initialize_buffers` is called. -/
  | initializeBuffers
  /-- It starts its first fetch. -/
  | initStart (k : ℕ)
  /-- Its first fetch ends and the second starts. -/
  | initFirst (k : ℕ) (ok : Bool)
  /-- Its second fetch ends. -/
  | initSecond (k : ℕ) (ok : Bool)

/-- The end of a fetch: the event of the buffer gets the bytes read. -/
def finishFetch (n : FileInputNode Shifter) (ok : Bool) (event : List UInt8 → Buffering.Event) :
    Option (FileInputNode Shifter) :=
  let data := if ok then n.readBlock else []
  (Buffering.step n.buffer (event data)).map fun buffer =>
    { (if ok then n.advanceHandle else n) with buffer := buffer }

/-- One step of a coroutine; `none` when it cannot happen now. -/
def runTask (n : FileInputNode Shifter) : Task → Option (FileInputNode Shifter)
  | .refillStart k =>
    (Buffering.step n.buffer (.refillStart k)).map fun buffer =>
      { n.beginFetch with buffer := buffer }
  | .refillDone k ok => n.finishFetch ok (.refillDone k)
  | .initializeBuffers =>
    (Buffering.step n.buffer .initializeBuffers).map fun buffer => { n with buffer := buffer }
  | .initStart k =>
    (Buffering.step n.buffer (.initStart k)).map fun buffer =>
      { n.beginFetch with buffer := buffer }
  | .initFirst k ok => (n.finishFetch ok (.initFirst k)).map beginFetch
  | .initSecond k ok => n.finishFetch ok (.initSecond k)

/-- A call of the executor or a step of a coroutine. -/
inductive Event where
  /-- `process_frame`. -/
  | processFrame (frameBuffer : List UInt8)
  /-- `close`. -/
  | close (fault : Option String)
  /-- A coroutine. -/
  | task (t : Task)

/-- The step of one event. -/
def step (fx : Effects Shifter) (n : FileInputNode Shifter) :
    Event → Option (FileInputNode Shifter)
  | .processFrame frameBuffer => some (n.processFrame fx frameBuffer).node
  | .close fault => some (n.close fx fault).1
  | .task t => n.runTask t

/-- The total that an attempt to open the file leaves. -/
def openedFrames (n : FileInputNode Shifter) : ℤ :=
  match n.file with
  | some file => totalFramesOf file
  | none => 0

/-- What `process_frame` does to the fields that the executor reads. -/
theorem processFrame_base (fx : Effects Shifter) (n : FileInputNode Shifter)
    (frameBuffer : List UInt8) :
    (n.processFrame fx frameBuffer).node.file = n.file ∧
      ((n.processFrame fx frameBuffer).result = .ok () ∧
          (n.processFrame fx frameBuffer).node.base =
            { n.base with processedFrames := n.base.processedFrames + 1 } ∨
        (∃ error, (n.processFrame fx frameBuffer).result = .error error) ∧
          (n.processFrame fx frameBuffer).node.base = n.base) := by
  unfold processFrame
  split
  · exact ⟨rfl, .inr ⟨⟨_, rfl⟩, rfl⟩⟩
  · dsimp only
    split
    · exact ⟨rfl, .inr ⟨⟨_, rfl⟩, rfl⟩⟩
    · exact ⟨rfl, .inl ⟨rfl, rfl⟩⟩

/-- The errors that it returns. -/
theorem processFrame_error {fx : Effects Shifter} {n : FileInputNode Shifter}
    {frameBuffer : List UInt8} {error : NodeError}
    (h : (n.processFrame fx frameBuffer).result = .error error) :
    error.code = .endOfStream ∨ error.code = .underrun := by
  unfold processFrame at h
  split at h
  · cases h
    exact .inl rfl
  · dsimp only at h
    split at h
    · rename_i hframe
      cases h
      unfold AsyncBufferController.getFrame at hframe
      split at hframe
      · split at hframe
        · cases hframe
          exact .inr rfl
        · cases hframe
      · cases hframe
    · cases h

/-- It leaves the loop flag, the options and the `initialize_buffers` alone. -/
theorem processFrame_frame (fx : Effects Shifter) (n : FileInputNode Shifter)
    (frameBuffer : List UInt8) :
    (n.processFrame fx frameBuffer).node.base.isInLoop = n.base.isInLoop ∧
      (n.processFrame fx frameBuffer).node.options = n.options ∧
      (n.processFrame fx frameBuffer).node.buffer.inits = n.buffer.inits := by
  unfold processFrame
  split
  · exact ⟨rfl, rfl, rfl⟩
  · dsimp only
    split <;> exact ⟨rfl, rfl, rfl⟩

/-- The frame buffer keeps its size when the effects of the options keep it. -/
theorem length_processFrame_of_effects {fx : Effects Shifter} {n : FileInputNode Shifter}
    (hfx : ∀ options ∈ n.options, ∀ frame,
      (fx.apply options n.pitchShifter frame).1.length = frame.length)
    {frameBuffer : List UInt8} (hlen : frameBuffer.length = FRAME_SIZE_BYTES) :
    (n.processFrame fx frameBuffer).frameBuffer.length = FRAME_SIZE_BYTES := by
  have hframe := n.buffer.controller.length_getFrame hlen
  unfold processFrame
  split
  · rw [List.length_replicate, hlen]
  · dsimp only
    split
    · exact hframe
    · cases hoptions : n.options with
      | none => exact hframe
      | some options => exact (hfx options hoptions _).trans hframe

/-- Without options it always does. -/
theorem length_processFrame (fx : Effects Shifter) {n : FileInputNode Shifter}
    (hoptions : n.options = none) {frameBuffer : List UInt8}
    (hlen : frameBuffer.length = FRAME_SIZE_BYTES) :
    (n.processFrame fx frameBuffer).frameBuffer.length = FRAME_SIZE_BYTES := by
  refine length_processFrame_of_effects (fun options h => ?_) hlen
  rw [hoptions] at h
  cases h

/-- What `close` does to them. -/
theorem close_base (fx : Effects Shifter) (n : FileInputNode Shifter) (fault : Option String) :
    (n.close fx fault).1.file = n.file ∧
      ((n.close fx fault).2 = .ok () ∧
          (n.close fx fault).1.base = { n.base with processedFrames := 0 } ∨
        (∃ error, (n.close fx fault).2 = .error error) ∧ (n.close fx fault).1.base = n.base) := by
  cases fault with
  | none => exact ⟨rfl, .inl ⟨rfl, rfl⟩⟩
  | some message => exact ⟨rfl, .inr ⟨⟨_, rfl⟩, rfl⟩⟩

/-- A close that fails reports a file error. -/
theorem close_error {fx : Effects Shifter} {n : FileInputNode Shifter} {fault : Option String}
    {error : NodeError} (h : (n.close fx fault).2 = .error error) : error.code = .fileIOError := by
  cases fault with
  | none => cases h
  | some message =>
    cases h
    rfl

/-- The start of a fetch sets the handle and the total only, and a new total is
the one of the file. -/
theorem exists_beginFetch (n : FileInputNode Shifter) : ∃ handle totalFrames,
    (totalFrames = n.base.totalFrames ∨ totalFrames = n.openedFrames) ∧ n.beginFetch =
      { n with handle := handle, base := { n.base with totalFrames := totalFrames } } := by
  obtain ⟨base, fileName, filePath, file, handle, options, shifter, buffer⟩ := n
  cases handle with
  | some position => exact ⟨_, _, .inl rfl, rfl⟩
  | none => cases file <;> exact ⟨_, _, .inr rfl, rfl⟩

/-- Starting a fetch leaves the buffers alone. -/
theorem beginFetch_buffer (n : FileInputNode Shifter) : n.beginFetch.buffer = n.buffer := by
  obtain ⟨handle, totalFrames, -, hfetch⟩ := n.exists_beginFetch
  rw [hfetch]

/-- A step of a coroutine sets them and the buffer. -/
theorem exists_runTask {n n' : FileInputNode Shifter} {t : Task} (hrun : n.runTask t = some n') :
    ∃ handle totalFrames buffer,
      (totalFrames = n.base.totalFrames ∨ totalFrames = n.openedFrames) ∧ n' = { n with
        handle := handle, base := { n.base with totalFrames := totalFrames }, buffer := buffer } := by
  have hfinish : ∀ {m : FileInputNode Shifter} {ok : Bool} {event : List UInt8 → Buffering.Event},
      n.finishFetch ok event = some m →
        ∃ handle buffer, m = { n with handle := handle, buffer := buffer } := by
    intro m ok event hm
    obtain ⟨buffer, -, rfl⟩ := Option.map_eq_some_iff.mp hm
    cases ok <;> exact ⟨_, _, rfl⟩
  cases t with
  | refillStart k | initStart k =>
    obtain ⟨buffer, -, rfl⟩ := Option.map_eq_some_iff.mp hrun
    obtain ⟨handle, totalFrames, htotal, hfetch⟩ := n.exists_beginFetch
    rw [hfetch]
    exact ⟨_, _, _, htotal, rfl⟩
  | refillDone k ok | initSecond k ok =>
    obtain ⟨handle, buffer, rfl⟩ := hfinish hrun
    exact ⟨_, _, _, .inl rfl, rfl⟩
  | initializeBuffers =>
    cases hrun
    exact ⟨_, _, _, .inl rfl, rfl⟩
  | initFirst k ok =>
    obtain ⟨m, hm, rfl⟩ := Option.map_eq_some_iff.mp hrun
    obtain ⟨_, _, rfl⟩ := hfinish hm
    obtain ⟨handle, totalFrames, htotal, hfetch⟩ :=
      exists_beginFetch { n with handle := _, buffer := _ }
    rw [hfetch]
    exact ⟨_, _, _, htotal, rfl⟩

/-- It leaves the file and the common fields as they are once the file has been opened. -/
theorem runTask_base {n n' : FileInputNode Shifter} {t : Task}
    (hopened : n.base.totalFrames = n.openedFrames) (hrun : n.runTask t = some n') :
    n'.file = n.file ∧ n'.base = n.base := by
  obtain ⟨handle, totalFrames, buffer, htotal, rfl⟩ := exists_runTask hrun
  obtain rfl : totalFrames = n.base.totalFrames := htotal.elim id fun h => h.trans hopened.symm
  exact ⟨rfl, rfl⟩

/-- The loop flag, the file and the effects are not touched. -/
theorem runTask_frame {n n' : FileInputNode Shifter} {t : Task} (hrun : n.runTask t = some n') :
    n'.base.isInLoop = n.base.isInLoop ∧ n'.file = n.file ∧ n'.options = n.options ∧
      n'.pitchShifter = n.pitchShifter := by
  obtain ⟨handle, totalFrames, buffer, -, rfl⟩ := exists_runTask hrun
  exact ⟨rfl, rfl, rfl, rfl⟩

/-- The event of the buffer in a step of a coroutine. -/
def bufferEvent (n : FileInputNode Shifter) : Task → Buffering.Event
  | .refillStart k => .refillStart k
  | .refillDone k ok => .refillDone k (if ok then n.readBlock else [])
  | .initializeBuffers => .initializeBuffers
  | .initStart k => .initStart k
  | .initFirst k ok => .initFirst k (if ok then n.readBlock else [])
  | .initSecond k ok => .initSecond k (if ok then n.readBlock else [])

/-- A step of a coroutine is a move of the buffer. -/
theorem runTask_moves {n n' : FileInputNode Shifter} {t : Task} (hrun : n.runTask t = some n') :
    Buffering.Moves n.buffer (n.bufferEvent t) n'.buffer := by
  cases t with
  | initFirst k ok =>
    obtain ⟨m, hm, rfl⟩ := Option.map_eq_some_iff.mp hrun
    obtain ⟨buffer, hstep, rfl⟩ := Option.map_eq_some_iff.mp hm
    rw [beginFetch_buffer]
    exact Buffering.step_moves hstep
  | initializeBuffers =>
    cases hrun
    exact .initializeBuffers
  | _ =>
    obtain ⟨buffer, hstep, rfl⟩ := Option.map_eq_some_iff.mp hrun
    exact Buffering.step_moves hstep

/-- The frames that the calls of a run return. -/
def delivered (fx : Effects Shifter) : FileInputNode Shifter → List Event → List (List UInt8)
  | _, [] => []
  | n, e :: es =>
    let frame := match e with
      | .processFrame frameBuffer =>
        match (n.processFrame fx frameBuffer).result with
        | .ok () => [(n.processFrame fx frameBuffer).frameBuffer.take FRAME_SIZE_BYTES]
        | .error _ => []
      | _ => []
    frame ++ match step fx n e with
      | some n' => delivered fx n' es
      | none => []

end FileInputNode

end HermesFlow.Audio
