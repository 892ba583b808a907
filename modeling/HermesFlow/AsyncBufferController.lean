import HermesFlow.EventRun
import HermesFlow.Types

/-!
# The asynchronous double buffer

A consumer takes frames from the read block of a double buffer. When the block
is used up it swaps the blocks and spawns a coroutine that refills the other
one. An event is one call of the consumer or one step of a coroutine up to its
next suspension; the bytes of a fetch are part of the event that ends it.
-/

namespace HermesFlow.Audio

/-- The contents of a block after a fetch: the rest is filled with zeros. -/
def padded (data : List UInt8) : List UInt8 :=
  data.take BUFFER_SIZE ++ List.replicate (BUFFER_SIZE - data.length) 0

/-- A padded read fills the buffer. -/
@[simp] theorem length_padded (data : List UInt8) : (padded data).length = BUFFER_SIZE := by
  rw [padded, List.length_append, List.length_take, List.length_replicate]
  omega

/-- `DoubleBuffer`; a block of another size cannot be built. -/
structure DoubleBuffer where
  /-- `blocks_`. -/
  blocks : Fin 2 → List UInt8
  /-- `read_index_`. -/
  readIndex : Fin 2
  /-- `back_buffer_ready_`. -/
  backBufferReady : Bool
  /-- Both blocks keep their size. -/
  blocks_size : ∀ i, (blocks i).length = BUFFER_SIZE

namespace DoubleBuffer

/-- The constructor. -/
def create : DoubleBuffer where
  blocks := fun _ => padded []
  readIndex := 0
  backBufferReady := false
  blocks_size := fun _ => length_padded []

/-- `get_read_span`. -/
def getReadSpan (bf : DoubleBuffer) : List UInt8 := bf.blocks bf.readIndex

/-- The block that `get_write_span` returns. -/
def writeIndex (bf : DoubleBuffer) : Fin 2 := 1 - bf.readIndex

/-- The write buffer is never the read buffer. -/
theorem writeIndex_ne (bf : DoubleBuffer) : bf.writeIndex ≠ bf.readIndex := by
  unfold writeIndex
  generalize bf.readIndex = i
  revert i
  decide

/-- `swap`; the flag is left as it is. -/
def swap (bf : DoubleBuffer) : DoubleBuffer := { bf with readIndex := 1 - bf.readIndex }

/-- `reset`. -/
def reset (bf : DoubleBuffer) : DoubleBuffer :=
  { bf with
    blocks := fun _ => padded []
    readIndex := 0
    backBufferReady := false
    blocks_size := fun _ => length_padded [] }

/-- The bytes of a fetch and the zeros after them, written to a block. -/
def fill (bf : DoubleBuffer) (block : Fin 2) (data : List UInt8) : DoubleBuffer :=
  { bf with
    blocks := Function.update bf.blocks block (padded data)
    blocks_size := fun i => by
      by_cases h : i = block
      · rw [h, Function.update_self, length_padded]
      · rw [Function.update_of_ne h, bf.blocks_size] }

/-- A store to `back_buffer_ready_`. -/
def setReady (bf : DoubleBuffer) (value : Bool) : DoubleBuffer :=
  { bf with backBufferReady := value }

end DoubleBuffer

/-- `BufferState`. -/
inductive BufferState where
  | idle | initializing | ready | underrun | faulted | endOfStream
  deriving DecidableEq

/-- `AsyncBufferController`. -/
structure AsyncBufferController where
  /-- `bf_`. -/
  bf : DoubleBuffer
  /-- `in_buffer_processed_frames_`. -/
  inBufferProcessedFrames : ℕ
  /-- `state_`. -/
  state : BufferState

/-- What a call of `get_frame` leaves and returns. -/
structure FrameResult where
  /-- The controller after the call. -/
  controller : AsyncBufferController
  /-- The value returned. -/
  result : Except NodeError Unit
  /-- The output buffer after the call. -/
  outputBuffer : List UInt8
  /-- A refill coroutine was spawned. -/
  refill : Bool

/-- One frame of a block, copied to the front of the output buffer. -/
def copyFrame (block : List UInt8) (bufferOffset : ℕ) (outputBuffer : List UInt8) : List UInt8 :=
  (block.drop bufferOffset).take FRAME_SIZE_BYTES ++ outputBuffer.drop FRAME_SIZE_BYTES

/-- The error of a frame that is not buffered yet. -/
def bufferUnderrun : NodeError := ⟨.underrun, "Buffer underrun", ""⟩

namespace AsyncBufferController

/-- The constructor. -/
def create : AsyncBufferController := ⟨.create, 0, .idle⟩

/-- `buffer_offset`. -/
def bufferOffset (c : AsyncBufferController) (offset : ℕ) : ℕ :=
  c.inBufferProcessedFrames * FRAME_SIZE_BYTES + offset

/-- The test of `get_frame` for a used-up block. -/
def needsSwap (c : AsyncBufferController) (offset : ℕ) : Prop :=
  c.bufferOffset offset + FRAME_SIZE_BYTES > c.bf.getReadSpan.length

/-- A swap is due when the next frame ends behind the buffer. -/
theorem needsSwap_iff {c : AsyncBufferController} {offset : ℕ} :
    c.needsSwap offset ↔
      BUFFER_SIZE < c.inBufferProcessedFrames * FRAME_SIZE_BYTES + offset + FRAME_SIZE_BYTES := by
  rw [needsSwap, DoubleBuffer.getReadSpan, c.bf.blocks_size, bufferOffset]

-- The size of the block is known, so that a test need not count its bytes.
instance (c : AsyncBufferController) (offset : ℕ) : Decidable (c.needsSwap offset) :=
  decidable_of_iff' _ needsSwap_iff

/-- `get_frame`. -/
def getFrame (c : AsyncBufferController) (outputBuffer : List UInt8) (offset : ℕ) : FrameResult :=
  if c.needsSwap offset then
    if c.bf.backBufferReady = false then
      { controller := { c with state := .underrun }
        result := .error bufferUnderrun
        outputBuffer := List.replicate outputBuffer.length 0
        refill := false }
    else
      -- `swap_and_trigger_refill` sets the count to 0
      { controller := { c with bf := c.bf.swap, inBufferProcessedFrames := 0 + 1 }
        result := .ok ()
        outputBuffer := copyFrame c.bf.swap.getReadSpan offset outputBuffer
        refill := true }
  else
    { controller := { c with inBufferProcessedFrames := c.inBufferProcessedFrames + 1 }
      result := .ok ()
      outputBuffer := copyFrame c.bf.getReadSpan (c.bufferOffset offset) outputBuffer
      refill := false }

/-- A call that finds its frame in the read block. -/
theorem getFrame_of_fits {c : AsyncBufferController} {offset : ℕ} (h : ¬c.needsSwap offset)
    (outputBuffer : List UInt8) :
    c.getFrame outputBuffer offset =
      { controller := { c with inBufferProcessedFrames := c.inBufferProcessedFrames + 1 }
        result := .ok ()
        outputBuffer := copyFrame c.bf.getReadSpan (c.bufferOffset offset) outputBuffer
        refill := false } := if_neg h

/-- A call that swaps. -/
theorem getFrame_of_swap {c : AsyncBufferController} {offset : ℕ} (h : c.needsSwap offset)
    (hready : c.bf.backBufferReady = true) (outputBuffer : List UInt8) :
    c.getFrame outputBuffer offset =
      { controller := { c with bf := c.bf.swap, inBufferProcessedFrames := 1 }
        result := .ok ()
        outputBuffer := copyFrame c.bf.swap.getReadSpan offset outputBuffer
        refill := true } := by
  rw [getFrame, if_pos h, if_neg (by simp [hready])]

/-- A frame buffer keeps its size. -/
theorem length_getFrame (c : AsyncBufferController) {outputBuffer : List UInt8}
    (hlen : outputBuffer.length = FRAME_SIZE_BYTES) :
    (c.getFrame outputBuffer 0).outputBuffer.length = FRAME_SIZE_BYTES := by
  have hcopy : ∀ {block : List UInt8} {bufferOffset : ℕ}, block.length = BUFFER_SIZE →
      bufferOffset + FRAME_SIZE_BYTES ≤ BUFFER_SIZE →
        (copyFrame block bufferOffset outputBuffer).length = FRAME_SIZE_BYTES := by
    intro block bufferOffset hblock hfits
    rw [copyFrame, List.length_append, List.length_take, List.length_drop, List.length_drop, hlen,
      hblock]
    omega
  by_cases hswap : c.needsSwap 0
  · cases hready : c.bf.backBufferReady with
    | false =>
      rw [getFrame, if_pos hswap, if_pos hready, List.length_replicate, hlen]
    | true =>
      rw [getFrame_of_swap hswap hready]
      exact hcopy (c.bf.swap.blocks_size _) (by decide)
  · rw [getFrame_of_fits hswap]
    refine hcopy (c.bf.blocks_size _) ?_
    rw [needsSwap_iff] at hswap
    rw [bufferOffset]
    omega

/-- `reset`. -/
def reset (c : AsyncBufferController) : AsyncBufferController := ⟨c.bf.reset, 0, .idle⟩

/-- The end of a refill: bytes and zeros are in the block, the flag is set. -/
def finishRefill (c : AsyncBufferController) (block : Fin 2) (data : List UInt8) :
    AsyncBufferController :=
  { c with
    bf := (c.bf.fill block data).setReady true
    state := if data.length = 0 then .endOfStream else c.state }

/-- `initialize_buffers` between its two fetches. -/
def finishFirst (c : AsyncBufferController) (block : Fin 2) (data : List UInt8) :
    AsyncBufferController :=
  { c with bf := ((c.bf.fill block data).setReady true).swap }

/-- `initialize_buffers` after its second fetch. -/
def finishSecond (c : AsyncBufferController) (block : Fin 2) (data : List UInt8) :
    AsyncBufferController :=
  { c with bf := (c.bf.fill block data).setReady true, state := .ready }

/-- An `initialize_buffers` that nothing interrupts, with the bytes it fetches. -/
def initializeBuffers (c : AsyncBufferController) (first second : List UInt8) :
    AsyncBufferController :=
  let c := { c with state := .initializing }
  let c := c.finishFirst c.bf.writeIndex first
  c.finishSecond c.bf.writeIndex second

end AsyncBufferController

/-- Where a refill coroutine stands. -/
inductive RefillPc where
  /-- Spawned; its first step has not run. -/
  | spawned
  /-- Suspended in its fetch into a block. -/
  | fetching (block : Fin 2)
  /-- Completed. -/
  | done
  /-- Ended by an exception. -/
  | faulted
  deriving DecidableEq

/-- Where an `initialize_buffers` coroutine stands. -/
inductive InitPc where
  /-- Created; its first step has not run. -/
  | spawned
  /-- Suspended in its first fetch. -/
  | first (block : Fin 2)
  /-- Suspended in its second fetch. -/
  | second (block : Fin 2)
  /-- Completed. -/
  | done
  /-- Left by an exception. -/
  | faulted
  deriving DecidableEq

namespace Buffering

/-- A controller and the coroutines that use it. -/
structure State where
  /-- The controller. -/
  controller : AsyncBufferController
  /-- The refill coroutines, in the order of their spawning. -/
  refills : List RefillPc
  /-- The `initialize_buffers` coroutines. -/
  inits : List InitPc

/-- A call of the consumer or a step of a coroutine. -/
inductive Event where
  /-- `get_frame`. -/
  | getFrame (outputBuffer : List UInt8) (offset : ℕ)
  /-- `reset`. -/
  | reset
  /-- A refill takes its write span and starts its fetch. -/
  | refillStart (k : ℕ)
  /-- The fetch of a refill ends. -/
  | refillDone (k : ℕ) (data : List UInt8)
  /-- The fetch of a refill throws. -/
  | refillThrow (k : ℕ)
  /-- `initialize_buffers` is called. -/
  | initializeBuffers
  /-- Its first step, up to the first fetch. -/
  | initStart (k : ℕ)
  /-- Its first fetch ends. -/
  | initFirst (k : ℕ) (data : List UInt8)
  /-- Its second fetch ends. -/
  | initSecond (k : ℕ) (data : List UInt8)
  /-- One of its fetches throws. -/
  | initThrow (k : ℕ)

/-- Change the controller. -/
def State.withController (s : State) (c : AsyncBufferController) : State :=
  { s with controller := c }

/-- Move a refill coroutine. -/
def State.setRefill (s : State) (k : ℕ) (pc : RefillPc) : State :=
  { s with refills := s.refills.set k pc }

/-- Move an `initialize_buffers` coroutine. -/
def State.setInit (s : State) (k : ℕ) (pc : InitPc) : State :=
  { s with inits := s.inits.set k pc }

/-- `get_frame` and the coroutine it may spawn. -/
def getFrame (s : State) (outputBuffer : List UInt8) (offset : ℕ) : State :=
  let r := s.controller.getFrame outputBuffer offset
  { s with
    controller := r.controller
    refills := if r.refill then s.refills ++ [.spawned] else s.refills }

/-- The step of one event; `none` when the event cannot happen now. -/
def step (s : State) : Event → Option State
  | .getFrame outputBuffer offset => some (getFrame s outputBuffer offset)
  | .reset => some (s.withController s.controller.reset)
  | .refillStart k =>
    match s.refills[k]? with
    | some .spawned => some (s.setRefill k (.fetching s.controller.bf.writeIndex))
    | _ => none
  | .refillDone k data =>
    match s.refills[k]? with
    | some (.fetching block) =>
      some ((s.withController (s.controller.finishRefill block data)).setRefill k .done)
    | _ => none
  | .refillThrow k =>
    match s.refills[k]? with
    | some (.fetching _) =>
      some ((s.withController { s.controller with state := .faulted }).setRefill k .faulted)
    | _ => none
  | .initializeBuffers => some { s with inits := s.inits ++ [.spawned] }
  | .initStart k =>
    match s.inits[k]? with
    | some .spawned =>
      some ((s.withController { s.controller with state := .initializing }).setInit k
        (.first s.controller.bf.writeIndex))
    | _ => none
  | .initFirst k data =>
    match s.inits[k]? with
    | some (.first block) =>
      let c := s.controller.finishFirst block data
      some ((s.withController c).setInit k (.second c.bf.writeIndex))
    | _ => none
  | .initSecond k data =>
    match s.inits[k]? with
    | some (.second block) =>
      some ((s.withController (s.controller.finishSecond block data)).setInit k .done)
    | _ => none
  | .initThrow k =>
    match s.inits[k]? with
    | some (.first _) | some (.second _) => some (s.setInit k .faulted)
    | _ => none

/-- Every step with the coroutine that takes it. -/
inductive Moves (s : State) : Event → State → Prop where
  | getFrame (outputBuffer : List UInt8) (offset : ℕ) :
      Moves s (.getFrame outputBuffer offset) (getFrame s outputBuffer offset)
  | reset : Moves s .reset (s.withController s.controller.reset)
  | refillStart {k : ℕ} (hk : s.refills[k]? = some .spawned) :
      Moves s (.refillStart k) (s.setRefill k (.fetching s.controller.bf.writeIndex))
  | refillDone {k : ℕ} {block : Fin 2} (hk : s.refills[k]? = some (.fetching block))
      (data : List UInt8) :
      Moves s (.refillDone k data)
        ((s.withController (s.controller.finishRefill block data)).setRefill k .done)
  | refillThrow {k : ℕ} {block : Fin 2} (hk : s.refills[k]? = some (.fetching block)) :
      Moves s (.refillThrow k)
        ((s.withController { s.controller with state := .faulted }).setRefill k .faulted)
  | initializeBuffers : Moves s .initializeBuffers { s with inits := s.inits ++ [.spawned] }
  | initStart {k : ℕ} (hk : s.inits[k]? = some .spawned) :
      Moves s (.initStart k)
        ((s.withController { s.controller with state := .initializing }).setInit k
          (.first s.controller.bf.writeIndex))
  | initFirst {k : ℕ} {block : Fin 2} (hk : s.inits[k]? = some (.first block))
      (data : List UInt8) :
      Moves s (.initFirst k data)
        ((s.withController (s.controller.finishFirst block data)).setInit k
          (.second (s.controller.finishFirst block data).bf.writeIndex))
  | initSecond {k : ℕ} {block : Fin 2} (hk : s.inits[k]? = some (.second block))
      (data : List UInt8) :
      Moves s (.initSecond k data)
        ((s.withController (s.controller.finishSecond block data)).setInit k .done)
  | initThrow {k : ℕ} : Moves s (.initThrow k) (s.setInit k .faulted)

/-- A step of the buffer is one of the moves. -/
theorem step_moves {s s' : State} {e : Event} (h : step s e = some s') : Moves s e s' := by
  cases e with
  | getFrame outputBuffer offset => cases h; exact .getFrame outputBuffer offset
  | reset => cases h; exact .reset
  | initializeBuffers => cases h; exact .initializeBuffers
  | _ =>
    simp only [step] at h
    split at h <;> simp only [Option.some.injEq, reduceCtorEq] at h
    all_goals
      subst h
      rename_i hk
      first
      | exact .refillStart hk
      | exact .refillDone hk _
      | exact .refillThrow hk
      | exact .initStart hk
      | exact .initFirst hk _
      | exact .initSecond hk _
      | exact .initThrow

end Buffering

end HermesFlow.Audio
