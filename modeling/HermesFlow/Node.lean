import HermesFlow.Types
import Mathlib.Algebra.Order.Ring.Int
import Mathlib.Data.Rat.Init

/-!
# Nodes of the audio graph

What all nodes share, and the nodes without buffers. A node is named by its
kind and its position among the nodes of the kind, so a reference to a node of
the wrong kind cannot be built.
-/

namespace HermesFlow.Audio

/-- A node of the graph. -/
inductive NodeRef where
  | fileInput (i : ℕ)
  | mixer (i : ℕ)
  | delay (i : ℕ)
  | clients (i : ℕ)
  | fileOptions (i : ℕ)
  deriving DecidableEq

/-- The fields of `Node`; the counters are `int`s. -/
structure NodeBase where
  /-- `id_`. -/
  id : String
  /-- `target_`. -/
  target : Option NodeRef
  /-- `processed_frames_`. -/
  processedFrames : ℤ
  /-- `total_frames_`. -/
  totalFrames : ℤ
  /-- `in_buffer_processed_frames_`. -/
  inBufferProcessedFrames : ℤ
  /-- `is_in_loop_`. -/
  isInLoop : Bool

namespace NodeBase

/-- `is_complete`. -/
def isComplete (n : NodeBase) : Bool := 0 < n.totalFrames && n.totalFrames ≤ n.processedFrames

/-- `error`: the node's id goes with the message. -/
def error (n : NodeBase) (code : NodeErrorCode) (message : String) : NodeError :=
  ⟨code, message, n.id⟩

end NodeBase

/-- `FileOptionsNode`. -/
structure FileOptionsNode where
  /-- What every node has. -/
  base : NodeBase
  /-- `gain`. -/
  gain : ℚ
  /-- `pitch_shift`. -/
  pitchShift : ℚ

/-- What a call of `process_frame` leaves and returns. -/
structure Processed (α : Type*) where
  /-- The node, or the nodes, after the call. -/
  node : α
  /-- The value returned. -/
  result : Except NodeError Unit
  /-- The frame buffer after the call. -/
  frameBuffer : List UInt8

/-- `process_frame` of a node that is no audio processor. -/
def NodeBase.processFrame (n : NodeBase) (frameBuffer : List UInt8) : Processed NodeBase :=
  ⟨n, .error (n.error .notSupported "Not an audio processor"), frameBuffer⟩

/-- `DelayNode`. -/
structure DelayNode where
  /-- What every node has. -/
  base : NodeBase

/-- `DelayNode::process_frame`. -/
def DelayNode.processFrame (n : DelayNode) (frameBuffer : List UInt8) : Processed DelayNode where
  node :=
    { n with base := { n.base with
      inBufferProcessedFrames := n.base.inBufferProcessedFrames + 1
      processedFrames := n.base.processedFrames + 1 } }
  result := .ok ()
  frameBuffer := List.replicate frameBuffer.length 0

/-- `DelayNode::close`. -/
def DelayNode.close (n : DelayNode) : DelayNode :=
  { n with base := { n.base with inBufferProcessedFrames := 0, processedFrames := 0 } }

end HermesFlow.Audio
