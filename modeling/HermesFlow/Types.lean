import Mathlib.Data.List.Basic

/-!
# Shared types and constants

Error values as the server's components return them, and the constants of the
audio path: 20 ms frames of 16-bit mono samples at 8 kHz.
-/

namespace HermesFlow

/-- Outcomes of audio node operations. -/
inductive NodeErrorCode where
  | success | underrun | endOfStream | fileIOError | formatError | internalError
  | initializationFailed | critical | notSupported
  deriving DecidableEq

/-- Outcomes of operations outside the audio graph. -/
inductive AppError where
  | success | configError | parseError | networkError | fileSystemError | logicError | critical
  deriving DecidableEq

/-- An audio node's error with the node that reported it. -/
structure NodeError where
  /-- The outcome. -/
  code : NodeErrorCode
  /-- Text for logs and observers. -/
  message : String
  /-- Id of the reporting node, empty when there is none. -/
  nodeId : String
  deriving DecidableEq

/-- An error outside the audio graph. -/
structure ErrorInfo where
  /-- The outcome. -/
  code : AppError
  /-- Text for logs and HTTP responses. -/
  message : String
  deriving DecidableEq

/-- Samples in a frame: 8000 Hz for 20 ms. -/
def SAMPLES_PER_FRAME : ℕ := 160

/-- Bytes of a 16-bit sample. -/
def BYTES_PER_SAMPLE : ℕ := 2

/-- Bytes of a frame. -/
def FRAME_SIZE_BYTES : ℕ := SAMPLES_PER_FRAME * BYTES_PER_SAMPLE

/-- Bytes of each of the two blocks of a double buffer. -/
def BUFFER_SIZE : ℕ := 1024 * 128

end HermesFlow
