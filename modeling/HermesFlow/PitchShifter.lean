import HermesFlow.BoundedLoop

/-!
# The pitch shifter

A circular buffer with two read heads half a window apart. The source computes in
single precision; the numbers are a parameter here. Loops have fuel, and reads and
writes of the buffer are checked. The `int` indices do not overflow in a buffer that
fits in memory.
-/

namespace HermesFlow.Pitch

open BoundedLoop

/-- The operations on numbers that the shifter uses. -/
structure Numbers (F : Type) where
  /-- The sum. -/
  add : F → F → F
  /-- The difference. -/
  sub : F → F → F
  /-- The product. -/
  mul : F → F → F
  /-- The quotient. -/
  div : F → F → F
  /-- The magnitude. -/
  abs : F → F
  /-- The strict comparison. -/
  lt : F → F → Bool
  /-- The comparison. -/
  le : F → F → Bool
  /-- `static_cast<float>` of an integer. -/
  ofInt : ℤ → F
  /-- `0.5F`. -/
  half : F
  /-- `static_cast<int>`. -/
  toInt : F → ℤ
  /-- `std::pow(2.0F, x)`. -/
  pow : F → F

/-- `PitchShifter`. -/
structure PitchShifter (F : Type) where
  /-- `channels_`. -/
  channels : ℕ
  /-- `max_delay_samples_`. -/
  maxDelaySamples : ℕ
  /-- `buffer_size_`. -/
  bufferSize : ℕ
  /-- `delay_buffer_`. -/
  delayBuffer : List F
  /-- `write_ptr_`. -/
  writePtr : ℕ
  /-- `phase_`. -/
  phase : F

/-- `CrossfadeParams`. -/
structure CrossfadeParams (F : Type) where
  /-- The delay of the first tap. -/
  delay1 : F
  /-- The weight of the first tap. -/
  weight1 : F
  /-- The delay of the second tap. -/
  delay2 : F
  /-- The weight of the second tap. -/
  weight2 : F

/-- `std::clamp` to the range of `int16_t`. -/
def clampSample (n : ℤ) : ℤ := max (-32768) (min n 32767)

section Shifter

variable {F : Type} (N : Numbers F)

/-- `PitchShifter::PitchShifter`. -/
def PitchShifter.new (sampleRate channels windowMs : ℕ) : PitchShifter F :=
  let maxDelaySamples := sampleRate * windowMs / 1000
  let bufferSize := maxDelaySamples * 2
  { channels, maxDelaySamples, bufferSize
    delayBuffer := List.replicate (bufferSize * channels) (N.ofInt 0)
    writePtr := 0
    phase := N.ofInt 0 }

/-- `reset`. -/
def PitchShifter.reset (s : PitchShifter F) : PitchShifter F :=
  { s with
    writePtr := 0
    phase := N.ofInt 0
    delayBuffer := List.replicate s.delayBuffer.length (N.ofInt 0) }

/-- `read_interpolated`, behind its loops: the two samples around a position. -/
def interpolate (s : PitchShifter F) (readPos : F) (channel : ℕ) : Except Fault F := do
  let idx := N.toInt readPos
  let idx1 := if idx ≥ s.bufferSize then (s.bufferSize : ℤ) - 1 else idx
  let idx2 := (idx1 + 1).tmod s.bufferSize
  let frac := N.sub readPos (N.ofInt idx1)
  let val1 ← readAt s.delayBuffer (idx1 * s.channels + channel)
  let val2 ← readAt s.delayBuffer (idx2 * s.channels + channel)
  return N.add val1 (N.mul frac (N.sub val2 val1))

/-- `read_interpolated`. -/
def readInterpolated (fuel : ℕ) (s : PitchShifter F) (delayFrames : F) (channel : ℕ) :
    Except Fault F := do
  let size := N.ofInt s.bufferSize
  let readPos := N.sub (N.ofInt s.writePtr) delayFrames
  let readPos ← whileLoop (fun x => N.lt x (N.ofInt 0)) (fun x => N.add x size) fuel readPos
  let readPos ← whileLoop (fun x => N.le size x) (fun x => N.sub x size) fuel readPos
  interpolate N s readPos channel

/-- `get_crossfade_weight`. -/
def getCrossfadeWeight (p : F) : F :=
  N.sub (N.ofInt 1) (N.abs (N.sub (N.mul (N.ofInt 2) p) (N.ofInt 1)))

/-- The phase of the second read head. -/
def secondPhase (phase : F) : F :=
  let phase2 := N.add phase N.half
  if N.le (N.ofInt 1) phase2 then N.sub phase2 (N.ofInt 1) else phase2

/-- `calculate_crossfade_parameters`. -/
def calculateCrossfadeParameters (s : PitchShifter F) : CrossfadeParams F where
  delay1 := N.mul s.phase (N.ofInt s.maxDelaySamples)
  weight1 := getCrossfadeWeight N s.phase
  delay2 := N.mul (secondPhase N s.phase) (N.ofInt s.maxDelaySamples)
  weight2 := getCrossfadeWeight N (secondPhase N s.phase)

/-- `mixed_out` of a channel. -/
def mixedOut (fuel : ℕ) (s : PitchShifter F) (params : CrossfadeParams F) (channel : ℕ) :
    Except Fault F := do
  let out1 ← readInterpolated N fuel s params.delay1 channel
  let out2 ← readInterpolated N fuel s params.delay2 channel
  return N.add (N.mul out1 params.weight1) (N.mul out2 params.weight2)

/-- The body of the loop of `process_frame_channels`; `finish` stands for the clamp at
its end. -/
def processChannel (finish : ℤ → ℤ) (fuel : ℕ) (params : CrossfadeParams F)
    (state : PitchShifter F × List ℤ) (c : ℕ) : Except Fault (PitchShifter F × List ℤ) := do
  let (s, frame) := state
  let sample ← readAt frame c
  let delayBuffer ← writeAt s.delayBuffer (s.writePtr * s.channels + c) (N.ofInt sample)
  let s := { s with delayBuffer }
  let mixed ← mixedOut N fuel s params c
  let frame ← writeAt frame c (finish (N.toInt mixed))
  return (s, frame)

/-- `process_frame_channels`. -/
def processFrameChannels (finish : ℤ → ℤ) (fuel : ℕ) (s : PitchShifter F) (frame : List ℤ)
    (params : CrossfadeParams F) : Except Fault (PitchShifter F × List ℤ) :=
  (List.range s.channels).foldlM (processChannel N finish fuel params) (s, frame)

/-- The phase after `advance_pointers`. -/
def advancePhase (fuel : ℕ) (phase delayChangeRate phaseIncrement : F) : Except Fault F :=
  if N.lt delayChangeRate (N.ofInt 0) then
    whileLoop (fun x => N.lt x (N.ofInt 0)) (fun x => N.add x (N.ofInt 1)) fuel
      (N.sub phase phaseIncrement)
  else
    whileLoop (fun x => N.le (N.ofInt 1) x) (fun x => N.sub x (N.ofInt 1)) fuel
      (N.add phase phaseIncrement)

/-- `advance_pointers`. -/
def advancePointers (fuel : ℕ) (s : PitchShifter F) (delayChangeRate phaseIncrement : F) :
    Except Fault (PitchShifter F) := do
  let phase ← advancePhase N fuel s.phase delayChangeRate phaseIncrement
  return { s with writePtr := (s.writePtr + 1) % s.bufferSize, phase }

/-- The loop of `process` over its frames; a sample behind the last frame is kept. -/
def processFrames (finish : ℤ → ℤ) (fuel : ℕ) (delayChangeRate phaseIncrement : F) :
    ℕ → PitchShifter F → List ℤ → Except Fault (PitchShifter F × List ℤ)
  | 0, s, buffer => .ok (s, buffer)
  | n + 1, s, buffer => do
    let params := calculateCrossfadeParameters N s
    let (s, frame) ← processFrameChannels N finish fuel s (buffer.take s.channels) params
    let s ← advancePointers N fuel s delayChangeRate phaseIncrement
    let (s, rest) ← processFrames finish fuel delayChangeRate phaseIncrement n s
      (buffer.drop s.channels)
    return (s, frame ++ rest)

/-- `delay_change_rate` of `process`. -/
def delayChangeRate (semitones : F) : F :=
  N.sub (N.ofInt 1) (N.pow (N.div semitones (N.ofInt 12)))

/-- `phase_increment` of `process`. -/
def phaseIncrement (s : PitchShifter F) (semitones : F) : F :=
  N.div (N.abs (delayChangeRate N semitones)) (N.ofInt s.maxDelaySamples)

/-- `process`, with what stands for the clamp. -/
def processWith (finish : ℤ → ℤ) (fuel : ℕ) (s : PitchShifter F) (buffer : List ℤ)
    (semitones : F) : Except Fault (PitchShifter F × List ℤ) :=
  if N.le semitones (N.ofInt 0) && N.le (N.ofInt 0) semitones then .ok (s, buffer)
  else
    processFrames N finish fuel (delayChangeRate N semitones) (phaseIncrement N s semitones)
      (buffer.length / s.channels) s buffer

/-- `process`. -/
def process (fuel : ℕ) (s : PitchShifter F) (buffer : List ℤ) (semitones : F) :
    Except Fault (PitchShifter F × List ℤ) :=
  processWith N clampSample fuel s buffer semitones

end Shifter

/-- A call of the shifter. -/
inductive Call (F : Type) where
  | process (buffer : List ℤ) (semitones : F)
  | reset

/-- Calls in order, with what stands for the clamp, and the buffers they leave. -/
def runCallsWith {F : Type} (N : Numbers F) (finish : ℤ → ℤ) (fuel : ℕ) :
    PitchShifter F → List (Call F) → Except Fault (PitchShifter F × List (List ℤ))
  | s, [] => .ok (s, [])
  | s, .reset :: calls => runCallsWith N finish fuel (s.reset N) calls
  | s, .process buffer semitones :: calls => do
    let (s, buffer) ← processWith N finish fuel s buffer semitones
    let (s, buffers) ← runCallsWith N finish fuel s calls
    return (s, buffer :: buffers)

/-- Calls in order. -/
def runCalls {F : Type} (N : Numbers F) (fuel : ℕ) (s : PitchShifter F) (calls : List (Call F)) :
    Except Fault (PitchShifter F × List (List ℤ)) :=
  runCallsWith N clampSample fuel s calls

end HermesFlow.Pitch
