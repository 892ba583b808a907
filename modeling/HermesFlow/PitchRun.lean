import HermesFlow.PitchShifter
import Mathlib.Tactic.Ring

/-!
# Runs of the pitch shifter

What every run keeps, for any numbers: given that mixing and the advance of the
phase run and keep a property of phases and of samples, so do `process` and any
calls of it and of `reset`. Two ways to finish a sample that agree on the mixed
samples give the same run.
-/

namespace HermesFlow.Pitch

open BoundedLoop

variable {F : Type} {N : Numbers F} {short : Prop}

/-- Cells of a table of rows are below its size. -/
theorem cell_lt {i n c m : ℕ} (hi : i < n) (hc : c < m) : i * m + c < n * m :=
  calc i * m + c < i * m + m := Nat.add_lt_add_left hc _
    _ = (i + 1) * m := by ring
    _ ≤ n * m := Nat.mul_le_mul_right m hi

/-- Around a position in the buffer both samples are read in bounds. -/
theorem runs_interpolate {s : PitchShifter F}
    (hlength : s.delayBuffer.length = s.bufferSize * s.channels) {c : ℕ} (hc : c < s.channels)
    {readPos : F} (h0 : 0 ≤ N.toInt readPos) (h1 : N.toInt readPos < s.bufferSize) :
    Runs short
      (fun v => ∃ a ∈ s.delayBuffer, ∃ b ∈ s.delayBuffer,
        v = N.add a (N.mul (N.sub readPos (N.ofInt (N.toInt readPos))) (N.sub b a)))
      (interpolate N s readPos c) := by
  have hcell {i : ℤ} (hi0 : 0 ≤ i) (hi1 : i < s.bufferSize) :
      0 ≤ i * s.channels + c ∧ i * s.channels + c < s.delayBuffer.length := by
    obtain ⟨n, rfl⟩ := Int.eq_ofNat_of_zero_le hi0
    have hlt := cell_lt (Int.ofNat_lt.mp hi1) hc
    rw [hlength]
    exact ⟨by exact_mod_cast Nat.zero_le (n * s.channels + c), by exact_mod_cast hlt⟩
  unfold interpolate
  dsimp only
  rw [if_neg (by omega)]
  have hsize : (0 : ℤ) < s.bufferSize := by omega
  have hmod : (N.toInt readPos + 1).tmod s.bufferSize = (N.toInt readPos + 1) % s.bufferSize :=
    Int.tmod_eq_emod_of_nonneg (by omega)
  rw [hmod]
  obtain ⟨ha0, ha1⟩ := hcell h0 h1
  obtain ⟨hb0, hb1⟩ := hcell (Int.emod_nonneg (N.toInt readPos + 1) hsize.ne')
    (Int.emod_lt_of_pos (N.toInt readPos + 1) hsize)
  refine (runs_readAt ha0 ha1).bind fun a ha => ?_
  refine (runs_readAt hb0 hb1).bind fun b hb => ?_
  exact .ok ⟨a, ha, b, hb, rfl⟩

/-- The sizes and the contents of a shifter. -/
structure Holds (channels maxDelay : ℕ) (Phase Value : F → Prop) (s : PitchShifter F) : Prop where
  /-- It has these channels. -/
  channels_eq : s.channels = channels
  /-- Its longest delay. -/
  maxDelay_eq : s.maxDelaySamples = maxDelay
  /-- Its buffer is twice as long. -/
  bufferSize_eq : s.bufferSize = maxDelay * 2
  /-- Every channel has its samples. -/
  length_eq : s.delayBuffer.length = s.bufferSize * s.channels
  /-- The position to write at lies in the buffer. -/
  writePtr_lt : s.writePtr < s.bufferSize
  /-- The phase is one. -/
  phase : Phase s.phase
  /-- Everything stored is a value. -/
  stored : ∀ v ∈ s.delayBuffer, Value v

section Run

variable {channels maxDelay fuel : ℕ} {Phase Value : F → Prop} {Sample : ℤ → Prop}
  {finish finish' : ℤ → ℤ}

/-- What a run rests on: samples are stored as values, mixing runs and gives a
sample, and the two ways to finish it agree. -/
structure Mixes (N : Numbers F) (fuel channels maxDelay : ℕ) (short : Prop) (Phase Value : F → Prop)
    (Sample : ℤ → Prop) (finish finish' : ℤ → ℤ) : Prop where
  /-- A sample is a value. -/
  value : ∀ n, Sample n → Value (N.ofInt n)
  /-- Zero is a value and a phase. -/
  zero : Value (N.ofInt 0) ∧ Phase (N.ofInt 0)
  /-- What is mixed is a sample. -/
  mixed : ∀ s, Holds channels maxDelay Phase Value s → ∀ c < channels,
    Runs short (fun m => Sample (N.toInt m))
      (mixedOut N fuel s (calculateCrossfadeParameters N s) c)
  /-- Both ways to finish a sample agree on it. -/
  finish : ∀ n, Sample n → Sample (finish n) ∧ finish n = finish' n

/-- A new shifter has its sizes and zeros. -/
theorem holds_new {sampleRate windowMs : ℕ} (h : 0 < sampleRate * windowMs / 1000)
    (hzero : Value (N.ofInt 0) ∧ Phase (N.ofInt 0)) :
    Holds channels (sampleRate * windowMs / 1000) Phase Value
      (PitchShifter.new N sampleRate channels windowMs) where
  channels_eq := rfl
  maxDelay_eq := rfl
  bufferSize_eq := rfl
  length_eq := List.length_replicate
  writePtr_lt := by
    rw [PitchShifter.new]
    dsimp only
    omega
  phase := hzero.2
  stored v hv := by
    rw [List.eq_of_mem_replicate hv]
    exact hzero.1

/-- A reset shifter has its sizes and zeros. -/
theorem Holds.reset {s : PitchShifter F} (h : Holds channels maxDelay Phase Value s)
    (hzero : Value (N.ofInt 0) ∧ Phase (N.ofInt 0)) :
    Holds channels maxDelay Phase Value (s.reset N) where
  channels_eq := h.channels_eq
  maxDelay_eq := h.maxDelay_eq
  bufferSize_eq := h.bufferSize_eq
  length_eq := List.length_replicate.trans h.length_eq
  writePtr_lt := Nat.zero_lt_of_lt h.writePtr_lt
  phase := hzero.2
  stored v hv := by
    rw [List.eq_of_mem_replicate hv]
    exact hzero.1

/-- A frame of a whole number of samples for each channel. -/
def IsFrame (channels : ℕ) (Sample : ℤ → Prop) (frame : List ℤ) : Prop :=
  frame.length = channels ∧ ∀ n ∈ frame, Sample n

variable (hmixes : Mixes N fuel channels maxDelay short Phase Value Sample finish finish')
include hmixes

/-- A channel of a frame: its input is stored and what is mixed from the buffer takes its
place. -/
theorem agrees_processChannel {s : PitchShifter F} {params : CrossfadeParams F} {frame : List ℤ}
    (hs : Holds channels maxDelay Phase Value s) (hparams : params = calculateCrossfadeParameters N s)
    (hframe : IsFrame channels Sample frame) {c : ℕ} (hc : c < channels) :
    Agrees short
      (fun state => (Holds channels maxDelay Phase Value state.1 ∧
        params = calculateCrossfadeParameters N state.1) ∧ IsFrame channels Sample state.2 ∧
          ∃ m, mixedOut N fuel state.1 params c = .ok m ∧
            state.2[c]? = some (finish (N.toInt m)))
      (processChannel N finish fuel params (s, frame) c)
      (processChannel N finish' fuel params (s, frame) c) := by
  obtain ⟨hlength, hsamples⟩ := hframe
  have hcell : s.writePtr * s.channels + c < s.delayBuffer.length := by
    rw [hs.length_eq]
    exact cell_lt hs.writePtr_lt (hs.channels_eq ▸ hc)
  have hc' : c < frame.length := hlength ▸ hc
  unfold processChannel
  refine Agrees.bind (runs_readAt (by omega) (by omega)).agrees fun sample hsample => ?_
  refine Agrees.bind (runs_writeAt hcell _).agrees ?_
  rintro _ rfl
  have hstored : Holds channels maxDelay Phase Value
      { s with delayBuffer := s.delayBuffer.set (s.writePtr * s.channels + c) (N.ofInt sample) } :=
    { hs with
      length_eq := by rw [List.length_set, hs.length_eq]
      stored := fun v hv => by
        rcases List.mem_or_eq_of_mem_set hv with hv | rfl
        · exact hs.stored v hv
        · exact hmixes.value sample (hsamples sample hsample) }
  have hmixed := hmixes.mixed _ hstored c hc
  change Runs short _ (mixedOut N fuel _ (calculateCrossfadeParameters N s) c) at hmixed
  rw [← hparams] at hmixed
  refine Agrees.bind hmixed.eq_ok.agrees fun m hm => ?_
  obtain ⟨hsample, hm⟩ := hm
  obtain ⟨hfinish, heq⟩ := hmixes.finish _ hsample
  rw [← heq]
  refine Agrees.bind (runs_writeAt hc' _).agrees ?_
  rintro _ rfl
  refine (Runs.ok ⟨⟨hstored, hparams⟩, ⟨?_, fun n hn => ?_⟩, m, hm, ?_⟩).agrees
  · rw [List.length_set, hlength]
  · rcases List.mem_or_eq_of_mem_set hn with hn | rfl
    · exact hsamples n hn
    · exact hfinish
  · exact List.getElem?_set_self hc'

/-- The two ways to finish agree on a frame. -/
theorem agrees_processFrameChannels {s : PitchShifter F} {frame : List ℤ}
    (hs : Holds channels maxDelay Phase Value s) (hframe : IsFrame channels Sample frame) :
    Agrees short
      (fun state => Holds channels maxDelay Phase Value state.1 ∧ IsFrame channels Sample state.2)
      (processFrameChannels N finish fuel s frame (calculateCrossfadeParameters N s))
      (processFrameChannels N finish' fuel s frame (calculateCrossfadeParameters N s)) := by
  unfold processFrameChannels
  rw [hs.channels_eq]
  refine Agrees.mono (agrees_foldlM
    (I := fun state => (Holds channels maxDelay Phase Value state.1 ∧
      calculateCrossfadeParameters N s = calculateCrossfadeParameters N state.1) ∧
        IsFrame channels Sample state.2)
    (fun state c hc h => ?_) ⟨⟨hs, rfl⟩, hframe⟩) fun state h => ⟨h.1.1, h.2⟩
  have hchannel := agrees_processChannel hmixes h.1.1 h.1.2 h.2 (List.mem_range.mp hc)
  exact hchannel.mono fun state' h' => ⟨h'.1, h'.2.1⟩

omit hmixes in
/-- Advancing keeps the shifter when it keeps the phase. -/
theorem runs_advancePointers {rate increment : F}
    (hadvance : ∀ p, Phase p → Runs short Phase (advancePhase N fuel p rate increment))
    {s : PitchShifter F} (hs : Holds channels maxDelay Phase Value s) :
    Runs short (Holds channels maxDelay Phase Value) (advancePointers N fuel s rate increment) :=
  (hadvance s.phase hs.phase).bind fun _ hp =>
    .ok { hs with
      writePtr_lt := Nat.mod_lt _ (Nat.zero_lt_of_lt hs.writePtr_lt)
      phase := hp }

/-- The loop over the frames of a buffer. -/
theorem agrees_processFrames {rate increment : F}
    (hadvance : ∀ p, Phase p → Runs short Phase (advancePhase N fuel p rate increment)) (n : ℕ) :
    ∀ (s : PitchShifter F) (buffer : List ℤ), Holds channels maxDelay Phase Value s →
      n * channels ≤ buffer.length → (∀ x ∈ buffer, Sample x) →
        Agrees short
          (fun state => Holds channels maxDelay Phase Value state.1 ∧
            state.2.length = buffer.length ∧ ∀ x ∈ state.2, Sample x)
          (processFrames N finish fuel rate increment n s buffer)
          (processFrames N finish' fuel rate increment n s buffer) := by
  induction n with
  | zero => exact fun s buffer hs _ hbuffer => (Runs.ok ⟨hs, rfl, hbuffer⟩).agrees
  | succ n ih =>
    intro s buffer hs hn hbuffer
    have hfirst : channels ≤ buffer.length := by
      rw [Nat.succ_mul] at hn
      omega
    unfold processFrames
    rw [hs.channels_eq]
    have hframe : IsFrame channels Sample (buffer.take channels) :=
      ⟨List.length_take_of_le hfirst, fun x hx => hbuffer x (List.mem_of_mem_take hx)⟩
    refine Agrees.bind (agrees_processFrameChannels hmixes hs hframe) ?_
    rintro ⟨s₁, frame⟩ ⟨hs₁, hlength, hsamples⟩
    refine Agrees.bind (runs_advancePointers hadvance hs₁).agrees fun s₂ hs₂ => ?_
    rw [hs₂.channels_eq]
    have hrest : n * channels ≤ (buffer.drop channels).length := by
      rw [List.length_drop]
      rw [Nat.succ_mul] at hn
      omega
    refine Agrees.bind (ih s₂ _ hs₂ hrest fun x hx => hbuffer x (List.mem_of_mem_drop hx)) ?_
    rintro ⟨s₃, rest⟩ ⟨hs₃, hlength', hsamples'⟩
    refine (Runs.ok ⟨hs₃, ?_, fun x hx => ?_⟩).agrees
    · rw [List.length_append, hlength, hlength', List.length_drop]
      omega
    · exact (List.mem_append.mp hx).elim (hsamples x) (hsamples' x)

/-- `process` on any buffer. -/
theorem agrees_processWith {semitones : F} {s : PitchShifter F} {buffer : List ℤ}
    (hadvance : ∀ p, Phase p → Runs short Phase
      (advancePhase N fuel p (delayChangeRate N semitones) (phaseIncrement N s semitones)))
    (hs : Holds channels maxDelay Phase Value s) (hbuffer : ∀ x ∈ buffer, Sample x) :
    Agrees short
      (fun state => Holds channels maxDelay Phase Value state.1 ∧
        state.2.length = buffer.length ∧ ∀ x ∈ state.2, Sample x)
      (processWith N finish fuel s buffer semitones)
      (processWith N finish' fuel s buffer semitones) := by
  unfold processWith
  split
  · exact (Runs.ok ⟨hs, rfl, hbuffer⟩).agrees
  · refine agrees_processFrames hmixes hadvance _ s buffer hs ?_ hbuffer
    rw [hs.channels_eq]
    exact Nat.div_mul_le_self _ _

/-- The buffers and the options of calls. -/
def CallsMeet (Sample : ℤ → Prop) (Option : F → Prop) (calls : List (Call F)) : Prop :=
  ∀ buffer semitones, .process buffer semitones ∈ calls →
    (∀ x ∈ buffer, Sample x) ∧ Option semitones

/-- Any calls of `process` and `reset`. -/
theorem agrees_runCallsWith {Option : F → Prop}
    (hadvance : ∀ s semitones, Holds channels maxDelay Phase Value s → Option semitones →
      ∀ p, Phase p → Runs short Phase
        (advancePhase N fuel p (delayChangeRate N semitones) (phaseIncrement N s semitones)))
    (calls : List (Call F)) :
    ∀ (s : PitchShifter F), Holds channels maxDelay Phase Value s → CallsMeet Sample Option calls →
      Agrees short
        (fun state => Holds channels maxDelay Phase Value state.1 ∧
          ∀ buffer ∈ state.2, ∀ x ∈ buffer, Sample x)
        (runCallsWith N finish fuel s calls) (runCallsWith N finish' fuel s calls) := by
  induction calls with
  | nil => exact fun s hs _ => (Runs.ok ⟨hs, nofun⟩).agrees
  | cons call calls ih =>
    intro s hs hmeet
    have hrest : CallsMeet Sample Option calls := fun buffer semitones hmem =>
      hmeet buffer semitones (List.mem_cons_of_mem _ hmem)
    cases call with
    | reset => exact ih _ (hs.reset hmixes.zero) hrest
    | process buffer semitones =>
      obtain ⟨hbuffer, hoption⟩ := hmeet buffer semitones List.mem_cons_self
      refine Agrees.bind (agrees_processWith hmixes (hadvance s semitones hs hoption) hs hbuffer) ?_
      rintro ⟨s₁, out⟩ ⟨hs₁, -, hout⟩
      refine Agrees.bind (ih s₁ hs₁ hrest) ?_
      rintro ⟨s₂, outs⟩ ⟨hs₂, houts⟩
      exact (Runs.ok ⟨hs₂, List.forall_mem_cons.mpr ⟨hout, houts⟩⟩).agrees

end Run

end HermesFlow.Pitch
