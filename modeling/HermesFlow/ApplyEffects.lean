import HermesFlow.MixerSum
import HermesFlow.PitchOption

/-!
# The effects of a file

`apply_effects` works on the samples of a frame in place: they take the gain of the options,
clamped to their range, and go through the pitch shifter. The shifter of a file never leaves the
states in which `process` ends on a bounded option, and a reset brings back the first of them.
-/

namespace HermesFlow.Audio

open BoundedLoop ByteOrder Pitch

/-- The bytes of samples. -/
def sampleBytes (samples : List ℤ) : List UInt8 :=
  samples.flatMap fun sample => storeLE 2 (sample % 2 ^ 16).toNat

/-- Two bytes are written for each sample. -/
theorem length_sampleBytes (samples : List ℤ) : (sampleBytes samples).length = samples.length * 2 := by
  induction samples with
  | nil => rfl
  | cons sample samples ih =>
    rw [sampleBytes, List.flatMap_cons, List.length_append, length_storeLE, List.length_cons]
    change 2 + (sampleBytes samples).length = _
    omega

section Apply

variable {F : Type} (N : Numbers F) (toFloat : ℚ → F)

/-- The samples with the gain of the options; a product is in the range of `int32_t`. -/
def boosted (gain : ℚ) (samples : List ℤ) : List ℤ :=
  if gain ≠ 1 then
    samples.map fun sample => clampSample (N.toInt (N.mul (N.ofInt sample) (toFloat gain)))
  else samples

/-- The samples through the pitch shifter, unless the options have no shift. -/
def shifted (fuel : ℕ) (pitchShift : ℚ) (s : PitchShifter F) (samples : List ℤ) :
    Except Fault (PitchShifter F × List ℤ) :=
  if pitchShift ≠ 0 then process N fuel s samples (toFloat pitchShift) else .ok (s, samples)

/-- `apply_effects`, with the options of a file. -/
def applyEffects (fuel : ℕ) (gain pitchShift : ℚ) (s : PitchShifter F) (frameBuffer : List UInt8) :
    Except Fault (List UInt8 × PitchShifter F) := do
  let (s, samples) ← shifted N toFloat fuel pitchShift s
    (boosted N toFloat gain (asSamples frameBuffer))
  return (sampleBytes samples ++ frameBuffer.drop (samples.length * 2), s)

variable {N toFloat}

/-- The gain keeps the number of samples. -/
theorem length_boosted (gain : ℚ) (samples : List ℤ) :
    (boosted N toFloat gain samples).length = samples.length := by
  unfold boosted
  split
  · exact List.length_map _
  · rfl

/-- What the shifter keeps, `apply_effects` keeps, and the size of the frame. -/
theorem runs_applyEffects {short : Prop} {Held : PitchShifter F → Prop} {fuel : ℕ}
    {gain pitchShift : ℚ} {s : PitchShifter F}
    (hshifted : ∀ samples, Runs short
      (fun state => Held state.1 ∧ state.2.length = samples.length)
      (shifted N toFloat fuel pitchShift s samples)) (frameBuffer : List UInt8) :
    Runs short (fun result => result.1.length = frameBuffer.length ∧ Held result.2)
      (applyEffects N toFloat fuel gain pitchShift s frameBuffer) := by
  unfold applyEffects
  refine (hshifted _).bind ?_
  rintro ⟨s', samples⟩ ⟨hs', hlength⟩
  refine .ok ⟨?_, hs'⟩
  rw [length_boosted, length_asSamples] at hlength
  rw [List.length_append, length_sampleBytes, List.length_drop, hlength]
  omega

end Apply

/-- The pitch shifter of a file input, with what holds of it between calls. -/
abbrev FileShifter := {s : PitchShifter (BinaryFloat.Single ℝ) // HoldsSingle s}

namespace FileShifter

/-- Zero lies in the range of the pitch factors. -/
theorem between_zero : BinaryFloat.Single.Between 0 1 (floats.ofInt 0) :=
  ⟨0, ofInt_zero, by norm_num, by norm_num⟩

/-- A new shifter over whole numbers keeps the pitch shifter's invariant. -/
theorem holds_new_floats : HoldsSingle (.new floats 8000 1 50) :=
  holds_new (show 0 < 8000 * 50 / 1000 by decide) ⟨trivial, between_zero⟩

/-- The constructor's arguments are its defaults. -/
noncomputable def new : FileShifter := ⟨.new floats 8000 1 50, holds_new_floats⟩

/-- `reset`. -/
noncomputable def reset (s : FileShifter) : FileShifter :=
  ⟨s.1.reset floats, s.2.reset ⟨trivial, between_zero⟩⟩

/-- A reset brings back the shifter that a file starts with. -/
theorem reset_eq (s : FileShifter) : s.reset = new := by
  refine Subtype.ext ?_
  obtain ⟨s, hs⟩ := s
  have hcells : s.delayBuffer.length = 800 := by
    rw [hs.length_eq, hs.bufferSize_eq, hs.channels_eq]
  change PitchShifter.mk s.channels s.maxDelaySamples s.bufferSize
    (List.replicate s.delayBuffer.length _) _ _ = _
  rw [hcells, hs.channels_eq, hs.maxDelay_eq, hs.bufferSize_eq]
  rfl

end FileShifter

/-- Fuel for the loops of the shifter. -/
def enoughFuel : ℕ := 16777219

/-- The options with which the shifter ends. -/
def Shiftable (pitchShift : ℚ) : Prop :=
  pitchShift ≠ 0 → BinaryFloat.Single.le (exponentOf pitchShift) (.num maxExponent) = true

/-- The advance of the phase ends, or it never does. -/
theorem runs_advancePhase_floats {s : PitchShifter (BinaryFloat.Single ℝ)} (hs : HoldsSingle s)
    (pitchShift : ℚ) {p : BinaryFloat.Single ℝ} (hp : BinaryFloat.Single.Between 0 1 p) :
    Runs (¬BinaryFloat.Single.le (exponentOf pitchShift) (.num maxExponent) = true)
      (BinaryFloat.Single.Between 0 1)
      (advancePhase floats enoughFuel p (delayChangeRate floats (semitonesOf pitchShift))
        (phaseIncrement floats s (semitonesOf pitchShift))) := by
  have hnan := div_ne_nan (semitonesOf_ne_nan pitchShift)
  have hpos : BinaryFloat.Single.AtLeast 0 (ratioOf powTwo (semitonesOf pitchShift)) :=
    isPower_powTwo _ hnan
  by_cases hratio : RatioBounded (ratioOf powTwo (semitonesOf pitchShift))
  · exact runs_advancePhase_single hs hpos hratio hp fun h => absurd h (by decide)
  · refine .inl ⟨fun hle => hratio ((ratioBounded_powTwo_iff hnan).mpr hle), ?_⟩
    exact advancePhase_running hs hpos hratio hp

/-- The shifter keeps its states, and ends with the options that it ends with. -/
theorem runs_shifted_floats {s : PitchShifter (BinaryFloat.Single ℝ)} (hs : HoldsSingle s)
    (pitchShift : ℚ) (samples : List ℤ) :
    Runs (¬Shiftable pitchShift)
      (fun state => HoldsSingle state.1 ∧ state.2.length = samples.length)
      (shifted floats semitonesOf enoughFuel pitchShift s samples) := by
  by_cases hzero : pitchShift = 0
  · rw [shifted, if_neg (not_not.mpr hzero)]
    exact .ok ⟨hs, rfl⟩
  · rw [shifted, if_pos hzero]
    have hshort : enoughFuel ≤ 1 → ¬Shiftable pitchShift := fun h => absurd h (by decide)
    have hmixes := mixes_single powTwo enoughFuel hshort
    have hadvance : ∀ p, BinaryFloat.Single.Between 0 1 p →
        Runs (¬Shiftable pitchShift) (BinaryFloat.Single.Between 0 1)
          (advancePhase floats enoughFuel p (delayChangeRate floats (semitonesOf pitchShift))
            (phaseIncrement floats s (semitonesOf pitchShift))) := fun p hp =>
      (runs_advancePhase_floats hs pitchShift hp).imp_left fun h =>
        ⟨fun hshiftable => h.1 (hshiftable hzero), h.2⟩
    have hall := agrees_processWith hmixes hadvance hs fun x (_ : x ∈ samples) => trivial
    exact hall.1.mono fun state hstate => ⟨hstate.1, hstate.2.1⟩

/-- So does `apply_effects` on a frame of a file, which keeps its size. -/
theorem runs_applyEffects_floats (s : FileShifter) (gain pitchShift : ℚ)
    (frameBuffer : List UInt8) :
    Runs (¬Shiftable pitchShift)
      (fun result => result.1.length = frameBuffer.length ∧ HoldsSingle result.2)
      (applyEffects floats semitonesOf enoughFuel gain pitchShift s.1 frameBuffer) :=
  runs_applyEffects (runs_shifted_floats s.2 pitchShift) frameBuffer

/-- The effects of the source, with the loops of the shifter on enough fuel; a call that never ends
leaves no frame, and none is asked of it. -/
noncomputable def effects : Effects FileShifter where
  apply options s frame :=
    match h : applyEffects floats semitonesOf enoughFuel options.gain options.pitchShift s.1 frame with
    | .ok result => (result.1, ⟨result.2, ((runs_applyEffects_floats s _ _ _).of_ok h).2⟩)
    | .error _ => (frame, s)
  reset := FileShifter.reset

/-- Where the shifter ends they are what `apply_effects` computes. -/
theorem effects_apply {options : FileOptionsNode} (hshiftable : Shiftable options.pitchShift)
    (s : FileShifter) (frame : List UInt8) :
    applyEffects floats semitonesOf enoughFuel options.gain options.pitchShift s.1 frame =
      .ok ((effects.apply options s frame).1, (effects.apply options s frame).2.1) := by
  obtain ⟨result, hresult, -⟩ := (runs_applyEffects_floats s options.gain options.pitchShift
    frame).result (not_not.mpr hshiftable)
  rw [hresult]
  unfold effects
  dsimp only
  split
  · rename_i h
    obtain rfl := Except.ok.inj (hresult.symm.trans h)
    rfl
  · rename_i h
    cases hresult.symm.trans h

end HermesFlow.Audio
