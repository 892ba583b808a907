import HermesFlow.ClientsList
import HermesFlow.PitchWrap
import Mathlib.Analysis.SpecialFunctions.Log.Base

/-!
# The options with which the pitch shifter ends

The ratio of an option is a power of two, rounded to single precision. `process` ends
up to `2^32.64`, that is for a `pitch_shift` up to about 391.73, and does not end above.
-/

namespace HermesFlow.Pitch

open BoundedLoop BinaryFloat

section Ratio

variable {K : Type} [Field K] [LinearOrder K] [FloorRing K] {pow : Single K → Single K}
  {short : Prop} {fuel : ℕ}

/-- What is asked of the power of two: it is a positive number, zero or infinity. -/
def IsPower (pow : Single K → Single K) : Prop := ∀ x, x ≠ .nan → Single.AtLeast 0 (pow x)

/-- Dividing by twelve gives a number. -/
theorem div_ne_nan [CharZero K] {x : Single K} (hx : x ≠ .nan) :
    Single.div x (.num ((12 : ℕ) : K)) ≠ .nan := by
  cases x with
  | nan => exact absurd rfl hx
  | inf negative => nofun
  | num q =>
    change (if ((12 : ℕ) : K) = 0 then _ else Single.ofReal (q / ((12 : ℕ) : K))) ≠ .nan
    rw [if_neg (by norm_num)]
    unfold Single.ofReal
    split_ifs <;> nofun

variable [IsStrictOrderedRing K]

/-- Mixing in single precision; the numbers that are mixed are left open. -/
theorem mixes_single (pow : Single K → Single K) (fuel : ℕ) (hshort : fuel ≤ 1 → short) :
    Mixes (singleNumbers pow) fuel 1 400 short (Single.Between 0 1) (fun _ => True) (fun _ => True)
      clampSample clampSample where
  value _ _ := trivial
  zero := ⟨trivial, 0, by rw [ofInt_zero], by norm_num, by norm_num⟩
  mixed _ hs _ hc := (runs_mixedOut_single hs hc hshort).mono fun _ _ => trivial
  finish _ _ := ⟨trivial, rfl⟩

/-- Any calls leave the shifter in a state with a phase. -/
theorem holds_of_runCalls (hpow : IsPower pow) {calls : List (Call (Single K))}
    (hcalls : CallsMeet (fun _ => True) (· ≠ .nan) calls) {s : PitchShifter (Single K)}
    {outs : List (List ℤ)}
    (hrun : runCalls (singleNumbers pow) fuel (.new (singleNumbers pow) 8000 1 50) calls =
      .ok (s, outs)) : HoldsSingle s := by
  have hmixes := mixes_single pow fuel fun _ => trivial
  have hnew : Holds 1 (8000 * 50 / 1000) (Single.Between 0 1) (fun _ => True)
      (.new (singleNumbers pow) 8000 1 50) := holds_new (by decide) hmixes.zero
  have hall := agrees_runCallsWith hmixes (fun s semitones hs hoption p hp => ?_) calls _ hnew hcalls
  · exact (hall.1.of_ok hrun).1
  · by_cases hratio : RatioBounded (ratioOf pow semitones)
    · exact runs_advancePhase_single hs (hpow _ (div_ne_nan hoption)) hratio hp fun _ => trivial
    · exact .inl ⟨trivial, advancePhase_running hs (hpow _ (div_ne_nan hoption)) hratio hp⟩

/-- The test for no shift. -/
theorem isZero_iff {semitones : Single K} :
    ((singleNumbers pow).le semitones ((singleNumbers pow).ofInt 0) &&
      (singleNumbers pow).le ((singleNumbers pow).ofInt 0) semitones) = true ↔ semitones = .num 0 := by
  rw [ofInt_zero, Bool.and_eq_true]
  cases semitones with
  | nan => exact ⟨fun h => (nomatch h.1), nofun⟩
  | inf negative => cases negative <;> exact ⟨fun h => (by cases h.1 <;> cases h.2), nofun⟩
  | num q =>
    constructor
    · rintro ⟨hle, hge⟩
      rw [le_antisymm (of_decide_eq_true hle) (of_decide_eq_true hge)]
    · intro h
      obtain rfl := Single.num.inj h
      exact ⟨decide_eq_true le_rfl, decide_eq_true le_rfl⟩

/-- With a bounded ratio `process` ends on any buffer. -/
theorem process_returns (hpow : IsPower pow) {s : PitchShifter (Single K)} (hs : HoldsSingle s)
    {semitones : Single K} (hnan : semitones ≠ .nan) (hratio : RatioBounded (ratioOf pow semitones))
    (buffer : List ℤ) :
    ∃ fuel r, process (singleNumbers pow) fuel s buffer semitones = .ok r := by
  let fuel := 16777219
  have hmixes := mixes_single pow fuel fun h => (h.trans (by decide) : fuel ≤ 16777218)
  have hadvance (p : Single K) (hp : Single.Between 0 1 p) := runs_advancePhase_single hs
    (hpow _ (div_ne_nan hnan)) hratio hp fun h : fuel ≤ 16777218 => h
  have hall := agrees_processWith hmixes hadvance hs fun x (_ : x ∈ buffer) => trivial
  obtain ⟨r, hr, -⟩ := hall.1.result (by decide)
  exact ⟨fuel, r, hr⟩

/-- With a larger one it does not end on any frame. -/
theorem process_running (hpow : IsPower pow) {s : PitchShifter (Single K)} (hs : HoldsSingle s)
    {semitones : Single K} (hnan : semitones ≠ .nan)
    (hratio : ¬ RatioBounded (ratioOf pow semitones)) {buffer : List ℤ} (hbuffer : buffer ≠ [])
    (hzero : semitones ≠ .num 0) (r : PitchShifter (Single K) × List ℤ) :
    process (singleNumbers pow) fuel s buffer semitones ≠ .ok r := by
  intro hrun
  obtain ⟨n, hn⟩ := Nat.exists_eq_succ_of_ne_zero (List.length_pos_iff.mpr hbuffer).ne'
  have hframe : IsFrame 1 (fun _ => True) (buffer.take 1) :=
    ⟨List.length_take_of_le (hn ▸ Nat.succ_pos n), fun _ _ => trivial⟩
  unfold process processWith at hrun
  rw [if_neg (fun h => hzero (isZero_iff.mp h)), hs.channels_eq, Nat.div_one, hn] at hrun
  unfold processFrames at hrun
  rw [hs.channels_eq] at hrun
  -- the first frame is mixed, and then the phase is advanced
  obtain ⟨⟨s₁, frame⟩, hfirst, hrun⟩ := Infra.bind_ok hrun
  have hs₁ := ((agrees_processFrameChannels (mixes_single pow fuel fun _ => trivial) hs hframe).1.of_ok hfirst).1
  obtain ⟨s₂, hadvance, -⟩ := Infra.bind_ok hrun
  obtain ⟨p, hp, -⟩ := Infra.bind_ok hadvance
  rw [advancePhase_running hs (hpow _ (div_ne_nan hnan)) hratio hs₁.phase] at hp
  cases hp

end Ratio

/-- `std::pow(2.0F, x)`, rounded to the nearest number. -/
noncomputable def powTwo : Single ℝ → Single ℝ
  | .num x => .ofReal (((2 : ℕ) : ℝ) ^ x)
  | .inf negative => if negative then .num 0 else .inf false
  | .nan => .nan

/-- The numbers of the source. -/
noncomputable def floats : Numbers (Single ℝ) := singleNumbers powTwo

/-- `static_cast<float>(pitch_shift)`. -/
noncomputable def semitonesOf (pitchShift : ℚ) : Single ℝ := .ofReal pitchShift

/-- The exponent of the ratio, `semitones / SEMITONES_PER_OCTAVE`. -/
noncomputable def exponentOf (pitchShift : ℚ) : Single ℝ :=
  Single.div (semitonesOf pitchShift) (.num ((12 : ℕ) : ℝ))

/-- The binary logarithm of the bound of the ratios. -/
noncomputable def maxExponent : ℝ := Real.logb ((2 : ℕ) : ℝ) ((6710887680 : ℕ) : ℝ)

/-- The powers of two are powers. -/
theorem isPower_powTwo : IsPower powTwo := by
  intro x hx
  cases x with
  | nan => exact absurd rfl hx
  | inf negative => cases negative with
    | false => rfl
    | true => exact le_rfl
  | num x =>
    have hpos : (0 : ℝ) ≤ 2 ^ x := Real.rpow_nonneg zero_le_two x
    exact Single.atLeast_ofReal (Single.round_nonneg hpos) (by norm_num)

/-- The semitones of an option are never a NaN. -/
theorem semitonesOf_ne_nan (pitchShift : ℚ) : semitonesOf pitchShift ≠ .nan := by
  unfold semitonesOf Single.ofReal
  split_ifs <;> nofun

/-- The ratio is small enough up to the largest exponent. -/
theorem ratioBounded_powTwo_iff {x : Single ℝ} (hx : x ≠ .nan) :
    RatioBounded (powTwo x) ↔ Single.le x (.num maxExponent) = true := by
  cases x with
  | nan => exact absurd rfl hx
  | inf negative => cases negative with
    | false => exact ⟨fun ⟨_, h, _⟩ => (nomatch h), nofun⟩
    | true => exact ⟨fun _ => rfl, fun _ => ⟨0, rfl, by norm_num⟩⟩
  | num x =>
    have hexp : Single.le (.num x) (.num maxExponent) = true ↔ (2 : ℝ) ^ x ≤ 6710887680 := by
      rw [← Real.le_logb_iff_rpow_le one_lt_two (by norm_num)]
      exact decide_eq_true_iff
    rw [hexp]
    change RatioBounded (Single.ofReal ((2 : ℝ) ^ x)) ↔ _
    have hpos : (0 : ℝ) ≤ 2 ^ x := Real.rpow_nonneg zero_le_two x
    constructor
    · rintro ⟨q, hq, hq1⟩
      by_contra hgt
      have hlarge := Single.atLeast_ofReal (round_ratio_of_lt (not_le.mp hgt)) (by norm_num)
      rw [hq] at hlarge
      have hq2 : 6710887936 ≤ q := hlarge
      linarith
    · intro hle
      have habs : |(2 : ℝ) ^ x| ≤ 2 ^ 127 := by
        rw [abs_of_nonneg hpos]
        refine hle.trans ?_
        norm_num
      refine ⟨_, Single.ofReal_eq_num habs, ?_⟩
      have hround := round_le_of_le binary32 round_ratio hle
      linarith

/-- Without a shift the exponent is zero. -/
theorem exponentOf_zero {pitchShift : ℚ} (h : semitonesOf pitchShift = .num 0) :
    Single.le (exponentOf pitchShift) (.num maxExponent) = true := by
  unfold exponentOf
  rw [h]
  change Single.le (if (12 : ℝ) = 0 then _ else Single.ofReal ((0 : ℝ) / 12)) _ = true
  rw [if_neg (by norm_num), zero_div, Single.ofReal_zero]
  exact decide_eq_true (Real.logb_nonneg one_lt_two (by norm_num))

/-- In every state that calls leave, `process` ends on a frame with an option exactly
when its exponent is at most the largest one. -/
theorem process_returns_iff {calls : List (Call (Single ℝ))}
    (hcalls : CallsMeet (fun _ => True) (fun x => ∃ pitchShift, x = semitonesOf pitchShift) calls)
    {spent : ℕ} {s : PitchShifter (Single ℝ)} {outs : List (List ℤ)}
    (hrun : runCalls floats spent (.new floats 8000 1 50) calls = .ok (s, outs)) {buffer : List ℤ}
    (hbuffer : buffer ≠ []) (pitchShift : ℚ) :
    (∃ fuel r, process floats fuel s buffer (semitonesOf pitchShift) = .ok r) ↔
      Single.le (exponentOf pitchShift) (.num maxExponent) = true := by
  have hs : HoldsSingle s := holds_of_runCalls isPower_powTwo (fun buffer semitones hmem => by
    obtain ⟨-, x, rfl⟩ := hcalls buffer semitones hmem
    exact ⟨fun _ _ => trivial, semitonesOf_ne_nan x⟩) hrun
  have hnan := semitonesOf_ne_nan pitchShift
  have hratio := ratioBounded_powTwo_iff (div_ne_nan hnan)
  constructor
  · rintro ⟨fuel, r, hr⟩
    by_contra hlarge
    have hzero : semitonesOf pitchShift ≠ .num 0 := fun h => hlarge (exponentOf_zero h)
    exact process_running isPower_powTwo hs hnan (fun h => hlarge (hratio.mp h)) hbuffer hzero r hr
  · exact fun hle => process_returns isPower_powTwo hs hnan (hratio.mpr hle) buffer

/-- The exponent of whole octaves is their number. -/
theorem exponentOf_octaves {k : ℤ} (hk : (k * 12).natAbs ≤ 2 ^ 24) :
    exponentOf (k * 12) = .num (k : ℝ) := by
  have hsemitones : semitonesOf (k * 12) = .num ((k * 12 : ℤ) : ℝ) := by
    rw [semitonesOf, ← Single.ofReal_intCast hk]
    push_cast
    rfl
  have hoctaves : Single.ofReal (((k * 12 : ℤ) : ℝ) / 12) = .num (k : ℝ) := by
    rw [← Single.ofReal_intCast (by omega : k.natAbs ≤ 2 ^ 24)]
    push_cast
    rw [mul_div_cancel_right₀ _ (by norm_num)]
  unfold exponentOf
  rw [hsemitones]
  change (if (12 : ℝ) = 0 then _ else Single.ofReal (((k * 12 : ℤ) : ℝ) / 12)) = _
  rw [if_neg (by norm_num), hoctaves]

/-- Forty octaves are above the largest exponent. -/
theorem exponentOf_480 : ¬ Single.le (exponentOf 480) (.num maxExponent) = true := by
  have hforty : exponentOf 480 = .num 40 := by
    have hvalue := exponentOf_octaves (k := 40) (by decide)
    norm_num at hvalue
    exact hvalue
  have hlt : maxExponent < 40 := by
    rw [maxExponent, Nat.cast_ofNat, Real.logb_lt_iff_lt_rpow one_lt_two (by norm_num)]
    norm_num
  rw [hforty]
  exact fun h => absurd (of_decide_eq_true h) (not_le.mpr hlt)

/-- The first frame of a new shifter: an octave up ends, forty octaves up do not. -/
theorem process_returns_iff_octave :
    (∃ fuel r, process floats fuel (.new floats 8000 1 50) [100] (semitonesOf 12) = .ok r) ∧
      ¬ ∃ fuel r, process floats fuel (.new floats 8000 1 50) [100] (semitonesOf 480) = .ok r := by
  have hrun : runCalls floats 0 (.new floats 8000 1 50) [] = .ok (.new floats 8000 1 50, []) := rfl
  have hbuffer : ([100] : List ℤ) ≠ [] := List.cons_ne_nil _ _
  have hstart := process_returns_iff (fun _ _ hmem => absurd hmem List.not_mem_nil) hrun hbuffer
  have hone : exponentOf 12 = .num 1 := by
    have hvalue := exponentOf_octaves (k := 1) (by decide)
    norm_num at hvalue
    exact hvalue
  refine ⟨(hstart 12).mpr ?_, fun h => exponentOf_480 ((hstart 480).mp h)⟩
  rw [hone]
  refine decide_eq_true ((Real.le_logb_iff_rpow_le one_lt_two (by norm_num)).mpr ?_)
  norm_num

/-- Options with a shift by 480 semitones are accepted, and a frame of a file with them
does not end. -/
theorem pitch_shift_480_running :
    ¬ ∀ (lib : Infra.Library) (data : Infra.JsonObject) (gain pitchShift : ℚ),
      Infra.createFileOptions lib data = .ok (.fileOptions gain pitchShift) →
        ∀ buffer, ∃ fuel r, process floats fuel (.new floats 8000 1 50) buffer
          (semitonesOf pitchShift) = .ok r := by
  intro h
  obtain ⟨fuel, r, hr⟩ := h Infra.standardLibrary [("gain", .double 1), ("pitch_shift", .double 480)]
    1 480 rfl [100]
  have hrun : runCalls floats 0 (.new floats 8000 1 50) [] = .ok (.new floats 8000 1 50, []) := rfl
  have hbuffer : ([100] : List ℤ) ≠ [] := List.cons_ne_nil _ _
  have hnew := holds_of_runCalls isPower_powTwo (fun _ _ hmem => absurd hmem List.not_mem_nil) hrun
  have hnan := semitonesOf_ne_nan 480
  have hlarge : ¬ RatioBounded (ratioOf powTwo (semitonesOf 480)) := fun hbounded =>
    exponentOf_480 ((ratioBounded_powTwo_iff (div_ne_nan hnan)).mp hbounded)
  exact process_running isPower_powTwo hnew hnan hlarge hbuffer
    (fun hzero => exponentOf_480 (exponentOf_zero hzero)) r hr

end HermesFlow.Pitch
