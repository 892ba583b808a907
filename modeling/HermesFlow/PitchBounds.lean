import HermesFlow.PitchRun
import HermesFlow.Truncation
import Mathlib.Algebra.Order.BigOperators.Group.List
import Mathlib.Analysis.Convex.Hull
import Mathlib.Data.Rat.Floor
import Mathlib.Tactic.FieldSimp

/-!
# Bounds of the pitch shifter

In exact arithmetic the pointer and the phase stay in range, the weights of the two
heads are those of a convex combination, and so is what is mixed from the buffer: a
sample is never larger than what went in, and the clamp changes nothing.
-/

namespace HermesFlow.Pitch

open BoundedLoop Truncation

variable {K : Type} [Field K] [LinearOrder K] [FloorRing K]

/-- Exact numbers, with any function for the power of two. -/
def exactNumbers (pow : K → K) : Numbers K where
  add := (· + ·)
  sub := (· - ·)
  mul := (· * ·)
  div := (· / ·)
  abs := abs
  lt a b := decide (a < b)
  le a b := decide (a ≤ b)
  ofInt n := n
  half := 1 / ((2 : ℕ) : K)
  toInt := toInt
  pow

section Heads

variable {pow : K → K} {short : Prop} {fuel : ℕ}

/-- The weight of a phase is its distance from the ends. -/
theorem weight_eq (p : K) : getCrossfadeWeight (exactNumbers pow) p = 1 - |2 * p - 1| := by
  change ((1 : ℤ) : K) - |((2 : ℤ) : K) * p - ((1 : ℤ) : K)| = _
  push_cast
  rfl

variable [IsStrictOrderedRing K]

/-- The second phase is half a turn away. -/
theorem secondPhase_eq (p : K) :
    secondPhase (exactNumbers pow) p = if 1 / 2 ≤ p then p - 1 / 2 else p + 1 / 2 := by
  change (if decide (((1 : ℤ) : K) ≤ p + 1 / ((2 : ℕ) : K)) = true
    then p + 1 / ((2 : ℕ) : K) - ((1 : ℤ) : K) else p + 1 / ((2 : ℕ) : K)) = _
  rw [Int.cast_one, Nat.cast_ofNat]
  by_cases h : 1 / 2 ≤ p
  · rw [if_pos h, if_pos (decide_eq_true (by linarith))]
    ring
  · rw [if_neg h, if_neg]
    rw [decide_eq_true_eq]
    linarith

/-- The phases of both heads are in range. -/
theorem secondPhase_mem (pow : K → K) {p : K} (h : 0 ≤ p ∧ p < 1) :
    0 ≤ secondPhase (exactNumbers pow) p ∧ secondPhase (exactNumbers pow) p < 1 := by
  rw [secondPhase_eq]
  split_ifs with hp
  · constructor <;> linarith
  · constructor <;> linarith

/-- The weights of the heads are those of a convex combination. -/
theorem weights_convex (pow : K → K) {p : K} (h : 0 ≤ p ∧ p < 1) :
    0 ≤ getCrossfadeWeight (exactNumbers pow) p ∧
      0 ≤ getCrossfadeWeight (exactNumbers pow) (secondPhase (exactNumbers pow) p) ∧
      getCrossfadeWeight (exactNumbers pow) p +
        getCrossfadeWeight (exactNumbers pow) (secondPhase (exactNumbers pow) p) = 1 := by
  rw [weight_eq, weight_eq, secondPhase_eq]
  by_cases hp : 1 / 2 ≤ p
  · rw [if_pos hp, abs_of_nonneg (by linarith), abs_of_nonpos (by linarith)]
    refine ⟨by linarith, by linarith, by ring⟩
  · rw [if_neg hp, abs_of_nonpos (by linarith), abs_of_nonneg (by linarith)]
    refine ⟨by linarith, by linarith, by ring⟩

/-- A position between two cells reads between their samples. -/
theorem runs_interpolate_exact {s : PitchShifter K}
    (hlength : s.delayBuffer.length = s.bufferSize * s.channels) {c : ℕ} (hc : c < s.channels)
    {readPos : K} (h0 : 0 ≤ readPos) (h1 : readPos < s.bufferSize) :
    Runs short (· ∈ convexHull K {v | v ∈ s.delayBuffer})
      (interpolate (exactNumbers pow) s readPos c) := by
  have hfloor0 : 0 ≤ toInt readPos := by
    rw [toInt_of_nonneg h0]
    exact Int.floor_nonneg.mpr h0
  have hfloor1 : toInt readPos < s.bufferSize := by
    rw [toInt_of_nonneg h0, Int.floor_lt]
    exact_mod_cast h1
  refine (runs_interpolate hlength hc hfloor0 hfloor1).mono ?_
  rintro v ⟨a, ha, b, hb, rfl⟩
  have hfract0 : 0 ≤ readPos - toInt readPos := by
    rw [toInt_of_nonneg h0]
    exact sub_nonneg.mpr (Int.floor_le readPos)
  have hfract1 : readPos - toInt readPos ≤ 1 := by
    rw [toInt_of_nonneg h0]
    linarith [Int.lt_floor_add_one readPos]
  have hmem := (convex_convexHull K {v | v ∈ s.delayBuffer})
    (subset_convexHull K _ ha) (subset_convexHull K _ hb)
    (sub_nonneg.mpr hfract1) hfract0 (by ring)
  have heq : (1 - (readPos - toInt readPos)) • a + (readPos - toInt readPos) • b =
      a + (readPos - toInt readPos) * (b - a) := by
    rw [smul_eq_mul, smul_eq_mul]
    ring
  rw [heq] at hmem
  exact hmem

/-- A head that is at most the buffer behind reads between samples: its first loop turns
at most once and its second never. -/
theorem runs_readInterpolated {s : PitchShifter K}
    (hlength : s.delayBuffer.length = s.bufferSize * s.channels) (hptr : s.writePtr < s.bufferSize)
    {c : ℕ} (hc : c < s.channels) {delay : K} (h0 : 0 ≤ delay) (h1 : delay ≤ s.bufferSize)
    (hshort : fuel ≤ 1 → short) :
    Runs short (· ∈ convexHull K {v | v ∈ s.delayBuffer})
      (readInterpolated (exactNumbers pow) fuel s delay c) := by
  have hsize : (0 : K) < s.bufferSize := by exact_mod_cast Nat.zero_lt_of_lt hptr
  have hptr0 : (0 : K) ≤ s.writePtr := Nat.cast_nonneg _
  have hptr' : (s.writePtr : K) < s.bufferSize := by exact_mod_cast hptr
  have hwrap : Runs short (fun x : K => x < (s.bufferSize : K) ∧ decide (x < ((0 : ℤ) : K)) = false)
      (whileLoop (fun x : K => decide (x < ((0 : ℤ) : K))) (fun x => x + (s.bufferSize : ℤ)) fuel
        ((s.writePtr : ℤ) - delay)) := by
    refine runs_whileLoop_once (fun _ => ?_) (fun hcond => ?_) hshort
    · push_cast
      linarith
    · have hneg : (s.writePtr : ℤ) - delay < (0 : K) := by simpa using hcond
      push_cast at hneg ⊢
      exact ⟨by linarith, decide_eq_false (by linarith)⟩
  refine hwrap.bind fun x hx => ?_
  obtain ⟨hx1, hx0⟩ := hx
  have hx0' : 0 ≤ x := by simpa using hx0
  have hstay : Runs short (fun y : K => (0 ≤ y ∧ y < (s.bufferSize : K)) ∧
      decide (((s.bufferSize : ℤ) : K) ≤ y) = false)
      (whileLoop (fun x : K => decide (((s.bufferSize : ℤ) : K) ≤ x)) (fun x => x - (s.bufferSize : ℤ))
        fuel x) := by
    refine runs_whileLoop_once (fun _ => ⟨hx0', hx1⟩) (fun hcond => ?_) hshort
    have hle : (s.bufferSize : K) ≤ x := by simpa using hcond
    exact absurd hle (not_le.mpr hx1)
  refine hstay.bind fun y hy => ?_
  exact runs_interpolate_exact hlength hc hy.1.1 hy.1.2

/-- What is mixed is a convex combination of what is stored. -/
theorem runs_mixedOut {s : PitchShifter K} {channels maxDelay : ℕ} {Value : K → Prop}
    (h : Holds channels maxDelay (fun p => 0 ≤ p ∧ p < 1) Value s) {c : ℕ} (hc : c < channels)
    (hshort : fuel ≤ 1 → short) :
    Runs short (· ∈ convexHull K {v | v ∈ s.delayBuffer})
      (mixedOut (exactNumbers pow) fuel s (calculateCrossfadeParameters (exactNumbers pow) s) c) := by
  have hdelay {p : K} (hp : 0 ≤ p ∧ p < 1) :
      0 ≤ p * ((s.maxDelaySamples : ℤ) : K) ∧ p * ((s.maxDelaySamples : ℤ) : K) ≤ s.bufferSize := by
    have hmax : (0 : K) ≤ s.maxDelaySamples := Nat.cast_nonneg _
    have hsize : (s.bufferSize : K) = s.maxDelaySamples * 2 := by
      rw [h.bufferSize_eq, h.maxDelay_eq]
      push_cast
      rfl
    rw [hsize, Int.cast_natCast]
    exact ⟨mul_nonneg hp.1 hmax, by nlinarith [hp.2]⟩
  have hphase2 := secondPhase_mem pow h.phase
  obtain ⟨hw1, hw2, hsum⟩ := weights_convex pow h.phase
  have hc' : c < s.channels := h.channels_eq ▸ hc
  refine (runs_readInterpolated h.length_eq h.writePtr_lt hc' (hdelay h.phase).1 (hdelay h.phase).2
    hshort).bind fun out1 h1 => ?_
  refine (runs_readInterpolated h.length_eq h.writePtr_lt hc' (hdelay hphase2).1 (hdelay hphase2).2
    hshort).bind fun out2 h2 => ?_
  have hmem := (convex_convexHull K {v | v ∈ s.delayBuffer}) h1 h2 hw1 hw2 hsum
  rw [smul_eq_mul, smul_eq_mul, mul_comm _ out1, mul_comm _ out2] at hmem
  exact .ok hmem

/-- The phase is wrapped into its range, by as many turns as the increment has units. -/
theorem runs_advancePhase {p rate increment : K} (hp : 0 ≤ p ∧ p < 1) (hinc : 0 ≤ increment)
    (hshort : fuel ≤ ⌈increment⌉₊ + 1 → short) :
    Runs short (fun p => 0 ≤ p ∧ p < 1)
      (advancePhase (exactNumbers pow) fuel p rate increment) := by
  have hceil : increment ≤ ⌈increment⌉₊ := Nat.le_ceil increment
  unfold advancePhase
  split
  · -- downwards: as many turns as there are units below zero
    refine (runs_whileLoop (I := fun x : K => x < 1) (fun x : K => ⌈-x⌉₊) (fun x hx hcond => ?_)
      ?_ fun hfuel => hshort ?_).mono fun x hx => ?_
    · have hneg : x < 0 := by simpa [exactNumbers] using hcond
      change x + ((1 : ℤ) : K) < 1 ∧ ⌈-(x + ((1 : ℤ) : K))⌉₊ < ⌈-x⌉₊
      rw [Int.cast_one]
      refine ⟨by linarith, ?_⟩
      rw [Nat.lt_ceil]
      rcases le_total 0 (-(x + 1)) with hmore | hlast
      · linarith [Nat.ceil_lt_add_one hmore]
      · rw [Nat.ceil_eq_zero.mpr hlast, Nat.cast_zero]
        linarith
    · change p - increment < 1
      linarith [hp.2]
    · refine hfuel.trans ((Nat.ceil_le.mpr ?_).trans (Nat.le_succ _))
      change -(p - increment) ≤ _
      linarith [hp.1]
    · have h0 : 0 ≤ x := by simpa [exactNumbers] using hx.2
      exact ⟨h0, hx.1⟩
  · refine (runs_whileLoop (I := fun x : K => 0 ≤ x) (fun x : K => ⌊x⌋₊) (fun x hx hcond => ?_)
      ?_ fun hfuel => hshort ?_).mono fun x hx => ?_
    · have hle : 1 ≤ x := by simpa [exactNumbers] using hcond
      change 0 ≤ x - ((1 : ℤ) : K) ∧ ⌊x - ((1 : ℤ) : K)⌋₊ < ⌊x⌋₊
      rw [Int.cast_one]
      refine ⟨by linarith, ?_⟩
      have hpos : 0 < ⌊x⌋₊ := Nat.floor_pos.mpr hle
      rw [Nat.floor_sub_one]
      omega
    · change 0 ≤ p + increment
      linarith [hp.1]
    · refine hfuel.trans (Nat.floor_le_of_le ?_)
      change p + increment ≤ _
      push_cast
      linarith [hp.2]
    · have hlt : x < 1 := by simpa [exactNumbers] using hx.2
      exact ⟨hx.1, hlt⟩

end Heads

/-- The range of the samples. -/
def IsSample (n : ℤ) : Prop := -32768 ≤ n ∧ n ≤ 32767

/-- A phase in its range. -/
def IsPhase (p : K) : Prop := 0 ≤ p ∧ p < 1

/-- The turns of the loop that wraps the phase, in a call with an option. -/
noncomputable def turns (pow : K → K) (s : PitchShifter K) : Call K → ℕ
  | .process _ semitones => ⌈phaseIncrement (exactNumbers pow) s semitones⌉₊ + 1
  | .reset => 0

/-- A bound of the fuel that calls use. -/
noncomputable def enoughFuel (pow : K → K) (s : PitchShifter K) (calls : List (Call K)) : ℕ :=
  (calls.map (turns pow s)).sum + 1

/-- The state after calls and the first frames of another call. -/
def Visits (N : Numbers K) (fuel : ℕ) (s₀ : PitchShifter K) (calls : List (Call K))
    (s : PitchShifter K) : Prop :=
  ∃ s₁ outs buffer semitones frames out, runCalls N fuel s₀ calls = .ok (s₁, outs) ∧
    (∀ x ∈ buffer, IsSample x) ∧ frames * s₁.channels ≤ buffer.length ∧
    processFrames N clampSample fuel (delayChangeRate N semitones) (phaseIncrement N s₁ semitones)
      frames s₁ buffer = .ok (s, out)

/-- A shifter in its ranges: both weights are those of a convex combination, and so is
every sample of a channel, whatever the buffer stores. -/
structure InRange (pow : K → K) (s : PitchShifter K) : Prop where
  /-- The position to write at lies in the buffer. -/
  writePtr_lt : s.writePtr < s.bufferSize
  /-- The phase is one. -/
  phase : IsPhase s.phase
  /-- The weights are those of a convex combination. -/
  weights : 0 ≤ (calculateCrossfadeParameters (exactNumbers pow) s).weight1 ∧
    0 ≤ (calculateCrossfadeParameters (exactNumbers pow) s).weight2 ∧
    (calculateCrossfadeParameters (exactNumbers pow) s).weight1 +
      (calculateCrossfadeParameters (exactNumbers pow) s).weight2 = 1
  /-- Every sample is a combination of what is stored, cut to an integer. -/
  sample : ∀ fuel delayBuffer frame c s' frame', delayBuffer.length = s.delayBuffer.length →
    (∀ v ∈ delayBuffer, -32768 ≤ v ∧ v ≤ 32767) → IsFrame s.channels IsSample frame →
    c < s.channels →
    processChannel (exactNumbers pow) clampSample fuel
      (calculateCrossfadeParameters (exactNumbers pow) s) ({ s with delayBuffer }, frame) c =
        .ok (s', frame') →
    ∃ m ∈ convexHull K {v | v ∈ s'.delayBuffer}, frame'[c]? = some (toInt m)

section Runs

variable {pow : K → K} {fuel channels maxDelay : ℕ} {short : Prop} {lo hi : ℤ}

/-- Every call turns no more than the fuel of all calls allows. -/
theorem turns_lt_enoughFuel {s : PitchShifter K} {calls : List (Call K)} {buffer : List ℤ}
    {semitones : K} (h : .process buffer semitones ∈ calls) :
    ⌈phaseIncrement (exactNumbers pow) s semitones⌉₊ + 1 ≤ enoughFuel pow s calls := by
  have hle := List.le_sum_of_mem (List.mem_map_of_mem (f := turns pow s) h)
  exact hle.trans (Nat.le_succ _)

variable [IsStrictOrderedRing K]

/-- Mixing keeps any range around zero, and the clamp keeps what is in it. -/
theorem mixes_exact (pow : K → K) (channels maxDelay : ℕ) (hlo : -32768 ≤ lo ∧ lo ≤ 0) (hhi : 0 ≤ hi ∧ hi ≤ 32767)
    (hshort : fuel ≤ 1 → short) :
    Mixes (exactNumbers pow) fuel channels maxDelay short IsPhase
      (fun v => (lo : K) ≤ v ∧ v ≤ (hi : K)) (fun n => lo ≤ n ∧ n ≤ hi) clampSample id where
  value n hn := ⟨Int.cast_le.mpr hn.1, Int.cast_le.mpr hn.2⟩
  zero := by
    change ((lo : K) ≤ ((0 : ℤ) : K) ∧ ((0 : ℤ) : K) ≤ (hi : K)) ∧ IsPhase ((0 : ℤ) : K)
    rw [Int.cast_zero]
    exact ⟨⟨Int.cast_nonpos.mpr hlo.2, Int.cast_nonneg hhi.1⟩, le_rfl, zero_lt_one⟩
  mixed s hs c hc := by
    refine (runs_mixedOut hs hc hshort).mono fun m hm => ?_
    have hmem : m ∈ Set.Icc (lo : K) (hi : K) :=
      convexHull_min (fun v hv => hs.stored v hv) (convex_Icc _ _) hm
    change lo ≤ toInt m ∧ toInt m ≤ hi
    rw [← toInt_intCast (K := K) lo, ← toInt_intCast (K := K) hi]
    exact ⟨toInt_mono hmem.1, toInt_mono hmem.2⟩
  finish n hn := by
    have hclamp : clampSample n = n := by
      unfold clampSample
      omega
    rw [hclamp]
    exact ⟨hn, rfl⟩

/-- A shifter in range mixes in range. -/
theorem inRange_of_holds {s : PitchShifter K}
    (h : Holds channels maxDelay IsPhase
      (fun v => ((-32768 : ℤ) : K) ≤ v ∧ v ≤ ((32767 : ℤ) : K)) s) :
    InRange pow s where
  writePtr_lt := h.writePtr_lt
  phase := h.phase
  weights := weights_convex pow h.phase
  sample fuel delayBuffer frame c s' frame' hlength hstored hframe hc hrun := by
    have hmixes : Mixes (exactNumbers pow) fuel channels maxDelay (fuel ≤ 1) IsPhase
        (fun v => ((-32768 : ℤ) : K) ≤ v ∧ v ≤ ((32767 : ℤ) : K)) IsSample clampSample id :=
      mixes_exact pow channels maxDelay (by decide) (by decide) id
    have hs : Holds channels maxDelay IsPhase
        (fun v => ((-32768 : ℤ) : K) ≤ v ∧ v ≤ ((32767 : ℤ) : K)) { s with delayBuffer } :=
      { h with
        length_eq := hlength.trans h.length_eq
        stored := fun v hv => by exact_mod_cast hstored v hv }
    rw [h.channels_eq] at hframe hc
    obtain ⟨⟨hs', hparams⟩, -, m, hm, hget⟩ :=
      (agrees_processChannel hmixes hs rfl hframe hc).1.of_ok hrun
    rw [hparams] at hm
    have hmem := (runs_mixedOut hs' hc fun hfuel : fuel ≤ 1 => hfuel).of_ok hm
    have hclamp := (hmixes.finish _ ((hmixes.mixed s' hs' c hc).of_ok hm)).2
    rw [hclamp] at hget
    exact ⟨m, hmem, hget⟩

/-- The phase only moves forward. -/
theorem increment_nonneg (s : PitchShifter K) (semitones : K) :
    0 ≤ phaseIncrement (exactNumbers pow) s semitones := by
  change 0 ≤ |delayChangeRate (exactNumbers pow) semitones| / ((s.maxDelaySamples : ℤ) : K)
  rw [Int.cast_natCast]
  positivity

/-- The run of calls. -/
theorem agrees_runCalls_exact (hlo : -32768 ≤ lo ∧ lo ≤ 0) (hhi : 0 ≤ hi ∧ hi ≤ 32767)
    {s₀ : PitchShifter K}
    (h₀ : Holds channels maxDelay IsPhase (fun v => (lo : K) ≤ v ∧ v ≤ (hi : K)) s₀)
    {calls : List (Call K)}
    (hcalls : CallsMeet (fun n => lo ≤ n ∧ n ≤ hi) (fun _ => True) calls) :
    Agrees (fuel ≤ enoughFuel pow s₀ calls)
      (fun state => Holds channels maxDelay IsPhase (fun v => (lo : K) ≤ v ∧ v ≤ (hi : K)) state.1 ∧
        ∀ buffer ∈ state.2, ∀ x ∈ buffer, lo ≤ x ∧ x ≤ hi)
      (runCalls (exactNumbers pow) fuel s₀ calls)
      (runCallsWith (exactNumbers pow) id fuel s₀ calls) := by
  have hone : fuel ≤ 1 → fuel ≤ enoughFuel pow s₀ calls := fun h =>
    h.trans (Nat.le_add_left 1 _)
  have hmeet : CallsMeet (fun n => lo ≤ n ∧ n ≤ hi)
      (fun x => ⌈phaseIncrement (exactNumbers pow) s₀ x⌉₊ + 1 ≤ enoughFuel pow s₀ calls) calls :=
    fun buffer semitones hmem => ⟨(hcalls buffer semitones hmem).1, turns_lt_enoughFuel hmem⟩
  refine agrees_runCallsWith (mixes_exact pow channels maxDelay hlo hhi hone)
    (fun s semitones hs hoption p hp => ?_) calls s₀ h₀ hmeet
  have hsame : phaseIncrement (exactNumbers pow) s semitones =
      phaseIncrement (exactNumbers pow) s₀ semitones := by
    unfold phaseIncrement
    rw [hs.maxDelay_eq, h₀.maxDelay_eq]
  rw [hsame]
  exact runs_advancePhase hp (increment_nonneg s₀ semitones) fun hfuel => hfuel.trans hoption

end Runs

/-- Every run of calls, with buffers of samples and with any options. No access is out of
bounds and there is a result. The clamp is the identity; every state on the way is in range;
no sample is larger than the largest of the inputs. -/
theorem runCalls_inRange [IsStrictOrderedRing K] (pow : K → K) {sampleRate channels windowMs : ℕ}
    (hmax : 1 ≤ sampleRate * windowMs / 1000) {calls : List (Call K)}
    (hcalls : CallsMeet IsSample (fun _ => True) calls) :
    let N := exactNumbers pow
    let s₀ := PitchShifter.new N sampleRate channels windowMs
    (∀ fuel, runCalls N fuel s₀ calls ≠ .error .outOfBounds) ∧
    (∀ fuel > enoughFuel pow s₀ calls, ∃ s outs, runCalls N fuel s₀ calls = .ok (s, outs)) ∧
    (∀ fuel, runCallsWith N id fuel s₀ calls = runCalls N fuel s₀ calls) ∧
    (∀ fuel s, Visits N fuel s₀ calls s → InRange pow s) ∧
    ∀ lo hi, -32768 ≤ lo ∧ lo ≤ 0 → 0 ≤ hi ∧ hi ≤ 32767 →
      CallsMeet (fun n => lo ≤ n ∧ n ≤ hi) (fun _ => True) calls →
      ∀ fuel s outs, runCalls N fuel s₀ calls = .ok (s, outs) →
        ∀ buffer ∈ outs, ∀ x ∈ buffer, lo ≤ x ∧ x ≤ hi := by
  intro N s₀
  have hnew (lo hi : ℤ) (hlo : -32768 ≤ lo ∧ lo ≤ 0) (hhi : 0 ≤ hi ∧ hi ≤ 32767) :
      Holds channels (sampleRate * windowMs / 1000) IsPhase
        (fun v => (lo : K) ≤ v ∧ v ≤ (hi : K)) s₀ :=
    holds_new hmax (mixes_exact pow channels 0 hlo hhi fun h : 0 ≤ 1 => h).zero
  have hall (fuel : ℕ) : Agrees (fuel ≤ enoughFuel pow s₀ calls) _ (runCalls N fuel s₀ calls)
      (runCallsWith N id fuel s₀ calls) :=
    agrees_runCalls_exact (by decide) (by decide) (hnew (-32768) 32767 (by decide) (by decide)) hcalls
  refine ⟨fun fuel => (hall fuel).1.ne_outOfBounds, fun fuel hfuel => ?_,
    fun fuel => (hall fuel).2.symm, ?_, ?_⟩
  · obtain ⟨⟨s, outs⟩, hrun, -⟩ := (hall fuel).1.result (not_le.mpr hfuel)
    exact ⟨s, outs, hrun⟩
  · rintro fuel s ⟨s₁, outs, buffer, semitones, frames, out, hrun, hbuffer, hframes, hs⟩
    have hs₁ := ((hall fuel).1.of_ok hrun).1
    have hmixes : Mixes N fuel channels (sampleRate * windowMs / 1000) True IsPhase
        (fun v => ((-32768 : ℤ) : K) ≤ v ∧ v ≤ ((32767 : ℤ) : K)) IsSample clampSample id :=
      mixes_exact pow channels _ (by decide) (by decide) fun _ => trivial
    rw [hs₁.channels_eq] at hframes
    have hadvance (p : K) (hp : IsPhase p) : Runs True IsPhase
        (advancePhase N fuel p (delayChangeRate N semitones) (phaseIncrement N s₁ semitones)) :=
      runs_advancePhase hp (increment_nonneg s₁ semitones) fun _ => trivial
    have hafter := agrees_processFrames hmixes hadvance frames s₁ buffer hs₁ hframes hbuffer
    exact inRange_of_holds (hafter.1.of_ok hs).1
  · intro lo hi hlo hhi hmeet fuel s outs hrun
    exact ((agrees_runCalls_exact hlo hhi (hnew lo hi hlo hhi) hmeet).1.of_ok hrun).2

/-- Three frames with a rise by an octave, and two calls after it. -/
theorem runCalls_inRange_octave :
    let N := exactNumbers (K := ℚ) fun _ => 2
    let calls : List (Call ℚ) := [.process [100, -200, 300] 12, .reset, .process [7] 0]
    (runCalls N 5 (PitchShifter.new N 1000 1 2) calls).toOption.map Prod.snd = some [[0, 100, -200], [7]] ∧
      ∀ fuel s outs, runCalls N fuel (PitchShifter.new N 1000 1 2) calls = .ok (s, outs) →
        ∀ buffer ∈ outs, ∀ x ∈ buffer, -200 ≤ x ∧ x ≤ 300 := by
  intro N calls
  have hmeet (lo hi : ℤ) (h : ∀ x ∈ [100, -200, 300, 7], lo ≤ x ∧ x ≤ hi) :
      CallsMeet (fun n => lo ≤ n ∧ n ≤ hi) (fun _ => True) calls := by
    intro buffer semitones hmem
    simp only [calls, List.mem_cons, List.not_mem_nil, Call.process.injEq, reduceCtorEq,
      or_false, false_or] at hmem
    rcases hmem with ⟨rfl, -⟩ | ⟨rfl, -⟩
    · exact ⟨fun x hx => h x (List.mem_append_left [7] hx), trivial⟩
    · exact ⟨fun x hx => h x (List.mem_append_right [100, -200, 300] hx), trivial⟩
  exact ⟨by decide +kernel, (runCalls_inRange (fun _ => 2) (by decide) (hmeet (-32768) 32767 (by decide))).2.2.2.2
    (-200) 300 (by decide) (by decide) (hmeet _ _ (by decide))⟩

end HermesFlow.Pitch
