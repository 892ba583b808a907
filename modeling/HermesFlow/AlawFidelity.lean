import HermesFlow.AlawRoundTrip
import Mathlib.Data.List.Forall2

/-!
# What A-law keeps of a signal

The codes are fixed points of transcoding, so a signal is quantised once. The
samples from -7 to -1 become -248, and only they lose their place in the order
of the samples; every other sample keeps it and comes back within a quantisation
step and the 8 that the encoder takes off a negative sample.
-/

namespace HermesFlow.Audio

namespace Alaw

/-- A code comes back from its sample. -/
theorem encodeEntry_decodedSample (alawSample : UInt8) :
    encodeEntry (decodedSample alawSample) = alawSample := by
  have hcodes : ∀ code : Fin 256, encodeEntry (decodedSample (UInt8.ofNat code)) =
      UInt8.ofNat code := by decide +kernel
  have hcode := hcodes ⟨alawSample.toNat, alawSample.toNat_lt⟩
  rwa [UInt8.ofNat_toNat] at hcode

/-- Coding a sample twice gives what coding it once gives. -/
theorem roundTrip_roundTrip (x : ℤ) : roundTrip (roundTrip x) = roundTrip x := by
  rw [roundTrip, roundTrip, encodeEntry_decodedSample]

end Alaw

open Alaw

/-- Every A-law byte is the code of the sample it stands for. -/
theorem encodeAlaw_decodeAlaw (alaw : List UInt8) : encodeAlaw (decodeAlaw alaw) = alaw := by
  rw [encodeAlaw, decodeAlaw, List.map_map]
  refine (List.map_congr_left fun code _ => ?_).trans alaw.map_id
  exact encodeEntry_decodedSample code

namespace Alaw

/-- A segment of magnitudes: one step, of which both ends are multiples. -/
structure Segment (low high magnitude : ℕ) : Prop where
  /-- The magnitude is not below the segment. -/
  low_le : low ≤ magnitude
  /-- The magnitude is below the segment's end. -/
  lt_high : magnitude < high
  /-- The segment starts at a multiple of its step. -/
  dvd_low : 2 * halfStep magnitude ∣ low
  /-- The segment ends at a multiple of its step. -/
  dvd_high : 2 * halfStep magnitude ∣ high
  /-- All magnitudes of the segment have the same step. -/
  same : ∀ other, low ≤ other → other < high → halfStep other = halfStep magnitude

/-- Every magnitude of 16 bits lies in a segment. -/
theorem exists_segment {m : ℕ} (hm : m ≤ 2 ^ 15) : ∃ low high, Segment low high m := by
  rcases halfStep_cases hm with ⟨hsmall, hhalf⟩ | ⟨s, hs, -, hlow, hhigh, hhalf⟩
  · refine ⟨0, 512, Nat.zero_le m, hsmall, dvd_zero _, ?_, fun other _ hother => ?_⟩
    · rw [hhalf]
      decide
    · rw [hhalf, halfStep, if_pos hother]
  · have hstep : 2 * (8 * 2 ^ (s - 1)) = 2 ^ (3 + s) := by
      obtain ⟨t, rfl⟩ : ∃ t, s = t + 2 := ⟨s - 2, by omega⟩
      rw [Nat.add_sub_assoc (by omega)]
      ring
    refine ⟨2 ^ (7 + s), 2 ^ (8 + s), hlow, hhigh, ?_, ?_, fun other hlow' hhigh' => ?_⟩
    · rw [hhalf, hstep]
      exact pow_dvd_pow 2 (by omega)
    · rw [hhalf, hstep]
      exact pow_dvd_pow 2 (by omega)
    · rw [hhalf, halfStep_segment hs hlow' hhigh']

/-- Magnitudes with different steps lie in segments one above the other. -/
theorem Segment.high_le_low {low high low' high' m m' : ℕ} (h : Segment low high m)
    (h' : Segment low' high' m') (hle : m ≤ m') (hne : halfStep m ≠ halfStep m') : high ≤ low' := by
  by_contra hlt
  -- the larger of the lower ends would lie in both
  have hlow := h.low_le
  have hlow' := h'.low_le
  have hhigh := h.lt_high
  have hhigh' := h'.lt_high
  have hsame := h.same (max low low') (le_max_left _ _) (max_lt (by omega) (by omega))
  have hsame' := h'.same (max low low') (le_max_right _ _) (max_lt (by omega) (by omega))
  exact hne (hsame.symm.trans hsame')

/-- No step is empty. -/
theorem halfStep_pos (m : ℕ) : 0 < halfStep m := by
  unfold halfStep
  split <;> positivity

/-- A magnitude becomes the midpoint of its step. -/
theorem quantized_natCast {m : ℕ} (hm : m < 2 ^ 15) :
    quantized m = (2 * halfStep m * (m / (2 * halfStep m)) + halfStep m : ℕ) := by
  rw [quantized_eq (by omega) (by omega), Int.natAbs_natCast, Int.emod_def]
  push_cast
  ring

/-- The step that holds a magnitude ends within its segment. -/
theorem Segment.step_le_high {low high m : ℕ} (h : Segment low high m) :
    2 * halfStep m * (m / (2 * halfStep m)) + 2 * halfStep m ≤ high := by
  obtain ⟨q, hq⟩ := h.dvd_high
  have hlt : m / (2 * halfStep m) < q := Nat.div_lt_of_lt_mul (hq ▸ h.lt_high)
  calc 2 * halfStep m * (m / (2 * halfStep m)) + 2 * halfStep m
      = 2 * halfStep m * (m / (2 * halfStep m) + 1) := (Nat.mul_succ _ _).symm
    _ ≤ 2 * halfStep m * q := Nat.mul_le_mul_left _ hlt
    _ = high := hq.symm

/-- The step that holds a magnitude starts within its segment. -/
theorem Segment.low_le_step {low high m : ℕ} (h : Segment low high m) :
    low ≤ 2 * halfStep m * (m / (2 * halfStep m)) := by
  have hpos := halfStep_pos m
  obtain ⟨q, hq⟩ := h.dvd_low
  have hle : q ≤ m / (2 * halfStep m) := by
    rw [Nat.le_div_iff_mul_le (by omega), Nat.mul_comm]
    exact hq ▸ h.low_le
  exact hq.trans_le (Nat.mul_le_mul_left _ hle)

/-- The steps of the encoder are in order. -/
theorem quantized_mono {m m' : ℕ} (hle : m ≤ m') (hlt : m' < 2 ^ 15) :
    quantized m ≤ quantized m' := by
  rw [quantized_natCast (hle.trans_lt hlt), quantized_natCast hlt]
  refine Int.ofNat_le.mpr ?_
  by_cases hsame : halfStep m = halfStep m'
  · rw [hsame]
    exact Nat.add_le_add_right (Nat.mul_le_mul_left _ (Nat.div_le_div_right hle)) _
  · obtain ⟨low, high, hm⟩ := exists_segment (hle.trans hlt.le)
    obtain ⟨low', high', hm'⟩ := exists_segment hlt.le
    have hsteps := hm.step_le_high
    have hsteps' := hm'.low_le_step
    have hends := hm.high_le_low hm' hle hsame
    omega

/-- Which magnitudes of negative samples come out above the 248 of the samples next to 0. -/
theorem quantized_lt_iff {m : ℕ} (hm : m < 2 ^ 15) : quantized m < 248 ↔ m < 240 := by
  have hat : quantized (240 : ℕ) = 248 := by rw [quantized_natCast (by decide)]; rfl
  have hbelow : quantized (239 : ℕ) = 232 := by rw [quantized_natCast (by decide)]; rfl
  constructor
  · intro hlt
    by_contra hge
    exact absurd (hat.symm.trans_le (quantized_mono (not_lt.mp hge) hm)) (not_le.mpr hlt)
  · intro hlt
    have hle : quantized m ≤ quantized (239 : ℕ) :=
      quantized_mono (Nat.le_sub_one_of_lt hlt) (by decide)
    omega

/-- Two samples keep their order, unless the upper one is next to 0 and the lower one is a small
negative one. -/
theorem roundTrip_le_iff {x y : ℤ} (hx : FitsInt16 x) (hy : FitsInt16 y) (hle : x ≤ y) :
    roundTrip x ≤ roundTrip y ↔ ¬(-248 < x ∧ x < -7 ∧ -7 ≤ y ∧ y < 0) := by
  obtain ⟨hlow, hhigh⟩ := hx
  by_cases hy0 : 0 ≤ y
  · refine iff_of_true ?_ (by omega)
    by_cases hx0 : 0 ≤ x
    · obtain ⟨m, rfl⟩ := Int.eq_ofNat_of_zero_le hx0
      obtain ⟨m', rfl⟩ := Int.eq_ofNat_of_zero_le hy0
      rw [roundTrip_eq ⟨hlow, hhigh⟩, roundTrip_eq hy, if_pos hx0, if_pos hy0]
      exact quantized_mono (Int.ofNat_le.mp hle) (by exact_mod_cast hy.2)
    · have hneg := (sign_roundTrip ⟨hlow, hhigh⟩).2 (by omega)
      have hpos := (sign_roundTrip hy).1 hy0
      omega
  · rw [roundTrip_eq ⟨hlow, hhigh⟩, roundTrip_eq hy, if_neg hy0, if_neg (by omega)]
    by_cases hx8 : x ≤ -8
    · obtain ⟨m, hm⟩ : ∃ m : ℕ, -x - 8 = m := ⟨(-x - 8).toNat, by omega⟩
      have hlt : m < 2 ^ 15 := by omega
      rw [hm]
      by_cases hy8 : y ≤ -8
      · obtain ⟨m', hm'⟩ : ∃ m' : ℕ, -y - 8 = m' := ⟨(-y - 8).toNat, by omega⟩
        rw [hm']
        have hmono := quantized_mono (show m' ≤ m by omega) hlt
        exact iff_of_true (by omega) (by omega)
      · have hnext : quantized (-y - 8) = 248 := quantized_neg (by omega) (by omega)
        have hiff := quantized_lt_iff hlt
        rw [hnext]
        omega
    · have hnext : quantized (-y - 8) = 248 := quantized_neg (by omega) (by omega)
      have hnext' : quantized (-x - 8) = 248 := quantized_neg (by omega) (by omega)
      rw [hnext, hnext']
      exact iff_of_true le_rfl (by omega)

/-- The edges: -7 stays below nothing down to -247, and above -248. -/
theorem roundTrip_le_iff_edges :
    roundTrip (-248) ≤ roundTrip (-7) ∧ ¬roundTrip (-247) ≤ roundTrip (-7) :=
  ⟨(roundTrip_le_iff (by decide) (by decide) (by decide)).mpr (by decide),
    mt (roundTrip_le_iff (by decide) (by decide) (by decide)).mp (by decide)⟩

/-- A sample is heard as another one within a quantisation step and the 8 that the encoder takes
off a negative sample, or it is one of those next to 0. -/
def HeardAs (sample heard : ℤ) : Prop :=
  |heard - sample| ≤ halfStep sample.natAbs + 8 ∨ -7 ≤ sample ∧ sample < 0 ∧ heard = -248

instance (sample heard : ℤ) : Decidable (HeardAs sample heard) :=
  inferInstanceAs (Decidable (_ ∨ _))

/-- Steps grow with the magnitude. -/
theorem halfStep_mono {m m' : ℕ} (hle : m ≤ m') : halfStep m ≤ halfStep m' := by
  unfold halfStep
  by_cases hm' : m' < 512
  · rw [if_pos (hle.trans_lt hm'), if_pos hm']
  · rw [if_neg hm']
    split
    · exact Nat.le_mul_of_pos_right 8 (Nat.two_pow_pos _)
    · exact Nat.mul_le_mul_left 8
        (Nat.pow_le_pow_right (by decide) (Nat.sub_le_sub_right (Nat.log_mono_right hle) 8))

/-- What comes back is the middle of the sample's step. -/
theorem heardAs_roundTrip {x : ℤ} (hx : FitsInt16 x) : HeardAs x (roundTrip x) := by
  rw [roundTrip_eq hx]
  obtain ⟨hlow, hhigh⟩ := hx
  by_cases hsign : 0 ≤ x
  · have herror := error_nonneg hsign hhigh
    rw [if_pos hsign]
    exact .inl (by omega)
  · rw [if_neg hsign]
    by_cases hsmall : -7 ≤ x
    · exact .inr ⟨hsmall, by omega, by rw [quantized_neg (by omega) (by omega)]⟩
    · have herror := error_nonneg (show 0 ≤ -x - 8 by omega) (by omega)
      have hstep := halfStep_mono (show (-x - 8).natAbs ≤ x.natAbs by omega)
      left
      rw [abs_le] at herror ⊢
      omega

end Alaw

/-- What is heard of any samples. -/
theorem heardAs_decodeAlaw {xs : List ℤ} (hxs : ∀ x ∈ xs, FitsInt16 x) :
    List.Forall₂ HeardAs xs (decodeAlaw (encodeAlaw xs)) := by
  rw [decodeAlaw_encodeAlaw, List.forall₂_map_right_iff]
  exact List.forall₂_same.mpr fun x hx => heardAs_roundTrip (hxs x hx)

/-- Samples read from bytes fit 16 bits. -/
theorem fitsInt16_asSamples (bytes : List UInt8) : ∀ x ∈ asSamples bytes, FitsInt16 x := by
  induction bytes using asSamples.induct with
  | case1 low high bytes ih =>
    rw [asSamples]
    refine List.forall_mem_cons.mpr ⟨?_, ih⟩
    constructor
    · exact Int.le_bmod (by decide)
    · exact Int.bmod_lt (by decide)
  | case2 bytes hshort =>
    intro x hx
    rw [asSamples] at hx
    · cases hx
    · exact hshort

end HermesFlow.Audio
