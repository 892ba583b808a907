import HermesFlow.Limiter
import HermesFlow.MixerSum
import Mathlib.Analysis.Complex.ExponentialBounds

/-!
# Soft clipping

`soft_clip` with the real hyperbolic tangent and exact arithmetic. Its curve
does not meet the identity at the limit: the samples from 30001 on are bent to
some 23700 and more, so a sample beyond the limit can come out below one within
it. The inverse of the curve tells which pairs of samples keep their order.
-/

namespace HermesFlow.Audio.AudioMath

open Limiter Real

/-- `MAX_INT16`. -/
noncomputable def MAX_INT16 : ℝ := 32767

/-- The branch of `soft_clip` above its limit. -/
noncomputable def tanhCurve (sample : ℤ) : ℤ :=
  truncate (tanh (sample / MAX_INT16) * MAX_INT16)

/-- Clipping takes the curve beyond the limit. -/
theorem softClip_eq (compress : ℤ → ℤ) : softClip compress = limited CLIP_LIMIT compress := rfl

/-- The curve is odd. -/
theorem tanhCurve_neg (sample : ℤ) : tanhCurve (-sample) = -tanhCurve sample := by
  rw [tanhCurve, tanhCurve, Int.cast_neg, neg_div, tanh_neg, neg_mul, truncate_neg]

/-- The curve is monotone. -/
theorem tanhCurve_mono : Monotone tanhCurve := by
  intro a b hab
  have hab' : (a : ℝ) ≤ b := by exact_mod_cast hab
  unfold tanhCurve MAX_INT16
  apply truncate_mono
  have htanh := monotone_tanh (div_le_div_of_nonneg_right hab' (by norm_num : (0 : ℝ) ≤ 32767))
  exact mul_le_mul_of_nonneg_right htanh (by norm_num)

/-- The curve stays below the largest sample. -/
theorem tanhCurve_le (sample : ℤ) : tanhCurve sample ≤ 32767 := by
  have hlt := tanh_lt_one (sample / MAX_INT16)
  apply truncate_le (n := 32767)
  unfold MAX_INT16 at *
  norm_num
  linarith

/-- The sample that the curve takes to a number. -/
noncomputable def preimage (x : ℤ) : ℝ := MAX_INT16 * artanh (x / MAX_INT16)

/-- A value of the curve is reached from its preimage on. -/
theorem le_tanhCurve_iff {a b : ℤ} (ha : Within CLIP_LIMIT a) (hb : 0 ≤ b) :
    a ≤ tanhCurve b ↔ preimage a ≤ b := by
  obtain ⟨hlow, hhigh⟩ := ha
  have hlow' : (-30000 : ℝ) ≤ a := by exact_mod_cast hlow
  have hhigh' : (a : ℝ) ≤ 30000 := by exact_mod_cast hhigh
  have hb' : (0 : ℝ) ≤ b := by exact_mod_cast hb
  have hpos : (0 : ℝ) < MAX_INT16 := by unfold MAX_INT16; norm_num
  have hmem : a / MAX_INT16 ∈ Set.Ioo (-1 : ℝ) 1 := by
    unfold MAX_INT16
    constructor <;> linarith
  have hnonneg : 0 ≤ tanh (b / MAX_INT16) * MAX_INT16 := by
    have h := monotone_tanh (div_nonneg hb' hpos.le)
    rw [tanh_zero] at h
    exact mul_nonneg h hpos.le
  calc a ≤ tanhCurve b
      ↔ (a : ℝ) ≤ tanh (b / MAX_INT16) * MAX_INT16 := le_truncate_iff hnonneg
    _ ↔ a / MAX_INT16 ≤ tanh (b / MAX_INT16) := (div_le_iff₀ hpos).symm
    _ ↔ artanh (a / MAX_INT16) ≤ b / MAX_INT16 := le_tanh_iff hmem
    _ ↔ preimage a ≤ b := by rw [le_div_iff₀ hpos, mul_comm]; rfl

/-- The results are samples. -/
theorem abs_softClip_le (sample : ℤ) : |softClip tanhCurve sample| ≤ 32767 := by
  have hcurve := tanhCurve_le sample
  have hcurve' := tanhCurve_le (-sample)
  rw [tanhCurve_neg] at hcurve'
  rw [softClip_eq, limited, abs_le]
  unfold CLIP_LIMIT
  split
  · omega
  · rename_i hwithin
    omega

/-- So the conversion to `int16_t` changes nothing. -/
theorem clippedSample_tanhCurve (sample : ℤ) :
    clippedSample tanhCurve sample = softClip tanhCurve sample := by
  obtain ⟨hlow, hhigh⟩ := abs_le.mp (abs_softClip_le sample)
  unfold clippedSample
  apply Int.bmod_eq_of_le <;> omega

/-- The order of two samples survives the clipping. -/
structure KeepsOrder (a b : ℤ) : Prop where
  /-- The clipped samples are in order. -/
  monotone : softClip tanhCurve a ≤ softClip tanhCurve b
  /-- The clipping is odd. -/
  odd : -2 ^ 31 < a → softClip tanhCurve (-a) = -softClip tanhCurve a
  /-- What is clipped fits 16 bits. -/
  range : |softClip tanhCurve a| ≤ 32767
  /-- The exported samples are in order. -/
  exported : ∀ (accumulator : List ℤ) (outputBytes : List UInt8) (i j : ℕ),
    accumulator[i]? = some a → accumulator[j]? = some b →
    i < outputBytes.length / 2 → j < outputBytes.length / 2 →
      ∃ x y, (asSamples (compressAndExport tanhCurve accumulator outputBytes))[i]? = some x ∧
        (asSamples (compressAndExport tanhCurve accumulator outputBytes))[j]? = some y ∧ x ≤ y

/-- A sample within the limit and one beyond it are as far apart as the curve asks. -/
def Separated (a b : ℤ) : Prop :=
  (Within CLIP_LIMIT a → CLIP_LIMIT < b → preimage a ≤ b) ∧
    (Within CLIP_LIMIT b → a < -CLIP_LIMIT → preimage (-b) ≤ (-a : ℤ))

/-- Two samples stay in order exactly when they are separated. -/
theorem softClip_le_iff {a b : ℤ} (hab : a ≤ b) :
    softClip tanhCurve a ≤ softClip tanhCurve b ↔ Separated a b := by
  rw [softClip_eq, limited_le_iff tanhCurve_mono hab, Separated]
  refine and_congr (forall₂_congr fun ha hb => ?_) (forall₂_congr fun hb ha => ?_)
  · have hb' : 0 ≤ b := le_trans (by decide) hb.le
    exact le_tanhCurve_iff ha hb'
  · -- the curve is odd
    have hb' : Within CLIP_LIMIT (-b) := ⟨neg_le_neg hb.2, neg_le.mp hb.1⟩
    have ha' : 0 ≤ -a := le_trans (by decide) (lt_neg.mp ha).le
    rw [← le_tanhCurve_iff hb' ha', tanhCurve_neg, neg_le_neg_iff]

/-- A sample of the accumulator in the exported frame. -/
theorem getElem?_export {accumulator : List ℤ} {outputBytes : List UInt8} {i : ℕ} {a : ℤ}
    (ha : accumulator[i]? = some a) (hi : i < outputBytes.length / 2) :
    (asSamples (compressAndExport tanhCurve accumulator outputBytes))[i]? =
      some (softClip tanhCurve a) := by
  rw [asSamples_compressAndExport, List.getElem?_map, List.getElem?_take_of_lt hi, ha,
    Option.map_some, clippedSample_tanhCurve]

/-- The order of two samples survives exactly if they are so far apart. -/
theorem keepsOrder_iff {a b : ℤ} (hab : a ≤ b) : KeepsOrder a b ↔ Separated a b := by
  have hodd := @limited_neg ℤ _ _ CLIP_LIMIT tanhCurve _ tanhCurve_neg a
  constructor
  · exact fun h => (softClip_le_iff hab).mp h.monotone
  · intro h
    have hmono := (softClip_le_iff hab).mpr h
    refine ⟨hmono, fun _ => hodd, abs_softClip_le a, ?_⟩
    intro accumulator outputBytes i j ha hb hi hj
    exact ⟨_, _, getElem?_export ha hi, getElem?_export hb hj, hmono⟩

/-- Silence is far enough from every sample beyond the limit. -/
theorem keepsOrder_iff_silence : KeepsOrder 0 30001 := by
  apply (@keepsOrder_iff 0 30001 (by norm_num)).mpr
  refine ⟨fun _ _ => ?_, fun _ h => absurd h (by decide)⟩
  rw [preimage, Int.cast_zero, zero_div, artanh_zero, mul_zero]
  norm_num

/-- The curve has not reached the limit where it starts. -/
theorem lt_preimage_limit : ((30001 : ℤ) : ℝ) < preimage 30000 := by
  have hexp : exp (2 * 30001 / 32767) < (1 + 30000 / 32767) / (1 - 30000 / 32767) := by
    have htwo : exp (2 * 30001 / 32767) ≤ exp 1 * exp 1 := by
      rw [← exp_add]
      exact exp_le_exp.mpr (by norm_num)
    have hone := exp_one_lt_d9
    have hpos := exp_pos 1
    norm_num at hone ⊢
    nlinarith
  have hlog := (lt_log_iff_exp_lt (by norm_num)).mpr hexp
  unfold preimage MAX_INT16
  rw [artanh_eq_half_log ⟨by norm_num, by norm_num⟩]
  push_cast
  linarith

/-- So the order of 30000 and 30001 is lost. -/
theorem order_lost : ¬∀ a b : ℤ, FitsInt32 a → FitsInt32 b → a ≤ b → KeepsOrder a b := by
  intro h
  have hkeeps := h 30000 30001 ⟨by norm_num, by norm_num⟩ ⟨by norm_num, by norm_num⟩ (by norm_num)
  have hseparated := (softClip_le_iff (by norm_num)).mp hkeeps.monotone
  have hreach := hseparated.1 ⟨by decide, by decide⟩ (by decide)
  exact lt_preimage_limit.not_ge hreach

end HermesFlow.Audio.AudioMath
