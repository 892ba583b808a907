import HermesFlow.CodecStrategy
import Mathlib.Data.Nat.Log
import Mathlib.Tactic.IntervalCases
import Mathlib.Tactic.LinearCombination
import Mathlib.Tactic.Ring

/-!
# A-law and back

`decode_alaw` after `encode_alaw`. A sample that is not negative comes back as
the midpoint of its quantisation interval. The encoder takes 8 off the
magnitude of a negative one before it quantises it, and the decoder does not
put it back.
-/

namespace HermesFlow.Audio

namespace Alaw

/-- The bits of the position in a segment. -/
def QUANT_MASK : UInt8 := 0b00001111
/-- The bits of the segment. -/
def SEGMENT_MASK : UInt8 := 0b01110000

/-- The entry of `make_decode_table`; the table keeps it as a `uint16_t`. -/
def decodeEntry (alawSample : UInt8) : UInt16 :=
  let maskedAlawSample := alawSample ^^^ BASE_ALAW_MASK
  let pcmSample : ℤ := (maskedAlawSample &&& QUANT_MASK).toNat * 2 ^ 4
  let segmentIdx := (maskedAlawSample &&& SEGMENT_MASK).toNat / 2 ^ 4
  let pcmSample := if segmentIdx = 0 then pcmSample + 0x008 else pcmSample + 0x108
  let pcmSample := if segmentIdx > 1 then pcmSample * 2 ^ (segmentIdx - 1) else pcmSample
  let pcmSample := if maskedAlawSample &&& SIGN_BIT_MASK = 0 then -pcmSample else pcmSample
  UInt16.ofNat (pcmSample % 2 ^ 16).toNat

/-- The sample of an entry: a `uint16_t` becomes an `int16_t`. -/
def decodedSample (alawSample : UInt8) : ℤ := Int.bmod (decodeEntry alawSample).toNat (2 ^ 16)

end Alaw

/-- `decode_alaw`, to an output with room for the samples. -/
def decodeAlaw (alaw : List UInt8) : List ℤ := alaw.map Alaw.decodedSample

namespace Alaw

/-- A value of an `int16_t`. -/
def FitsInt16 (x : ℤ) : Prop := -2 ^ 15 ≤ x ∧ x < 2 ^ 15

instance : DecidablePred FitsInt16 := fun _ => inferInstanceAs (Decidable (_ ∧ _))

/-- Half a quantisation step in the segment of a magnitude. -/
def halfStep (magnitude : ℕ) : ℕ :=
  if magnitude < 512 then 8 else 8 * 2 ^ (Nat.log 2 magnitude - 8)

/-- The segments from 512 on. -/
theorem halfStep_segment {magnitude s : ℕ} (hs : 2 ≤ s) (hlow : 2 ^ (7 + s) ≤ magnitude)
    (hhigh : magnitude < 2 ^ (8 + s)) : halfStep magnitude = 8 * 2 ^ (s - 1) := by
  have hlarge : 512 ≤ magnitude := by
    calc 512 = 2 ^ (7 + 2) := rfl
      _ ≤ 2 ^ (7 + s) := Nat.pow_le_pow_right (by omega) (by omega)
      _ ≤ magnitude := hlow
  have hlog : Nat.log 2 magnitude = 7 + s := by
    apply Nat.log_eq_of_pow_le_of_lt_pow hlow
    rw [Nat.add_right_comm]
    exact hhigh
  have hshift : 7 + s - 8 = s - 1 := by omega
  rw [halfStep, if_neg (by omega), hlog, hshift]

/-- The midpoint that the decoder gives for a segment and the bits in it. -/
def midpoint (segment quant : ℕ) : ℤ :=
  if segment = 0 then 16 * quant + 8 else (16 * quant + 264) * 2 ^ (segment - 1)

/-- The masks of the encoder and the decoder meet. -/
theorem decodeEntry_mask : ∀ (segment : Fin 8) (quant : Fin 16),
    decodedSample ((UInt8.ofNat quant ||| UInt8.ofNat (segment * 16)) ^^^
        (BASE_ALAW_MASK ||| SIGN_BIT_MASK)) = midpoint segment quant ∧
      decodedSample ((UInt8.ofNat quant ||| UInt8.ofNat (segment * 16)) ^^^ BASE_ALAW_MASK) =
        -midpoint segment quant := by
  decide +kernel

/-- The segment that the encoder finds for a normalized sample. -/
def segmentIdx (normalizedPcmSample : ℤ) : ℕ := SEGMENT_EDGES.findIdx (normalizedPcmSample ≤ ·)

/-- The shift of a segment. -/
def pcmShift (segmentIdx : ℕ) : ℕ := if segmentIdx = 0 then 4 else 3 + segmentIdx

/-- What a normalized sample becomes. -/
def quantized (n : ℤ) : ℤ :=
  midpoint (segmentIdx n) (n / 2 ^ pcmShift (segmentIdx n) % 16).toNat

/-- A sample after the round trip. -/
def roundTrip (x : ℤ) : ℤ := decodedSample (encodeEntry x)

/-- Decoding after encoding is one round trip for each sample. -/
theorem decodeAlaw_encodeAlaw (xs : List ℤ) : decodeAlaw (encodeAlaw xs) = xs.map roundTrip := by
  rw [decodeAlaw, encodeAlaw, List.map_map]
  refine List.map_congr_left fun x _ => ?_
  rw [Function.comp_apply]
  unfold roundTrip
  rfl

/-- The search of the segment, edge by edge. -/
theorem segmentIdx_eq (n : ℤ) : segmentIdx n =
    if n ≤ 0xFF then 0 else if n ≤ 0x1FF then 1 else if n ≤ 0x3FF then 2
    else if n ≤ 0x7FF then 3 else if n ≤ 0xFFF then 4 else if n ≤ 0x1FFF then 5
    else if n ≤ 0x3FFF then 6 else if n ≤ 0x7FFF then 7 else 8 := by
  simp only [segmentIdx, SEGMENT_EDGES, List.findIdx_cons, List.findIdx_nil, cond_eq_ite,
    decide_eq_true_eq]
  split_ifs <;> rfl

/-- A sample of 16 bits has one of eight segments. -/
theorem segmentIdx_lt {n : ℤ} (hn : n < 2 ^ 15) : segmentIdx n < 8 := by
  rw [segmentIdx_eq]
  split_ifs <;> omega

/-- The encoder quantises the magnitude, and the decoder gives it the sign back. -/
theorem roundTrip_eq {x : ℤ} (hx : FitsInt16 x) :
    roundTrip x = if 0 ≤ x then quantized x else -quantized (-x - 8) := by
  obtain ⟨hlow, hhigh⟩ := hx
  have hquant : ∀ n : ℤ, (n / 2 ^ pcmShift (segmentIdx n) % 16).toNat < 16 := by
    intro n
    have hlt := Int.emod_lt_of_pos (n / 2 ^ pcmShift (segmentIdx n)) (by omega : (0 : ℤ) < 16)
    omega
  by_cases hsign : 0 ≤ x
  · have hsegment := segmentIdx_lt hhigh
    have hentry := (decodeEntry_mask ⟨segmentIdx x, hsegment⟩ ⟨_, hquant x⟩).1
    have hne : ¬segmentIdx x = SEGMENT_EDGES.length := hsegment.ne
    rw [if_pos hsign, quantized, ← hentry]
    unfold roundTrip encodeEntry
    dsimp only
    rw [if_pos hsign, if_pos hsign]
    change decodedSample ((if segmentIdx x = SEGMENT_EDGES.length then _ else _) ^^^ _) = _
    rw [if_neg hne, Int.shiftRight_eq_div_pow]
    rfl
  · have hsegment : segmentIdx (-x - 8) < 8 := segmentIdx_lt (by omega)
    have hentry := (decodeEntry_mask ⟨segmentIdx (-x - 8), hsegment⟩ ⟨_, hquant (-x - 8)⟩).2
    have hne : ¬segmentIdx (-x - 8) = SEGMENT_EDGES.length := hsegment.ne
    rw [if_neg hsign, quantized, ← hentry]
    unfold roundTrip encodeEntry
    dsimp only
    rw [if_neg hsign, if_neg hsign]
    change decodedSample ((if segmentIdx (-x - 8) = SEGMENT_EDGES.length then _ else _) ^^^ _) = _
    rw [if_neg hne, Int.shiftRight_eq_div_pow]
    rfl

/-- The segments of the magnitudes of 16-bit samples. -/
theorem halfStep_cases {magnitude : ℕ} (h : magnitude ≤ 2 ^ 15) :
    magnitude < 512 ∧ halfStep magnitude = 8 ∨
      ∃ s, 2 ≤ s ∧ s ≤ 8 ∧ 2 ^ (7 + s) ≤ magnitude ∧ magnitude < 2 ^ (8 + s) ∧
        halfStep magnitude = 8 * 2 ^ (s - 1) := by
  by_cases hsmall : magnitude < 512
  · exact .inl ⟨hsmall, if_pos hsmall⟩
  · have hne : magnitude ≠ 0 := by omega
    have hlow := Nat.pow_log_le_self 2 hne
    have hhigh := Nat.lt_pow_succ_log_self (by omega : 1 < 2) magnitude
    have hlogLow : 9 ≤ Nat.log 2 magnitude := Nat.le_log_of_pow_le (by omega) (by omega)
    have hlogHigh : Nat.log 2 magnitude < 16 := Nat.log_lt_of_lt_pow hne (by omega)
    obtain ⟨s, hs⟩ : ∃ s, Nat.log 2 magnitude = 7 + s := ⟨Nat.log 2 magnitude - 7, by omega⟩
    rw [hs] at hlow
    rw [hs, Nat.succ_eq_add_one, Nat.add_right_comm] at hhigh
    have hsegment : 2 ≤ s := by omega
    exact .inr ⟨s, hsegment, by omega, hlow, hhigh, halfStep_segment hsegment hlow hhigh⟩

/-- The segments from 512 on in the search. -/
theorem segmentIdx_segment {n : ℤ} {s : ℕ} (hs : 2 ≤ s) (hs' : s ≤ 7) (hlow : 2 ^ (7 + s) ≤ n)
    (hhigh : n < 2 ^ (8 + s)) : segmentIdx n = s := by
  rw [segmentIdx_eq]
  interval_cases s <;> grind

/-- The midpoint of an interval of these segments. -/
theorem midpoint_segment {n : ℤ} {s : ℕ} (hs : 2 ≤ s) (hs' : s ≤ 7) (hlow : 2 ^ (7 + s) ≤ n)
    (hhigh : n < 2 ^ (8 + s)) :
    midpoint s (n / 2 ^ (3 + s) % 16).toNat =
      n - n % (2 * (8 * 2 ^ (s - 1))) + 8 * 2 ^ (s - 1) := by
  obtain ⟨t, rfl⟩ : ∃ t, s = t + 1 := ⟨s - 1, by omega⟩
  have hwidth : (2 : ℤ) ^ (3 + (t + 1)) = 16 * 2 ^ t := by ring
  have hend : (2 : ℤ) ^ (7 + (t + 1)) = 256 * 2 ^ t := by ring
  have hnext : (2 : ℤ) ^ (8 + (t + 1)) = 512 * 2 ^ t := by ring
  have hstep : 2 * (8 * (2 : ℤ) ^ t) = 16 * 2 ^ t := by ring
  have hpos : (0 : ℤ) < 2 ^ t := by positivity
  rw [hend] at hlow
  rw [hnext] at hhigh
  rw [midpoint, if_neg (Nat.succ_ne_zero t), Nat.add_sub_cancel, hwidth, hstep]
  generalize (2 : ℤ) ^ t = p at hlow hhigh hpos ⊢
  -- the quotient has the leading bit of the segment and the four bits of the encoder
  have hquot : 16 ≤ n / (16 * p) := Int.le_ediv_of_mul_le (by omega) (by omega)
  have hquot' : n / (16 * p) < 32 := Int.ediv_lt_of_lt_mul (by omega) (by omega)
  have hbits : ((n / (16 * p) % 16).toNat : ℤ) = n / (16 * p) - 16 := by omega
  have hsplit := Int.emod_add_mul_ediv n (16 * p)
  rw [hbits]
  linear_combination hsplit

/-- A normalized sample becomes the midpoint of its interval. -/
theorem quantized_eq {n : ℤ} (hn : 0 ≤ n) (hlt : n < 2 ^ 15) :
    quantized n = n - n % (2 * halfStep n.natAbs) + halfStep n.natAbs := by
  obtain ⟨m, rfl⟩ := Int.eq_ofNat_of_zero_le hn
  rw [Int.natAbs_natCast]
  have hm : m < 2 ^ 15 := by exact_mod_cast hlt
  have hsegment := segmentIdx_eq m
  rcases halfStep_cases hm.le with ⟨hsmall, hhalf⟩ | ⟨s, hs, hs', hlow, hhigh, hhalf⟩
  · rw [hhalf, quantized]
    by_cases hfirst : m ≤ 255
    · have hzero : segmentIdx m = 0 := by rw [hsegment, if_pos (by omega)]
      rw [hzero, pcmShift, if_pos rfl, midpoint, if_pos rfl]
      omega
    · have hone : segmentIdx m = 1 := by rw [hsegment, if_neg (by omega), if_pos (by omega)]
      rw [hone, pcmShift, if_neg (by omega), midpoint, if_neg (by omega)]
      omega
  · have hs'' : s ≠ 8 := by
      rintro rfl
      omega
    have hs7 : s ≤ 7 := by omega
    have hlow' : (2 : ℤ) ^ (7 + s) ≤ m := by exact_mod_cast hlow
    have hhigh' : (m : ℤ) < 2 ^ (8 + s) := by exact_mod_cast hhigh
    rw [hhalf, quantized, segmentIdx_segment hs hs7 hlow' hhigh', pcmShift, if_neg (by omega),
      midpoint_segment hs hs7 hlow' hhigh']
    push_cast
    rfl

/-- A normalized sample below 0 has the largest bits of the first segment. -/
theorem quantized_neg {n : ℤ} (hlow : -16 ≤ n) (hneg : n < 0) : quantized n = 248 := by
  have hzero : segmentIdx n = 0 := by rw [segmentIdx_eq, if_pos (by omega)]
  rw [quantized, hzero, pcmShift, if_pos rfl, midpoint, if_pos rfl]
  omega

/-- A negative sample for which the 8 that the encoder takes off does not add up
to more than half a step: its magnitude is a multiple of the step, or 8 and more
beyond one, or among the first of a segment from 512 on. -/
def OnGrid (x : ℤ) : Prop :=
  x.natAbs % (2 * halfStep x.natAbs) = 0 ∨ 8 ≤ x.natAbs % (2 * halfStep x.natAbs) ∨
    512 ≤ x.natAbs ∧ x.natAbs < 2 ^ Nat.log 2 x.natAbs + 8

instance : DecidablePred OnGrid := fun _ => inferInstanceAs (Decidable (_ ∨ _ ∨ _ ∧ _))

/-- The first magnitudes of a segment from 512 on. -/
theorem first_of_segment_iff {m s : ℕ} (hs : 2 ≤ s) (hlow : 2 ^ (7 + s) ≤ m)
    (hhigh : m < 2 ^ (8 + s)) : 512 ≤ m ∧ m < 2 ^ Nat.log 2 m + 8 ↔ m < 2 ^ (7 + s) + 8 := by
  have hlog : Nat.log 2 m = 7 + s := by
    apply Nat.log_eq_of_pow_le_of_lt_pow hlow
    rw [Nat.add_right_comm]
    exact hhigh
  have hlarge : 2 ^ (7 + 2) ≤ 2 ^ (7 + s) := Nat.pow_le_pow_right (by omega) (by omega)
  rw [hlog]
  omega

/-- The error of a sample that is not negative. -/
theorem error_nonneg {x : ℤ} (hx : 0 ≤ x) (hhigh : x < 2 ^ 15) :
    |quantized x - x| ≤ halfStep x.natAbs := by
  have hpos : 0 < 2 * (halfStep x.natAbs : ℤ) := by
    rcases halfStep_cases (by omega : x.natAbs ≤ 2 ^ 15) with ⟨-, hhalf⟩ | ⟨s, -, -, -, -, hhalf⟩
    · omega
    · have hpow := Nat.two_pow_pos (s - 1)
      omega
  have hrest := Int.emod_nonneg x hpos.ne'
  have hrest' := Int.emod_lt_of_pos x hpos
  rw [quantized_eq hx hhigh, abs_le]
  omega

/-- The error of a negative sample below the segments from 512 on. -/
theorem error_neg_small {m : ℕ} (hm : 0 < m) (hsmall : m < 512) :
    |quantized (m - 8) - m| ≤ 8 ↔ m % 16 = 0 ∨ 8 ≤ m % 16 := by
  by_cases hunder : m < 8
  · rw [quantized_neg (by omega) (by omega), abs_le]
    omega
  · have hhalf : halfStep ((m : ℤ) - 8).natAbs = 8 := if_pos (by omega)
    rw [quantized_eq (by omega) (by omega), hhalf, abs_le]
    omega

/-- One interval back, the quantisation of the first eight magnitudes of a segment. -/
theorem error_first {m p : ℤ} (hp : 2 ≤ p) (hlow : 256 * p ≤ m) (hfirst : m < 256 * p + 8) :
    |m - 8 - (m - 8) % (2 * (4 * p)) + 4 * p - m| ≤ 8 * p := by
  have hback : m - 8 = m - 248 * p - 8 + 2 * (4 * p) * 31 := by ring
  have hrest : (m - 8) % (2 * (4 * p)) = m - 248 * p - 8 := by
    rw [hback, Int.add_mul_emod_self_left, Int.emod_eq_of_lt (by omega) (by omega)]
  rw [hrest, abs_le]
  omega

/-- The 8 that is taken off borrows from the next interval. -/
theorem error_rest {m p : ℤ} (hp : 0 < p) : |m - 8 - (m - 8) % (2 * (8 * p)) + 8 * p - m| ≤ 8 * p ↔
    m % (2 * (8 * p)) = 0 ∨ 8 ≤ m % (2 * (8 * p)) := by
  have hsplit := Int.emod_add_mul_ediv m (2 * (8 * p))
  have hnonneg := Int.emod_nonneg m (show 2 * (8 * p) ≠ 0 by omega)
  have hlt := Int.emod_lt_of_pos m (show 0 < 2 * (8 * p) by omega)
  by_cases hborrow : 8 ≤ m % (2 * (8 * p))
  · have hback : m - 8 = m % (2 * (8 * p)) - 8 + 2 * (8 * p) * (m / (2 * (8 * p))) := by
      linear_combination -hsplit
    have hrest : (m - 8) % (2 * (8 * p)) = m % (2 * (8 * p)) - 8 := by
      rw [hback, Int.add_mul_emod_self_left, Int.emod_eq_of_lt (by omega) (by omega)]
    rw [hrest, abs_le]
    omega
  · have hback : m - 8 =
        m % (2 * (8 * p)) - 8 + 2 * (8 * p) + 2 * (8 * p) * (m / (2 * (8 * p)) - 1) := by
      linear_combination -hsplit
    have hrest : (m - 8) % (2 * (8 * p)) = m % (2 * (8 * p)) - 8 + 2 * (8 * p) := by
      rw [hback, Int.add_mul_emod_self_left, Int.emod_eq_of_lt (by omega) (by omega)]
    rw [hrest, abs_le]
    omega

/-- The error of a negative sample in a segment from 512 on. The first eight
magnitudes of the segment are quantised in the segment below it. -/
theorem error_neg_segment {m s : ℕ} (hs : 2 ≤ s) (hs' : s ≤ 8) (hlow : 2 ^ (7 + s) ≤ m)
    (hhigh : m < 2 ^ (8 + s)) (hm : m ≤ 2 ^ 15) :
    |quantized (m - 8) - m| ≤ 8 * 2 ^ (s - 1) ↔ m % (2 * (8 * 2 ^ (s - 1))) = 0 ∨
      8 ≤ m % (2 * (8 * 2 ^ (s - 1))) ∨ m < 2 ^ (7 + s) + 8 := by
  obtain ⟨t, rfl⟩ : ∃ t, s = t + 2 := ⟨s - 2, by omega⟩
  have hlarge : 2 ^ (7 + 2) ≤ 2 ^ (7 + (t + 2)) := Nat.pow_le_pow_right (by omega) (by omega)
  have habs : ((m : ℤ) - 8).natAbs = m - 8 := by omega
  have hend : 2 ^ (7 + (t + 2)) = 256 * 2 ^ (t + 1) := by ring
  have hnext : 2 ^ (8 + (t + 2)) = 512 * 2 ^ (t + 1) := by ring
  rw [quantized_eq (by omega) (by omega), habs]
  change _ ≤ 8 * (2 : ℤ) ^ (t + 1) ↔ m % (2 * (8 * 2 ^ (t + 1))) = 0 ∨
    8 ≤ m % (2 * (8 * 2 ^ (t + 1))) ∨ _
  by_cases hfirst : m < 2 ^ (7 + (t + 2)) + 8
  · have hhalf : halfStep (m - 8) = 4 * 2 ^ (t + 1) := by
      rcases Nat.eq_zero_or_pos t with rfl | ht
      · exact if_pos (by omega)
      · have hbelow : 2 ^ (7 + 2) ≤ 2 ^ (7 + (t + 1)) :=
          Nat.pow_le_pow_right (by omega) (by omega)
        have hhalved : 2 ^ (7 + (t + 2)) = 2 * 2 ^ (7 + (t + 1)) := by ring
        have hup : 2 ^ (8 + (t + 1)) = 2 ^ (7 + (t + 2)) := by ring
        have hstep : 4 * 2 ^ (t + 1) = 8 * 2 ^ (t + 1 - 1) := by
          rw [Nat.add_sub_cancel]
          ring
        rw [hstep]
        exact halfStep_segment (by omega) (by omega) (by omega)
    have htwo : 2 ≤ 2 ^ (t + 1) := Nat.le_self_pow (Nat.succ_ne_zero t) 2
    have herror := @error_first m ((2 ^ (t + 1) : ℕ) : ℤ) (by exact_mod_cast htwo) (by omega)
      (by omega)
    rw [hhalf]
    push_cast at herror ⊢
    exact iff_of_true herror (.inr (.inr hfirst))
  · have hhalf : halfStep (m - 8) = 8 * 2 ^ (t + 1) :=
      halfStep_segment (s := t + 2) hs (by omega) (by omega)
    have herror := @error_rest m ((2 ^ (t + 1) : ℕ) : ℤ) (by exact_mod_cast Nat.two_pow_pos (t + 1))
    have hcast : (2 : ℤ) ^ (t + 1) = ((2 ^ (t + 1) : ℕ) : ℤ) := (Nat.cast_pow 2 (t + 1)).symm
    rw [hhalf, or_iff_left hfirst, hcast]
    generalize 2 ^ (t + 1) = p at herror ⊢
    rw [Nat.cast_mul, Nat.cast_ofNat, herror]
    norm_cast

/-- A sample comes back within half a step exactly if it is not negative or on
the grid of the encoder. -/
theorem error_iff {x : ℤ} (hx : FitsInt16 x) :
    |roundTrip x - x| ≤ halfStep x.natAbs ↔ 0 ≤ x ∨ OnGrid x := by
  rw [roundTrip_eq hx]
  obtain ⟨hlow, hhigh⟩ := hx
  by_cases hsign : 0 ≤ x
  · rw [if_pos hsign]
    exact iff_of_true (error_nonneg hsign hhigh) (.inl hsign)
  · obtain ⟨m, rfl⟩ : ∃ m : ℕ, x = -m := ⟨x.natAbs, by omega⟩
    have hflip : |-quantized (- -(m : ℤ) - 8) - -(m : ℤ)| = |quantized (m - 8) - m| := by
      rw [neg_neg, neg_sub_neg, abs_sub_comm]
    rw [if_neg hsign, hflip, or_iff_right hsign, OnGrid, Int.natAbs_neg, Int.natAbs_natCast]
    rcases halfStep_cases (by omega : m ≤ 2 ^ 15) with
      ⟨hsmall, hhalf⟩ | ⟨s, hs, hs', hsegmentLow, hsegmentHigh, hhalf⟩
    · have hfirst : ¬(512 ≤ m ∧ m < 2 ^ Nat.log 2 m + 8) := by omega
      rw [hhalf, or_iff_left hfirst]
      exact error_neg_small (by omega) hsmall
    · rw [first_of_segment_iff hs hsegmentLow hsegmentHigh, hhalf]
      push_cast
      exact error_neg_segment hs hs' hsegmentLow hsegmentHigh (by omega)

/-- The sign of a sample survives, and 0 becomes positive. -/
theorem sign_roundTrip {x : ℤ} (hx : FitsInt16 x) :
    (0 ≤ x → 0 < roundTrip x) ∧ (x < 0 → roundTrip x < 0) := by
  have hmidpoint : ∀ segment quant : ℕ, 0 < midpoint segment quant := by
    intro segment quant
    unfold midpoint
    split <;> positivity
  rw [roundTrip_eq hx]
  constructor
  · intro hsign
    rw [if_pos hsign]
    exact hmidpoint _ _
  · intro hsign
    rw [if_neg (by omega)]
    exact neg_lt_zero.mpr (hmidpoint _ _)

end Alaw

open Alaw

/-- Samples that come back within the quantisation error. -/
structure WithinHalfStep (xs : List ℤ) : Prop where
  /-- One sample comes back for each sample. -/
  length : (decodeAlaw (encodeAlaw xs)).length = xs.length
  /-- Each sample comes back within half a step of its magnitude. -/
  error : ∀ (i : ℕ) (x y : ℤ), xs[i]? = some x → (decodeAlaw (encodeAlaw xs))[i]? = some y →
    |y - x| ≤ halfStep x.natAbs
  /-- A sample beyond eight keeps its sign. -/
  sign : ∀ (i : ℕ) (x y : ℤ), xs[i]? = some x → (decodeAlaw (encodeAlaw xs))[i]? = some y →
    8 < |x| → (0 < x ↔ 0 < y)
  /-- A small negative sample stays small. -/
  nearZero : ∀ (i : ℕ) (x y : ℤ), xs[i]? = some x → (decodeAlaw (encodeAlaw xs))[i]? = some y →
    -7 ≤ x → x ≤ -1 → |y| < 16

/-- Samples come back within the quantisation error exactly if the negative ones
are on the grid of the encoder. -/
theorem withinHalfStep_iff {xs : List ℤ} (hxs : ∀ x ∈ xs, FitsInt16 x) :
    WithinHalfStep xs ↔ ∀ x ∈ xs, 0 ≤ x ∨ OnGrid x := by
  have hat : ∀ {i : ℕ} {x y : ℤ}, xs[i]? = some x → (decodeAlaw (encodeAlaw xs))[i]? = some y →
      x ∈ xs ∧ y = roundTrip x := by
    intro i x y hx hy
    rw [decodeAlaw_encodeAlaw, List.getElem?_map, hx] at hy
    exact ⟨List.mem_of_getElem? hx, (Option.some.inj hy).symm⟩
  constructor
  · intro hwithin x hx
    obtain ⟨i, hi⟩ := List.getElem?_of_mem hx
    have hy : (decodeAlaw (encodeAlaw xs))[i]? = some (roundTrip x) := by
      rw [decodeAlaw_encodeAlaw, List.getElem?_map, hi, Option.map_some]
    exact (error_iff (hxs x hx)).mp (hwithin.error i x _ hi hy)
  · intro hgrid
    refine ⟨?_, fun i x y hi hy => ?_, fun i x y hi hy hlarge => ?_, fun i x y hi hy hlow hneg => ?_⟩
    · rw [decodeAlaw_encodeAlaw, List.length_map]
    · obtain ⟨hx, hround⟩ := hat hi hy
      rw [hround]
      exact (error_iff (hxs x hx)).mpr (hgrid x hx)
    · obtain ⟨hx, hround⟩ := hat hi hy
      rw [hround]
      obtain ⟨hpos, hneg⟩ := sign_roundTrip (hxs x hx)
      constructor
      · exact fun h => hpos h.le
      · intro hy
        by_contra hnot
        rcases Int.lt_or_eq_of_le (not_lt.mp hnot) with hx0 | hx0
        · have hy' := hneg hx0
          omega
        · rw [hx0] at hlarge
          exact absurd hlarge (by decide)
    · obtain ⟨hx, hround⟩ := hat hi hy
      have herror := (error_iff (hxs x hx)).mpr (hgrid x hx)
      have hhalf : halfStep x.natAbs = 8 := if_pos (by omega)
      rw [← hround, hhalf, abs_le] at herror
      rw [abs_lt]
      omega

/-- Samples on the grid, of both signs. -/
theorem withinHalfStep_iff_grid : WithinHalfStep [0, 300, -8, -32768] :=
  (withinHalfStep_iff (by decide)).mpr (by decide)

/-- The samples just below 0 come back as -248. -/
theorem near_zero_lost : decodeAlaw (encodeAlaw [-1]) = [-248] ∧
    ¬∀ xs : List ℤ, (∀ x ∈ xs, FitsInt16 x) → WithinHalfStep xs := by
  have hdecoded : decodeAlaw (encodeAlaw [-1]) = [-248] := by decide +kernel
  refine ⟨hdecoded, fun h => ?_⟩
  have hwithin := h [-1] (by decide)
  have herror := hwithin.error 0 (-1) (-248) rfl (by rw [hdecoded]; rfl)
  exact absurd herror (by decide)

end HermesFlow.Audio
