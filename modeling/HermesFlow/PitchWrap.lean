import HermesFlow.PitchRun
import HermesFlow.SingleFloat

/-!
# The pitch shifter in single precision

Rounding decides which options end. The wrap of the phase from below adds one until
the phase is not negative; from `-(2^24 + 4)` on downwards one is lost in rounding and
the loop never ends. The first value is the increment below zero, and the increments
that large are those of ratios above `6710887424`.
-/

namespace HermesFlow.Pitch

open BoundedLoop BinaryFloat

variable {K : Type} [Field K] [LinearOrder K] [FloorRing K]

/-- The numbers of the source, with any function for the power of two. -/
def singleNumbers (pow : Single K → Single K) : Numbers (Single K) where
  add := Single.add
  sub := Single.sub
  mul := Single.mul
  div := Single.div
  abs := Single.abs
  lt := Single.lt
  le := Single.le
  ofInt n := Single.ofReal n
  half := .num (1 / ((2 : ℕ) : K))
  toInt := Single.toInt
  pow

/-- The states of the shifter of a file input; rounding brings the phase up to one. -/
abbrev HoldsSingle (s : PitchShifter (Single K)) : Prop :=
  Holds 1 400 (Single.Between 0 1) (fun _ => True) s

section Reads

variable {pow : Single K → Single K} {short : Prop} {fuel : ℕ} [IsStrictOrderedRing K]

/-- Small integers are single floats. -/
theorem ofInt_eq {k : ℤ} (hk : k.natAbs ≤ 2 ^ 24) :
    (singleNumbers (K := K) pow).ofInt k = .num (k : K) :=
  Single.ofReal_intCast hk

/-- Zero is a single float. -/
theorem ofInt_zero : (singleNumbers (K := K) pow).ofInt 0 = .num 0 := by
  rw [ofInt_eq (by decide), Int.cast_zero]

/-- One is a single float. -/
theorem ofInt_one : (singleNumbers (K := K) pow).ofInt 1 = .num 1 := by
  rw [ofInt_eq (by decide), Int.cast_one]

/-- A position is wrapped into the buffer: each loop turns at most once. -/
theorem runs_wrapPosition {x : Single K} (hx : Single.Between (-400) 799 x)
    (hshort : fuel ≤ 1 → short) :
    Runs short (fun x => Single.Between 0 800 x ∧ Single.le (.num 800) x = false)
      (whileLoop (fun x => Single.lt x (.num 0)) (fun x => Single.add x (.num 800)) fuel x >>=
        whileLoop (fun x => Single.le (.num 800) x) (fun x => Single.sub x (.num 800)) fuel) := by
  obtain ⟨q, rfl, hlow, hhigh⟩ := hx
  push_cast at hlow hhigh
  refine (runs_whileLoop_once (I := Single.Between 0 800) (fun hstop => ?_) (fun hcond => ?_)
    hshort).bind fun y hy => runs_whileLoop_once (fun _ => hy.1) (fun hcond => ?_) hshort
  · have hnonneg : 0 ≤ q := not_lt.mp (of_decide_eq_false hstop)
    exact ⟨q, rfl, by push_cast; linarith, by push_cast; linarith⟩
  · have hneg : q < 0 := of_decide_eq_true hcond
    obtain ⟨r, hr, hlow', hhigh'⟩ := Single.ofReal_between (q := q + 800) (a := 400) (b := 800)
      (by decide) (by decide) ⟨by push_cast; linarith, by push_cast; linarith⟩
    push_cast at hlow' hhigh'
    change Single.Between 0 800 (Single.ofReal (q + 800)) ∧
      Single.lt (Single.ofReal (q + 800)) (.num 0) = false
    rw [hr]
    refine ⟨⟨r, rfl, by push_cast; linarith, by push_cast; linarith⟩, ?_⟩
    exact decide_eq_false (not_lt.mpr (by linarith))
  · obtain ⟨⟨r, rfl, -, hhigh'⟩, -⟩ := hy
    have hend : r = 800 := le_antisymm (by exact_mod_cast hhigh') (of_decide_eq_true hcond)
    rw [Single.sub_num, hend, sub_self, Single.ofReal_zero]
    refine ⟨⟨0, rfl, by norm_num, by norm_num⟩, decide_eq_false (by norm_num)⟩

/-- A head that is at most half the buffer behind reads in bounds. -/
theorem runs_readInterpolated_single {s : PitchShifter (Single K)} (hs : HoldsSingle s) {c : ℕ}
    (hc : c < s.channels) {d : Single K} (hd : Single.Between 0 400 d) (hshort : fuel ≤ 1 → short) :
    Runs short (fun _ => True) (readInterpolated (singleNumbers pow) fuel s d c) := by
  have hsize : s.bufferSize = 800 := hs.bufferSize_eq
  have hptr : s.writePtr < 800 := hsize ▸ hs.writePtr_lt
  have hwidth : (singleNumbers (K := K) pow).ofInt ((800 : ℕ) : ℤ) = .num 800 := by
    rw [ofInt_eq (by decide), Int.cast_natCast, Nat.cast_ofNat]
  have hstart : (singleNumbers (K := K) pow).ofInt (s.writePtr : ℤ) = .num (s.writePtr : K) := by
    rw [ofInt_eq (by omega), Int.cast_natCast]
  have hptr0 : (0 : K) ≤ s.writePtr := Nat.cast_nonneg _
  have hptr1 : (s.writePtr : K) ≤ 799 := by exact_mod_cast (by omega : s.writePtr ≤ 799)
  obtain ⟨q, rfl, hq0, hq1⟩ := hd
  unfold readInterpolated
  dsimp only
  rw [hsize, ofInt_zero, hwidth, hstart]
  have hposition : Single.Between (-400) 799
      ((singleNumbers pow).sub (.num (s.writePtr : K)) (.num q)) := by
    change Single.Between (-400) 799 (Single.sub (.num (s.writePtr : K)) (.num q))
    rw [Single.sub_num]
    push_cast at hq0 hq1
    exact Single.ofReal_between (by decide) (by decide) ⟨by push_cast; linarith, by push_cast; linarith⟩
  have hwrap := runs_wrapPosition hposition hshort
  rw [← bind_assoc]
  refine hwrap.bind fun x hx => ?_
  obtain ⟨⟨r, rfl, hlow, -⟩, hlt⟩ := hx
  push_cast at hlow
  have hlt' : r < 800 := not_le.mp (of_decide_eq_false hlt)
  have hint : Truncation.toInt r = ⌊r⌋ := Truncation.toInt_of_nonneg hlow
  refine (runs_interpolate hs.length_eq hc ?_ ?_).mono fun _ _ => trivial
  · change 0 ≤ Truncation.toInt r
    rw [hint]
    exact Int.floor_nonneg.mpr hlow
  · change Truncation.toInt r < s.bufferSize
    rw [hint, hsize, Int.floor_lt]
    exact_mod_cast hlt'

/-- The phase of the second head, half a turn ahead of the first. -/
theorem secondPhase_between {p : Single K} (hp : Single.Between 0 1 p) :
    Single.Between 0 1 (secondPhase (singleNumbers pow) p) := by
  obtain ⟨p, rfl, hp0, hp1⟩ := hp
  push_cast at hp0 hp1
  obtain ⟨q, hq, hq0, hq1⟩ := Single.ofReal_between (q := p + 1 / 2) (a := 0) (b := 2)
    (by decide) (by decide) ⟨by push_cast; linarith, by push_cast; linarith⟩
  push_cast at hq0 hq1
  unfold secondPhase
  rw [ofInt_one]
  change Single.Between 0 1 (if Single.le (.num 1) (Single.ofReal (p + 1 / ((2 : ℕ) : K))) = true
    then Single.sub (Single.ofReal (p + 1 / ((2 : ℕ) : K))) (.num 1)
    else Single.ofReal (p + 1 / ((2 : ℕ) : K)))
  rw [Nat.cast_ofNat, hq]
  split_ifs with hle
  · have hq1' : 1 ≤ q := of_decide_eq_true hle
    rw [Single.sub_num]
    exact Single.ofReal_between (by decide) (by decide)
      ⟨by push_cast; linarith, by push_cast; linarith⟩
  · have hq1' : q < 1 := not_le.mp (of_decide_eq_false (Bool.not_eq_true _ ▸ hle))
    exact ⟨q, rfl, by push_cast; linarith, by push_cast; linarith⟩

/-- Mixing a channel ends, in any state. -/
theorem runs_mixedOut_single {s : PitchShifter (Single K)} (hs : HoldsSingle s) {c : ℕ} (hc : c < 1)
    (hshort : fuel ≤ 1 → short) :
    Runs short (fun _ => True)
      (mixedOut (singleNumbers pow) fuel s (calculateCrossfadeParameters (singleNumbers pow) s) c) := by
  have hc' : c < s.channels := hs.channels_eq ▸ hc
  have hdelay {p : Single K} (hp : Single.Between 0 1 p) :
      Single.Between 0 400
        ((singleNumbers pow).mul p ((singleNumbers pow).ofInt s.maxDelaySamples)) := by
    obtain ⟨q, rfl, hq0, hq1⟩ := hp
    push_cast at hq0 hq1
    rw [hs.maxDelay_eq, ofInt_eq (by decide)]
    refine Single.ofReal_between (by decide) (by decide) ⟨?_, ?_⟩
    · push_cast
      linarith
    · push_cast
      linarith
  refine (runs_readInterpolated_single hs hc' (hdelay hs.phase) hshort).bind fun _ _ => ?_
  refine (runs_readInterpolated_single hs hc' (hdelay (secondPhase_between hs.phase))
    hshort).bind fun _ _ => ?_
  exact .ok trivial

end Reads

section Rounding

variable [IsStrictOrderedRing K]

/-- One more is lost from here on downwards. -/
theorem round_stuck : binary32.round (16777219 : K) = 16777220 :=
  Single.binary32_round_eq 8388610 1 (by norm_num) (by norm_num) (by norm_num) (by norm_num)
    fun _ => by norm_num

/-- The integer behind the last exact one is rounded back. -/
theorem round_back : binary32.round (16777217 : K) = 16777216 :=
  Single.binary32_round_eq 8388608 1 (by norm_num) (by norm_num) (by norm_num) (by norm_num)
    fun _ => by norm_num

/-- The largest ratio whose increment is small enough, and the next one. -/
theorem round_increment :
    binary32.round ((6710887424 : K) / 400) = 16777218 ∧
      binary32.round ((6710887936 : K) / 400) = 16777220 := by
  constructor
  · exact Single.binary32_round_eq 8388609 1 (by norm_num) (by norm_num) (by norm_num)
      (by norm_num [abs_le]) fun h => by norm_num at h
  · exact Single.binary32_round_eq 8388610 1 (by norm_num) (by norm_num) (by norm_num)
      (by norm_num [abs_le]) fun h => by norm_num at h

/-- The numbers around `6710887424` are rounded to multiples of 512, this one from 256
above it on. -/
theorem round_ratio : binary32.round (6710887680 : K) = 6710887424 :=
  Single.binary32_round_eq 13107202 9 (by norm_num) (by norm_num) (by norm_num) (by norm_num)
    fun _ => by norm_num

/-- A large ratio is rounded to at least the next float. -/
theorem round_ratio_of_lt {q : K} (h : 6710887680 < q) : 6710887936 ≤ binary32.round q := by
  obtain ⟨y, hyq, hlow, hhigh⟩ : ∃ y ≤ q, 6710887680 < y ∧ y ≤ 6710887936 :=
    ⟨min q 6710887936, min_le_left _ _, lt_min h (by norm_num), min_le_right _ _⟩
  have hdist : |y - 6710887936| = 6710887936 - y := by
    rw [abs_of_nonpos (by linarith), neg_sub]
  have hround : binary32.round y = 6710887936 := by
    refine Single.binary32_round_eq 13107203 9 (by norm_num) ?_ ?_ ?_ fun heq => ?_
    · norm_num
      linarith
    · norm_num
      linarith
    · rw [hdist]
      norm_num
      linarith
    · rw [hdist] at heq
      norm_num at heq
      linarith
  rw [← hround]
  exact round_mono binary32 hyq

/-- The even integer behind it is exact. -/
theorem round_first : binary32.round (16777218 : K) = 16777218 :=
  Single.binary32_round_eq 8388609 1 (by norm_num) (by norm_num) (by norm_num) (by norm_num)
    fun h => by norm_num at h

/-- The rate of a bounded ratio is the nearest number, and the increment is small. -/
theorem increment_of_bounded {q : K} (hq0 : 0 ≤ q) (hq : q ≤ 6710887681) :
    ∃ r i, Single.sub (.num 1) (.num q) = .num r ∧
      Single.div (Single.abs (.num r)) (.num 400) = .num i ∧ 0 ≤ i ∧ i ≤ 16777218 ∧
      (0 ≤ r → i ≤ 1) := by
  have hlow : -(6710887424 : K) ≤ binary32.round (1 - q) := by
    have hle : -(6710887680 : K) ≤ 1 - q := by linarith
    exact neg_le_round_of_neg_le binary32 round_ratio hle
  have hhigh : binary32.round (1 - q) ≤ 1 := by
    have hle : 1 - q ≤ 1 := by linarith
    exact round_le_of_le binary32 Single.binary32_round_one hle
  set r := binary32.round (1 - q)
  have hrate : Single.sub (.num 1) (.num q) = .num r := by
    rw [Single.sub_num]
    refine Single.ofReal_eq_num (abs_le.mpr ⟨?_, ?_⟩)
    · norm_num
      linarith
    · norm_num
      linarith
  have habs : |r| ≤ 6710887424 := abs_le.mpr ⟨hlow, by linarith⟩
  have hdiv : |r| / 400 ≤ (6710887424 : K) / 400 := div_le_div_of_nonneg_right habs (by norm_num)
  have hdiv0 : 0 ≤ |r| / 400 := by positivity
  refine ⟨r, binary32.round (|r| / 400), hrate, ?_, Single.round_nonneg hdiv0, ?_, fun hr => ?_⟩
  · change (if (400 : K) = 0 then _ else Single.ofReal (|r| / 400)) = _
    rw [if_neg (by norm_num)]
    refine Single.ofReal_eq_num ?_
    rw [abs_of_nonneg hdiv0]
    refine hdiv.trans ?_
    norm_num
  · exact round_le_of_le binary32 round_increment.1 hdiv
  · have hsmall : |r| / 400 ≤ 1 := by
      rw [abs_of_nonneg hr]
      linarith
    exact round_le_of_le binary32 Single.binary32_round_one hsmall

/-- A larger ratio, or an infinite one, has an increment that is too large. -/
theorem increment_of_large {ratio : Single K}
    (h : ratio = .inf false ∨ ∃ q, ratio = .num q ∧ 6710887681 < q) :
    Single.AtMost (-6710887936) (Single.sub (.num 1) ratio) ∧
      Single.AtLeast 16777220 (Single.div (Single.abs (Single.sub (.num 1) ratio)) (.num 400)) := by
  have hrate : Single.AtMost (-6710887936) (Single.sub (.num 1) ratio) := by
    rcases h with rfl | ⟨q, rfl, hq⟩
    · rfl
    · rw [Single.sub_num]
      refine Single.atMost_ofReal ?_ (by norm_num)
      have hround := round_ratio_of_lt (q := -(1 - q)) (by linarith)
      rw [round_neg] at hround
      linarith
  refine ⟨hrate, ?_⟩
  cases hr : Single.sub (.num 1) ratio with
  | nan =>
    rw [hr] at hrate
    exact hrate.elim
  | inf negative =>
    change Single.AtLeast 16777220 (.inf (false != decide ((400 : K) < 0)))
    rw [decide_eq_false (by norm_num)]
    rfl
  | num r =>
    rw [hr] at hrate
    have hr' : r ≤ -6710887936 := hrate
    have habs : (6710887936 : K) ≤ |r| := by
      rw [abs_of_nonpos (by linarith)]
      linarith
    change Single.AtLeast 16777220 (if (400 : K) = 0 then _ else Single.ofReal (|r| / 400))
    rw [if_neg (by norm_num)]
    refine Single.atLeast_ofReal ?_ (by norm_num)
    rw [← round_increment.2]
    exact round_mono binary32 (div_le_div_of_nonneg_right habs (by norm_num))

end Rounding

section Wraps

variable {short : Prop} {fuel : ℕ} [IsStrictOrderedRing K]

/-- From `-(2^24 + 2)` on the wrap from below ends: every turn raises the floor. -/
theorem runs_wrapBelow {y : K} (hlow : -16777218 ≤ y) (hhigh : y ≤ 1)
    (hshort : fuel ≤ 16777218 → short) :
    Runs short (Single.Between 0 1)
      (whileLoop (fun x => Single.lt x (.num 0)) (fun x => Single.add x (.num 1)) fuel (.num y)) := by
  refine (runs_whileLoop (I := fun x => ∃ y : K, x = .num y ∧ -16777218 ≤ y ∧ y ≤ 1)
    (fun x => match x with | .num y => (-⌊y⌋).toNat | _ => 0) ?_ ⟨y, rfl, hlow, hhigh⟩
    fun hfuel => hshort (hfuel.trans ?_)).mono ?_
  · rintro _ ⟨y, rfl, hlow, -⟩ hcond
    have hneg : y < 0 := of_decide_eq_true hcond
    have hnum : Single.ofReal (y + 1) = .num (binary32.round (y + 1)) :=
      Single.ofReal_eq_num (abs_le.mpr ⟨by norm_num; linarith, by norm_num; linarith⟩)
    have hback : -16777216 ≤ binary32.round (y + 1) := by
      have hle : -(16777217 : K) ≤ y + 1 := by linarith
      exact neg_le_round_of_neg_le binary32 round_back hle
    have hup : binary32.round (y + 1) ≤ 1 := by
      have hle : y + 1 ≤ 1 := by linarith
      exact round_le_of_le binary32 Single.binary32_round_one hle
    have hfloor : ⌊y⌋ < 0 := Int.floor_lt.mpr (by exact_mod_cast hneg)
    have hfloor' : -16777218 ≤ ⌊y⌋ := Int.le_floor.mpr (by exact_mod_cast hlow)
    have hraise : ⌊y⌋ + 1 ≤ ⌊binary32.round (y + 1)⌋ := by
      rw [Int.le_floor]
      rcases hfloor'.eq_or_lt with heq | hlt
      · rw [← heq]
        refine le_trans ?_ hback
        norm_num
      · -- the floor is a number of the format, so rounding does not pass it
        have hkeep := Single.binary32_round_intCast (K := K) (k := ⌊y⌋ + 1) (by omega)
        rw [← hkeep]
        refine round_mono binary32 ?_
        push_cast
        linarith [Int.floor_le y]
    change (∃ z : K, Single.ofReal (y + 1) = .num z ∧ -16777218 ≤ z ∧ z ≤ 1) ∧
      (match Single.ofReal (y + 1) with | .num y => (-⌊y⌋).toNat | _ => 0) < (-⌊y⌋).toNat
    have hfewer : (-⌊binary32.round (y + 1)⌋).toNat < (-⌊y⌋).toNat := by omega
    rw [hnum]
    exact ⟨⟨_, rfl, by linarith, hup⟩, hfewer⟩
  · have hfloor : -16777218 ≤ ⌊y⌋ := Int.le_floor.mpr (by exact_mod_cast hlow)
    change (-⌊y⌋).toNat ≤ 16777218
    omega
  · rintro _ ⟨⟨y, rfl, -, hhigh⟩, hstop⟩
    have hnonneg : 0 ≤ y := not_lt.mp (of_decide_eq_false hstop)
    exact ⟨y, rfl, by push_cast; linarith, by push_cast; linarith⟩

/-- From `-(2^24 + 4)` on downwards it never does. -/
theorem wrapBelow_running {x : Single K} (hx : Single.AtMost (-16777220) x) :
    whileLoop (fun x => Single.lt x (.num 0)) (fun x => Single.add x (.num 1)) fuel x =
      .error .running := by
  refine whileLoop_running (I := Single.AtMost (-16777220)) (fun x hx => ?_) hx fuel
  cases x with
  | nan => exact hx.elim
  | inf negative => exact ⟨hx, hx⟩
  | num y =>
    have hle : y ≤ -16777220 := hx
    refine ⟨decide_eq_true (by linarith), Single.atMost_ofReal ?_ (by norm_num)⟩
    exact round_le_neg_of_le_neg binary32 round_stuck (by linarith)

/-- The wrap from above turns at most twice. -/
theorem runs_wrapAbove {x : Single K} (hx : Single.Between 0 2 x) (hshort : fuel ≤ 2 → short) :
    Runs short (Single.Between 0 1)
      (whileLoop (fun x => Single.le (.num 1) x) (fun x => Single.sub x (.num 1)) fuel x) := by
  refine (runs_whileLoop (I := Single.Between 0 2)
    (fun x : Single K => match x with | .num y => if y < 1 then 0 else if y = 1 then 1 else 2 | _ => 0)
    ?_ hx fun hfuel => hshort (hfuel.trans ?_)).mono ?_
  · rintro _ ⟨y, rfl, -, hhigh⟩ hcond
    have hle : 1 ≤ y := of_decide_eq_true hcond
    push_cast at hhigh
    rw [Single.sub_num]
    obtain ⟨z, hz, hz0, hz1⟩ := Single.ofReal_between (q := y - 1) (a := 0) (b := 1) (by decide)
      (by decide) ⟨by push_cast; linarith, by push_cast; linarith⟩
    push_cast at hz0 hz1
    refine ⟨⟨z, hz, by push_cast; linarith, by push_cast; linarith⟩, ?_⟩
    rw [hz]
    dsimp only
    rw [if_neg (not_lt.mpr hle)]
    by_cases hone : y = 1
    · have hzero : z = 0 := by
        rw [hone, sub_self, Single.ofReal_zero] at hz
        exact (Single.num.inj hz).symm
      rw [if_pos hone, hzero, if_pos one_pos]
      exact Nat.one_pos
    · rw [if_neg hone]
      split_ifs with hlt heq
      · exact Nat.two_pos
      · exact Nat.one_lt_two
      · exact absurd (le_antisymm hz1 (not_lt.mp hlt)) heq
  · split
    · split_ifs <;> omega
    · omega
  · rintro _ ⟨⟨y, rfl, hlow, -⟩, hstop⟩
    have hlt : y < 1 := not_le.mp (of_decide_eq_false hstop)
    exact ⟨y, rfl, hlow, by push_cast; linarith⟩

end Wraps

/-- A ratio whose increment is small enough. -/
def RatioBounded (ratio : Single K) : Prop := ∃ q, ratio = .num q ∧ q ≤ 6710887681

/-- The ratio of an option. -/
def ratioOf (pow : Single K → Single K) (semitones : Single K) : Single K :=
  pow (Single.div semitones (.num ((12 : ℕ) : K)))

section Process

variable [IsStrictOrderedRing K] {pow : Single K → Single K} {short : Prop} {fuel : ℕ}
  {semitones : Single K} {s : PitchShifter (Single K)}

/-- The delay changes by one less the ratio. -/
theorem delayChangeRate_eq :
    delayChangeRate (singleNumbers pow) semitones = Single.sub (.num 1) (ratioOf pow semitones) := by
  unfold delayChangeRate ratioOf
  rw [ofInt_one, ofInt_eq (by decide), Int.cast_ofNat, Nat.cast_ofNat]
  rfl

/-- The phase advances by the size of that change over the longest delay. -/
theorem phaseIncrement_eq (hs : HoldsSingle s) :
    phaseIncrement (singleNumbers pow) s semitones =
      Single.div (Single.abs (Single.sub (.num 1) (ratioOf pow semitones))) (.num 400) := by
  unfold phaseIncrement
  rw [delayChangeRate_eq, hs.maxDelay_eq, ofInt_eq (by decide), Int.cast_natCast, Nat.cast_ofNat]
  rfl

/-- With a bounded ratio the advance of the phase ends. -/
theorem runs_advancePhase_single (hs : HoldsSingle s) (hpos : Single.AtLeast 0 (ratioOf pow semitones))
    (hratio : RatioBounded (ratioOf pow semitones)) {p : Single K} (hp : Single.Between 0 1 p)
    (hshort : fuel ≤ 16777218 → short) :
    Runs short (Single.Between 0 1)
      (advancePhase (singleNumbers pow) fuel p (delayChangeRate (singleNumbers pow) semitones)
        (phaseIncrement (singleNumbers pow) s semitones)) := by
  obtain ⟨q, hq, hq1⟩ := hratio
  rw [hq] at hpos
  obtain ⟨r, i, hr, hi, hi0, hi1, hsmall⟩ := increment_of_bounded (show 0 ≤ q from hpos) hq1
  obtain ⟨x, rfl, hx0, hx1⟩ := hp
  push_cast at hx0 hx1
  unfold advancePhase
  rw [phaseIncrement_eq hs, delayChangeRate_eq, hq, hr, hi, ofInt_zero, ofInt_one]
  by_cases hneg : r < 0
  · have htest : (singleNumbers pow).lt (.num r) (.num 0) = true := decide_eq_true hneg
    rw [if_pos htest]
    change Runs short _ (whileLoop (fun x => Single.lt x (.num 0)) (fun x => Single.add x (.num 1))
      fuel (Single.sub (.num x) (.num i)))
    have hround : -16777218 ≤ binary32.round (x - i) := by
      have hle : -(16777218 : K) ≤ x - i := by linarith
      exact neg_le_round_of_neg_le binary32 round_first hle
    have hround' : binary32.round (x - i) ≤ 1 := by
      have hle : x - i ≤ 1 := by linarith
      exact round_le_of_le binary32 Single.binary32_round_one hle
    have habs : |x - i| ≤ 2 ^ 127 :=
      abs_le.mpr ⟨by norm_num; linarith, by norm_num; linarith⟩
    rw [Single.sub_num, Single.ofReal_eq_num habs]
    exact runs_wrapBelow hround hround' hshort
  · have htest : ¬ (singleNumbers pow).lt (.num r) (.num 0) = true := fun h =>
      hneg (of_decide_eq_true h)
    rw [if_neg htest]
    change Runs short _ (whileLoop (fun x => Single.le (.num 1) x) (fun x => Single.sub x (.num 1))
      fuel (Single.ofReal (x + i)))
    have hi2 := hsmall (not_lt.mp hneg)
    refine runs_wrapAbove (Single.ofReal_between (by decide) (by decide) ⟨?_, ?_⟩)
      fun hfuel => hshort (hfuel.trans (by norm_num))
    · push_cast
      linarith
    · push_cast
      linarith

/-- With a larger ratio it never ends. -/
theorem advancePhase_running (hs : HoldsSingle s) (hpos : Single.AtLeast 0 (ratioOf pow semitones))
    (hratio : ¬ RatioBounded (ratioOf pow semitones)) {p : Single K} (hp : Single.Between 0 1 p) :
    advancePhase (singleNumbers pow) fuel p (delayChangeRate (singleNumbers pow) semitones)
      (phaseIncrement (singleNumbers pow) s semitones) = .error .running := by
  have hlarge : ratioOf pow semitones = .inf false ∨
      ∃ q, ratioOf pow semitones = .num q ∧ 6710887681 < q := by
    cases hr : ratioOf pow semitones with
    | nan =>
      rw [hr] at hpos
      exact hpos.elim
    | inf negative =>
      rw [hr] at hpos
      exact .inl (congrArg _ hpos)
    | num q => exact .inr ⟨q, rfl, lt_of_not_ge fun hle => hratio ⟨q, hr, hle⟩⟩
  obtain ⟨hrate, hincrement⟩ := increment_of_large hlarge
  obtain ⟨x, rfl, hx0, hx1⟩ := hp
  push_cast at hx0 hx1
  unfold advancePhase
  rw [phaseIncrement_eq hs, delayChangeRate_eq, ofInt_zero, ofInt_one]
  generalize Single.sub (.num 1) (ratioOf pow semitones) = rate at hrate hincrement ⊢
  have hneg : (singleNumbers pow).lt rate (.num 0) = true := by
    cases rate with
    | nan => exact hrate.elim
    | inf negative => exact hrate
    | num r =>
      have hr : r ≤ -6710887936 := hrate
      exact decide_eq_true (by linarith)
  generalize Single.div rate.abs (.num 400) = increment at hincrement ⊢
  rw [if_pos hneg]
  refine wrapBelow_running ?_
  cases increment with
  | nan => exact hincrement.elim
  | inf negative =>
    change Single.AtMost (-16777220) (.inf !negative)
    exact congrArg _ hincrement
  | num i =>
    have hi : 16777220 ≤ i := hincrement
    change Single.AtMost (-16777220) (Single.sub (.num x) (.num i))
    rw [Single.sub_num]
    refine Single.atMost_ofReal ?_ (by norm_num)
    exact round_le_neg_of_le_neg binary32 round_stuck (by linarith)

end Process

end HermesFlow.Pitch
