import Mathlib.Algebra.Order.Ring.Int
import Mathlib.Algebra.Order.Ring.Nat
import Mathlib.Tactic.Ring

/-!
# Rollover of a sequence number

A sender counts without bound and transmits the count modulo `2 * half`. A
receiver remembers the lap and the place in it of the highest count received,
and places the next one in the lap that is closest. While counts stay less
than `half` from the highest one, it finds the sender's lap, up to the lap of
the first count it received and modulo `laps`.
-/

namespace HermesFlow.Rollover

/-- What the receiver remembers. -/
structure Tracker where
  /-- The lap of the highest count, modulo `laps`. -/
  lap : ℕ
  /-- Its place in the lap. -/
  place : ℕ
  deriving DecidableEq

/-- The lap of a received place, and the tracker after it. -/
def Tracker.receive (half laps : ℕ) (t : Tracker) (seq : ℕ) : ℕ × Tracker :=
  if t.place < half then
    if t.place + half < seq then ((t.lap + laps - 1) % laps, t)
    else (t.lap, { t with place := max t.place seq })
  else if seq + half < t.place then ((t.lap + 1) % laps, ⟨(t.lap + 1) % laps, seq⟩)
  else (t.lap, { t with place := max t.place seq })

/-- The tracker stands at count `h`, with the laps counted from `base`. -/
structure Tracks (half laps base h : ℕ) (t : Tracker) : Prop where
  /-- The lap of `h` counted from `base`. -/
  lap : (t.lap : ℤ) = ((h / (2 * half) : ℕ) - base : ℤ) % laps
  /-- The place of `h`. -/
  place : t.place = h % (2 * half)

variable {half laps base h : ℕ} {t : Tracker}

/-- Counts less than half a lap apart are in one lap or in neighbouring ones. -/
theorem lap_near {i : ℕ} (hhalf : 0 < half) (hlow : h < i + half) (hhigh : i < h + half) :
    i / (2 * half) ≤ h / (2 * half) + 1 ∧ h / (2 * half) ≤ i / (2 * half) + 1 := by
  have hpos : 0 < 2 * half := by omega
  constructor
  · rw [← Nat.add_div_right h hpos]
    exact Nat.div_le_div_right (by omega)
  · rw [← Nat.add_div_right i hpos]
    exact Nat.div_le_div_right (by omega)

/-- A receiver that has received nothing else stands at the count it starts with. -/
theorem tracks_first (half laps h : ℕ) :
    Tracks half laps (h / (2 * half)) h ⟨0, h % (2 * half)⟩ := by
  refine ⟨?_, rfl⟩
  rw [sub_self, Int.zero_emod]
  rfl

/-- The lap before that of the tracker. -/
theorem lap_pred (hlaps : 0 < laps) {lap : ℕ} {q : ℤ} (h : (lap : ℤ) = (q + 1) % laps) :
    (((lap + laps - 1) % laps : ℕ) : ℤ) = q % laps := by
  have hcast : ((lap + laps - 1 : ℕ) : ℤ) = lap + (laps - 1 : ℤ) := by omega
  rw [Int.natCast_emod, hcast, h, Int.emod_add_emod]
  have hshift : q + 1 + ((laps : ℤ) - 1) = q + laps := by ring
  rw [hshift, Int.add_emod_right]

/-- The lap after that of the tracker. -/
theorem lap_succ {lap : ℕ} {q : ℤ} (h : (lap : ℤ) = q % laps) :
    (((lap + 1) % laps : ℕ) : ℤ) = (q + 1) % laps := by
  rw [Int.natCast_emod, Nat.cast_add, Nat.cast_one, h, Int.emod_add_emod]

/-- The higher of two counts in one lap has the lap and the higher place. -/
theorem max_same_lap {i : ℕ} (h' : i / (2 * half) = h / (2 * half)) :
    max h i / (2 * half) = h / (2 * half) ∧
      max h i % (2 * half) = max (h % (2 * half)) (i % (2 * half)) := by
  have hh := Nat.div_add_mod h (2 * half)
  have hi := Nat.div_add_mod i (2 * half)
  rw [h'] at hi
  rcases Nat.le_total h i with hle | hle
  · rw [Nat.max_eq_right hle, Nat.max_eq_right (by omega)]
    exact ⟨h', rfl⟩
  · rw [Nat.max_eq_left hle, Nat.max_eq_left (by omega)]
    exact ⟨rfl, rfl⟩

/-- A tracker that stays in its lap stands at the higher of two counts in it. -/
theorem Tracks.same_lap {i : ℕ} (ht : Tracks half laps base h t)
    (h' : i / (2 * half) = h / (2 * half)) :
    Tracks half laps base (max h i) { t with place := max t.place (i % (2 * half)) } := by
  obtain ⟨hdiv, hmod⟩ := max_same_lap h'
  refine ⟨?_, ?_⟩
  · rw [hdiv]
    exact ht.lap
  · rw [hmod, ← ht.place]

/-- A count within the window of the highest one is placed in its own lap, and
the tracker stands at the higher of the two. -/
theorem receive_tracks {i : ℕ} (hhalf : 0 < half) (hlaps : 0 < laps) (ht : Tracks half laps base h t)
    (hlow : h < i + half) (hhigh : i < h + half) :
    ((t.receive half laps (i % (2 * half))).1 : ℤ) = ((i / (2 * half) : ℕ) - base : ℤ) % laps ∧
      Tracks half laps base (max h i) (t.receive half laps (i % (2 * half))).2 := by
  obtain ⟨hnext, hprev⟩ := lap_near hhalf hlow hhigh
  have hh := Nat.div_add_mod h (2 * half)
  have hi := Nat.div_add_mod i (2 * half)
  have hhmod := Nat.mod_lt h (show 0 < 2 * half by omega)
  have himod := Nat.mod_lt i (show 0 < 2 * half by omega)
  -- one lap more or less shifts a count by `2 * half`
  have hlater : i / (2 * half) = h / (2 * half) + 1 →
      2 * half * (i / (2 * half)) = 2 * half * (h / (2 * half)) + 2 * half :=
    fun heq => by rw [heq, Nat.mul_succ]
  have hearlier : h / (2 * half) = i / (2 * half) + 1 →
      2 * half * (h / (2 * half)) = 2 * half * (i / (2 * half)) + 2 * half :=
    fun heq => by rw [heq, Nat.mul_succ]
  have hequal : i / (2 * half) = h / (2 * half) →
      2 * half * (i / (2 * half)) = 2 * half * (h / (2 * half)) := fun heq => by rw [heq]
  have hcases : i / (2 * half) = h / (2 * half) + 1 ∨ i / (2 * half) = h / (2 * half) ∨
      h / (2 * half) = i / (2 * half) + 1 := by omega
  have hplace := ht.place
  unfold Tracker.receive
  split
  · split
    · have hlap : h / (2 * half) = i / (2 * half) + 1 := by omega
      have hmax : max h i = h := by
        have hmul := hearlier hlap
        omega
      refine ⟨lap_pred hlaps ?_, hmax.symm ▸ ht⟩
      rw [ht.lap, hlap]
      congr 1
      push_cast
      ring
    · have hlap : i / (2 * half) = h / (2 * half) := by omega
      exact ⟨hlap.symm ▸ ht.lap, ht.same_lap hlap⟩
  · split
    · have hlap : i / (2 * half) = h / (2 * half) + 1 := by omega
      have hmax : max h i = i := by
        have hmul := hlater hlap
        omega
      have hvalue : (((t.lap + 1) % laps : ℕ) : ℤ) =
          ((i / (2 * half) : ℕ) - base : ℤ) % laps := by
        rw [lap_succ ht.lap, hlap]
        congr 1
        push_cast
        ring
      refine ⟨hvalue, ?_⟩
      rw [hmax]
      exact ⟨hvalue, rfl⟩
    · have hlap : i / (2 * half) = h / (2 * half) := by omega
      exact ⟨hlap.symm ▸ ht.lap, ht.same_lap hlap⟩

end HermesFlow.Rollover
