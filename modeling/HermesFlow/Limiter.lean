import Mathlib.Analysis.SpecialFunctions.Artanh

/-!
# Limiters

A limiter leaves the values within a limit alone and bends the others by a
curve. With a monotone curve the order of two values can be lost only where the
limit separates them. The cast of real numbers to integers and the order of the
hyperbolic tangent are what such curves are made of.
-/

namespace HermesFlow.Limiter

section Limited

variable {α : Type*} [AddCommGroup α] [LinearOrder α]

/-- A limiter. -/
def limited (limit : α) (curve : α → α) (x : α) : α :=
  if x > limit ∨ x < -limit then curve x else x

/-- The values that it leaves alone. -/
def Within (limit x : α) : Prop := -limit ≤ x ∧ x ≤ limit

variable {limit : α} {curve : α → α}

/-- Within the limit a sample is kept. -/
theorem limited_of_within {x : α} (h : Within limit x) : limited limit curve x = x :=
  if_neg (not_or.mpr ⟨not_lt.mpr h.2, not_lt.mpr h.1⟩)

/-- Above the limit the curve is taken. -/
theorem limited_of_gt {x : α} (h : limit < x) : limited limit curve x = curve x := if_pos (.inl h)

/-- Below the limit the curve is taken. -/
theorem limited_of_lt {x : α} (h : x < -limit) : limited limit curve x = curve x := if_pos (.inr h)

/-- It is odd with its curve. -/
theorem limited_neg [IsOrderedAddMonoid α] (hodd : ∀ x, curve (-x) = -curve x) (x : α) :
    limited limit curve (-x) = -limited limit curve x := by
  rcases lt_or_ge limit x with hgt | hle
  · rw [limited_of_gt hgt, limited_of_lt (neg_lt_neg hgt), hodd]
  · rcases lt_or_ge x (-limit) with hlt | hge
    · rw [limited_of_lt hlt, limited_of_gt (lt_neg.mp hlt), hodd]
    · rw [limited_of_within ⟨hge, hle⟩, limited_of_within ⟨neg_le_neg hle, neg_le.mp hge⟩]

/-- It keeps the order of two values exactly if the curve does for one within the
limit and one beyond it. -/
theorem limited_le_iff (hmono : Monotone curve) {a b : α} (hab : a ≤ b) :
    limited limit curve a ≤ limited limit curve b ↔
      (Within limit a → limit < b → a ≤ curve b) ∧
        (Within limit b → a < -limit → curve a ≤ b) := by
  rcases lt_or_ge limit b with hb | hb
  · have hb' : ¬Within limit b := fun h => hb.not_ge h.2
    rw [limited_of_gt hb]
    rcases lt_or_ge a (-limit) with ha | ha
    · have ha' : ¬Within limit a := fun h => ha.not_ge h.1
      rw [limited_of_lt ha]
      exact iff_of_true (hmono hab) ⟨fun h => absurd h ha', fun h => absurd h hb'⟩
    · rcases lt_or_ge limit a with hgt | hle
      · have ha' : ¬Within limit a := fun h => hgt.not_ge h.2
        rw [limited_of_gt hgt]
        exact iff_of_true (hmono hab) ⟨fun h => absurd h ha', fun h => absurd h hb'⟩
      · rw [limited_of_within ⟨ha, hle⟩]
        exact ⟨fun h => ⟨fun _ _ => h, fun h' => absurd h' hb'⟩, fun h => h.1 ⟨ha, hle⟩ hb⟩
  · rcases lt_or_ge a (-limit) with ha | ha
    · have ha' : ¬Within limit a := fun h => ha.not_ge h.1
      rw [limited_of_lt ha]
      rcases lt_or_ge b (-limit) with hlt | hge
      · rw [limited_of_lt hlt]
        exact iff_of_true (hmono hab)
          ⟨fun h => absurd h ha', fun h => absurd h.1 hlt.not_ge⟩
      · rw [limited_of_within ⟨hge, hb⟩]
        exact ⟨fun h => ⟨fun h' => absurd h' ha', fun _ _ => h⟩, fun h => h.2 ⟨hge, hb⟩ ha⟩
    · rw [limited_of_within ⟨ha, hab.trans hb⟩, limited_of_within ⟨ha.trans hab, hb⟩]
      exact iff_of_true hab
        ⟨fun _ h => absurd h hb.not_gt, fun _ h => absurd h ha.not_gt⟩

end Limited

section Truncate

/-- The cast of a real number to an integer is toward zero. -/
noncomputable def truncate (x : ℝ) : ℤ := if 0 ≤ x then ⌊x⌋ else ⌈x⌉

/-- Numbers that are not negative are truncated downwards. -/
theorem truncate_of_nonneg {x : ℝ} (h : 0 ≤ x) : truncate x = ⌊x⌋ := if_pos h

/-- Negative numbers are truncated upwards. -/
theorem truncate_of_neg {x : ℝ} (h : x < 0) : truncate x = ⌈x⌉ := if_neg h.not_ge

/-- Truncation is odd. -/
theorem truncate_neg (x : ℝ) : truncate (-x) = -truncate x := by
  rcases lt_trichotomy x 0 with h | rfl | h
  · rw [truncate_of_neg h, truncate_of_nonneg (neg_nonneg.mpr h.le), Int.floor_neg]
  · rw [neg_zero, truncate_of_nonneg le_rfl, Int.floor_zero, neg_zero]
  · rw [truncate_of_nonneg h.le, truncate_of_neg (neg_neg_iff_pos.mpr h), Int.ceil_neg]

/-- Truncation is monotone. -/
theorem truncate_mono : Monotone truncate := by
  intro x y hxy
  rcases lt_or_ge x 0 with hx | hx
  · rw [truncate_of_neg hx]
    rcases lt_or_ge y 0 with hy | hy
    · rw [truncate_of_neg hy]
      exact Int.ceil_mono hxy
    · rw [truncate_of_nonneg hy]
      have hceil : ⌈x⌉ ≤ 0 := Int.ceil_le.mpr (by exact_mod_cast hx.le)
      exact hceil.trans (Int.floor_nonneg.mpr hy)
  · rw [truncate_of_nonneg hx, truncate_of_nonneg (hx.trans hxy)]
    exact Int.floor_mono hxy

/-- An integer that is at most a number is at most what the cast leaves of it. -/
theorem le_truncate_iff {n : ℤ} {x : ℝ} (hx : 0 ≤ x) : n ≤ truncate x ↔ (n : ℝ) ≤ x := by
  rw [truncate_of_nonneg hx, Int.le_floor]

/-- Truncation does not go above an integer bound. -/
theorem truncate_le {n : ℕ} {x : ℝ} (hx : x ≤ n) : truncate x ≤ n := by
  have h := truncate_mono hx
  rwa [truncate_of_nonneg (Nat.cast_nonneg n), Int.floor_natCast] at h

end Truncate

section Tanh

open Real

/-- The hyperbolic tangent is monotone. -/
theorem monotone_tanh : Monotone tanh := by
  intro x y hxy
  rw [← artanh_le_artanh_iff ⟨neg_one_lt_tanh x, tanh_lt_one x⟩ ⟨neg_one_lt_tanh y, tanh_lt_one y⟩,
    artanh_tanh, artanh_tanh]
  exact hxy

/-- A bound on the tangent is one on its argument. -/
theorem le_tanh_iff {x y : ℝ} (hx : x ∈ Set.Ioo (-1) 1) : x ≤ tanh y ↔ artanh x ≤ y := by
  rw [← artanh_le_artanh_iff hx ⟨neg_one_lt_tanh y, tanh_lt_one y⟩, artanh_tanh]

end Tanh

end HermesFlow.Limiter
