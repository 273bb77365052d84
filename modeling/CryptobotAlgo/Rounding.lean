import Mathlib.Algebra.Order.Round
import Mathlib.Algebra.Order.Floor.Ring
import Mathlib.Tactic.FieldSimp
import Mathlib.Tactic.Linarith
import Mathlib.Tactic.Ring

/-!
# Rounding to multiples of a step

`roundHalfAway` is the usual rounding to the nearest integer.  The multiple of a step that it gives
is a nearest one (`exists_abs_sub_lt_iff`), and rounding up gives the least multiple that is not
below a value (`isLeast_ceil_mul`).  To add upper bounds to a set that has a least element, it is
enough to try that element (`inter_nonempty_iff_of_isLeast`).
-/

namespace CryptobotAlgo

section Order

variable {α : Type*} [Preorder α] {s t : Set α} {a : α}

/-- Where the least element of `s` violates the upper bounds, so does every element. -/
theorem inter_nonempty_iff_of_isLeast (h : IsLeast s a) (ht : IsLowerSet t) :
    (s ∩ t).Nonempty ↔ a ∈ t := by
  constructor
  · rintro ⟨b, hs, hb⟩
    exact ht (h.2 hs) hb
  · intro ha
    exact ⟨a, h.1, ha⟩

theorem isLeast_inter_of_isLeast (h : IsLeast s a) (ha : a ∈ t) : IsLeast (s ∩ t) a :=
  ⟨⟨h.1, ha⟩, fun _ hb => h.2 hb.1⟩

end Order

section Field

variable {K : Type*} [Field K] [LinearOrder K] [FloorRing K]

/-- The nearest integer; of two that are equally near, the one which is farther from `0`. -/
def roundHalfAway (x : K) : ℤ := if 0 ≤ x then ⌊x + 1 / 2⌋ else ⌈x - 1 / 2⌉

variable [IsStrictOrderedRing K]

/-- No integer is nearer. -/
theorem abs_sub_roundHalfAway_le (x : K) (k : ℤ) : |x - roundHalfAway x| ≤ |x - k| := by
  unfold roundHalfAway
  split_ifs with hx
  · rw [← round_eq x]
    exact round_le x k
  -- below `0` it mirrors `round`, which rounds the middle up
  · have hceil : ⌈x - 1 / 2⌉ = -round (-x) := by
      rw [round_eq, ← Int.ceil_neg]
      congr 1
      ring
    have hnearest := round_le (-x) (-k)
    rw [hceil, Int.cast_neg]
    rw [Int.cast_neg, ← abs_neg] at hnearest
    calc |x - -(round (-x) : K)| = |-(-x - (round (-x) : K))| := by congr 1; ring
      _ ≤ |-x - -(k : K)| := hnearest
      _ = |x - k| := by rw [← abs_neg]; congr 1; ring

/-- A multiple of the step is near exactly when the one that rounding gives is. -/
theorem exists_abs_sub_lt_iff {step : K} (hstep : 0 < step) (value eps : K) :
    |value - roundHalfAway (value / step) * step| < eps ↔ ∃ k : ℤ, |value - k * step| < eps := by
  have hscale : ∀ k : ℤ, |value - k * step| = |value / step - k| * step := by
    intro k
    have hdiff : value - k * step = (value / step - k) * step := by field_simp
    rw [hdiff, abs_mul, abs_of_pos hstep]
  constructor
  · intro h
    exact ⟨_, h⟩
  · rintro ⟨k, hk⟩
    have hnearest := abs_sub_roundHalfAway_le (value / step) k
    calc |value - roundHalfAway (value / step) * step|
        = |value / step - roundHalfAway (value / step)| * step := hscale _
      _ ≤ |value / step - k| * step := mul_le_mul_of_nonneg_right hnearest hstep.le
      _ = |value - k * step| := (hscale k).symm
      _ < eps := hk

/-- Rounding up gives the least multiple of the step that is not below the value. -/
theorem isLeast_ceil_mul {step : K} (hstep : 0 < step) (value : K) :
    IsLeast {q | (∃ k : ℤ, q = k * step) ∧ value ≤ q} (⌈value / step⌉ * step) := by
  constructor
  · exact ⟨⟨_, rfl⟩, (div_le_iff₀ hstep).mp (Int.le_ceil _)⟩
  · rintro q ⟨⟨k, rfl⟩, hk⟩
    have hceil : ⌈value / step⌉ ≤ k := Int.ceil_le.mpr ((div_le_iff₀ hstep).mpr hk)
    have hcast : ((⌈value / step⌉ : ℤ) : K) ≤ k := Int.cast_le.mpr hceil
    exact mul_le_mul_of_nonneg_right hcast hstep.le

end Field

end CryptobotAlgo
