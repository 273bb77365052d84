import CryptobotAlgo.Aos.DeviationTracker
import CryptobotAlgo.Aos.Equiv.TrackerCalls

/-!
# When the threshold agrees with the ratio

The test of the threshold divides by the average itself.  For an average below `0` it compares the
negated ratio with the threshold, and is wrong where the threshold is between the negated ratio and
the ratio (`thresholdAgrees_iff`).
-/

namespace CryptobotAlgo.Aos

variable {H T : Type} [Field T] [LinearOrder T]

/-- The test has the status of the ratio, and compares it with the threshold. -/
structure ThresholdAgrees (t : DeviationTrackerDefault H T) (asset : H) (value threshold : T) :
    Prop where
  status : (t.isDeviationRatioAboveThreshold asset value threshold).1 =
    (t.getDeviationRatioAbs asset value).1
  result : (t.isDeviationRatioAboveThreshold asset value threshold).1 = true →
    ((t.isDeviationRatioAboveThreshold asset value threshold).2 = true ↔
      (t.getDeviationRatioAbs asset value).2 > threshold)

/-- There is an average, it is below `0`, and the threshold is between the negated ratio and the
ratio. -/
def Misjudged (t : AvgTrackerDefault H T) (asset : H) (value threshold : T) : Prop :=
  (t.getAvg asset).1 = true ∧ (t.getAvg asset).2 < 0 ∧
    -|value - (t.getAvg asset).2| ≤ threshold * |(t.getAvg asset).2| ∧
    threshold * |(t.getAvg asset).2| < |value - (t.getAvg asset).2|

namespace DeviationTrackerDefault

variable {t : DeviationTrackerDefault H T} {asset : H}

/-- Without an average, or with the average `0`, there is no ratio. -/
theorem no_ratio (h : (t.avgTracker.getAvg asset).1 = false ∨ (t.avgTracker.getAvg asset).2 = 0)
    (value threshold : T) :
    t.isDeviationRatioAboveThreshold asset value threshold = (false, false) ∧
      t.getDeviationRatioAbs asset value = (false, 0) := by
  unfold isDeviationRatioAboveThreshold getDeviationRatioAbs
  rcases hpair : t.avgTracker.getAvg asset with ⟨status, avg⟩
  rw [hpair] at h
  rcases h with rfl | rfl
  · exact ⟨rfl, rfl⟩
  · cases status <;> simp

/-- Both ratios, where there are. -/
theorem ratios (hstatus : (t.avgTracker.getAvg asset).1 = true)
    (hne : (t.avgTracker.getAvg asset).2 ≠ 0) (value threshold : T) :
    t.isDeviationRatioAboveThreshold asset value threshold =
        (true, decide (|value - (t.avgTracker.getAvg asset).2| / (t.avgTracker.getAvg asset).2 >
          threshold)) ∧
      t.getDeviationRatioAbs asset value =
        (true, |value - (t.avgTracker.getAvg asset).2| / |(t.avgTracker.getAvg asset).2|) := by
  unfold isDeviationRatioAboveThreshold getDeviationRatioAbs
  rcases hpair : t.avgTracker.getAvg asset with ⟨status, avg⟩
  rw [hpair] at hstatus hne
  dsimp only at hstatus hne
  subst hstatus
  simp [hne]

end DeviationTrackerDefault

variable [IsStrictOrderedRing T]

/-- For an average below `0`, the two comparisons differ where the threshold is between the negated
ratio and the ratio. -/
theorem comparisons_iff {avg : T} (havg : avg < 0) (value threshold : T) :
    (|value - avg| / avg > threshold ↔ |value - avg| / |avg| > threshold) ↔
      ¬ (-|value - avg| ≤ threshold * |avg| ∧ threshold * |avg| < |value - avg|) := by
  -- both comparisons, with the positive divisor `|avg|` on the other side
  have hpos : 0 < |avg| := abs_pos.mpr havg.ne
  have hneg : avg = -|avg| := by rw [abs_of_neg havg, neg_neg]
  have hdev : 0 ≤ |value - avg| := abs_nonneg _
  have hcode : |value - avg| / avg > threshold ↔ threshold * |avg| < -|value - avg| := by
    have hdiv : |value - avg| / avg = -|value - avg| / |avg| := by
      rw [neg_div, ← div_neg, ← hneg]
    rw [hdiv]
    exact lt_div_iff₀ hpos
  have hspec : |value - avg| / |avg| > threshold ↔ threshold * |avg| < |value - avg| :=
    lt_div_iff₀ hpos
  rw [hcode, hspec]
  constructor
  · rintro h ⟨hlower, hupper⟩
    exact absurd (h.mpr hupper) (not_lt.mpr hlower)
  · intro h
    constructor
    · intro hlt
      exact hlt.trans_le (neg_le_self hdev)
    · intro hlt
      by_contra hle
      exact h ⟨not_lt.mp hle, hlt⟩

/-- **The threshold** agrees with the ratio exactly where it is not misjudged. -/
theorem thresholdAgrees_iff [DecidableEq H] (calls : List (TrackerCall H T)) (asset : H)
    (value threshold : T) :
    ThresholdAgrees ⟨AvgTrackerDefault.after calls⟩ asset value threshold ↔
      ¬ Misjudged (AvgTrackerDefault.after calls) asset value threshold := by
  generalize AvgTrackerDefault.after calls = avgTracker
  by_cases hnone : (avgTracker.getAvg asset).1 = false ∨ (avgTracker.getAvg asset).2 = 0
  · obtain ⟨hcode, hspec⟩ := DeviationTrackerDefault.no_ratio (t := ⟨avgTracker⟩) hnone value
      threshold
    refine iff_of_true ⟨by rw [hcode, hspec], by rw [hcode]; exact nofun⟩ ?_
    rintro ⟨hstatus, hneg, -⟩
    rcases hnone with hfalse | hzero
    · exact absurd (hfalse.symm.trans hstatus) Bool.false_ne_true
    · exact absurd hzero hneg.ne
  · obtain ⟨hstatus, hne⟩ := not_or.mp hnone
    rw [Bool.not_eq_false] at hstatus
    obtain ⟨hcode, hspec⟩ := DeviationTrackerDefault.ratios (t := ⟨avgTracker⟩) hstatus hne value
      threshold
    have hagrees : ThresholdAgrees ⟨avgTracker⟩ asset value threshold ↔
        (|value - (avgTracker.getAvg asset).2| / (avgTracker.getAvg asset).2 > threshold ↔
          |value - (avgTracker.getAvg asset).2| / |(avgTracker.getAvg asset).2| > threshold) := by
      constructor
      · intro h
        have hresult := h.result (by rw [hcode])
        rw [hcode, hspec, decide_eq_true_iff] at hresult
        exact hresult
      · intro h
        refine ⟨by rw [hcode, hspec], fun _ => ?_⟩
        rw [hcode, hspec, decide_eq_true_iff]
        exact h
    rw [hagrees]
    rcases lt_or_gt_of_ne hne with hneg | hpos
    · rw [comparisons_iff hneg]
      exact not_congr ⟨fun h => ⟨hstatus, hneg, h⟩, fun h => h.2.2⟩
    · rw [abs_of_pos hpos]
      exact iff_of_true Iff.rfl fun h => absurd h.2.1 hpos.not_gt

theorem thresholdAgrees_iff_positive :
    ThresholdAgrees (⟨AvgTrackerDefault.after [.onAdd "a" 2]⟩ : DeviationTrackerDefault String ℚ)
      "a" 3 (1 / 4) := by
  have hnonneg : ¬ ((AvgTrackerDefault.after [.onAdd "a" (2 : ℚ)]).getAvg "a").2 < 0 := by
    decide +kernel
  exact (thresholdAgrees_iff [.onAdd "a" 2] "a" 3 (1 / 4)).mpr fun h => hnonneg h.2.1

/-- The average is `-1`: the ratio `2` is above the threshold `0`, but the test says that it is
not. -/
theorem negativeAverage_misjudged :
    ((⟨AvgTrackerDefault.after [.onAdd "a" (-1)]⟩ :
        DeviationTrackerDefault String ℚ).isDeviationRatioAboveThreshold "a" 1 0) =
          (true, false) ∧
      ((⟨AvgTrackerDefault.after [.onAdd "a" (-1)]⟩ :
        DeviationTrackerDefault String ℚ).getDeviationRatioAbs "a" 1) = (true, 2) := by
  decide +kernel

end CryptobotAlgo.Aos
