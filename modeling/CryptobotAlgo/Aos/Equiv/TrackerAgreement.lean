import CryptobotAlgo.Aos.Equiv.TrackerCalls
import Mathlib.Algebra.Order.BigOperators.Group.Multiset
import Mathlib.Tactic.FieldSimp

/-!
# When the trackers agree

`OnRemove` of an absent value leaves the extrema as they are, but changes the sum and the count of
the average, and the count may wrap (`removeOnly_disagree`).  In a history in which every value
that is removed is there, and no asset ever holds `2 ^ 64` values, the three trackers report values
for the same assets, and the average is between the extrema (`trackers_agree`).
-/

namespace CryptobotAlgo.Aos

variable {H T : Type} [DecidableEq H] [Field T] [LinearOrder T]

/-- What is expected of the three trackers after a history. -/
structure TrackersAgree (calls : List (TrackerCall H T)) (asset : H) : Prop where
  min_status : ((AvgTrackerDefault.after calls).getAvg asset).1 =
    ((MinTrackerDefault.after calls).getMin asset).1
  max_status : ((AvgTrackerDefault.after calls).getAvg asset).1 =
    ((MaxTrackerDefault.after calls).getMax asset).1
  min_le_avg : ((AvgTrackerDefault.after calls).getAvg asset).1 = true →
    ((MinTrackerDefault.after calls).getMin asset).2 ≤
      ((AvgTrackerDefault.after calls).getAvg asset).2
  avg_le_max : ((AvgTrackerDefault.after calls).getAvg asset).1 = true →
    ((AvgTrackerDefault.after calls).getAvg asset).2 ≤
      ((MaxTrackerDefault.after calls).getMax asset).2

omit [DecidableEq H] [Field T] in
/-- A value that is removed is there, and with one that is added there are less than `2 ^ 64`. -/
def Balanced (held : H → Multiset T) : TrackerCall H T → Prop
  | .onAdd asset _ => (held asset).card + 1 < 2 ^ 64
  | .onRemove asset value => value ∈ held asset

/-! ### The average -/

omit [LinearOrder T] [DecidableEq H] in
/-- A new tracker of the average follows the empty multiset. -/
theorem AvgTrackerDefault.tracks_new (asset : H) :
    ({} : AvgTrackerDefault H T).Tracks asset 0 := ⟨rfl, rfl⟩

/-- A call keeps the tracker with the multisets. -/
theorem AvgTrackerDefault.tracks_call (t : AvgTrackerDefault H T) (held : H → Multiset T)
    (c : TrackerCall H T) (h : ∀ asset, t.Tracks asset (held asset)) (hbalanced : Balanced held c)
    (asset : H) : (t.call c).Tracks asset (hold held c asset) := by
  refine forall_hold (R := fun asset values => (t.call c).Tracks asset values) ?_ ?_ asset
  · cases c with
    | onAdd asset value =>
      show (t.onAdd asset value).Tracks asset (hold held (.onAdd asset value) asset)
      rw [hold_onAdd_self]
      exact (h asset).onAdd value
    | onRemove asset value =>
      -- the sum and the count are those of the value and the ones that stay
      have hasset := h asset
      rw [← Multiset.cons_erase hbalanced] at hasset
      show (t.onRemove asset value).Tracks asset (hold held (.onRemove asset value) asset)
      rw [hold_onRemove_self]
      exact hasset.onRemove
  · intro asset hasset
    cases c with
    | onAdd changed value => exact (h asset).congr (t.onAdd_of_ne hasset value)
    | onRemove changed value => exact (h asset).congr (t.onRemove_of_ne hasset value)

/-! ### Histories -/

section History

variable {calls : List (TrackerCall H T)}

theorem avgTracker_tracks
    (h : ∀ pre c post, calls = pre ++ c :: post → Balanced (heldAfter pre) c) (asset : H) :
    (AvgTrackerDefault.after calls).Tracks asset (heldAfter calls asset) :=
  foldl_related
    (R := fun (t : AvgTrackerDefault H T) (held : H → Multiset T) =>
      ∀ asset, t.Tracks asset (held asset))
    AvgTrackerDefault.tracks_call AvgTrackerDefault.tracks_new h asset

omit [Field T] in
/-- A call keeps the number of values below `2 ^ 64`. -/
theorem card_hold_lt {held : H → Multiset T} {c : TrackerCall H T}
    (h : ∀ asset, (held asset).card < 2 ^ 64) (hbalanced : Balanced held c) (asset : H) :
    (hold held c asset).card < 2 ^ 64 := by
  refine forall_hold (R := fun _ values => values.card < 2 ^ 64) ?_ ?_ asset
  · cases c with
    | onAdd asset value =>
      show (hold held (.onAdd asset value) asset).card < 2 ^ 64
      rw [hold_onAdd_self, Multiset.card_cons]
      exact hbalanced
    | onRemove asset value =>
      show (hold held (.onRemove asset value) asset).card < 2 ^ 64
      have herase := Multiset.card_le_card (Multiset.erase_le value (held asset))
      have hbefore := h asset
      rw [hold_onRemove_self]
      omega
  · exact fun asset _ => h asset

omit [Field T] in
theorem card_heldAfter_lt
    (h : ∀ pre c post, calls = pre ++ c :: post → Balanced (heldAfter pre) c) (asset : H) :
    (heldAfter calls asset).card < 2 ^ 64 := by
  have hnone : ∀ asset : H, (0 : Multiset T).card < 2 ^ 64 := fun _ => by
    rw [Multiset.card_zero]
    exact Nat.two_pow_pos 64
  exact foldl_invariant (I := fun held : H → Multiset T => ∀ asset, (held asset).card < 2 ^ 64)
    (fun _ _ hcard hbalanced => card_hold_lt hcard hbalanced) hnone h asset

omit [Field T] in
theorem countFits_of_balanced
    (h : ∀ pre c post, calls = pre ++ c :: post → Balanced (heldAfter pre) c) :
    ∀ pre c post, calls = pre ++ c :: post → ExtremumTracker.CountFits (heldAfter pre) c := by
  rintro pre c post hcalls
  cases c with
  | onAdd asset value => trivial
  | onRemove asset value =>
    have hcard : (heldAfter pre asset).card < 2 ^ 64 := by
      refine card_heldAfter_lt (fun pre' d post' hpre => ?_) asset
      exact h pre' d (post' ++ .onRemove asset value :: post)
        (by rw [hcalls, hpre, List.append_assoc, List.cons_append])
    exact (Multiset.count_le_card value _).trans hcard.le

variable [IsStrictOrderedRing T]

omit [DecidableEq H] in
/-- The mean is between the bounds of the values. -/
theorem mean_mem_Icc {values : Multiset T} (hne : values ≠ 0) {a b : T}
    (ha : ∀ x ∈ values, a ≤ x) (hb : ∀ x ∈ values, x ≤ b) :
    a ≤ values.sum / values.card ∧ values.sum / values.card ≤ b := by
  have hpos : (0 : T) < values.card := Nat.cast_pos.mpr (Multiset.card_pos.mpr hne)
  have hlower := Multiset.card_nsmul_le_sum ha
  have hupper := Multiset.sum_le_card_nsmul values b hb
  rw [nsmul_eq_mul, mul_comm] at hlower hupper
  exact ⟨(le_div_iff₀ hpos).mpr hlower, (div_le_iff₀ hpos).mpr hupper⟩

theorem trackersAgree_of_balanced
    (h : ∀ pre c post, calls = pre ++ c :: post → Balanced (heldAfter pre) c) (asset : H) :
    TrackersAgree calls asset := by
  have havg := avgTracker_tracks h asset
  have hmin := minTracker_tracks calls (countFits_of_balanced h) asset
  have hmax := maxTracker_tracks calls (countFits_of_balanced h) asset
  have hmin_status := hmin.get_eq_true_iff
  have hmax_status := hmax.get_eq_true_iff
  -- without values none of the three trackers has an answer
  by_cases hzero : heldAfter calls asset = 0
  · rw [hzero] at havg
    have hnone : ((AvgTrackerDefault.after calls).getAvg asset).1 = false := by
      rw [havg.getAvg_zero]
    have hmin_none := Bool.eq_false_iff.mpr (mt hmin_status.mp (not_not_intro hzero))
    have hmax_none := Bool.eq_false_iff.mpr (mt hmax_status.mp (not_not_intro hzero))
    refine ⟨hnone.trans hmin_none.symm, hnone.trans hmax_none.symm, ?_, ?_⟩
    · intro htrue
      exact absurd (hnone.symm.trans htrue) Bool.false_ne_true
    · intro htrue
      exact absurd (hnone.symm.trans htrue) Bool.false_ne_true
  · have hvalue := havg.getAvg hzero (card_heldAfter_lt h asset)
    have hleast := isLeast_of_isExtremum (hmin.isExtremum_get (hmin_status.mpr hzero))
    have hgreatest := isGreatest_of_isExtremum (hmax.isExtremum_get (hmax_status.mpr hzero))
    have hmean := mean_mem_Icc hzero (fun x hx => hleast.2 hx) (fun x hx => hgreatest.2 hx)
    have htrue : ((AvgTrackerDefault.after calls).getAvg asset).1 = true := by rw [hvalue]
    have hsnd : ((AvgTrackerDefault.after calls).getAvg asset).2 =
        (heldAfter calls asset).sum / (heldAfter calls asset).card := by rw [hvalue]
    rw [← hsnd] at hmean
    exact ⟨htrue.trans (hmin_status.mpr hzero).symm, htrue.trans (hmax_status.mpr hzero).symm,
      fun _ => hmean.1, fun _ => hmean.2⟩

end History

/-- **The trackers agree** after every part of a history in which every value that is removed is
there, and no asset ever holds `2 ^ 64` values. -/
theorem trackers_agree [IsStrictOrderedRing T] (calls : List (TrackerCall H T))
    (h : ∀ pre c post, calls = pre ++ c :: post → Balanced (heldAfter pre) c) (pre : List _)
    (hpre : pre <+: calls) (asset : H) : TrackersAgree pre asset := by
  obtain ⟨post, hpost⟩ := hpre
  refine trackersAgree_of_balanced (fun pre' c post' hpre' => ?_) asset
  exact h pre' c (post' ++ post) (by rw [← hpost, hpre', List.append_assoc, List.cons_append])

/-- Values of an asset, one of which is removed. -/
def balancedCalls : List (TrackerCall String ℚ) :=
  [.onAdd "a" 2, .onAdd "a" 1, .onAdd "a" 4, .onRemove "a" 1]

theorem trackers_agree_balancedCalls : TrackersAgree balancedCalls "a" := by
  have hremoved : (1 : ℚ) ∈ heldAfter [.onAdd "a" 2, .onAdd "a" 1, .onAdd "a" 4] "a" := by
    decide +kernel
  refine trackers_agree balancedCalls ?_ balancedCalls List.prefix_rfl "a"
  unfold balancedCalls
  rw [forall_split_cons, forall_split_cons, forall_split_cons, forall_split_cons]
  refine ⟨?_, ?_, ?_, hremoved, forall_split_nil⟩
  · show 0 + 1 < 2 ^ 64
    decide
  · show 1 + 1 < 2 ^ 64
    decide
  · show 2 + 1 < 2 ^ 64
    decide

/-- A value is removed before there is one. -/
def removeOnly : List (TrackerCall String ℚ) := [.onRemove "a" 1]

/-- There is an average, but no least value. -/
theorem removeOnly_disagree :
    ((AvgTrackerDefault.after removeOnly).getAvg "a").1 = true ∧
      ((MinTrackerDefault.after removeOnly).getMin "a").1 = false := by
  decide +kernel

end CryptobotAlgo.Aos
