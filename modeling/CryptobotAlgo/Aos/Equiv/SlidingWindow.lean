import CryptobotAlgo.Aos.Equiv.Trackers
import CryptobotAlgo.Aos.SlidingWindow
import Mathlib.Algebra.Field.Rat
import Mathlib.Algebra.Order.Ring.Rat
import Mathlib.Data.List.DropRight
import Mathlib.Data.List.Induction

/-!
# The sliding window storage keeps the latest values

`slidingWindow_contract`: after any calls of `AddData`, the data of an asset are its latest values,
at most `window_size_` of them, and the trackers report the mean, the minimum and the maximum of
exactly these; a call does not change what the storage reports for another asset.

The trackers follow the window as a multiset (`Follows`); its length is at most `window_size_ + 1`
at any time, so the counts of the trackers do not wrap.
-/

namespace CryptobotAlgo.Aos

namespace SlidingWindowStorageDefault

variable {H T : Type} [DecidableEq H] [Field T] [LinearOrder T]

/-- The storage after some calls of `AddData`. -/
def afterAdds (windowSize : Int32) (adds : List (H × T)) : SlidingWindowStorageDefault H T :=
  adds.foldl (fun s add => s.addData add.1 add.2) { windowSize }

/-- The values added for an asset, in order. -/
def valuesOf (asset : H) (adds : List (H × T)) : List T :=
  (adds.filter (fun add => add.1 = asset)).map Prod.snd

/-- The storage reports exactly the values of `window` for the asset. -/
structure Reports (s : SlidingWindowStorageDefault H T) (asset : H) (window : List T) : Prop where
  data : s.getData asset = if window = [] then none else some window
  avg : s.getAvg asset = if window = [] then (false, 0) else (true, window.sum / window.length)
  min : s.getMin asset = answer window.min?
  max : s.getMax asset = answer window.max?

/-- Two storages report the same for the asset. -/
structure SameReports (s s' : SlidingWindowStorageDefault H T) (asset : H) : Prop where
  data : s'.getData asset = s.getData asset
  avg : s'.getAvg asset = s.getAvg asset
  min : s'.getMin asset = s.getMin asset
  max : s'.getMax asset = s.getMax asset

/-- The data of the asset are `window`, and the trackers follow it. -/
structure Follows (s : SlidingWindowStorageDefault H T) (asset : H) (window : List T) : Prop where
  data : s.data asset = if window = [] then none else some window
  avg : s.avgTracker.Tracks asset ↑window
  min : s.minTracker.Tracks (fun value element => element > value) asset ↑window
  max : s.maxTracker.Tracks (fun value element => element < value) asset ↑window

/-! ### The size of the window -/

omit [DecidableEq H] [Field T] [LinearOrder T] in
theorem sizeLimit_toNat {s : SlidingWindowStorageDefault H T} (h : 1 ≤ s.windowSize) :
    s.sizeLimit.toNat = s.windowSize.toNatClampNeg := by
  have hnonneg : 0 ≤ s.windowSize := Int32.le_trans (by decide) h
  have hnonneg' : 0 ≤ s.windowSize.toInt64 := by
    rw [← Int32.toInt64_le] at hnonneg
    exact hnonneg
  unfold sizeLimit
  rw [Int64.toNat_toUInt64_of_le hnonneg', Int32.toNatClampNeg_toInt64]

theorem toNatClampNeg_bounds {w : Int32} (h : 1 ≤ w) :
    1 ≤ w.toNatClampNeg ∧ w.toNatClampNeg < 2 ^ 31 := by
  have hone : (1 : Int32).toInt ≤ w.toInt := Int32.le_iff_toInt_le.mp h
  have hlt : w.toInt < 2 ^ 31 := w.toInt_lt
  have hone' : (1 : Int32).toInt = 1 := by decide
  unfold Int32.toNatClampNeg
  omega

/-! ### One call -/

section Step

variable {s : SlidingWindowStorageDefault H T} {asset : H} {window : List T}

theorem addData_windowSize (s : SlidingWindowStorageDefault H T) (asset : H) (value : T) :
    (s.addData asset value).windowSize = s.windowSize := by
  unfold addData
  dsimp only
  split
  · rfl
  · split_ifs <;> rfl

/-- The storage with the value in the trackers. -/
theorem addData_eq {value front : T} {rest : List T}
    (h : (s.data asset).getD [] ++ [value] = front :: rest) :
    s.addData asset value =
      if s.sizeLimit.toNat < (front :: rest).length then
        { s.updateTrackersOnAdd asset value with
          data := Function.update s.data asset (some rest) }.updateTrackersOnRemove asset front
      else
        { s.updateTrackersOnAdd asset value with
          data := Function.update s.data asset (some (front :: rest)) } := by
  unfold addData
  dsimp only
  rw [h]
  rfl

omit [DecidableEq H] in
theorem Follows.getD_data (h : s.Follows asset window) : (s.data asset).getD [] = window := by
  rw [h.data]
  split_ifs with hnil
  · exact hnil.symm
  · rfl

/-- `AddData` appends the value and drops what no longer fits. -/
theorem Follows.addData (hsize : 1 ≤ s.windowSize) (h : s.Follows asset window)
    (hlen : window.length ≤ s.windowSize.toNatClampNeg) (value : T) :
    (s.addData asset value).Follows asset
      ((window ++ [value]).rtake s.windowSize.toNatClampNeg) := by
  obtain ⟨hw, hw'⟩ := toNatClampNeg_bounds hsize
  obtain ⟨front, rest, hwindow⟩ : ∃ front rest, window ++ [value] = front :: rest :=
    List.exists_cons_of_ne_nil (by simp)
  have hcons : (value ::ₘ (window : Multiset T)) = front ::ₘ (rest : Multiset T) := by
    rw [Multiset.cons_coe, Multiset.cons_coe, ← hwindow, Multiset.coe_eq_coe]
    exact (List.perm_append_singleton value window).symm
  have hlength : rest.length = window.length := by
    have heq := congrArg List.length hwindow
    simpa using heq.symm
  have havg := h.avg.onAdd value
  have hmin := h.min.onAdd ExtremumTracker.firstKey_min value
  have hmax := h.max.onAdd ExtremumTracker.firstKey_max value
  rw [hcons] at havg hmin hmax
  rw [addData_eq (by rw [h.getD_data, hwindow]), sizeLimit_toNat hsize, hwindow]
  split_ifs with hfull
  · -- the first value drops out
    have hrest : (front :: rest).rtake s.windowSize.toNatClampNeg = rest := by
      rw [List.length_cons] at hfull
      have hdrop : (front :: rest).length - s.windowSize.toNatClampNeg = 1 := by
        rw [List.length_cons]
        omega
      rw [List.rtake, hdrop]
      rfl
    have hne : rest ≠ [] := by
      rintro rfl
      rw [List.length_cons, List.length_nil] at hfull
      omega
    have hmem : front ∈ front ::ₘ (rest : Multiset T) := Multiset.mem_cons_self ..
    have hcard : (front ::ₘ (rest : Multiset T)).card < 2 ^ 64 := by
      rw [Multiset.card_cons, Multiset.coe_card]
      omega
    have hmin' := hmin.onRemove ExtremumTracker.firstKey_min hcard hmem
    have hmax' := hmax.onRemove ExtremumTracker.firstKey_max hcard hmem
    rw [Multiset.erase_cons_head] at hmin' hmax'
    rw [hrest]
    refine ⟨?_, havg.onRemove, hmin', hmax'⟩
    rw [if_neg hne]
    exact Function.update_self ..
  · have hall : (front :: rest).rtake s.windowSize.toNatClampNeg = front :: rest := by
      rw [List.rtake, Nat.sub_eq_zero_of_le (not_lt.mp hfull), List.drop_zero]
    rw [hall]
    refine ⟨?_, havg, hmin, hmax⟩
    rw [if_neg (List.cons_ne_nil front rest)]
    exact Function.update_self ..

/-- A call leaves the data and the trackers of another asset as they are. -/
theorem addData_of_ne (s : SlidingWindowStorageDefault H T) {other : H} (h : other ≠ asset)
    (value : T) :
    (s.addData asset value).data other = s.data other ∧
      ((s.addData asset value).avgTracker.sums other = s.avgTracker.sums other ∧
        (s.addData asset value).avgTracker.counts other = s.avgTracker.counts other) ∧
      ((s.addData asset value).minTracker.frequency other = s.minTracker.frequency other ∧
        (s.addData asset value).minTracker.element other = s.minTracker.element other) ∧
      ((s.addData asset value).maxTracker.frequency other = s.maxTracker.frequency other ∧
        (s.addData asset value).maxTracker.element other = s.maxTracker.element other) := by
  obtain ⟨front, rest, hwindow⟩ : ∃ front rest, (s.data asset).getD [] ++ [value] = front :: rest :=
    List.exists_cons_of_ne_nil (by simp)
  have havg := s.avgTracker.onAdd_of_ne h value
  have hmin := ExtremumTracker.onAdd_of_ne (fun value element : T => element > value)
    s.minTracker asset value h
  have hmax := ExtremumTracker.onAdd_of_ne (fun value element : T => element < value)
    s.maxTracker asset value h
  rw [addData_eq hwindow]
  split_ifs
  · have havg' := (s.avgTracker.onAdd asset value).onRemove_of_ne h front
    have hmin' := ExtremumTracker.onRemove_of_ne (fun assetMap => assetMap.keys.min?)
      (MinTrackerDefault.onAdd s.minTracker asset value) h front
    have hmax' := ExtremumTracker.onRemove_of_ne (fun assetMap => assetMap.keys.max?)
      (MaxTrackerDefault.onAdd s.maxTracker asset value) h front
    exact ⟨Function.update_of_ne h .., ⟨havg'.1.trans havg.1, havg'.2.trans havg.2⟩,
      ⟨hmin'.1.trans hmin.1, hmin'.2.trans hmin.2⟩, ⟨hmax'.1.trans hmax.1, hmax'.2.trans hmax.2⟩⟩
  · exact ⟨Function.update_of_ne h .., havg, hmin, hmax⟩

theorem Follows.addData_of_ne {other : H} (hfollows : s.Follows other window) (h : other ≠ asset)
    (value : T) : (s.addData asset value).Follows other window := by
  obtain ⟨hdata, havg, hmin, hmax⟩ := SlidingWindowStorageDefault.addData_of_ne s h value
  constructor
  · rw [hdata]
    exact hfollows.data
  · exact hfollows.avg.congr havg
  · exact hfollows.min.congr hmin
  · exact hfollows.max.congr hmax

/-- A call does not change what is reported for another asset. -/
theorem sameReports_addData (s : SlidingWindowStorageDefault H T) {other : H} (h : other ≠ asset)
    (value : T) : SameReports s (s.addData asset value) other := by
  obtain ⟨hdata, ⟨hsums, hcounts⟩, ⟨-, hmin⟩, -, hmax⟩ := addData_of_ne s h value
  constructor
  · exact hdata
  · unfold getAvg AvgTrackerDefault.getAvg
    rw [hsums, hcounts]
  · unfold getMin MinTrackerDefault.getMin ExtremumTracker.get
    rw [hmin]
  · unfold getMax MaxTrackerDefault.getMax ExtremumTracker.get
    rw [hmax]

omit [DecidableEq H] in
/-- What the trackers follow is what the storage reports. -/
theorem Follows.reports (h : s.Follows asset window) (hlen : window.length < 2 ^ 64) :
    s.Reports asset window := by
  constructor
  · exact h.data
  · unfold getAvg
    split_ifs with hnil
    · subst hnil
      exact h.avg.getAvg_zero
    · have havg := h.avg.getAvg (by simpa using hnil) hlen
      rw [havg, Multiset.sum_coe, Multiset.coe_card]
  · rw [← h.min.element_eq_min]
    exact ExtremumTracker.get_eq_answer ..
  · rw [← h.max.element_eq_max]
    exact ExtremumTracker.get_eq_answer ..

end Step

/-! ### Runs -/

section Run

variable (windowSize : Int32)

theorem afterAdds_concat (adds : List (H × T)) (asset : H) (value : T) :
    afterAdds windowSize (adds ++ [(asset, value)]) =
      (afterAdds windowSize adds).addData asset value :=
  List.foldl_concat ..

theorem windowSize_afterAdds (adds : List (H × T)) :
    (afterAdds windowSize adds).windowSize = windowSize := by
  induction adds using List.reverseRecOn with
  | nil => rfl
  | append_singleton adds add ih =>
    rw [afterAdds_concat, addData_windowSize]
    exact ih

omit [Field T] [LinearOrder T] in
theorem valuesOf_concat (adds : List (H × T)) (asset : H) (value : T) :
    valuesOf asset (adds ++ [(asset, value)]) = valuesOf asset adds ++ [value] := by
  unfold valuesOf
  simp

omit [Field T] [LinearOrder T] in
theorem valuesOf_concat_of_ne (adds : List (H × T)) {asset other : H} (h : other ≠ asset)
    (value : T) : valuesOf other (adds ++ [(asset, value)]) = valuesOf other adds := by
  unfold valuesOf
  simp [h.symm]

omit [Field T] [LinearOrder T] [DecidableEq H] in
/-- Of the latest values, the latest are kept. -/
theorem rtake_rtake_concat (values : List T) (value : T) {n : ℕ} (hn : 1 ≤ n) :
    (values.rtake n ++ [value]).rtake n = (values ++ [value]).rtake n := by
  obtain ⟨k, rfl⟩ := Nat.exists_eq_add_of_le' hn
  rw [List.rtake_concat_succ, List.rtake_concat_succ, List.rtake_eq_reverse_take_reverse,
    List.rtake_eq_reverse_take_reverse, List.rtake_eq_reverse_take_reverse, List.reverse_reverse,
    List.take_take, Nat.min_eq_left (Nat.le_succ k)]

omit [Field T] [LinearOrder T] [DecidableEq H] in
theorem length_rtake_le (values : List T) (n : ℕ) : (values.rtake n).length ≤ n := by
  rw [List.rtake, List.length_drop]
  omega

omit [DecidableEq H] in
/-- The new storage follows no values. -/
theorem follows_new (asset : H) :
    ({ windowSize } : SlidingWindowStorageDefault H T).Follows asset [] where
  data := rfl
  avg := ⟨rfl, rfl⟩
  min := ExtremumTracker.tracks_new
  max := ExtremumTracker.tracks_new

variable {windowSize}

/-- The storage follows the latest values of every asset. -/
theorem follows_afterAdds (hsize : 1 ≤ windowSize) (adds : List (H × T)) (asset : H) :
    (afterAdds windowSize adds).Follows asset
      ((valuesOf asset adds).rtake windowSize.toNatClampNeg) := by
  induction adds using List.reverseRecOn with
  | nil =>
    have hnil : (valuesOf asset ([] : List (H × T))).rtake windowSize.toNatClampNeg = [] :=
      List.rtake_nil ..
    rw [hnil]
    exact follows_new windowSize asset
  | append_singleton adds add ih =>
    obtain ⟨asset', value⟩ := add
    have hw := windowSize_afterAdds windowSize adds
    rw [afterAdds_concat]
    by_cases hasset : asset = asset'
    · subst hasset
      rw [valuesOf_concat, ← rtake_rtake_concat _ _ (toNatClampNeg_bounds hsize).1]
      have hstep := ih.addData (by rw [hw]; exact hsize) (by rw [hw]; exact length_rtake_le ..)
        value
      rw [hw] at hstep
      exact hstep
    · rw [valuesOf_concat_of_ne _ hasset]
      exact ih.addData_of_ne hasset value

/-- **The contract**: after any calls of `AddData` with a window size of at least `1`, the storage
reports exactly the latest values of each asset, as many as fit into the window; one more call does
not change what it reports for another asset. -/
theorem slidingWindow_contract (hsize : 1 ≤ windowSize) (adds : List (H × T)) :
    (∀ asset, (afterAdds windowSize adds).Reports asset
      ((valuesOf asset adds).rtake windowSize.toNatClampNeg)) ∧
    ∀ asset value other, other ≠ asset →
      SameReports (afterAdds windowSize adds) (afterAdds windowSize (adds ++ [(asset, value)]))
        other := by
  constructor
  · intro asset
    have hlen := length_rtake_le (valuesOf asset adds) windowSize.toNatClampNeg
    have hsmall := (toNatClampNeg_bounds hsize).2
    exact (follows_afterAdds hsize adds asset).reports (by omega)
  · intro asset value other hother
    rw [afterAdds_concat]
    exact sameReports_addData _ hother value

end Run

/-- Some calls for two assets. -/
def someAdds : List (String × ℚ) := [("a", 3), ("b", 7), ("a", 1), ("a", 2)]

theorem slidingWindow_contract_someAdds :
    (∀ asset, (afterAdds 2 someAdds).Reports asset
      ((valuesOf asset someAdds).rtake (2 : Int32).toNatClampNeg)) ∧
    ∀ asset value other, other ≠ asset →
      SameReports (afterAdds 2 someAdds) (afterAdds 2 (someAdds ++ [(asset, value)])) other :=
  slidingWindow_contract (by decide) someAdds

example : (afterAdds 2 someAdds).getData "a" = some [1, 2] := by decide +kernel

end SlidingWindowStorageDefault

end CryptobotAlgo.Aos
