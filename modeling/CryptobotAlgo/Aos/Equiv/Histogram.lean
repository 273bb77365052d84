import CryptobotAlgo.Aos.Equiv.HistogramArithmetic
import CryptobotAlgo.Frequency
import Mathlib.Algebra.Order.Floor.Ring
import Mathlib.Data.Rat.Floor

/-!
# Histograms are relative frequencies

If the bins of the values are `ks`, the histogram is the table of the relative frequencies in `ks`
(`histogram_isTable`), and the joint histogram that of the pairs of bins (`joint_isTable`).  Hence
the sums of the joint histogram are the histograms (`marginals_agree`).

With the range of the values themselves, the bins are `0` to `bins`: the greatest value falls into
a bin of its own, one more than there should be (`max_out_of_bins`).
-/

namespace CryptobotAlgo.Aos

open HistogramCalculatorDefault JointHistogramCalculatorDefault

/-- There are two different values. -/
def NonConstant {K : Type} (data : List K) : Prop := ∃ a ∈ data, ∃ b ∈ data, a ≠ b

/-- A computation with two parts has a result exactly when both have. -/
theorem bind_eq_ok_iff {ε α β : Type} {part : Except ε α} {rest : α → Except ε β} {result : β} :
    (part >>= rest) = .ok result ↔ ∃ value, part = .ok value ∧ rest value = .ok result := by
  cases part with
  | error fault => exact iff_of_false nofun fun ⟨_, h, _⟩ => absurd h nofun
  | ok value =>
    constructor
    · intro h
      exact ⟨value, rfl, h⟩
    · rintro ⟨value', hvalue, h⟩
      obtain rfl := Except.ok.inj hvalue
      exact h

section Loops

variable {K : Type} [Field K] [LinearOrder K] [FloorRing K]

omit [FloorRing K] in
theorem div_eq_ok {a b : K} (h : b ≠ 0) : Fault.div a b = .ok (a / b) := if_neg h

/-- The bins of the values are `ks`. -/
def Binned (minVal binWidth : K) (data : List K) (ks : List ℤ) : Prop :=
  List.Forall₂ (fun value k => binIndex minVal binWidth value = .ok k) data ks

theorem Binned.length_eq_length {minX binWidthX minY binWidthY : K} {x y : List K} {ks ls : List ℤ}
    (hX : Binned minX binWidthX x ks) (hY : Binned minY binWidthY y ls)
    (hlen : x.length = y.length) : ks.length = ls.length := by
  rw [← List.Forall₂.length_eq hX, ← List.Forall₂.length_eq hY, hlen]

/-- The loop that counts. -/
theorem foldlM_of_binned {minVal binWidth : K} {data : List K} {ks : List ℤ}
    (h : Binned minVal binWidth data ks) (histogram : Histogram ℤ K) :
    data.foldlM (countValue minVal binWidth) histogram =
      .ok (ks.foldl increment histogram) :=
  Arithmetic.foldlM_of_binned (A := .exact id) h histogram

/-- The loop that counts pairs. -/
theorem countPairs_of_binned {minX binWidthX minY binWidthY : K} {x y : List K} {ks ls : List ℤ}
    (hx : Binned minX binWidthX x ks) (hy : Binned minY binWidthY y ls)
    (hlen : x.length = y.length) (histogram : Histogram (ℤ × ℤ) K) :
    countPairs minX binWidthX minY binWidthY x y histogram =
      .ok ((ks.zip ls).foldl increment histogram) := by
  rw [← Arithmetic.exact_countPairs id]
  exact Arithmetic.countPairs_of_binned (A := .exact id) hx hy hlen histogram

/-- The loop that divides by the number of elements. -/
theorem normalize_isTable {Key : Type} [DecidableEq Key] {histogram : Histogram Key K}
    {keys : List Key} {f : Key → K} (h : IsTable histogram keys f) {size : ℕ}
    (hsize : (size : K) ≠ 0) :
    ∃ normalized, normalize size histogram = .ok normalized ∧
      IsTable normalized keys fun k => f k / size :=
  Arithmetic.normalize_isTable (A := .exact id) h hsize

/-- A loop that ends has found the bin of each value. -/
theorem exists_binned_of_foldlM {minVal binWidth : K} {data : List K}
    {histogram result : Histogram ℤ K}
    (h : data.foldlM (countValue minVal binWidth) histogram = .ok result) :
    ∃ ks, Binned minVal binWidth data ks := by
  induction data generalizing histogram with
  | nil => exact ⟨[], .nil⟩
  | cons value data ih =>
    rw [List.foldlM_cons] at h
    obtain ⟨next, hstep, hrest⟩ := bind_eq_ok_iff.mp h
    obtain ⟨k, hvalue, -⟩ := bind_eq_ok_iff.mp hstep
    obtain ⟨ks, hks⟩ := ih hrest
    exact ⟨k :: ks, .cons hvalue hks⟩

end Loops

/-! ### The histograms of binned values -/

section Tables

variable {K : Type} [Field K] [LinearOrder K] [FloorRing K] [CharZero K] {x y : List K}
  {minX maxX minY maxY : K} {bins : Int32} {ks ls : List ℤ}

theorem histogram_isTable (hbins : (bins.toInt : K) ≠ 0) (hne : x ≠ [])
    (h : Binned minX ((maxX - minX) / bins.toInt) x ks) :
    ∃ histogram, computeHistogramInRange x minX maxX bins = .ok histogram ∧
      IsTable histogram ks (freq ks) := by
  have hsize : (x.length : K) ≠ 0 := Nat.cast_ne_zero.mpr (mt List.eq_nil_of_length_eq_zero hne)
  obtain ⟨histogram, hnormalize, htable⟩ := normalize_isTable (isTable_count (K := K) ks) hsize
  refine ⟨histogram, ?_, ?_⟩
  · apply bind_eq_ok_iff.mpr
    refine ⟨_, div_eq_ok hbins, bind_eq_ok_iff.mpr ⟨_, foldlM_of_binned h ∅, hnormalize⟩⟩
  · rw [h.length_eq] at htable
    exact htable

/-- A histogram that is computed is that of the bins. -/
theorem exists_binned_of_ok (hbins : (bins.toInt : K) ≠ 0) (hne : x ≠ [])
    {histogram : Histogram ℤ K} (h : computeHistogramInRange x minX maxX bins = .ok histogram) :
    ∃ ks, Binned minX ((maxX - minX) / bins.toInt) x ks ∧ IsTable histogram ks (freq ks) := by
  obtain ⟨binWidth, hwidth, hrest⟩ := bind_eq_ok_iff.mp h
  rw [div_eq_ok hbins] at hwidth
  obtain rfl := Except.ok.inj hwidth
  obtain ⟨counted, hloop, -⟩ := bind_eq_ok_iff.mp hrest
  obtain ⟨ks, hks⟩ := exists_binned_of_foldlM hloop
  obtain ⟨histogram', hok, htable⟩ := histogram_isTable hbins hne hks
  rw [h] at hok
  obtain rfl := Except.ok.inj hok
  exact ⟨ks, hks, htable⟩

theorem joint_isTable (hbins : (bins.toInt : K) ≠ 0) (hne : x ≠ []) (hlen : x.length = y.length)
    (hx : Binned minX ((maxX - minX) / bins.toInt) x ks)
    (hy : Binned minY ((maxY - minY) / bins.toInt) y ls) :
    ∃ joint, computeJointHistogramInRange x minX maxX y minY maxY bins = .ok joint ∧
      IsTable joint (ks.zip ls) (freq (ks.zip ls)) := by
  have hsize : (x.length : K) ≠ 0 := Nat.cast_ne_zero.mpr (mt List.eq_nil_of_length_eq_zero hne)
  obtain ⟨joint, hnormalize, htable⟩ :=
    normalize_isTable (isTable_count (K := K) (ks.zip ls)) hsize
  refine ⟨joint, ?_, ?_⟩
  · apply bind_eq_ok_iff.mpr
    refine ⟨_, div_eq_ok hbins, bind_eq_ok_iff.mpr ⟨_, div_eq_ok hbins, ?_⟩⟩
    exact bind_eq_ok_iff.mpr ⟨_, countPairs_of_binned hx hy hlen ∅, hnormalize⟩
  · have hzip : (ks.zip ls).length = x.length := by
      rw [List.length_zip, ← hx.length_eq, ← hy.length_eq, ← hlen, Nat.min_self]
    unfold freq
    rw [hzip]
    exact htable

end Tables

/-! ### Ranges -/

section Range

variable {K : Type} [LinearOrder K] {data : List K} {lo hi : K}

/-- The least and the greatest value. -/
theorem exists_range (h : NonConstant data) :
    ∃ lo hi, data.min? = some lo ∧ data.max? = some hi ∧ lo < hi := by
  obtain ⟨a, ha, b, hb, hab⟩ := h
  have hne : data ≠ [] := List.ne_nil_of_mem ha
  obtain ⟨lo, hlo⟩ := Option.ne_none_iff_exists'.mp (mt List.min?_eq_none_iff.mp hne)
  obtain ⟨hi, hhi⟩ := Option.ne_none_iff_exists'.mp (mt List.max?_eq_none_iff.mp hne)
  refine ⟨lo, hi, hlo, hhi, ?_⟩
  have hmin := (List.min?_eq_some_iff.mp hlo).2
  have hmax := (List.max?_eq_some_iff.mp hhi).2
  -- two values that differ are between the extremes, in one order or the other
  rcases lt_or_gt_of_ne hab with hlt | hlt
  · exact (hmin a ha).trans_lt (hlt.trans_le (hmax b hb))
  · exact (hmin b hb).trans_lt (hlt.trans_le (hmax a ha))

/-- The range is not empty, and all values are in it. -/
structure Covers (lo hi : K) (data : List K) : Prop where
  lt : lo < hi
  le : ∀ value ∈ data, lo ≤ value ∧ value ≤ hi

theorem covers_of_min_max (h : NonConstant data) (hlo : data.min? = some lo)
    (hhi : data.max? = some hi) : Covers lo hi data := by
  obtain ⟨lo', hi', hlo', hhi', hlt⟩ := exists_range h
  obtain rfl := Option.some.inj (hlo.symm.trans hlo')
  obtain rfl := Option.some.inj (hhi.symm.trans hhi')
  refine ⟨hlt, fun value hvalue => ⟨?_, ?_⟩⟩
  · exact (List.min?_eq_some_iff.mp hlo).2 value hvalue
  · exact (List.max?_eq_some_iff.mp hhi).2 value hvalue

omit [LinearOrder K] in
theorem NonConstant.ne_nil (h : NonConstant data) : data ≠ [] := by
  obtain ⟨a, ha, -⟩ := h
  exact List.ne_nil_of_mem ha

end Range

theorem one_le_toInt {bins : Int32} (h : 1 ≤ bins) : 1 ≤ bins.toInt :=
  Int32.le_iff_toInt_le.mp h

section Bins

variable {K : Type} [Field K] [LinearOrder K] [FloorRing K] [IsStrictOrderedRing K]
  {data : List K} {lo hi : K} {bins : Int32}

/-- A value of the range falls into one of the bins from `0` to `bins`. -/
theorem binIndex_of_mem (hbins : 1 ≤ bins) (hlt : lo < hi) {value : K} (hlo : lo ≤ value)
    (hhi : value ≤ hi) :
    binIndex lo ((hi - lo) / bins.toInt) value =
        .ok ⌊(value - lo) / ((hi - lo) / bins.toInt)⌋ ∧
      0 ≤ ⌊(value - lo) / ((hi - lo) / bins.toInt)⌋ ∧
      ⌊(value - lo) / ((hi - lo) / bins.toInt)⌋ ≤ bins.toInt := by
  have hone := one_le_toInt hbins
  have hpos : (0 : K) < bins.toInt := Int.cast_pos.mpr (by omega)
  have hwidth : 0 < (hi - lo) / bins.toInt := div_pos (sub_pos.mpr hlt) hpos
  have hnonneg : 0 ≤ (value - lo) / ((hi - lo) / bins.toInt) :=
    div_nonneg (sub_nonneg.mpr hlo) hwidth.le
  have hle : (value - lo) / ((hi - lo) / bins.toInt) ≤ bins.toInt := by
    rw [div_le_iff₀ hwidth, mul_div_cancel₀ _ hpos.ne']
    exact sub_le_sub_right hhi lo
  have hfloor := Int.floor_mono hle
  rw [Int.floor_intCast] at hfloor
  have hfloor_nonneg : 0 ≤ ⌊(value - lo) / ((hi - lo) / bins.toInt)⌋ := Int.floor_nonneg.mpr hnonneg
  refine ⟨?_, hfloor_nonneg, hfloor⟩
  -- `bins` is an `int`, and so is every index up to it
  have hint := bins.toInt_lt
  unfold binIndex Fault.toInt
  rw [div_eq_ok hwidth.ne']
  show (if _ then _ else _) = _
  rw [if_pos hnonneg, if_pos ⟨by omega, by omega⟩]

/-- The greatest value falls into the bin `bins`. -/
theorem binIndex_max (hbins : 1 ≤ bins) (hlt : lo < hi) :
    binIndex lo ((hi - lo) / bins.toInt) hi = .ok bins.toInt := by
  have hone := one_le_toInt hbins
  have hpos : (0 : K) < bins.toInt := Int.cast_pos.mpr (by omega)
  have hquotient : (hi - lo) / ((hi - lo) / bins.toInt) = (bins.toInt : K) := by
    rw [div_div_cancel₀ (sub_pos.mpr hlt).ne']
  rw [(binIndex_of_mem hbins hlt hlt.le le_rfl).1, hquotient, Int.floor_intCast]

/-- The bins of values that the range covers. -/
theorem exists_binned_of_covers (hbins : 1 ≤ bins) (h : Covers lo hi data) :
    ∃ ks, Binned lo ((hi - lo) / bins.toInt) data ks ∧
      (∀ k ∈ ks, 0 ≤ k ∧ k ≤ bins.toInt) ∧ (hi ∈ data → bins.toInt ∈ ks) := by
  refine ⟨data.map fun value => ⌊(value - lo) / ((hi - lo) / bins.toInt)⌋, ?_, ?_, ?_⟩
  · unfold Binned
    rw [List.forall₂_map_right_iff, List.forall₂_same]
    intro value hvalue
    exact (binIndex_of_mem hbins h.lt (h.le value hvalue).1 (h.le value hvalue).2).1
  · intro k hk
    obtain ⟨value, hvalue, rfl⟩ := List.mem_map.mp hk
    exact (binIndex_of_mem hbins h.lt (h.le value hvalue).1 (h.le value hvalue).2).2
  · intro hmem
    have hmax := binIndex_max hbins h.lt
    rw [(binIndex_of_mem hbins h.lt h.lt.le le_rfl).1] at hmax
    exact List.mem_map.mpr ⟨hi, hmem, Except.ok.inj hmax⟩

/-- The bins of values over their own range; the greatest one is in the last. -/
theorem exists_binned_of_min_max (hbins : 1 ≤ bins) (h : NonConstant data)
    (hmin : data.min? = some lo) (hmax : data.max? = some hi) :
    ∃ ks, Binned lo ((hi - lo) / bins.toInt) data ks ∧
      (∀ k ∈ ks, 0 ≤ k ∧ k ≤ bins.toInt) ∧ bins.toInt ∈ ks := by
  have hcovers := covers_of_min_max h hmin hmax
  obtain ⟨ks, hks, hrange, hlast⟩ := exists_binned_of_covers hbins hcovers
  exact ⟨ks, hks, hrange, hlast (List.max?_mem hmax)⟩

end Bins

/-! ### The masses -/

section Masses

variable {K : Type} [Field K]

/-- The mass of a bin. -/
def mass {Key : Type} [DecidableEq Key] (histogram : Histogram Key K) (key : Key) : K :=
  (histogram.lookup key).getD 0

/-- The sum of all masses. -/
def totalMass {Key : Type} (histogram : Histogram Key K) : K :=
  (histogram.entries.map Sigma.snd).sum

/-- The joint histogram, summed over the bins of `y`. -/
def sumOverY (joint : Histogram (ℤ × ℤ) K) (binX : ℤ) : K :=
  (joint.entries.map fun e => if e.1.1 = binX then e.2 else 0).sum

/-- The joint histogram, summed over the bins of `x`. -/
def sumOverX (joint : Histogram (ℤ × ℤ) K) (binY : ℤ) : K :=
  (joint.entries.map fun e => if e.1.2 = binY then e.2 else 0).sum

theorem mass_of_isTable {histogram : Histogram ℤ K} {ks : List ℤ}
    (h : IsTable histogram ks (freq ks)) (k : ℤ) : mass histogram k = freq ks k := by
  unfold mass
  rw [h.getD_lookup]
  split_ifs with hk
  · rfl
  · exact (freq_of_notMem hk).symm

theorem sumOverY_of_isTable {joint : Histogram (ℤ × ℤ) K} {zs : List (ℤ × ℤ)}
    (h : IsTable joint zs (freq zs)) (k : ℤ) : sumOverY joint k = freq (zs.map Prod.fst) k := by
  unfold sumOverY
  rw [h.sum_entries fun z p => if z.1 = k then p else 0, ← Finset.sum_filter]
  exact sum_freq_fiber Prod.fst zs k

theorem sumOverX_of_isTable {joint : Histogram (ℤ × ℤ) K} {zs : List (ℤ × ℤ)}
    (h : IsTable joint zs (freq zs)) (l : ℤ) : sumOverX joint l = freq (zs.map Prod.snd) l := by
  unfold sumOverX
  rw [h.sum_entries fun z p => if z.2 = l then p else 0, ← Finset.sum_filter]
  exact sum_freq_fiber Prod.snd zs l

variable [LinearOrder K] [IsStrictOrderedRing K]

theorem totalMass_of_isTable {Key : Type} [DecidableEq Key] {histogram : Histogram Key K}
    {keys : List Key} (h : IsTable histogram keys (freq keys)) (hne : keys ≠ []) :
    totalMass histogram = 1 := by
  unfold totalMass
  rw [h.sum_entries fun _ p => p]
  exact sum_freq hne

/-- The sums of the joint histogram are the histograms, and its entries pass the test for positive
masses. -/
structure MarginalsAgree (histX histY : Histogram ℤ K) (joint : Histogram (ℤ × ℤ) K) : Prop where
  sumOverY : ∀ k, sumOverY joint k = mass histX k
  sumOverX : ∀ l, sumOverX joint l = mass histY l
  positive : ∀ e ∈ joint.entries, 0 < e.2 ∧ 0 < mass histX e.1.1 ∧ 0 < mass histY e.1.2

theorem marginalsAgree_of_isTable {histX histY : Histogram ℤ K} {joint : Histogram (ℤ × ℤ) K}
    {ks ls : List ℤ} (hlen : ks.length = ls.length) (hX : IsTable histX ks (freq ks))
    (hY : IsTable histY ls (freq ls)) (hjoint : IsTable joint (ks.zip ls) (freq (ks.zip ls))) :
    MarginalsAgree histX histY joint := by
  have hfst : (ks.zip ls).map Prod.fst = ks := List.map_fst_zip hlen.le
  have hsnd : (ks.zip ls).map Prod.snd = ls := List.map_snd_zip hlen.ge
  constructor
  · intro k
    rw [sumOverY_of_isTable hjoint, mass_of_isTable hX, hfst]
  · intro l
    rw [sumOverX_of_isTable hjoint, mass_of_isTable hY, hsnd]
  · intro e he
    have hmem : e.1 ∈ ks.zip ls := (hjoint.mem_keys_iff e.1).mp (List.mem_map_of_mem he)
    rw [hjoint.snd_eq he, mass_of_isTable hX, mass_of_isTable hY]
    exact ⟨freq_pos hmem, freq_pos (List.of_mem_zip hmem).1, freq_pos (List.of_mem_zip hmem).2⟩

end Masses

/-! ### The calls -/

section Overloads

variable {K : Type} [Field K] [LinearOrder K] [FloorRing K] {x y : List K} {minX maxX minY maxY : K}

/-- The overloads without a range take that of the values. -/
theorem computeHistogram_eq (hmin : x.min? = some minX) (hmax : x.max? = some maxX)
    (bins : Int32) : computeHistogram x bins = computeHistogramInRange x minX maxX bins := by
  unfold computeHistogram minElement maxElement
  rw [hmin, hmax]
  rfl

theorem computeJointHistogram_eq (hminX : x.min? = some minX) (hmaxX : x.max? = some maxX)
    (hminY : y.min? = some minY) (hmaxY : y.max? = some maxY) (bins : Int32) :
    computeJointHistogram x y bins =
      computeJointHistogramInRange x minX maxX y minY maxY bins := by
  unfold computeJointHistogram minElement maxElement
  rw [hminX, hmaxX, hminY, hmaxY]
  rfl

end Overloads

section Calls

variable {K : Type} [Field K] [LinearOrder K] [FloorRing K] [IsStrictOrderedRing K]

omit [IsStrictOrderedRing K] in
theorem cast_toInt_ne_zero {bins : Int32} (h : 1 ≤ bins) : (bins.toInt : K) ≠ 0 := by
  have hone := one_le_toInt h
  exact Int.cast_ne_zero.mpr (by omega)

/-- **The histograms are the marginals** of the joint histogram: without ranges, with any ranges
for which the histograms are defined, and these are defined with all ranges that cover the
values. -/
theorem marginals_agree (x y : List K) (bins : Int32) (hx : NonConstant x) (hy : NonConstant y)
    (hlen : x.length = y.length) (hbins : 1 ≤ bins) :
    (∃ histX histY joint, computeHistogram x bins = .ok histX ∧
        computeHistogram y bins = .ok histY ∧ computeJointHistogram x y bins = .ok joint ∧
        MarginalsAgree histX histY joint) ∧
      (∀ minX maxX minY maxY histX histY,
        computeHistogramInRange x minX maxX bins = .ok histX →
        computeHistogramInRange y minY maxY bins = .ok histY →
        ∃ joint, computeJointHistogramInRange x minX maxX y minY maxY bins = .ok joint ∧
          MarginalsAgree histX histY joint) ∧
      ∀ minX maxX minY maxY, Covers minX maxX x → Covers minY maxY y →
        ∃ histX histY, computeHistogramInRange x minX maxX bins = .ok histX ∧
          computeHistogramInRange y minY maxY bins = .ok histY := by
  have hne := cast_toInt_ne_zero (K := K) hbins
  have hcovers : ∀ minX maxX minY maxY, Covers minX maxX x → Covers minY maxY y →
      ∃ histX histY, computeHistogramInRange x minX maxX bins = .ok histX ∧
        computeHistogramInRange y minY maxY bins = .ok histY := by
    intro minX maxX minY maxY hX hY
    obtain ⟨ks, hks, -⟩ := exists_binned_of_covers hbins hX
    obtain ⟨ls, hls, -⟩ := exists_binned_of_covers hbins hY
    obtain ⟨histX, hokX, -⟩ := histogram_isTable hne hx.ne_nil hks
    obtain ⟨histY, hokY, -⟩ := histogram_isTable hne hy.ne_nil hls
    exact ⟨histX, histY, hokX, hokY⟩
  have hagree : ∀ minX maxX minY maxY histX histY,
      computeHistogramInRange x minX maxX bins = .ok histX →
      computeHistogramInRange y minY maxY bins = .ok histY →
      ∃ joint, computeJointHistogramInRange x minX maxX y minY maxY bins = .ok joint ∧
        MarginalsAgree histX histY joint := by
    intro minX maxX minY maxY histX histY hokX hokY
    -- both calculators find the same bins, since they divide by the same widths
    obtain ⟨ks, hks, htableX⟩ := exists_binned_of_ok hne hx.ne_nil hokX
    obtain ⟨ls, hls, htableY⟩ := exists_binned_of_ok hne hy.ne_nil hokY
    obtain ⟨joint, hok, htable⟩ := joint_isTable hne hx.ne_nil hlen hks hls
    have hlength := hks.length_eq_length hls hlen
    exact ⟨joint, hok, marginalsAgree_of_isTable hlength htableX htableY htable⟩
  refine ⟨?_, hagree, hcovers⟩
  -- the overloads without ranges take those of the values, which cover them
  obtain ⟨minX, maxX, hminX, hmaxX, -⟩ := exists_range hx
  obtain ⟨minY, maxY, hminY, hmaxY, -⟩ := exists_range hy
  obtain ⟨histX, histY, hokX, hokY⟩ := hcovers minX maxX minY maxY
    (covers_of_min_max hx hminX hmaxX) (covers_of_min_max hy hminY hmaxY)
  obtain ⟨joint, hok, hmarginals⟩ := hagree minX maxX minY maxY histX histY hokX hokY
  rw [computeHistogram_eq hminX hmaxX, computeHistogram_eq hminY hmaxY,
    computeJointHistogram_eq hminX hmaxX hminY hmaxY]
  exact ⟨histX, histY, joint, hokX, hokY, hok, hmarginals⟩

/-- Two values of each of two assets. -/
def pairX : List ℚ := [0, 1]

def pairY : List ℚ := [3, 2]

theorem pairX_nonConstant : NonConstant pairX :=
  ⟨0, List.mem_cons_self, 1, List.mem_cons_of_mem 0 List.mem_cons_self, zero_ne_one⟩

theorem pairY_nonConstant : NonConstant pairY :=
  ⟨3, List.mem_cons_self, 2, List.mem_cons_of_mem 3 List.mem_cons_self, by decide +kernel⟩

theorem marginals_agree_pair :
    ∃ histX histY joint, computeHistogram pairX 2 = .ok histX ∧
      computeHistogram pairY 2 = .ok histY ∧ computeJointHistogram pairX pairY 2 = .ok joint ∧
      MarginalsAgree histX histY joint :=
  (marginals_agree pairX pairY 2 pairX_nonConstant pairY_nonConstant rfl (by decide)).1

/-! ### The bins -/

/-- The bins are from `0` to `bins - 1`, and the masses sum to `1`. -/
structure HasBins (bins : ℤ) (histogram : Histogram ℤ K) : Prop where
  keys : ∀ k ∈ histogram.keys, 0 ≤ k ∧ k < bins
  total : totalMass histogram = 1

/-- The same of both indices of a joint histogram. -/
structure JointHasBins (bins : ℤ) (joint : Histogram (ℤ × ℤ) K) : Prop where
  keys : ∀ z ∈ joint.keys, (0 ≤ z.1 ∧ z.1 < bins) ∧ 0 ≤ z.2 ∧ z.2 < bins
  total : totalMass joint = 1

/-- The bins are from `0` to `bins`, which is one too many. -/
structure HasOneMore (bins : ℤ) (histogram : Histogram ℤ K) : Prop where
  keys : ∀ k ∈ histogram.keys, 0 ≤ k ∧ k ≤ bins
  last : bins ∈ histogram.keys
  total : totalMass histogram = 1

/-- The same of both indices of a joint histogram. -/
structure JointHasOneMore (bins : ℤ) (joint : Histogram (ℤ × ℤ) K) : Prop where
  keys : ∀ z ∈ joint.keys, (0 ≤ z.1 ∧ z.1 ≤ bins) ∧ 0 ≤ z.2 ∧ z.2 ≤ bins
  lastX : ∃ z ∈ joint.keys, z.1 = bins
  lastY : ∃ z ∈ joint.keys, z.2 = bins
  total : totalMass joint = 1

omit [FloorRing K] [LinearOrder K] [IsStrictOrderedRing K] in
theorem HasOneMore.not_hasBins {bins : ℤ} {histogram : Histogram ℤ K}
    (h : HasOneMore bins histogram) : ¬ HasBins bins histogram := fun hbins =>
  absurd (hbins.keys bins h.last).2 (lt_irrefl bins)

omit [FloorRing K] [LinearOrder K] [IsStrictOrderedRing K] in
theorem JointHasOneMore.not_jointHasBins {bins : ℤ} {joint : Histogram (ℤ × ℤ) K}
    (h : JointHasOneMore bins joint) : ¬ JointHasBins bins joint := by
  intro hbins
  obtain ⟨z, hz, hlast⟩ := h.lastX
  exact absurd (hbins.keys z hz).1.2 (by rw [hlast]; exact lt_irrefl bins)

/-- The histogram over the range of the values. -/
theorem exists_hasOneMore {x : List K} {bins : Int32} {minX maxX : K} (hx : NonConstant x)
    (hbins : 1 ≤ bins) (hmin : x.min? = some minX) (hmax : x.max? = some maxX) :
    ∃ histogram, computeHistogramInRange x minX maxX bins = .ok histogram ∧
      HasOneMore bins.toInt histogram := by
  obtain ⟨ks, hks, hrange, hlast⟩ := exists_binned_of_min_max hbins hx hmin hmax
  obtain ⟨histogram, hok, htable⟩ := histogram_isTable (cast_toInt_ne_zero hbins) hx.ne_nil hks
  refine ⟨histogram, hok, ?_, ?_, ?_⟩
  · exact fun k hk => hrange k ((htable.mem_keys_iff k).mp hk)
  · exact (htable.mem_keys_iff _).mpr hlast
  · exact totalMass_of_isTable htable (List.ne_nil_of_mem hlast)

/-- The joint histogram over the ranges of the values. -/
theorem exists_jointHasOneMore {x y : List K} {bins : Int32} {minX maxX minY maxY : K}
    (hx : NonConstant x) (hy : NonConstant y) (hlen : x.length = y.length) (hbins : 1 ≤ bins)
    (hminX : x.min? = some minX) (hmaxX : x.max? = some maxX) (hminY : y.min? = some minY)
    (hmaxY : y.max? = some maxY) :
    ∃ joint, computeJointHistogramInRange x minX maxX y minY maxY bins = .ok joint ∧
      JointHasOneMore bins.toInt joint := by
  obtain ⟨ks, hks, hksRange, hksLast⟩ := exists_binned_of_min_max hbins hx hminX hmaxX
  obtain ⟨ls, hls, hlsRange, hlsLast⟩ := exists_binned_of_min_max hbins hy hminY hmaxY
  obtain ⟨joint, hok, htable⟩ :=
    joint_isTable (cast_toInt_ne_zero hbins) hx.ne_nil hlen hks hls
  have hlength := hks.length_eq_length hls hlen
  have hfst : (ks.zip ls).map Prod.fst = ks := List.map_fst_zip hlength.le
  have hsnd : (ks.zip ls).map Prod.snd = ls := List.map_snd_zip hlength.ge
  have hlastX : bins.toInt ∈ (ks.zip ls).map Prod.fst := by
    rw [hfst]
    exact hksLast
  have hlastY : bins.toInt ∈ (ks.zip ls).map Prod.snd := by
    rw [hsnd]
    exact hlsLast
  -- the pairs of the greatest value of `x` and of that of `y` need not be the same
  obtain ⟨z, hz, hzLast⟩ := List.mem_map.mp hlastX
  obtain ⟨z', hz', hzLast'⟩ := List.mem_map.mp hlastY
  refine ⟨joint, hok, ?_, ⟨z, (htable.mem_keys_iff z).mpr hz, hzLast⟩,
    ⟨z', (htable.mem_keys_iff z').mpr hz', hzLast'⟩, ?_⟩
  · intro z hz
    have hmem := List.of_mem_zip ((htable.mem_keys_iff z).mp hz)
    exact ⟨hksRange z.1 hmem.1, hlsRange z.2 hmem.2⟩
  · exact totalMass_of_isTable htable (List.ne_nil_of_mem hz)

/-- **The greatest value** has a bin of its own, behind the others, in all four functions. -/
theorem max_out_of_bins (x y : List K) (bins : Int32) (minX maxX minY maxY : K)
    (hx : NonConstant x) (hy : NonConstant y) (hlen : x.length = y.length) (hbins : 1 ≤ bins)
    (hminX : x.min? = some minX) (hmaxX : x.max? = some maxX) (hminY : y.min? = some minY)
    (hmaxY : y.max? = some maxY) :
    (∃ histogram, computeHistogram x bins = .ok histogram ∧
        ¬ HasBins bins.toInt histogram ∧ HasOneMore bins.toInt histogram) ∧
      (∃ histogram, computeHistogramInRange x minX maxX bins = .ok histogram ∧
        ¬ HasBins bins.toInt histogram ∧ HasOneMore bins.toInt histogram) ∧
      (∃ joint, computeJointHistogram x y bins = .ok joint ∧
        ¬ JointHasBins bins.toInt joint ∧ JointHasOneMore bins.toInt joint) ∧
      ∃ joint, computeJointHistogramInRange x minX maxX y minY maxY bins = .ok joint ∧
        ¬ JointHasBins bins.toInt joint ∧ JointHasOneMore bins.toInt joint := by
  obtain ⟨histogram, hok, hmore⟩ := exists_hasOneMore hx hbins hminX hmaxX
  obtain ⟨joint, hokJoint, hmoreJoint⟩ :=
    exists_jointHasOneMore hx hy hlen hbins hminX hmaxX hminY hmaxY
  have hhistogram := And.intro hmore.not_hasBins hmore
  have hjoint := And.intro hmoreJoint.not_jointHasBins hmoreJoint
  rw [computeHistogram_eq hminX hmaxX, computeJointHistogram_eq hminX hmaxX hminY hmaxY]
  exact ⟨⟨histogram, hok, hhistogram⟩, ⟨histogram, hok, hhistogram⟩,
    ⟨joint, hokJoint, hjoint⟩, ⟨joint, hokJoint, hjoint⟩⟩

theorem max_out_of_bins_pair :
    ∃ histogram, computeHistogram pairX 2 = .ok histogram ∧ ¬ HasBins 2 histogram ∧
      HasOneMore 2 histogram := by
  refine (max_out_of_bins pairX pairY 2 0 1 2 3 pairX_nonConstant pairY_nonConstant rfl
    (by decide) ?_ ?_ ?_ ?_).1
  · decide +kernel
  · decide +kernel
  · decide +kernel
  · decide +kernel

/-- The value `1` is in the bin `2`, although there should be the bins `0` and `1` only. -/
theorem pairX_out_of_bins :
    ∃ histogram, computeHistogram pairX 2 = .ok histogram ∧
      ¬ ∀ k ∈ histogram.keys, 0 ≤ k ∧ k < 2 := by
  have hkeys : (computeHistogram pairX 2).map AList.keys = .ok [0, 2] := by decide +kernel
  cases hresult : computeHistogram pairX 2 with
  | error fault =>
    rw [hresult] at hkeys
    exact absurd hkeys nofun
  | ok histogram =>
    rw [hresult] at hkeys
    refine ⟨histogram, rfl, ?_⟩
    rw [Except.ok.inj hkeys]
    decide

end Calls

end CryptobotAlgo.Aos
