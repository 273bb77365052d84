import CryptobotAlgo.Aos.Equiv.MutualInformation

/-!
# The divisors of the mutual information

In the arithmetic of a field the functions over an `Arithmetic` are those over the field
(`exact_computeMutualInformationOfStorage`).

The mutual information over the windows divides by `bins`, by the widths of the bins, by the number
of values, and by products of masses.  The products are not `0`, so a division by `0` is executed
exactly when a width is `0` in the arithmetic of `T` (`divides_iff`).  In exact arithmetic such a
window is constant (`exact_hasWidth_iff`), but in integers its values may differ by anything less
than `bins` (`integer_hasWidth_iff`).
-/

namespace CryptobotAlgo.Aos.Arithmetic

/-! ### The arithmetic of a field -/

section Exact

variable {H K : Type} [Field K] [LinearOrder K] [FloorRing K] (log2 : K → K)

theorem exact_computeMutualInformationInRange (x : List K) (minX maxX : K) (y : List K)
    (minY maxY : K) (bins : Int32) :
    (exact log2).computeMutualInformationInRange x minX maxX y minY maxY bins =
      MutualInformationCalculatorDefault.computeMutualInformationInRange log2 x minX maxX y minY
        maxY bins := by
  unfold computeMutualInformationInRange computeJointHistogramInRange
  simp only [exact_countPairs]
  rfl

/-- The functions over the field are those in its arithmetic. -/
theorem exact_computeMutualInformationOfStorage (windowStorage : SlidingWindowStorageDefault H K)
    (hashAsset pairedAsset : H) (bins : Int32) :
    (exact log2).computeMutualInformationOfStorage windowStorage hashAsset pairedAsset
        bins =
      MutualInformationCalculatorDefault.computeMutualInformationOfStorage log2 windowStorage
        hashAsset pairedAsset bins := by
  unfold computeMutualInformationOfStorage
  simp only [exact_computeMutualInformationInRange]
  rfl

end Exact

variable {K T : Type} [Zero T] [DecidableEq T] {A : Arithmetic K T}

/-- The mass of a bin with `count` of `size` values. -/
def massOf [One T] [Add T] (A : Arithmetic K T) (count size : ℕ) : T :=
  A.div (counted count) (A.ofSize size)

/-- The width of the bins. -/
def binWidth (A : Arithmetic K T) (minVal maxVal : K) (bins : Int32) : T :=
  A.div (A.sub maxVal minVal) (A.ofInt bins.toInt)

/-- What the calculators rely on: numbers that are not `0` stay so as a `T`, every value of a range
has a bin if the width is not `0`, and the product of two masses of at most `2 ^ 31 - 1` values does
not underflow. -/
structure Lawful [LE K] [One T] [Add T] [Mul T] [LT T] (A : Arithmetic K T) : Prop where
  ofInt_ne_zero : ∀ n : ℤ, 1 ≤ n → n < 2 ^ 31 → A.ofInt n ≠ 0
  ofSize_ne_zero : ∀ n : ℕ, 1 ≤ n → n < 2 ^ 31 → A.ofSize n ≠ 0
  binIndex_ok : ∀ (lo hi value : K) (bins : Int32), 1 ≤ bins → lo ≤ value → value ≤ hi →
    A.binWidth lo hi bins ≠ 0 → ∃ k, A.binIndex lo (A.binWidth lo hi bins) value = .ok k
  zero_not_pos : ¬ (0 : T) < 0
  mul_ne_zero : ∀ m n size : ℕ, m ≤ size → n ≤ size → size < 2 ^ 31 → 0 < A.massOf m size →
    0 < A.massOf n size → A.massOf m size * A.massOf n size ≠ 0

/-! ### The calculators -/

section Calculators

variable [One T] [Add T] {x y : List K} {minX maxX minY maxY : K} {bins : Int32} {ks ls : List ℤ}

theorem histogram_isTable (hbins : A.ofInt bins.toInt ≠ 0) (hsize : A.ofSize x.length ≠ 0)
    (h : A.Binned minX (A.binWidth minX maxX bins) x ks) :
    ∃ histogram, A.computeHistogramInRange x minX maxX bins = .ok histogram ∧
      IsTable histogram ks fun k => A.massOf (ks.count k) x.length := by
  obtain ⟨histogram, hnormalize, htable⟩ := normalize_isTable (isTable_counted ks) hsize
  refine ⟨histogram, ?_, htable⟩
  apply bind_eq_ok_iff.mpr
  exact ⟨_, divide_eq_ok hbins, bind_eq_ok_iff.mpr ⟨_, foldlM_of_binned h ∅, hnormalize⟩⟩

/-- With the width `0` the first value is divided by it. -/
theorem histogram_zero_width (hbins : A.ofInt bins.toInt ≠ 0) (hne : x ≠ [])
    (h : A.binWidth minX maxX bins = 0) :
    A.computeHistogramInRange x minX maxX bins = .error .divisionByZero := by
  unfold binWidth at h
  unfold computeHistogramInRange
  rw [divide_eq_ok hbins, h]
  have hloop := foldlM_zero_width (A := A) hne minX ∅
  exact congrArg (· >>= A.normalize x.length) hloop

theorem exists_joint (hbins : A.ofInt bins.toInt ≠ 0) (hsize : A.ofSize x.length ≠ 0)
    (hlen : x.length = y.length) (hx : A.Binned minX (A.binWidth minX maxX bins) x ks)
    (hy : A.Binned minY (A.binWidth minY maxY bins) y ls) :
    ∃ joint, A.computeJointHistogramInRange x minX maxX y minY maxY bins = .ok joint := by
  obtain ⟨joint, hnormalize, -⟩ := normalize_isTable (isTable_counted (ks.zip ls)) hsize
  refine ⟨joint, bind_eq_ok_iff.mpr ⟨_, divide_eq_ok hbins, ?_⟩⟩
  apply bind_eq_ok_iff.mpr
  refine ⟨_, divide_eq_ok hbins, bind_eq_ok_iff.mpr ⟨_, ?_, hnormalize⟩⟩
  exact countPairs_of_binned hx hy hlen ∅

variable [LE K] [Mul T] [LT T] [DecidableLT T] {histX histY : Histogram ℤ T} {size : ℕ}

omit [DecidableLT T] in
/-- A bin that has no entry has the mass `0`. -/
theorem getD_lookup_of_pos (hA : A.Lawful)
    (h : IsTable histX ks fun k => A.massOf (ks.count k) size) {k : ℤ}
    (hpos : 0 < (histX.lookup k).getD 0) :
    (histX.lookup k).getD 0 = A.massOf (ks.count k) size := by
  rw [h.getD_lookup] at hpos ⊢
  split_ifs at hpos ⊢ with hk
  · rfl
  · exact absurd hpos hA.zero_not_pos

/-- The loop over the joint histogram divides by products of positive masses only. -/
theorem exists_sumJoint (hA : A.Lawful) (hsize : size < 2 ^ 31) (hks : ks.length = size)
    (hls : ls.length = size) (hX : IsTable histX ks fun k => A.massOf (ks.count k) size)
    (hY : IsTable histY ls fun l => A.massOf (ls.count l) size) (joint : Histogram (ℤ × ℤ) T) :
    ∃ mi, A.sumJoint histX histY joint = .ok mi := by
  unfold sumJoint
  generalize (0 : T) = mi
  induction joint.entries generalizing mi with
  | nil => exact ⟨mi, rfl⟩
  | cons e entries ih =>
    have hstep : ∃ next, A.addEntry histX histY mi e = .ok next := by
      unfold addEntry
      dsimp only
      split_ifs with hpos
      · have hmassX := getD_lookup_of_pos hA hX hpos.2.1
        have hmassY := getD_lookup_of_pos hA hY hpos.2.2
        have hdivisor : (histX.lookup e.1.1).getD 0 * (histY.lookup e.1.2).getD 0 ≠ 0 := by
          rw [hmassX, hmassY]
          apply hA.mul_ne_zero
          · exact hks ▸ List.count_le_length
          · exact hls ▸ List.count_le_length
          · exact hsize
          · exact hmassX ▸ hpos.2.1
          · exact hmassY ▸ hpos.2.2
        rw [divide_eq_ok hdivisor]
        exact ⟨_, rfl⟩
      · exact ⟨mi, rfl⟩
    obtain ⟨next, hnext⟩ := hstep
    rw [List.foldlM_cons, hnext]
    exact ih next

end Calculators

/-! ### The width of a window -/

section Width

variable [LinearOrder K]

/-- The width of the bins of a window is not `0`. -/
def HasWidth (A : Arithmetic K T) (window : List K) (bins : Int32) : Prop :=
  ∃ lo hi, window.min? = some lo ∧ window.max? = some hi ∧ A.binWidth lo hi bins ≠ 0

omit [DecidableEq T] in
theorem hasWidth_iff {window : List K} {lo hi : K} (hmin : window.min? = some lo)
    (hmax : window.max? = some hi) (bins : Int32) :
    A.HasWidth window bins ↔ A.binWidth lo hi bins ≠ 0 := by
  constructor
  · rintro ⟨lo', hi', hmin', hmax', h⟩
    rw [hmin] at hmin'
    rw [hmax] at hmax'
    obtain rfl := Option.some.inj hmin'
    obtain rfl := Option.some.inj hmax'
    exact h
  · exact fun h => ⟨lo, hi, hmin, hmax, h⟩

theorem exists_min_max {window : List K} (hne : window ≠ []) :
    ∃ lo hi, window.min? = some lo ∧ window.max? = some hi := by
  obtain ⟨lo, hmin⟩ := Option.isSome_iff_exists.mp (List.isSome_min?_of_ne_nil hne)
  obtain ⟨hi, hmax⟩ := Option.isSome_iff_exists.mp (List.isSome_max?_of_ne_nil hne)
  exact ⟨lo, hi, hmin, hmax⟩

variable [One T] [Add T] [Mul T] [LT T] [DecidableLT T] {x y : List K} {bins : Int32}

omit [DecidableLT T] in
/-- The values of a window that has a width have bins. -/
theorem exists_binned_of_width (hA : A.Lawful) (hbins : 1 ≤ bins) {lo hi : K}
    (hmin : x.min? = some lo) (hmax : x.max? = some hi) (hwidth : A.binWidth lo hi bins ≠ 0) :
    ∃ ks, A.Binned lo (A.binWidth lo hi bins) x ks := by
  apply exists_binned
  intro value hvalue
  have hlo := (List.min?_eq_some_iff.mp hmin).2 value hvalue
  have hhi := (List.max?_eq_some_iff.mp hmax).2 value hvalue
  exact hA.binIndex_ok lo hi value bins hbins hlo hhi hwidth

/-- The mutual information of two windows over their ranges. -/
def mutualInformation (A : Arithmetic K T) (x y : List K) (bins : Int32) : Except Fault T :=
  match x.min?, x.max?, y.min?, y.max? with
  | some minX, some maxX, some minY, some maxY =>
    A.computeMutualInformationInRange x minX maxX y minY maxY bins
  | _, _, _, _ => .ok 0

theorem mutualInformation_eq {minX maxX minY maxY : K} (hminX : x.min? = some minX)
    (hmaxX : x.max? = some maxX) (hminY : y.min? = some minY) (hmaxY : y.max? = some maxY) :
    A.mutualInformation x y bins =
      A.computeMutualInformationInRange x minX maxX y minY maxY bins := by
  unfold mutualInformation
  rw [hminX, hmaxX, hminY, hmaxY]

/-- If both windows have a width, no division by `0` is executed. -/
theorem exists_mutualInformation (hA : A.Lawful) (hbins : 1 ≤ bins) (hne : x ≠ [])
    (hsize : x.length < 2 ^ 31) (hlen : x.length = y.length) (hx : A.HasWidth x bins)
    (hy : A.HasWidth y bins) : ∃ mi, A.mutualInformation x y bins = .ok mi := by
  obtain ⟨minX, maxX, hminX, hmaxX, hX⟩ := hx
  obtain ⟨minY, maxY, hminY, hmaxY, hY⟩ := hy
  have hdivisor := hA.ofInt_ne_zero bins.toInt (one_le_toInt hbins) bins.toInt_lt
  have hpos : 1 ≤ x.length := List.length_pos_iff.mpr hne
  have hsizeX := hA.ofSize_ne_zero x.length hpos hsize
  have hsizeY : A.ofSize y.length ≠ 0 := hlen ▸ hsizeX
  obtain ⟨ks, hks⟩ := exists_binned_of_width hA hbins hminX hmaxX hX
  obtain ⟨ls, hls⟩ := exists_binned_of_width hA hbins hminY hmaxY hY
  obtain ⟨histX, hokX, htableX⟩ := histogram_isTable hdivisor hsizeX hks
  obtain ⟨histY, hokY, htableY⟩ := histogram_isTable hdivisor hsizeY hls
  obtain ⟨joint, hok⟩ := exists_joint hdivisor hsizeX hlen hks hls
  rw [← hlen] at htableY
  have hlengthY : ls.length = x.length := hls.length_eq.symm.trans hlen.symm
  obtain ⟨mi, hmi⟩ := exists_sumJoint hA hsize hks.length_eq.symm hlengthY htableX htableY joint
  rw [mutualInformation_eq hminX hmaxX hminY hmaxY]
  refine ⟨mi, bind_eq_ok_iff.mpr ⟨histX, hokX, bind_eq_ok_iff.mpr ⟨histY, hokY, ?_⟩⟩⟩
  exact bind_eq_ok_iff.mpr ⟨joint, hok, hmi⟩

/-- If one of the windows has no width, a division by it is executed. -/
theorem mutualInformation_zero_width (hA : A.Lawful) (hbins : 1 ≤ bins) (hneX : x ≠ [])
    (hneY : y ≠ []) (hsize : x.length < 2 ^ 31) (h : ¬ (A.HasWidth x bins ∧ A.HasWidth y bins)) :
    A.mutualInformation x y bins = .error .divisionByZero := by
  obtain ⟨minX, maxX, hminX, hmaxX⟩ := exists_min_max hneX
  obtain ⟨minY, maxY, hminY, hmaxY⟩ := exists_min_max hneY
  have hdivisor := hA.ofInt_ne_zero bins.toInt (one_le_toInt hbins) bins.toInt_lt
  rw [hasWidth_iff hminX hmaxX, hasWidth_iff hminY hmaxY] at h
  rw [mutualInformation_eq hminX hmaxX hminY hmaxY]
  unfold computeMutualInformationInRange
  -- the histogram of `x` comes first, that of `y` second
  by_cases hX : A.binWidth minX maxX bins = 0
  · rw [histogram_zero_width hdivisor hneX hX]
    rfl
  · have hY : A.binWidth minY maxY bins = 0 := by
      by_contra hY
      exact h ⟨hX, hY⟩
    have hpos : 1 ≤ x.length := List.length_pos_iff.mpr hneX
    obtain ⟨ks, hks⟩ := exists_binned_of_width hA hbins hminX hmaxX hX
    obtain ⟨histX, hokX, -⟩ :=
      histogram_isTable hdivisor (hA.ofSize_ne_zero x.length hpos hsize) hks
    rw [hokX, histogram_zero_width hdivisor hneY hY]
    rfl

/-- Windows of one length have a mutual information exactly when both have a width. -/
theorem mutualInformation_isOk_iff (hA : A.Lawful) (hbins : 1 ≤ bins) (hne : x ≠ [])
    (hsize : x.length < 2 ^ 31) (hlen : x.length = y.length) :
    (∃ mi, A.mutualInformation x y bins = .ok mi) ↔ A.HasWidth x bins ∧ A.HasWidth y bins := by
  constructor
  · rintro ⟨mi, hmi⟩
    by_contra hzero
    have hneY : y ≠ [] := by
      rintro rfl
      exact hne (List.eq_nil_of_length_eq_zero hlen)
    rw [mutualInformation_zero_width hA hbins hne hneY hsize hzero] at hmi
    exact absurd hmi nofun
  · rintro ⟨hx, hy⟩
    exact exists_mutualInformation hA hbins hne hsize hlen hx hy

end Width

/-! ### Two arithmetics -/

section Instances

open MutualInformationCalculatorDefault

variable [Field K] [LinearOrder K] [FloorRing K] [IsStrictOrderedRing K]

theorem exact_lawful (log2 : K → K) : (exact log2).Lawful where
  ofInt_ne_zero n hn _ := Int.cast_ne_zero.mpr (by omega)
  ofSize_ne_zero n hn _ := Nat.cast_ne_zero.mpr (by omega)
  binIndex_ok lo hi value bins hbins hlo hhi hwidth := by
    have hne : lo ≠ hi := by
      rintro rfl
      apply hwidth
      show (lo - lo) / (bins.toInt : K) = 0
      rw [sub_self, zero_div]
    have hlt : lo < hi := lt_of_le_of_ne (hlo.trans hhi) hne
    exact ⟨_, (binIndex_of_mem hbins hlt hlo hhi).1⟩
  zero_not_pos := lt_irrefl 0
  mul_ne_zero _ _ _ _ _ _ hm hn := (mul_pos hm hn).ne'

omit [IsStrictOrderedRing K] in
/-- Exactly computed, the width is `0` for constant windows. -/
theorem exact_hasWidth_iff (log2 : K → K) (window : List K) {bins : Int32} (hbins : 1 ≤ bins) :
    (exact log2).HasWidth window bins ↔ NonConstant window := by
  have hdivisor := cast_toInt_ne_zero (K := K) hbins
  constructor
  · rintro ⟨lo, hi, hmin, hmax, hwidth⟩
    refine ⟨lo, List.min?_mem hmin, hi, List.max?_mem hmax, ?_⟩
    rintro rfl
    apply hwidth
    show (lo - lo) / (bins.toInt : K) = 0
    rw [sub_self, zero_div]
  · intro h
    obtain ⟨lo, hi, hmin, hmax, hlt⟩ := exists_range h
    exact ⟨lo, hi, hmin, hmax, div_ne_zero (sub_ne_zero.mpr hlt.ne') hdivisor⟩

omit [IsStrictOrderedRing K] in
/-- Exactly computed, the mutual information over the ranges is that without ranges. -/
theorem exact_mutualInformation (log2 : K → K) {x y : List K} (hx : x ≠ []) (hy : y ≠ [])
    (bins : Int32) :
    (exact log2).mutualInformation x y bins = computeMutualInformation log2 x y bins := by
  obtain ⟨minX, maxX, hminX, hmaxX⟩ := exists_min_max hx
  obtain ⟨minY, maxY, hminY, hmaxY⟩ := exists_min_max hy
  rw [mutualInformation_eq hminX hmaxX hminY hmaxY, exact_computeMutualInformationInRange,
    computeMutualInformation_eq log2 hminX hmaxX hminY hmaxY]

theorem integer_lawful (log2 : ℤ → ℚ) : (integer log2).Lawful where
  ofInt_ne_zero n hn _ := show n ≠ 0 by omega
  ofSize_ne_zero n hn _ := show (n : ℤ) ≠ 0 by omega
  binIndex_ok lo hi value bins _ _ _ hwidth := by
    refine ⟨Int.tdiv (⌊value⌋ - ⌊lo⌋) ((integer log2).binWidth lo hi bins), ?_⟩
    unfold binIndex
    rw [divide_eq_ok hwidth]
    rfl
  zero_not_pos := lt_irrefl 0
  mul_ne_zero _ _ _ _ _ _ hm hn := (mul_pos hm hn).ne'

/-- In integers the width is `0` unless two values differ by at least `bins`. -/
theorem integer_hasWidth_iff (log2 : ℤ → ℚ) (window : List ℚ) {bins : Int32} (hbins : 1 ≤ bins) :
    (integer log2).HasWidth window bins ↔
      ∃ a ∈ window, ∃ b ∈ window, bins.toInt ≤ ⌊b⌋ - ⌊a⌋ := by
  have hone := one_le_toInt hbins
  have hwidth : ∀ {n : ℤ}, 0 ≤ n → (n.tdiv bins.toInt ≠ 0 ↔ bins.toInt ≤ n) := by
    intro n hn
    rw [Int.tdiv_eq_ediv_of_nonneg hn]
    constructor
    · intro h
      by_contra hlt
      exact h (Int.ediv_eq_zero_of_lt hn (by omega))
    · intro h
      have hle := Int.le_ediv_of_mul_le (by omega : 0 < bins.toInt) (by omega : 1 * bins.toInt ≤ n)
      omega
  constructor
  · rintro ⟨lo, hi, hmin, hmax, h⟩
    have hle : ⌊lo⌋ ≤ ⌊hi⌋ :=
      Int.floor_mono ((List.min?_eq_some_iff.mp hmin).2 hi (List.max?_mem hmax))
    exact ⟨lo, List.min?_mem hmin, hi, List.max?_mem hmax, (hwidth (by omega)).mp h⟩
  · rintro ⟨a, ha, b, hb, h⟩
    have hne : window ≠ [] := List.ne_nil_of_mem ha
    obtain ⟨lo, hi, hmin, hmax⟩ := exists_min_max hne
    have hlo := Int.floor_mono ((List.min?_eq_some_iff.mp hmin).2 a ha)
    have hhi := Int.floor_mono ((List.max?_eq_some_iff.mp hmax).2 b hb)
    have hrange : bins.toInt ≤ ⌊hi⌋ - ⌊lo⌋ := by omega
    have hnonneg : 0 ≤ ⌊hi⌋ - ⌊lo⌋ := by omega
    exact ⟨lo, hi, hmin, hmax, (hwidth hnonneg).mpr hrange⟩

end Instances

/-! ### The window storage -/

section Storage

open SlidingWindowStorageDefault MutualInformationCalculatorDefault

variable [Field K] [LinearOrder K]

variable {H : Type} [DecidableEq H] [One T] [Add T] [Mul T] [LT T] [DecidableLT T]

omit [DecidableEq H] in
/-- With enough data, it is the mutual information of the windows. -/
theorem compute_of_enough {s : SlidingWindowStorageDefault H K} {hashAsset pairedAsset : H}
    {windowSize : Int32} {x y : List K} {minX maxX minY maxY : K} (bins : Int32)
    (henoughX : s.hasEnoughData hashAsset = true) (henoughY : s.hasEnoughData pairedAsset = true)
    (hX : Enough s hashAsset windowSize x minX maxX)
    (hY : Enough s pairedAsset windowSize y minY maxY) :
    A.computeMutualInformationOfStorage s hashAsset pairedAsset bins =
      (A.mutualInformation x y bins).map (true, ·) := by
  unfold computeMutualInformationOfStorage
  rw [mutualInformation_eq hX.min hX.max hY.min hY.max, henoughX, henoughY, hX.data, hY.data,
    hX.getMin, hX.getMax, hY.getMin, hY.getMax]
  rfl

/-- **Mutual information over the windows** executes no division by `0` exactly when the widths of
the bins of both windows are not `0`; it then has a result. -/
theorem divides_iff (A : Arithmetic K T) (hA : A.Lawful) (windowSize : Int32)
    (hsize : 1 ≤ windowSize) (adds : List (H × K)) (hashAsset pairedAsset : H) (bins : Int32)
    (hbins : 1 ≤ bins)
    (henoughX : (afterAdds windowSize adds).hasEnoughData hashAsset = true)
    (henoughY : (afterAdds windowSize adds).hasEnoughData pairedAsset = true) :
    (A.computeMutualInformationOfStorage (afterAdds windowSize adds) hashAsset pairedAsset bins ≠
        .error .divisionByZero ↔
      A.HasWidth (windowOf windowSize adds hashAsset) bins ∧
        A.HasWidth (windowOf windowSize adds pairedAsset) bins) ∧
    (A.HasWidth (windowOf windowSize adds hashAsset) bins ∧
        A.HasWidth (windowOf windowSize adds pairedAsset) bins →
      ∃ mi, A.computeMutualInformationOfStorage (afterAdds windowSize adds) hashAsset pairedAsset
        bins = .ok (true, mi)) := by
  obtain ⟨minX, maxX, hX⟩ := exists_enough hsize henoughX
  obtain ⟨minY, maxY, hY⟩ := exists_enough hsize henoughY
  have hbounds := toNatClampNeg_bounds hsize
  have hlen := hX.length.trans hY.length.symm
  have hlength : (windowOf windowSize adds hashAsset).length < 2 ^ 31 := by
    rw [hX.length]
    omega
  rw [compute_of_enough bins henoughX henoughY hX hY]
  have hdefined : A.HasWidth (windowOf windowSize adds hashAsset) bins ∧
      A.HasWidth (windowOf windowSize adds pairedAsset) bins →
      ∃ mi, (A.mutualInformation (windowOf windowSize adds hashAsset)
        (windowOf windowSize adds pairedAsset) bins).map (true, ·) = .ok (true, mi) := by
    rintro ⟨hwidthX, hwidthY⟩
    obtain ⟨mi, hmi⟩ :=
      exists_mutualInformation hA hbins hX.ne_nil hlength hlen hwidthX hwidthY
    exact ⟨mi, by rw [hmi]; rfl⟩
  refine ⟨⟨fun h => ?_, fun h => ?_⟩, hdefined⟩
  · by_contra hzero
    rw [mutualInformation_zero_width hA hbins hX.ne_nil hY.ne_nil hlength hzero] at h
    exact h rfl
  · obtain ⟨mi, hmi⟩ := hdefined h
    rw [hmi]
    exact nofun

/-- Two values for each of two assets. -/
def ascendingAdds : List (String × ℚ) := [("a", 1), ("b", 5), ("a", 7), ("b", 9)]

theorem divides_iff_ascendingAdds :
    ∃ mi, (integer fun _ => 0).computeMutualInformationOfStorage (afterAdds 2 ascendingAdds)
      "a" "b" 3 = .ok (true, mi) := by
  have hwidth : (integer fun _ => 0).HasWidth (windowOf 2 ascendingAdds "a") 3 ∧
      (integer fun _ => 0).HasWidth (windowOf 2 ascendingAdds "b") 3 := by
    exact ⟨⟨1, 7, by decide +kernel, by decide +kernel, by decide +kernel⟩,
      ⟨5, 9, by decide +kernel, by decide +kernel, by decide +kernel⟩⟩
  exact (divides_iff (integer fun _ => 0) (integer_lawful _) 2 (by decide) ascendingAdds "a" "b" 3
    (by decide) (by decide +kernel) (by decide +kernel)).2 hwidth

/-- One value for each of two assets. -/
def singleAdds : List (String × ℚ) := [("a", 1), ("b", 2)]

/-- The values `0` and `1` for each of two assets. -/
def narrowAdds : List (String × ℚ) := [("a", 0), ("b", 0), ("a", 1), ("b", 1)]

/-- The widths are `0` for windows of one value, and in integers for `0` and `1` in three bins. -/
theorem zeroWidth_divides :
    ((afterAdds 1 singleAdds).hasEnoughData "a" = true ∧
      (afterAdds 1 singleAdds).hasEnoughData "b" = true ∧
      (exact fun t => t).computeMutualInformationOfStorage (afterAdds 1 singleAdds) "a" "b" 3 =
        .error .divisionByZero) ∧
    (afterAdds 2 narrowAdds).hasEnoughData "a" = true ∧
      (afterAdds 2 narrowAdds).hasEnoughData "b" = true ∧
      (integer fun _ => 0).computeMutualInformationOfStorage (afterAdds 2 narrowAdds) "a" "b" 3 =
        .error .divisionByZero := by
  decide +kernel

end Storage

end CryptobotAlgo.Aos.Arithmetic
