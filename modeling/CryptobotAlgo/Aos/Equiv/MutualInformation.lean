import CryptobotAlgo.Aos.Equiv.Histogram
import CryptobotAlgo.Aos.Equiv.SlidingWindow
import CryptobotAlgo.Aos.MutualInformation

/-!
# The mutual information of the bins

The test for positive masses drops no entry of the joint histogram, so the loop computes the mutual
information of the pairs of bins (`mutualInformation_of_binned`).  Over the ranges of the values,
this is symmetric and not negative (`mutualInformation_symm_nonneg`).

Of an asset with enough data the storage has the window and its range (`exists_enough`).
-/

namespace CryptobotAlgo.Aos.MutualInformationCalculatorDefault

open HistogramCalculatorDefault JointHistogramCalculatorDefault

variable {K : Type} [Field K] [LinearOrder K]

/-! ### The loop -/

/-- What an entry of the joint histogram adds. -/
def summand (log2 : K → K) (histX histY : Histogram ℤ K) (z : ℤ × ℤ) (p : K) : K :=
  p * log2 (p / (mass histX z.1 * mass histY z.2))

variable [IsStrictOrderedRing K]

/-- An entry with positive masses is added, and its divisor is not `0`. -/
theorem addEntry_eq (log2 : K → K) {histX histY : Histogram ℤ K} {e : Sigma fun _ : ℤ × ℤ => K}
    (h : 0 < e.2 ∧ 0 < mass histX e.1.1 ∧ 0 < mass histY e.1.2) (mi : K) :
    addEntry log2 histX histY mi e = .ok (mi + summand log2 histX histY e.1 e.2) := by
  have hdivisor : mass histX e.1.1 * mass histY e.1.2 ≠ 0 := (mul_pos h.2.1 h.2.2).ne'
  unfold mass at h hdivisor
  unfold addEntry
  dsimp only
  rw [if_pos h, div_eq_ok hdivisor]
  rfl

/-- The test drops no entry. -/
theorem foldlM_addEntry (log2 : K → K) {histX histY : Histogram ℤ K}
    {entries : List (Sigma fun _ : ℤ × ℤ => K)}
    (h : ∀ e ∈ entries, 0 < e.2 ∧ 0 < mass histX e.1.1 ∧ 0 < mass histY e.1.2) (mi : K) :
    entries.foldlM (addEntry log2 histX histY) mi =
      .ok (mi + (entries.map fun e => summand log2 histX histY e.1 e.2).sum) := by
  induction entries generalizing mi with
  | nil =>
    rw [List.map_nil, List.sum_nil, add_zero]
    rfl
  | cons e entries ih =>
    obtain ⟨hentry, hrest⟩ := List.forall_mem_cons.mp h
    rw [List.foldlM_cons, addEntry_eq log2 hentry, List.map_cons, List.sum_cons, ← add_assoc]
    exact ih hrest _

theorem sumJoint_eq (log2 : K → K) {histX histY : Histogram ℤ K} {joint : Histogram (ℤ × ℤ) K}
    (h : MarginalsAgree histX histY joint) :
    sumJoint log2 histX histY joint =
      .ok (joint.entries.map fun e => summand log2 histX histY e.1 e.2).sum := by
  have hloop := foldlM_addEntry log2 h.positive 0
  rw [zero_add] at hloop
  exact hloop

variable [FloorRing K]

/-- The mutual information of the pairs of bins. -/
theorem mutualInformation_of_binned (log2 : K → K) {x y : List K} {minX maxX minY maxY : K}
    {bins : Int32} {ks ls : List ℤ} (hbins : (bins.toInt : K) ≠ 0) (hneX : x ≠ []) (hneY : y ≠ [])
    (hlen : x.length = y.length) (hX : Binned minX ((maxX - minX) / bins.toInt) x ks)
    (hY : Binned minY ((maxY - minY) / bins.toInt) y ls) :
    computeMutualInformationInRange log2 x minX maxX y minY maxY bins =
      .ok (mutualInfo log2 (ks.zip ls)) := by
  obtain ⟨histX, hokX, htableX⟩ := histogram_isTable hbins hneX hX
  obtain ⟨histY, hokY, htableY⟩ := histogram_isTable hbins hneY hY
  obtain ⟨joint, hok, htable⟩ := joint_isTable hbins hneX hlen hX hY
  have hlength := hX.length_eq_length hY hlen
  have hsum := sumJoint_eq log2 (marginalsAgree_of_isTable hlength htableX htableY htable)
  have hinfo : (joint.entries.map fun e => summand log2 histX histY e.1 e.2).sum =
      mutualInfo log2 (ks.zip ls) := by
    have hfst : (ks.zip ls).map Prod.fst = ks := List.map_fst_zip hlength.le
    have hsnd : (ks.zip ls).map Prod.snd = ls := List.map_snd_zip hlength.ge
    rw [htable.sum_entries (summand log2 histX histY)]
    unfold mutualInfo summand
    -- the lookups in the histograms are the frequencies of the marginals
    rw [hfst, hsnd]
    refine Finset.sum_congr rfl fun z _ => ?_
    rw [mass_of_isTable htableX, mass_of_isTable htableY]
  rw [hinfo] at hsum
  apply bind_eq_ok_iff.mpr
  refine ⟨histX, hokX, bind_eq_ok_iff.mpr ⟨histY, hokY, bind_eq_ok_iff.mpr ⟨joint, hok, hsum⟩⟩⟩

omit [IsStrictOrderedRing K] in
/-- The overload without ranges takes those of the values. -/
theorem computeMutualInformation_eq (log2 : K → K) {x y : List K} {minX maxX minY maxY : K}
    (hminX : x.min? = some minX) (hmaxX : x.max? = some maxX) (hminY : y.min? = some minY)
    (hmaxY : y.max? = some maxY) (bins : Int32) :
    computeMutualInformation log2 x y bins =
      computeMutualInformationInRange log2 x minX maxX y minY maxY bins := by
  unfold computeMutualInformation computeMutualInformationInRange
  rw [computeHistogram_eq hminX hmaxX, computeHistogram_eq hminY hmaxY,
    computeJointHistogram_eq hminX hmaxX hminY hmaxY]

/-- **Mutual information** is symmetric and not negative, for any function that is bounded below as
logarithms are, and is the same with the ranges of the values and without. -/
theorem mutualInformation_symm_nonneg (log2 : K → K) (c : K) (hc : 0 ≤ c)
    (hlog2 : ∀ t, 0 < t → c * (1 - 1 / t) ≤ log2 t) (x y : List K) (bins : Int32)
    (minX maxX minY maxY : K) (hx : NonConstant x) (hy : NonConstant y)
    (hlen : x.length = y.length) (hbins : 1 ≤ bins) (hminX : x.min? = some minX)
    (hmaxX : x.max? = some maxX) (hminY : y.min? = some minY) (hmaxY : y.max? = some maxY) :
    ∃ mi, computeMutualInformation log2 x y bins = .ok mi ∧
      computeMutualInformation log2 y x bins = .ok mi ∧
      computeMutualInformationInRange log2 x minX maxX y minY maxY bins = .ok mi ∧
      computeMutualInformationInRange log2 y minY maxY x minX maxX bins = .ok mi ∧ 0 ≤ mi := by
  have hne := cast_toInt_ne_zero (K := K) hbins
  obtain ⟨ks, hks, -⟩ := exists_binned_of_min_max hbins hx hminX hmaxX
  obtain ⟨ls, hls, -⟩ := exists_binned_of_min_max hbins hy hminY hmaxY
  have hxy := mutualInformation_of_binned log2 hne hx.ne_nil hy.ne_nil hlen hks hls
  have hyx := mutualInformation_of_binned log2 hne hy.ne_nil hx.ne_nil hlen.symm hls hks
  -- the other order swaps the pairs of bins
  rw [← List.zip_swap, mutualInfo_swap] at hyx
  rw [computeMutualInformation_eq log2 hminX hmaxX hminY hmaxY,
    computeMutualInformation_eq log2 hminY hmaxY hminX hmaxX]
  exact ⟨_, hxy, hyx, hxy, hyx, mutualInfo_nonneg hc hlog2 _⟩

theorem mutualInformation_pair :
    ∃ mi, computeMutualInformation (fun t => 1 - 1 / t) pairX pairY 2 = .ok mi ∧
      computeMutualInformation (fun t => 1 - 1 / t) pairY pairX 2 = .ok mi ∧
      computeMutualInformationInRange (fun t => 1 - 1 / t) pairX 0 1 pairY 2 3 2 = .ok mi ∧
      computeMutualInformationInRange (fun t => 1 - 1 / t) pairY 2 3 pairX 0 1 2 = .ok mi ∧
      0 ≤ mi := by
  refine mutualInformation_symm_nonneg (fun t => 1 - 1 / t) 1 zero_le_one ?_ pairX pairY 2 0 1 2 3
    pairX_nonConstant pairY_nonConstant rfl (by decide) ?_ ?_ ?_ ?_
  · exact fun t _ => (one_mul _).le
  · decide +kernel
  · decide +kernel
  · decide +kernel
  · decide +kernel

/-! ### The window storage -/

section Storage

open SlidingWindowStorageDefault

variable {H : Type} [DecidableEq H]

/-- The window of an asset after some calls of `AddData`. -/
def windowOf (windowSize : Int32) (adds : List (H × K)) (asset : H) : List K :=
  (valuesOf asset adds).rtake windowSize.toNatClampNeg

/-- What the storage reports of an asset with enough data. -/
structure Enough (s : SlidingWindowStorageDefault H K) (asset : H) (windowSize : Int32)
    (window : List K) (lo hi : K) : Prop where
  data : dataOf s asset = .ok window
  length : window.length = windowSize.toNatClampNeg
  ne_nil : window ≠ []
  min : window.min? = some lo
  max : window.max? = some hi
  getMin : s.getMin asset = (true, lo)
  getMax : s.getMax asset = (true, hi)

variable {windowSize : Int32} {adds : List (H × K)} {asset : H}

omit [IsStrictOrderedRing K] [FloorRing K] in
/-- The data of an asset with enough of them are its window, and its range is reported. -/
theorem exists_enough (hsize : 1 ≤ windowSize)
    (h : (afterAdds windowSize adds).hasEnoughData asset = true) :
    ∃ lo hi, Enough (afterAdds windowSize adds) asset windowSize (windowOf windowSize adds asset)
      lo hi := by
  have hbounds := toNatClampNeg_bounds hsize
  have hlen : (windowOf windowSize adds asset).length ≤ windowSize.toNatClampNeg :=
    length_rtake_le ..
  have hreports : (afterAdds windowSize adds).Reports asset (windowOf windowSize adds asset) :=
    (follows_afterAdds hsize adds asset).reports (hlen.trans_lt (by omega))
  have hdata : (afterAdds windowSize adds).data asset = _ := hreports.data
  have hlimit : (afterAdds windowSize adds).sizeLimit.toNat = windowSize.toNatClampNeg := by
    rw [sizeLimit_toNat (by rw [windowSize_afterAdds]; exact hsize), windowSize_afterAdds]
  -- `HasEnoughData` looks the asset up, and is false if it is not there
  have hne : windowOf windowSize adds asset ≠ [] := by
    intro hnil
    unfold hasEnoughData at h
    rw [hdata, if_pos hnil] at h
    contradiction
  rw [if_neg hne] at hdata
  have hlength : (windowOf windowSize adds asset).length = windowSize.toNatClampNeg := by
    unfold hasEnoughData at h
    rw [hdata] at h
    dsimp only at h
    rw [decide_eq_true_iff, hlimit] at h
    exact le_antisymm hlen h
  obtain ⟨lo, hlo⟩ := Option.ne_none_iff_exists'.mp (mt List.min?_eq_none_iff.mp hne)
  obtain ⟨hi, hhi⟩ := Option.ne_none_iff_exists'.mp (mt List.max?_eq_none_iff.mp hne)
  refine ⟨lo, hi, ?_, hlength, hne, hlo, hhi, ?_, ?_⟩
  · unfold dataOf getData
    rw [hdata]
  · rw [hreports.min, hlo]
    rfl
  · rw [hreports.max, hhi]
    rfl

end Storage

end CryptobotAlgo.Aos.MutualInformationCalculatorDefault
