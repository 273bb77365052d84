import CryptobotAlgo.Aoe.Bybit.OrderMinQtyCalculator
import Mathlib.Data.Rat.Floor
import Mathlib.Tactic.NormNum

/-!
# The quantity is the least that the filter allows

The lower bounds on the quantity are one lower bound, and the rounded up quantity is the least that
satisfies it (`isLeast_lowerFeasible`).  The upper bounds hold of every quantity below one of which
they hold, so that it is enough to test them on that quantity (`calculate_spec`).
-/

namespace CryptobotAlgo.Aoe.Bybit.Spot.OrderMinQtyCalculator

variable {K : Type} [Field K] [LinearOrder K] [FloorRing K]

/-- The price is a multiple of the tick, up to the tolerance. -/
def Aligned (filter : OrderFilter K) (price : K) : Prop :=
  ∃ k : ℤ, |price - k * filter.tickSize| < eps

/-- The filter allows an order of this quantity at this price. -/
structure Feasible (filter : OrderFilter K) (price q : K) : Prop where
  multiple : ∃ k : ℤ, q = k * filter.basePrecission
  minOrderQty_le : filter.minOrderQty ≤ q
  le_maxOrderQty : q ≤ filter.maxOrderQty
  minOrderAmt_le : filter.minOrderAmt ≤ q * price
  le_maxOrderAmt : q * price ≤ filter.maxOrderAmt

/-- The multiples of the step that the lower bounds allow. -/
def lowerFeasible (filter : OrderFilter K) (price : K) : Set K :=
  {q | (∃ k : ℤ, q = k * filter.basePrecission) ∧
    max filter.minOrderQty (filter.minOrderAmt / price) ≤ q}

/-- The quantities that the upper bounds allow. -/
def upperFeasible (filter : OrderFilter K) (price : K) : Set K :=
  {q | q ≤ filter.maxOrderQty ∧ q * price ≤ filter.maxOrderAmt}

variable [IsStrictOrderedRing K] {filter : OrderFilter K} {price : K}

theorem isAligned_iff (htick : 0 < filter.tickSize) :
    isAligned price filter.tickSize ↔ Aligned filter price := by
  unfold isAligned Aligned
  rw [decide_eq_true_iff]
  exact exists_abs_sub_lt_iff htick price _

omit [FloorRing K] in
theorem feasible_iff (hprice : 0 < price) (q : K) :
    Feasible filter price q ↔ q ∈ lowerFeasible filter price ∩ upperFeasible filter price := by
  have hlower : max filter.minOrderQty (filter.minOrderAmt / price) ≤ q ↔
      filter.minOrderQty ≤ q ∧ filter.minOrderAmt ≤ q * price := by
    rw [max_le_iff, div_le_iff₀ hprice]
  constructor
  · intro h
    exact ⟨⟨h.multiple, hlower.mpr ⟨h.minOrderQty_le, h.minOrderAmt_le⟩⟩,
      h.le_maxOrderQty, h.le_maxOrderAmt⟩
  · rintro ⟨⟨hmultiple, hmax⟩, hqty, hamt⟩
    obtain ⟨hminQty, hminAmt⟩ := hlower.mp hmax
    exact ⟨hmultiple, hminQty, hqty, hminAmt, hamt⟩

/-- The quantity that the calculator tries. -/
def candidate (filter : OrderFilter K) (price : K) : K :=
  roundUpToStep (max filter.minOrderQty (filter.minOrderAmt / price)) filter.basePrecission

theorem isLeast_lowerFeasible (price : K) (hbase : 0 < filter.basePrecission) :
    IsLeast (lowerFeasible filter price) (candidate filter price) :=
  isLeast_ceil_mul hbase _

omit [FloorRing K] in
theorem isLowerSet_upperFeasible (hprice : 0 < price) :
    IsLowerSet (upperFeasible filter price) := by
  rintro q r hrq ⟨hqty, hamt⟩
  have hmul : r * price ≤ q * price := mul_le_mul_of_nonneg_right hrq hprice.le
  exact ⟨hrq.trans hqty, hmul.trans hamt⟩

/-- The test of the lower bound on the amount always succeeds. -/
theorem minOrderAmt_le_candidate_mul (hprice : 0 < price) (hbase : 0 < filter.basePrecission) :
    filter.minOrderAmt ≤ candidate filter price * price := by
  have hmax := (isLeast_lowerFeasible price hbase).1.2
  exact (div_le_iff₀ hprice).mp ((le_max_right _ _).trans hmax)

theorem calculate_of_mem (htick : 0 < filter.tickSize) (hprice : 0 < price)
    (hbase : 0 < filter.basePrecission) (haligned : Aligned filter price)
    (hmem : candidate filter price ∈ upperFeasible filter price) :
    calculate filter price = (true, candidate filter price) := by
  obtain ⟨hqty, hamt⟩ := hmem
  have hminAmt := minOrderAmt_le_candidate_mul hprice hbase
  have htest := (isAligned_iff htick).mpr haligned
  unfold candidate at hqty hamt hminAmt
  unfold calculate candidate
  simp only [htest, Bool.not_true, Bool.false_eq_true, if_false, not_lt.mpr hqty, not_lt.mpr hamt,
    not_lt.mpr hminAmt, or_self]

theorem calculate_of_not (htick : 0 < filter.tickSize)
    (h : ¬ (Aligned filter price ∧ candidate filter price ∈ upperFeasible filter price)) :
    calculate filter price = (false, 0) := by
  unfold calculate
  dsimp only
  -- the last branch is the only one with a quantity, and there all tests have succeeded
  split_ifs with haligned hqty hamt
  · rfl
  · rfl
  · rfl
  · refine absurd ⟨?_, not_lt.mp hqty, not_lt.mp fun hlt => hamt (.inr hlt)⟩ h
    rw [Bool.not_eq_true', Bool.not_eq_false] at haligned
    exact (isAligned_iff htick).mp haligned

/-- **The calculator fails** exactly when the price is not aligned or the filter allows no quantity,
and otherwise returns the least quantity that it allows. -/
theorem calculate_spec (filter : OrderFilter K) (price : K) (hprice : 0 < price)
    (htick : 0 < filter.tickSize) (hbase : 0 < filter.basePrecission) :
    ((calculate filter price).1 = false ↔
        ¬ Aligned filter price ∨ ∀ q, ¬ Feasible filter price q) ∧
      ((calculate filter price).1 = true →
        IsLeast {q | Feasible filter price q} (calculate filter price).2) := by
  have hset : {q | Feasible filter price q} =
      lowerFeasible filter price ∩ upperFeasible filter price := by
    ext q
    exact feasible_iff hprice q
  have hleast := isLeast_lowerFeasible price hbase
  have hexists : (∃ q, Feasible filter price q) ↔
      candidate filter price ∈ upperFeasible filter price := by
    rw [← inter_nonempty_iff_of_isLeast hleast (isLowerSet_upperFeasible hprice), ← hset]
    rfl
  have hfails : ¬ (Aligned filter price ∧ candidate filter price ∈ upperFeasible filter price) ↔
      ¬ Aligned filter price ∨ ∀ q, ¬ Feasible filter price q := by
    rw [not_and_or, ← hexists, not_exists]
  by_cases h : Aligned filter price ∧ candidate filter price ∈ upperFeasible filter price
  · rw [calculate_of_mem htick hprice hbase h.1 h.2, ← hfails, hset]
    exact ⟨iff_of_false nofun (not_not_intro h),
      fun _ => isLeast_inter_of_isLeast hleast h.2⟩
  · rw [calculate_of_not htick h, ← hfails]
    exact ⟨iff_of_true rfl h, nofun⟩

/-- A filter with small numbers. -/
def smallFilter : OrderFilter ℚ where
  minOrderQty := 2
  maxOrderQty := 80
  minOrderAmt := 5
  maxOrderAmt := 8000
  basePrecission := 3
  tickSize := 1 / 2

theorem calculate_spec_smallFilter :
    calculate smallFilter (1 / 2) = (true, 12) ∧
      IsLeast {q | Feasible smallFilter (1 / 2) q} (calculate smallFilter (1 / 2)).2 := by
  have hvalue : calculate smallFilter (1 / 2) = (true, 12) := by decide +kernel
  refine ⟨hvalue, (calculate_spec smallFilter (1 / 2) ?_ ?_ ?_).2 ?_⟩
  · norm_num
  · norm_num [smallFilter]
  · norm_num [smallFilter]
  · rw [hvalue]

end CryptobotAlgo.Aoe.Bybit.Spot.OrderMinQtyCalculator
