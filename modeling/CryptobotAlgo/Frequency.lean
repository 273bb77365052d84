import Mathlib.Algebra.BigOperators.Field
import Mathlib.Algebra.Order.BigOperators.Ring.Finset
import Mathlib.Algebra.Order.Field.Basic
import Mathlib.Tactic.FieldSimp
import Mathlib.Tactic.Linarith
import Mathlib.Tactic.Ring

/-!
# Relative frequencies

`freq zs z` is the part of the list `zs` that `z` makes up.  The frequencies of a list sum to `1`
(`sum_freq`), and those of `zs.map f` are the sums of those of `zs` over the fibres of `f`
(`sum_freq_fiber`); the marginals of a list of pairs are the cases `Prod.fst` and `Prod.snd`.

`mutualInfo` is the mutual information of a list of pairs, with any function for the logarithm.  It
is symmetric (`mutualInfo_swap`), and not negative if the function is bounded below as logarithms
are (`mutualInfo_nonneg`, Gibbs' inequality).
-/

namespace CryptobotAlgo

variable {α β κ : Type*} [DecidableEq α] [DecidableEq β] [DecidableEq κ] {K : Type*}

section Field

variable [Field K]

/-- The relative frequency of `z`. -/
def freq (zs : List κ) (z : κ) : K := (zs.count z : K) / zs.length

theorem freq_of_notMem {zs : List κ} {z : κ} (h : z ∉ zs) : (freq zs z : K) = 0 := by
  unfold freq
  rw [List.count_eq_zero_of_not_mem h, Nat.cast_zero, zero_div]

/-- The frequencies of a list are those of a second list, summed over the fibre. -/
theorem sum_freq_fiber (f : κ → α) (zs : List κ) (a : α) :
    ∑ z ∈ zs.toFinset with f z = a, (freq zs z : K) = freq (zs.map f) a := by
  have hfiber : zs.toFinset.filter (fun z => f z = a) =
      (zs.filter fun z => f z = a).toFinset := by
    ext z
    simp
  have hcount : ∑ z ∈ (zs.filter fun z => f z = a).toFinset, zs.count z = (zs.map f).count a := by
    calc ∑ z ∈ (zs.filter fun z => f z = a).toFinset, zs.count z
        = ∑ z ∈ (zs.filter fun z => f z = a).toFinset, (zs.filter fun z => f z = a).count z := by
          refine Finset.sum_congr rfl fun z hz => ?_
          rw [List.mem_toFinset, List.mem_filter] at hz
          exact (List.count_filter (p := fun z => f z = a) hz.2).symm
      _ = (zs.filter fun z => f z = a).length := List.sum_toFinset_count_eq_length _
      _ = (zs.map f).count a := by
          rw [List.count_eq_countP, List.countP_map, List.countP_eq_length_filter]
          rfl
  unfold freq
  rw [hfiber, ← Finset.sum_div, ← Nat.cast_sum, hcount, List.length_map]

/-- Other names do not change the frequencies. -/
theorem freq_map_of_injective {f : κ → α} (hf : Function.Injective f) (zs : List κ) (z : κ) :
    (freq (zs.map f) (f z) : K) = freq zs z := by
  unfold freq
  rw [List.count_map_of_injective _ _ hf, List.length_map]

/-- The mutual information of the pairs, with `L` for the logarithm. -/
def mutualInfo (L : K → K) (zs : List (α × β)) : K :=
  ∑ z ∈ zs.toFinset,
    freq zs z * L (freq zs z / (freq (zs.map Prod.fst) z.1 * freq (zs.map Prod.snd) z.2))

/-- The mutual information is symmetric. -/
theorem mutualInfo_swap (L : K → K) (zs : List (α × β)) :
    mutualInfo L (zs.map Prod.swap) = mutualInfo L zs := by
  have hset : (zs.map Prod.swap).toFinset = zs.toFinset.image Prod.swap := by
    ext z
    simp
  have hfst : (zs.map Prod.swap).map Prod.fst = zs.map Prod.snd := by
    rw [List.map_map]
    rfl
  have hsnd : (zs.map Prod.swap).map Prod.snd = zs.map Prod.fst := by
    rw [List.map_map]
    rfl
  unfold mutualInfo
  rw [hset, Finset.sum_image fun z _ z' _ hz => Prod.swap_injective hz, hfst, hsnd]
  refine Finset.sum_congr rfl fun z _ => ?_
  rw [freq_map_of_injective Prod.swap_injective, Prod.fst_swap, Prod.snd_swap,
    mul_comm (freq (zs.map Prod.snd) z.2)]

end Field

section Ordered

variable [Field K] [LinearOrder K] [IsStrictOrderedRing K]

theorem freq_nonneg (zs : List κ) (z : κ) : 0 ≤ (freq zs z : K) :=
  div_nonneg (Nat.cast_nonneg _) (Nat.cast_nonneg _)

theorem freq_pos {zs : List κ} {z : κ} (h : z ∈ zs) : 0 < (freq zs z : K) :=
  div_pos (Nat.cast_pos.mpr (List.count_pos_iff.mpr h))
    (Nat.cast_pos.mpr (List.length_pos_of_mem h))

/-- The frequencies sum to `1`. -/
theorem sum_freq {zs : List κ} (h : zs ≠ []) : ∑ z ∈ zs.toFinset, (freq zs z : K) = 1 := by
  have hlength : (zs.length : K) ≠ 0 := Nat.cast_ne_zero.mpr (mt List.eq_nil_of_length_eq_zero h)
  unfold freq
  rw [← Finset.sum_div, ← Nat.cast_sum, List.sum_toFinset_count_eq_length, div_self hlength]

/-- The products of the marginals sum to at most `1` over the pairs of the list. -/
theorem sum_mul_freq_le {zs : List (α × β)} (h : zs ≠ []) :
    ∑ z ∈ zs.toFinset, (freq (zs.map Prod.fst) z.1 * freq (zs.map Prod.snd) z.2 : K) ≤ 1 := by
  have hsubset : zs.toFinset ⊆ (zs.map Prod.fst).toFinset ×ˢ (zs.map Prod.snd).toFinset := by
    intro z hz
    rw [List.mem_toFinset] at hz
    rw [Finset.mem_product, List.mem_toFinset, List.mem_toFinset]
    exact ⟨List.mem_map_of_mem hz, List.mem_map_of_mem hz⟩
  have hfst : ∑ a ∈ (zs.map Prod.fst).toFinset, (freq (zs.map Prod.fst) a : K) = 1 :=
    sum_freq (mt List.map_eq_nil_iff.mp h)
  have hsnd : ∑ b ∈ (zs.map Prod.snd).toFinset, (freq (zs.map Prod.snd) b : K) = 1 :=
    sum_freq (mt List.map_eq_nil_iff.mp h)
  calc ∑ z ∈ zs.toFinset, (freq (zs.map Prod.fst) z.1 * freq (zs.map Prod.snd) z.2 : K)
      ≤ ∑ z ∈ (zs.map Prod.fst).toFinset ×ˢ (zs.map Prod.snd).toFinset,
          (freq (zs.map Prod.fst) z.1 * freq (zs.map Prod.snd) z.2 : K) :=
        Finset.sum_le_sum_of_subset_of_nonneg hsubset fun z _ _ =>
          mul_nonneg (freq_nonneg _ _) (freq_nonneg _ _)
    _ = (∑ a ∈ (zs.map Prod.fst).toFinset, (freq (zs.map Prod.fst) a : K)) *
          ∑ b ∈ (zs.map Prod.snd).toFinset, freq (zs.map Prod.snd) b := by
        rw [Finset.sum_mul_sum, Finset.sum_product]
    _ = 1 := by rw [hfst, hsnd, one_mul]

/-- The mutual information is not negative. -/
theorem mutualInfo_nonneg {L : K → K} {c : K} (hc : 0 ≤ c)
    (hL : ∀ t, 0 < t → c * (1 - 1 / t) ≤ L t) (zs : List (α × β)) : 0 ≤ mutualInfo L zs := by
  by_cases hzs : zs = []
  · rw [hzs]
    exact le_refl 0
  have hterm : ∀ z ∈ zs.toFinset,
      c * ((freq zs z : K) - freq (zs.map Prod.fst) z.1 * freq (zs.map Prod.snd) z.2) ≤
        freq zs z *
          L (freq zs z / (freq (zs.map Prod.fst) z.1 * freq (zs.map Prod.snd) z.2)) := by
    intro z hz
    rw [List.mem_toFinset] at hz
    have hp : 0 < (freq zs z : K) := freq_pos hz
    have hq : 0 < (freq (zs.map Prod.fst) z.1 : K) := freq_pos (List.mem_map_of_mem hz)
    have hr : 0 < (freq (zs.map Prod.snd) z.2 : K) := freq_pos (List.mem_map_of_mem hz)
    -- the bound of `L` at the quotient, times the frequency of the pair
    have hbound := mul_le_mul_of_nonneg_left (hL _ (div_pos hp (mul_pos hq hr))) hp.le
    refine le_of_eq_of_le ?_ hbound
    field_simp
  calc (0 : K)
      ≤ c * (1 - ∑ z ∈ zs.toFinset,
          (freq (zs.map Prod.fst) z.1 * freq (zs.map Prod.snd) z.2 : K)) :=
        mul_nonneg hc (sub_nonneg.mpr (sum_mul_freq_le hzs))
    _ = ∑ z ∈ zs.toFinset,
          c * ((freq zs z : K) - freq (zs.map Prod.fst) z.1 * freq (zs.map Prod.snd) z.2) := by
        rw [← Finset.mul_sum, Finset.sum_sub_distrib, sum_freq hzs]
    _ ≤ mutualInfo L zs := Finset.sum_le_sum hterm

end Ordered

end CryptobotAlgo
