import Mathlib.Algebra.BigOperators.Group.List.Basic
import Mathlib.Algebra.Order.Group.Defs
import Mathlib.Data.List.Induction
import Mathlib.Order.Bounds.Defs

/-!
# Totals that do not go below zero

`clampedSum ds` is what a store holds that takes in and gives out the amounts `ds` in turn, and that
gives no more than it has.  It is the greatest sum of a last part of `ds` (`clampedSum_isGreatest`),
and the sum of `ds` itself exactly when no first part of `ds` adds up to less than zero
(`clampedSum_eq_sum_iff`).
-/

namespace CryptobotAlgo

variable {G : Type*} [AddCommGroup G] [LinearOrder G] [IsOrderedAddMonoid G]

/-- The sum of the list from the left, kept from going below zero. -/
def clampedSum (ds : List G) : G := ds.foldl (fun held d => max 0 (held + d)) 0

omit [IsOrderedAddMonoid G] in
theorem clampedSum_concat (ds : List G) (d : G) :
    clampedSum (ds ++ [d]) = max 0 (clampedSum ds + d) := by
  unfold clampedSum
  rw [List.foldl_append]
  rfl

omit [IsOrderedAddMonoid G] in
theorem clampedSum_nonneg (ds : List G) : 0 ≤ clampedSum ds := by
  cases ds using List.reverseRecOn with
  | nil => exact le_refl 0
  | append_singleton ds d =>
    rw [clampedSum_concat]
    exact le_max_left 0 _

theorem sum_le_clampedSum {ds last : List G} (h : last <:+ ds) : last.sum ≤ clampedSum ds := by
  induction ds using List.reverseRecOn generalizing last with
  | nil =>
    rw [List.suffix_nil.mp h]
    exact le_refl 0
  | append_singleton ds d ih =>
    rcases List.suffix_concat_iff.mp h with rfl | ⟨last, rfl, hlast⟩
    · exact clampedSum_nonneg _
    · rw [List.sum_append, List.sum_singleton, clampedSum_concat]
      exact (add_le_add_left (ih hlast) d).trans (le_max_right 0 _)

omit [IsOrderedAddMonoid G] in
/-- What is held comes from the amounts since it was last nothing. -/
theorem exists_sum_eq_clampedSum (ds : List G) :
    ∃ last, last <:+ ds ∧ last.sum = clampedSum ds := by
  induction ds using List.reverseRecOn with
  | nil => exact ⟨[], List.suffix_rfl, rfl⟩
  | append_singleton ds d ih =>
    obtain ⟨last, hlast, hsum⟩ := ih
    rw [clampedSum_concat]
    rcases le_total 0 (clampedSum ds + d) with hpos | hneg
    · refine ⟨last ++ [d], List.suffix_append_self_iff.mpr hlast, ?_⟩
      rw [max_eq_right hpos, List.sum_append, List.sum_singleton, hsum]
    · exact ⟨[], List.nil_suffix, (max_eq_left hneg).symm⟩

/-- A clamped sum is the greatest sum of a last part. -/
theorem clampedSum_isGreatest (ds : List G) :
    IsGreatest {x | ∃ last, last <:+ ds ∧ last.sum = x} (clampedSum ds) := by
  refine ⟨exists_sum_eq_clampedSum ds, ?_⟩
  rintro x ⟨last, hlast, rfl⟩
  exact sum_le_clampedSum hlast

/-- Nothing is cut off exactly when no first part adds up to less than zero. -/
theorem clampedSum_eq_sum_iff (ds : List G) :
    clampedSum ds = ds.sum ↔ ∀ first, first <+: ds → 0 ≤ first.sum := by
  constructor
  · rintro heq first ⟨last, rfl⟩
    have hle : last.sum ≤ (first ++ last).sum :=
      heq ▸ sum_le_clampedSum (List.suffix_append first last)
    rw [List.sum_append] at hle
    exact nonneg_of_le_add_left hle
  · intro h
    induction ds using List.reverseRecOn with
    | nil => rfl
    | append_singleton ds d ih =>
      have hds := ih fun first hfirst => h first (hfirst.trans (List.prefix_append ds [d]))
      have hall := h _ List.prefix_rfl
      rw [List.sum_append, List.sum_singleton] at hall ⊢
      rw [clampedSum_concat, hds, max_eq_right hall]

end CryptobotAlgo
