import Mathlib.Algebra.BigOperators.Ring.List
import Mathlib.Algebra.Order.BigOperators.Group.List
import Mathlib.Algebra.Order.Field.Basic

/-!
# Weighted sums

A sum of values with weights that are not negative lies between the bounds of its values, scaled
by the sum of the weights. So does the mean, where there is one.
-/

namespace MarketBlocks.Library

variable {α : Type*}

section OrderedRing

variable {R : Type*} [CommRing R] [PartialOrder R] [IsOrderedRing R] {value weight : α → R}
  {bound : R} {xs : List α}

/-- A lower bound of the values bounds their weighted sum. -/
theorem mul_sum_le_sum_mul (hweight : ∀ x ∈ xs, 0 ≤ weight x) (hbound : ∀ x ∈ xs, bound ≤ value x) :
    bound * (xs.map weight).sum ≤ (xs.map fun x => value x * weight x).sum := by
  rw [← List.sum_map_mul_left]
  apply List.sum_le_sum
  intro x hx
  exact mul_le_mul_of_nonneg_right (hbound x hx) (hweight x hx)

/-- An upper bound of the values bounds their weighted sum. -/
theorem sum_mul_le_mul_sum (hweight : ∀ x ∈ xs, 0 ≤ weight x) (hbound : ∀ x ∈ xs, value x ≤ bound) :
    (xs.map fun x => value x * weight x).sum ≤ bound * (xs.map weight).sum := by
  rw [← List.sum_map_mul_left]
  apply List.sum_le_sum
  intro x hx
  exact mul_le_mul_of_nonneg_right (hbound x hx) (hweight x hx)

end OrderedRing

section Mean

variable {F : Type*} [Field F] [LinearOrder F] [IsStrictOrderedRing F] {weight : α → F} {xs : List α}

/-- Weights that are not negative add up to more than zero when one of them is more. -/
theorem sum_weight_pos_iff (hweight : ∀ x ∈ xs, 0 ≤ weight x) :
    0 < (xs.map weight).sum ↔ ∃ x ∈ xs, 0 < weight x := by
  have hzero : (xs.map fun _ => (0 : F)).sum = 0 := by simp
  constructor
  · intro h
    rw [← hzero] at h
    exact List.exists_lt_of_sum_lt (fun _ => 0) weight h
  · intro h
    rw [← hzero]
    exact List.sum_lt_sum (fun _ => 0) weight hweight h

/-- Some value is not above the mean. -/
theorem exists_value_le_mean (value : α → F) (hweight : ∀ x ∈ xs, 0 ≤ weight x)
    (hpos : 0 < (xs.map weight).sum) :
    ∃ x ∈ xs, value x ≤ (xs.map fun x => value x * weight x).sum / (xs.map weight).sum := by
  by_contra hall
  push Not at hall
  obtain ⟨x, hx, hxweight⟩ := (sum_weight_pos_iff hweight).mp hpos
  have hlt := List.sum_lt_sum
    (fun x => (xs.map fun x => value x * weight x).sum / (xs.map weight).sum * weight x)
    (fun x => value x * weight x)
    (fun x hx => mul_le_mul_of_nonneg_right (hall x hx).le (hweight x hx))
    ⟨x, hx, mul_lt_mul_of_pos_right (hall x hx) hxweight⟩
  rw [List.sum_map_mul_left, div_mul_cancel₀ _ hpos.ne'] at hlt
  exact lt_irrefl _ hlt

/-- Some value is not below the mean. -/
theorem exists_mean_le_value (value : α → F) (hweight : ∀ x ∈ xs, 0 ≤ weight x)
    (hpos : 0 < (xs.map weight).sum) :
    ∃ x ∈ xs, (xs.map fun x => value x * weight x).sum / (xs.map weight).sum ≤ value x := by
  obtain ⟨x, hx, hle⟩ := exists_value_le_mean (fun x => -value x) hweight hpos
  have hneg : (xs.map fun x => -value x * weight x).sum = -(xs.map fun x => value x * weight x).sum := by
    rw [List.sum_neg, List.map_map]
    simp only [Function.comp_def, neg_mul]
  rw [hneg, neg_div] at hle
  exact ⟨x, hx, neg_le_neg_iff.mp hle⟩

end Mean

end MarketBlocks.Library
