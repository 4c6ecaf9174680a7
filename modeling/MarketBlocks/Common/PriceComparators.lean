import MarketBlocks.Common.MathUtils
import MarketBlocks.Library.Tolerance

/-!
# The comparators of the price levels

Asks and bids are kept in sets ordered by `double_less_than` and `double_greater_than`. Both are strict
orders. The prices that are equal within the tolerance need not be so with one another.
-/

namespace MarketBlocks

open Library

/-- Up to this difference two doubles are equal. -/
def tolerance (a b : ℚ) : ℚ := max 4 (max |a| |b|) * epsilon

variable {prices : Set ℚ} {a b c : ℚ}

/-- The tolerance is positive. -/
theorem epsilon_pos : 0 < epsilon := by norm_num [epsilon]

/-- Equal prices are those within their tolerance. -/
theorem doubleEqual_iff_tolerance : doubleEqual a b = true ↔ |a - b| ≤ tolerance a b := by
  rw [doubleEqual_iff, tolerance, max_mul_of_nonneg 4 (max |a| |b|) epsilon_pos.le, le_max_iff]

/-- The tolerance of two prices is that of both. -/
theorem tolerance_comm (a b : ℚ) : tolerance a b = tolerance b a := by
  rw [tolerance, tolerance, max_comm |a| |b|]

/-- The tolerance does not grow faster than the prices. -/
private theorem tolerance_le_add (a b c : ℚ) : tolerance a c ≤ tolerance a b + |c - b| := by
  have hsmall : epsilon ≤ 1 := by norm_num [epsilon]
  have hlargest : max 4 (max |a| |c|) ≤ max 4 (max |a| |b|) + |c - b| := by
    have hc : |c| ≤ |b| + |c - b| := by
      have htriangle := abs_add_le b (c - b)
      rwa [add_sub_cancel] at htriangle
    have hb : |b| ≤ max 4 (max |a| |b|) := (le_max_right _ _).trans (le_max_right _ _)
    have ha : |a| ≤ max 4 (max |a| |b|) := (le_max_left _ _).trans (le_max_right _ _)
    have hdiff := abs_nonneg (c - b)
    refine max_le ?_ (max_le ?_ ?_)
    · exact (le_max_left _ _).trans (le_add_of_nonneg_right hdiff)
    · exact ha.trans (le_add_of_nonneg_right hdiff)
    · exact hc.trans (add_le_add_left hb _)
  calc tolerance a c ≤ (max 4 (max |a| |b|) + |c - b|) * epsilon :=
        mul_le_mul_of_nonneg_right hlargest epsilon_pos.le
    _ = tolerance a b + |c - b| * epsilon := add_mul _ _ _
    _ ≤ tolerance a b + |c - b| :=
        add_le_add_right (mul_le_of_le_one_right (abs_nonneg _) hsmall) _

/-- Prices within the tolerance of one another are so with all prices in between. -/
theorem tolerance_doubleEqual : Tolerance doubleEqual where
  refl a := by
    rw [doubleEqual_iff_tolerance, sub_self, abs_zero]
    exact mul_nonneg (by positivity) epsilon_pos.le
  symm a b := by
    rw [Bool.eq_iff_iff, doubleEqual_iff_tolerance, doubleEqual_iff_tolerance, abs_sub_comm,
      tolerance_comm]
  between a b c hab hbc hac := by
    have hleft := tolerance_le_add a b c
    have hright := tolerance_le_add c b a
    rw [tolerance_comm c a, tolerance_comm c b] at hright
    rw [doubleEqual_iff_tolerance] at hac
    rw [doubleEqual_iff_tolerance, doubleEqual_iff_tolerance]
    rw [abs_sub_comm, abs_of_nonneg (sub_nonneg.mpr (hab.trans hbc))] at hac
    rw [abs_of_nonneg (sub_nonneg.mpr hbc)] at hleft
    rw [abs_sub_comm, abs_of_nonneg (sub_nonneg.mpr hab)] at hright
    rw [abs_sub_comm, abs_of_nonneg (sub_nonneg.mpr hab), abs_sub_comm b c,
      abs_of_nonneg (sub_nonneg.mpr hbc)]
    constructor <;> linarith

/-- The comparators are each other's reverse. -/
theorem doubleGreaterThan_eq (a b : ℚ) : doubleGreaterThan a b = doubleLessThan b a := by
  rw [doubleGreaterThan, doubleLessThan, tolerance_doubleEqual.symm]

/-- The two comparators are the same order, upwards and downwards. -/
theorem strictWeakOn_both_iff {prices : Set ℚ} :
    (StrictWeakOn doubleLessThan prices ∧ StrictWeakOn doubleGreaterThan prices) ↔
      StrictWeakOn (clearlyLess doubleEqual) prices := by
  have hconverse : doubleGreaterThan = fun a b => doubleLessThan b a := by
    funext a b
    exact doubleGreaterThan_eq a b
  rw [hconverse]
  exact and_iff_left_of_imp StrictWeakOn.swap

/-- Both comparators are strict weak orders exactly on the prices among which no two steps within
the tolerance add up to more than the tolerance. -/
theorem strictWeakOn_iff (prices : Set ℚ) :
    (StrictWeakOn doubleLessThan prices ∧ StrictWeakOn doubleGreaterThan prices) ↔
      ∀ a ∈ prices, ∀ b ∈ prices, ∀ c ∈ prices, a < b → b < c →
        b - a ≤ tolerance a b → c - b ≤ tolerance b c → c - a ≤ tolerance a c := by
  have hclose : ∀ {a b : ℚ}, a < b → (doubleEqual a b = true ↔ b - a ≤ tolerance a b) := by
    intro a b hlt
    rw [doubleEqual_iff_tolerance, abs_sub_comm, abs_of_pos (sub_pos.mpr hlt)]
  rw [strictWeakOn_both_iff, tolerance_doubleEqual.strictWeakOn_clearlyLess_iff]
  constructor
  · intro hchain a ha b hb c hc hab hbc
    rw [← hclose hab, ← hclose hbc, ← hclose (hab.trans hbc)]
    exact hchain a ha b hb c hc hab hbc
  · intro hchain a ha b hb c hc hab hbc
    rw [hclose hab, hclose hbc, hclose (hab.trans hbc)]
    exact hchain a ha b hb c hc hab hbc

/-- Three prices, each four units in the last place from the next. -/
theorem not_strictWeakOn_univ :
    ¬(StrictWeakOn doubleLessThan Set.univ ∧ StrictWeakOn doubleGreaterThan Set.univ) := by
  intro h
  have hincomparable := h.1.incomparable_trans 1 trivial (1 + 4 * epsilon) trivial (1 + 8 * epsilon)
    trivial (by decide +kernel) (by decide +kernel) (by decide +kernel) (by decide +kernel)
  exact absurd hincomparable.1 (by decide +kernel)

end MarketBlocks
