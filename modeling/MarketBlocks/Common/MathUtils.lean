import Mathlib.Algebra.Order.Field.Basic
import Mathlib.Algebra.Order.Field.Rat
import Mathlib.Data.Set.Basic
import Mathlib.Tactic.Linarith
import Mathlib.Tactic.Ring

/-!
# Comparing doubles

The comparisons of `mathutils` treat two doubles as equal when they are a few units in the
last place apart. They are evaluated on exact rationals here. On prices that are further
apart than that, they are the comparisons of the numbers themselves; multiples of a tick
that is not too fine for the size of the prices are such prices.
-/

namespace MarketBlocks

/-- `std::numeric_limits<double>::epsilon()`. -/
def epsilon : ℚ := 1 / 2 ^ 52

/-- `double_equal`. -/
def doubleEqual (a b : ℚ) : Bool :=
  let diff := |a - b|
  if diff ≤ 4 * epsilon then true
  else
    let largest := if |b| > |a| then |b| else |a|
    decide (diff ≤ largest * epsilon)

/-- `double_less_than`. -/
def doubleLessThan (a b : ℚ) : Bool := !doubleEqual a b && decide (a < b)

/-- `double_greater_than`. -/
def doubleGreaterThan (a b : ℚ) : Bool := !doubleEqual a b && decide (a > b)

/-- Equality within the tolerance is the two bounds taken together. -/
theorem doubleEqual_iff (a b : ℚ) :
    doubleEqual a b = true ↔ |a - b| ≤ 4 * epsilon ∨ |a - b| ≤ max |a| |b| * epsilon := by
  have hlargest : (if |b| > |a| then |b| else |a|) = max |a| |b| := by
    split
    · next h => exact (max_eq_right h.le).symm
    · next h => exact (max_eq_left (not_lt.mp h)).symm
  unfold doubleEqual
  simp only [hlargest]
  split
  · next h => simp [h]
  · next h => simp [h]

/-- No two different prices of the set are equal within the tolerance. -/
def Separated (prices : Set ℚ) : Prop :=
  ∀ a ∈ prices, ∀ b ∈ prices, doubleEqual a b = true → a = b

variable {prices : Set ℚ} {a b : ℚ}

/-- Separated prices are compared as numbers. -/
theorem Separated.doubleLessThan_iff (h : Separated prices) (ha : a ∈ prices) (hb : b ∈ prices) :
    doubleLessThan a b = true ↔ a < b := by
  simp only [doubleLessThan, Bool.and_eq_true, Bool.not_eq_true', decide_eq_true_eq,
    and_iff_right_iff_imp]
  intro hlt
  exact Bool.eq_false_iff.mpr fun hequal => hlt.ne (h a ha b hb hequal)

/-- The other comparator does so as well. -/
theorem Separated.doubleGreaterThan_iff (h : Separated prices) (ha : a ∈ prices)
    (hb : b ∈ prices) : doubleGreaterThan a b = true ↔ b < a := by
  simp only [doubleGreaterThan, Bool.and_eq_true, Bool.not_eq_true', decide_eq_true_eq, gt_iff_lt,
    and_iff_right_iff_imp]
  intro hlt
  exact Bool.eq_false_iff.mpr fun hequal => hlt.ne (h a ha b hb hequal).symm

/-- The multiples of a tick up to a bound are separated when the tick is wider than the
tolerance at that bound. -/
theorem separated_multiples {tick bound : ℚ} (hfine : 4 * epsilon < tick)
    (hbound : bound * epsilon < tick) :
    Separated {price | (∃ n : ℤ, price = n * tick) ∧ |price| ≤ bound} := by
  intro a ha b hb hequal
  obtain ⟨⟨m, hm⟩, ha⟩ := ha
  obtain ⟨⟨n, hn⟩, hb⟩ := hb
  have hepsilon : 0 < epsilon := by norm_num [epsilon]
  have htick : 0 < tick := by linarith
  by_contra hne
  -- different multiples are at least one tick apart
  have hmn : 1 ≤ |m - n| := by
    apply Int.one_le_abs
    intro hzero
    apply hne
    rw [hm, hn, sub_eq_zero.mp hzero]
  have hdiff : tick ≤ |a - b| := by
    have hprod : a - b = (m - n : ℤ) * tick := by
      rw [hm, hn]
      push_cast
      ring
    rw [hprod, abs_mul, abs_of_pos htick, ← Int.cast_abs]
    exact le_mul_of_one_le_left htick.le (by exact_mod_cast hmn)
  rcases (doubleEqual_iff a b).mp hequal with habsolute | hrelative
  · linarith
  · have hlargest : max |a| |b| * epsilon ≤ bound * epsilon :=
      mul_le_mul_of_nonneg_right (max_le ha hb) hepsilon.le
    linarith

/-- `calculate_percentage_proportion` of integers. Between equal bounds the quotient of the source is
no finite number. -/
def calculatePercentageProportion (a b t : ℤ) : Option ℚ :=
  if b = a then none else some ((t - a) * 100 / (b - a))

/-- Between its bounds a proportion lies between 0 and 100 percent. -/
theorem calculatePercentageProportion_of_lt {a b t : ℤ} (hbounds : a < b) (hlower : a ≤ t)
    (hupper : t ≤ b) :
    ∃ percentage, calculatePercentageProportion a b t = some percentage ∧ 0 ≤ percentage ∧
      percentage ≤ 100 := by
  have hwidth : (0 : ℚ) < b - a := by exact_mod_cast sub_pos.mpr hbounds
  have hoffset : (0 : ℚ) ≤ t - a := by exact_mod_cast sub_nonneg.mpr hlower
  have hle : (t - a : ℚ) ≤ b - a := by exact_mod_cast sub_le_sub_right hupper a
  refine ⟨_, if_neg hbounds.ne', ?_, ?_⟩
  · exact div_nonneg (mul_nonneg hoffset (by norm_num)) hwidth.le
  · rw [div_le_iff₀ hwidth]
    linarith

end MarketBlocks
