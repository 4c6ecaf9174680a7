import Mathlib.Algebra.BigOperators.Group.List.Basic
import Mathlib.Algebra.Order.Floor.Ring
import Mathlib.Data.Int.Log
import Mathlib.Data.Rat.Floor
import Mathlib.Tactic.Linarith
import Mathlib.Tactic.Positivity
import Mathlib.Tactic.Ring

/-!
# Rounded arithmetic

An arithmetic on the rational numbers that rounds the result of every addition and multiplication. It
is off by a share of the exact result and, where the numbers cannot become any smaller, by a fixed
amount. A sum that is built up term by term loses more with every term; how much is bounded by the sum
of the absolute values.
-/

namespace MarketBlocks.Library

/-- How results are rounded, and by how much they are off then. -/
structure Rounding where
  round : ℚ → ℚ
  relative : ℚ
  absolute : ℚ
  relative_nonneg : 0 ≤ relative
  absolute_nonneg : 0 ≤ absolute
  abs_round_sub_le : ∀ x, |round x - x| ≤ relative * |x| + absolute

namespace Rounding

variable (arithmetic : Rounding)

/-- An addition. -/
def add (x y : ℚ) : ℚ := arithmetic.round (x + y)

/-- A multiplication. -/
def mul (x y : ℚ) : ℚ := arithmetic.round (x * y)

/-- The loop that adds terms to an accumulator. -/
def sumFrom (start : ℚ) (terms : List ℚ) : ℚ := terms.foldl arithmetic.add start

/-- The loop that starts at zero. -/
def sum (terms : List ℚ) : ℚ := arithmetic.sumFrom 0 terms

/-- What a number may grow to in the given number of operations. -/
def growth (operations : ℕ) : ℚ := (1 + arithmetic.relative) ^ operations

/-- What the terms add up to without their signs. -/
def magnitude (terms : List ℚ) : ℚ := (terms.map fun term => |term|).sum

/-- A number does not shrink. -/
theorem one_le_growth (operations : ℕ) : 1 ≤ arithmetic.growth operations :=
  one_le_pow₀ (le_add_of_nonneg_right arithmetic.relative_nonneg)

/-- A further operation grows a number by the share that may be lost. -/
theorem growth_succ (operations : ℕ) :
    arithmetic.growth (operations + 1) = arithmetic.growth operations * (1 + arithmetic.relative) :=
  pow_succ _ _

/-- What a loop over as many terms may lose, when the accumulator and the terms have the given sum of
absolute values. -/
def loss (operations : ℕ) (total : ℚ) : ℚ :=
  (arithmetic.growth operations - 1) * total +
    operations * arithmetic.growth operations * arithmetic.absolute

/-- A rounded result is off by a share of the exact one. -/
private theorem abs_add_sub_le (x y : ℚ) :
    |arithmetic.add x y - (x + y)| ≤ arithmetic.relative * |x + y| + arithmetic.absolute :=
  arithmetic.abs_round_sub_le (x + y)

/-- The last addition of a loop adds a share of all that has been added to what was lost before. -/
private theorem loss_succ (operations : ℕ) {total more : ℚ} (hmore : 0 ≤ more) :
    (1 + arithmetic.relative) * arithmetic.loss operations total +
        (arithmetic.relative * (total + more) + arithmetic.absolute) ≤
      arithmetic.loss (operations + 1) (total + more) := by
  have hgrowth := arithmetic.one_le_growth (operations + 1)
  have hgap : 0 ≤ (arithmetic.growth (operations + 1) - 1 - arithmetic.relative) * more := by
    refine mul_nonneg ?_ hmore
    have hfirst : 1 * (1 + arithmetic.relative) ≤
        arithmetic.growth operations * (1 + arithmetic.relative) :=
      mul_le_mul_of_nonneg_right (arithmetic.one_le_growth operations)
        (by linarith [arithmetic.relative_nonneg])
    rw [growth_succ]
    linarith
  have hunit : arithmetic.absolute ≤ arithmetic.growth (operations + 1) * arithmetic.absolute :=
    le_mul_of_one_le_left arithmetic.absolute_nonneg hgrowth
  have hexpand : arithmetic.loss (operations + 1) (total + more) -
      ((1 + arithmetic.relative) * arithmetic.loss operations total +
        (arithmetic.relative * (total + more) + arithmetic.absolute)) =
      (arithmetic.growth (operations + 1) - 1 - arithmetic.relative) * more +
        (arithmetic.growth (operations + 1) * arithmetic.absolute - arithmetic.absolute) := by
    rw [loss, loss, growth_succ]
    push_cast
    ring
  linarith

/-- A loop is off by no more than its loss. -/
theorem abs_sumFrom_sub_le (start : ℚ) (terms : List ℚ) :
    |arithmetic.sumFrom start terms - (start + terms.sum)| ≤
      arithmetic.loss terms.length (|start| + magnitude terms) := by
  induction terms using List.reverseRecOn with
  | nil => simp [sumFrom, loss, growth]
  | append_singleton terms last ih =>
    have hstep : arithmetic.sumFrom start (terms ++ [last]) =
        arithmetic.add (arithmetic.sumFrom start terms) last := by
      rw [sumFrom, List.foldl_append]
      rfl
    have hmagnitude : magnitude (terms ++ [last]) = magnitude terms + |last| := by
      simp [magnitude]
    have hsum : start + (terms ++ [last]).sum = start + terms.sum + last := by
      rw [List.sum_append, List.sum_singleton]
      ring
    have htotal : |start + terms.sum + last| ≤ |start| + magnitude terms + |last| := by
      have hterms : |terms.sum| ≤ magnitude terms := List.le_sum_of_subadditive _ abs_zero.le abs_add_le _
      linarith [abs_add_le (start + terms.sum) last, abs_add_le start terms.sum]
    -- what was lost before, and what the last addition loses of what is there by then
    have hnear : |arithmetic.sumFrom start terms + last| ≤
        |start + terms.sum + last| + arithmetic.loss terms.length (|start| + magnitude terms) := by
      have hsplit : arithmetic.sumFrom start terms + last =
          start + terms.sum + last + (arithmetic.sumFrom start terms - (start + terms.sum)) := by ring
      rw [hsplit]
      exact (abs_add_le _ _).trans (add_le_add le_rfl ih)
    have hrounded := arithmetic.abs_add_sub_le (arithmetic.sumFrom start terms) last
    have hscaled : arithmetic.relative * |arithmetic.sumFrom start terms + last| ≤
        arithmetic.relative * (|start| + magnitude terms + |last| +
          arithmetic.loss terms.length (|start| + magnitude terms)) :=
      mul_le_mul_of_nonneg_left (hnear.trans (add_le_add htotal le_rfl)) arithmetic.relative_nonneg
    have hgrown : (1 + arithmetic.relative) * arithmetic.loss terms.length (|start| + magnitude terms) +
          (arithmetic.relative * (|start| + magnitude terms + |last|) + arithmetic.absolute) ≤
        arithmetic.loss (terms.length + 1) (|start| + magnitude terms + |last|) :=
      arithmetic.loss_succ terms.length (abs_nonneg last)
    rw [hstep, hsum, hmagnitude, List.length_append, List.length_singleton, ← add_assoc]
    calc |arithmetic.add (arithmetic.sumFrom start terms) last - (start + terms.sum + last)|
        = |(arithmetic.add (arithmetic.sumFrom start terms) last -
              (arithmetic.sumFrom start terms + last)) +
            (arithmetic.sumFrom start terms - (start + terms.sum))| := by
          congr 1
          ring
      _ ≤ (arithmetic.relative * |arithmetic.sumFrom start terms + last| + arithmetic.absolute) +
            arithmetic.loss terms.length (|start| + magnitude terms) :=
          (abs_add_le _ _).trans (add_le_add hrounded ih)
      _ ≤ arithmetic.loss (terms.length + 1) (|start| + magnitude terms + |last|) := by linarith

/-- A sum is off by no more than its loss. -/
theorem abs_sum_sub_le (terms : List ℚ) :
    |arithmetic.sum terms - terms.sum| ≤ arithmetic.loss terms.length (magnitude terms) := by
  have h := arithmetic.abs_sumFrom_sub_le 0 terms
  rwa [zero_add, abs_zero, zero_add] at h

/-- What a loop may lose grows with what is added. -/
theorem loss_mono (operations : ℕ) {total total' : ℚ} (hle : total ≤ total') :
    arithmetic.loss operations total ≤ arithmetic.loss operations total' := by
  have hgrowth := arithmetic.one_le_growth operations
  have hscaled := mul_le_mul_of_nonneg_left hle (sub_nonneg.mpr hgrowth)
  rw [loss, loss]
  linarith

/-- The loop that adds up rounded products. -/
def sumOfProducts {α : Type*} (value weight : α → ℚ) (xs : List α) : ℚ :=
  arithmetic.sum (xs.map fun x => arithmetic.mul (value x) (weight x))

/-- What a loop over as many rounded products may lose. -/
def productLoss (operations : ℕ) (total : ℚ) : ℚ :=
  arithmetic.loss operations ((1 + arithmetic.relative) * total + operations * arithmetic.absolute) +
    (arithmetic.relative * total + operations * arithmetic.absolute)

section Products

variable {α : Type*} (value weight : α → ℚ) (xs : List α)

/-- Rounding each product loses a share of each. -/
theorem abs_sum_mul_sub_le :
    |(xs.map fun x => arithmetic.mul (value x) (weight x)).sum - (xs.map fun x => value x * weight x).sum| ≤
      arithmetic.relative * magnitude (xs.map fun x => value x * weight x) +
        xs.length * arithmetic.absolute := by
  induction xs with
  | nil => simp [magnitude]
  | cons x rest ih =>
    have hfirst := arithmetic.abs_round_sub_le (value x * weight x)
    simp only [List.map_cons, List.sum_cons, magnitude, List.length_cons, Nat.cast_add, Nat.cast_one,
      List.map_map] at ih ⊢
    have hsplit : arithmetic.mul (value x) (weight x) +
          (rest.map fun x => arithmetic.mul (value x) (weight x)).sum -
        (value x * weight x + (rest.map fun x => value x * weight x).sum) =
        (arithmetic.round (value x * weight x) - value x * weight x) +
          ((rest.map fun x => arithmetic.mul (value x) (weight x)).sum -
            (rest.map fun x => value x * weight x).sum) := by
      rw [mul]
      ring
    rw [hsplit]
    linarith [abs_add_le (arithmetic.round (value x * weight x) - value x * weight x)
      ((rest.map fun x => arithmetic.mul (value x) (weight x)).sum -
        (rest.map fun x => value x * weight x).sum)]

/-- Rounded products are larger by no more than the share that each may lose. -/
theorem magnitude_mul_le :
    magnitude (xs.map fun x => arithmetic.mul (value x) (weight x)) ≤
      (1 + arithmetic.relative) * magnitude (xs.map fun x => value x * weight x) +
        xs.length * arithmetic.absolute := by
  induction xs with
  | nil => simp [magnitude]
  | cons x rest ih =>
    have hfirst := arithmetic.abs_round_sub_le (value x * weight x)
    have hnear := abs_sub_abs_le_abs_sub (arithmetic.mul (value x) (weight x)) (value x * weight x)
    simp only [List.map_cons, List.sum_cons, magnitude, List.length_cons, Nat.cast_add, Nat.cast_one,
      List.map_map] at ih ⊢
    rw [mul] at hnear ⊢
    linarith

/-- A sum of rounded products is off by no more than its loss. -/
theorem abs_sumOfProducts_sub_le :
    |arithmetic.sumOfProducts value weight xs - (xs.map fun x => value x * weight x).sum| ≤
      arithmetic.productLoss xs.length (magnitude (xs.map fun x => value x * weight x)) := by
  have hsum := arithmetic.abs_sum_sub_le (xs.map fun x => arithmetic.mul (value x) (weight x))
  have hproducts := arithmetic.abs_sum_mul_sub_le value weight xs
  have hlarger := arithmetic.loss_mono xs.length (arithmetic.magnitude_mul_le value weight xs)
  rw [List.length_map] at hsum
  have hsplit := abs_sub_le (arithmetic.sumOfProducts value weight xs)
    (xs.map fun x => arithmetic.mul (value x) (weight x)).sum (xs.map fun x => value x * weight x).sum
  rw [productLoss]
  rw [sumOfProducts] at hsplit ⊢
  linarith

end Products

/-- What products may lose grows with what is added. -/
theorem productLoss_mono (operations : ℕ) {total total' : ℚ} (hle : total ≤ total') :
    arithmetic.productLoss operations total ≤ arithmetic.productLoss operations total' := by
  have hscaled := mul_le_mul_of_nonneg_left hle arithmetic.relative_nonneg
  have hloss : arithmetic.loss operations
        ((1 + arithmetic.relative) * total + operations * arithmetic.absolute) ≤
      arithmetic.loss operations
        ((1 + arithmetic.relative) * total' + operations * arithmetic.absolute) :=
    arithmetic.loss_mono operations (by linarith)
  rw [productLoss, productLoss]
  linarith

/-! ## Exact arithmetic -/

/-- Nothing is rounded. -/
def exact : Rounding where
  round := id
  relative := 0
  absolute := 0
  relative_nonneg := le_rfl
  absolute_nonneg := le_rfl
  abs_round_sub_le x := by simp

/-- Nothing is lost. -/
@[simp] theorem loss_exact (operations : ℕ) (total : ℚ) : exact.loss operations total = 0 := by
  simp [loss, growth, exact]

/-- Nothing is lost by products either. -/
@[simp] theorem productLoss_exact (operations : ℕ) (total : ℚ) :
    exact.productLoss operations total = 0 := by
  rw [productLoss, loss_exact]
  simp [exact]

/-- The loop of the exact arithmetic is a sum. -/
@[simp] theorem sum_exact (terms : List ℚ) : exact.sum terms = terms.sum := by
  have h := exact.abs_sum_sub_le terms
  rw [loss_exact] at h
  exact sub_eq_zero.mp (abs_nonpos_iff.mp h)

/-- Without rounding the sum is the sum. -/
theorem sumOfProducts_exact {α : Type*} (value weight : α → ℚ) (xs : List α) :
    exact.sumOfProducts value weight xs = (xs.map fun x => value x * weight x).sum :=
  sum_exact _

/-! ## Binary floating point -/

/-- To the nearest integer, and to the even one of two that are equally near. -/
def roundHalfEven (x : ℚ) : ℤ :=
  if x - ⌊x⌋ < 1 / 2 then ⌊x⌋
  else if 1 / 2 < x - ⌊x⌋ then ⌊x⌋ + 1
  else if Even ⌊x⌋ then ⌊x⌋ else ⌊x⌋ + 1

/-- The nearest integer is at most one half away. -/
theorem abs_roundHalfEven_sub_le (x : ℚ) : |(roundHalfEven x : ℚ) - x| ≤ 1 / 2 := by
  have hfloor := Int.floor_le x
  have hnext := Int.lt_floor_add_one x
  unfold roundHalfEven
  split_ifs
  all_goals
    push_cast
    rw [abs_le]
    constructor
    · linarith
    · linarith

/-- The distance of the floating point numbers around `x`, of so many digits and with no digit smaller
than the power `least`. -/
def unitInLastPlace (digits : ℕ) (least : ℤ) (x : ℚ) : ℚ :=
  2 ^ max (Int.log 2 |x| - (digits - 1)) least

/-- The distance of the floating point numbers is a share of the number, unless it is the smallest one. -/
theorem unitInLastPlace_le (digits : ℕ) (least : ℤ) {x : ℚ} (hx : x ≠ 0) :
    unitInLastPlace digits least x ≤ 2 ^ (1 - (digits : ℤ)) * |x| + 2 ^ least := by
  have hfirst : (2 : ℚ) ^ Int.log 2 |x| ≤ |x| := Int.zpow_log_le_self (by decide) (abs_pos.mpr hx)
  have hleast : (0 : ℚ) < 2 ^ least := zpow_pos (by decide) least
  unfold unitInLastPlace
  rcases max_choice (Int.log 2 |x| - ((digits : ℤ) - 1)) least with hmax | hmax
  · have hsplit : Int.log 2 |x| - ((digits : ℤ) - 1) = (1 - digits) + Int.log 2 |x| := by ring
    rw [hmax, hsplit, zpow_add₀ (by decide)]
    have hpower : (0 : ℚ) < 2 ^ (1 - (digits : ℤ)) := zpow_pos (by decide) _
    have hscaled := mul_le_mul_of_nonneg_left hfirst hpower.le
    linarith
  · rw [hmax]
    have hshare : 0 ≤ 2 ^ (1 - (digits : ℤ)) * |x| :=
      mul_nonneg (zpow_pos (by decide) _).le (abs_nonneg x)
    linarith

/-- The binary floating point numbers of so many digits, rounded to nearest with ties to even, with
gradual underflow and without an upper end. -/
def binary (digits : ℕ) (least : ℤ) : Rounding where
  round x := roundHalfEven (x / unitInLastPlace digits least x) * unitInLastPlace digits least x
  relative := 2 ^ (1 - (digits : ℤ)) / 2
  absolute := 2 ^ least / 2
  relative_nonneg := (half_pos (zpow_pos (by decide) _)).le
  absolute_nonneg := (half_pos (zpow_pos (by decide) _)).le
  abs_round_sub_le x := by
    rcases eq_or_ne x 0 with rfl | hx
    · have hzero : roundHalfEven 0 = 0 := by decide +kernel
      rw [zero_div, hzero, Int.cast_zero, zero_mul, sub_self, abs_zero, mul_zero, zero_add]
      exact (half_pos (zpow_pos (by decide) _)).le
    · have hpos : 0 < unitInLastPlace digits least x := zpow_pos (by decide) _
      have hnear := mul_le_mul_of_nonneg_right
        (abs_roundHalfEven_sub_le (x / unitInLastPlace digits least x)) hpos.le
      have hunit := unitInLastPlace_le digits least hx
      have hsplit : (roundHalfEven (x / unitInLastPlace digits least x) : ℚ) *
          unitInLastPlace digits least x - x =
          ((roundHalfEven (x / unitInLastPlace digits least x) : ℚ) -
            x / unitInLastPlace digits least x) * unitInLastPlace digits least x := by
        rw [sub_mul, div_mul_cancel₀ _ hpos.ne']
      rw [hsplit, abs_mul, abs_of_pos hpos]
      linarith

/-- IEEE binary64, as long as no result is too large for it. -/
def double : Rounding := binary 53 (-1074)

example : double.round (1 / 10) = 3602879701896397 / 2 ^ 55 := by decide +kernel

end Rounding

end MarketBlocks.Library
