import Mathlib.Algebra.Order.Ring.Int
import Mathlib.Data.Int.ModEq
import Mathlib.Data.Set.Card
import Mathlib.Tactic.Ring

/-!
# Time grids

The times `origin + k * width` cut time into half open intervals. Every time lies in exactly one
of them, which `gridTime` gives by its start.
-/

namespace MarketBlocks.Library

/-- The last time of the grid that is not after `t`. -/
def gridTime (origin width t : ℤ) : ℤ := origin + (t - origin) / width * width

variable {origin origin' width t s : ℤ}

/-- The last time of the grid is not later. -/
theorem gridTime_le (origin t : ℤ) (hwidth : 0 < width) : gridTime origin width t ≤ t := by
  have hdiv := Int.ediv_mul_le (t - origin) hwidth.ne'
  unfold gridTime
  omega

/-- The next time of the grid is later. -/
theorem lt_gridTime_add (origin t : ℤ) (hwidth : 0 < width) :
    t < gridTime origin width t + width := by
  have hdiv := Int.lt_ediv_add_one_mul_self (t - origin) hwidth
  rw [add_mul, one_mul] at hdiv
  unfold gridTime
  omega

/-- The last time of the grid is on the grid. -/
theorem gridTime_modEq : gridTime origin width t ≡ origin [ZMOD width] := by
  unfold gridTime
  exact Int.modEq_iff_dvd.mpr ⟨-((t - origin) / width), by ring⟩

/-- Times of one grid that are less than a width apart are equal. -/
theorem eq_of_modEq_of_lt (hmod : s ≡ t [ZMOD width]) (hst : s < t + width) (hts : t < s + width) :
    s = t := by
  obtain ⟨k, hk⟩ := Int.modEq_iff_dvd.mp hmod
  have hwidth : 0 < width := by omega
  have hupper : k < 1 := by
    by_contra hge
    have hfar := le_mul_of_one_le_right hwidth.le (by omega : 1 ≤ k)
    omega
  have hlower : -1 < k := by
    by_contra hle
    have hfar := le_mul_of_one_le_right hwidth.le (by omega : 1 ≤ -k)
    rw [mul_neg] at hfar
    omega
  have hzero : k = 0 := by omega
  rw [hzero, mul_zero] at hk
  omega

/-- The interval of a time is found from any of its bounds. -/
theorem gridTime_unique (hmod : s ≡ origin [ZMOD width]) (hle : s ≤ t) (hlt : t < s + width) :
    gridTime origin width t = s := by
  have hwidth : 0 < width := by omega
  have hbelow := gridTime_le origin t hwidth
  have habove := lt_gridTime_add origin t hwidth
  exact eq_of_modEq_of_lt (gridTime_modEq.trans hmod.symm) (by omega) (by omega)

/-- A grid is the same from each of its times. -/
theorem gridTime_congr (hwidth : 0 < width) (hmod : origin' ≡ origin [ZMOD width]) :
    gridTime origin' width t = gridTime origin width t :=
  (gridTime_unique (gridTime_modEq.trans hmod) (gridTime_le _ _ hwidth) (lt_gridTime_add _ _ hwidth)).symm

/-- The times of a grid from its origin up to a bound, counted. -/
theorem ncard_grid (hwidth : 0 < width) :
    ({k : ℕ | origin + k * width ≤ t}.ncard : ℤ) =
      if t < origin then 0 else (t - origin) / width + 1 := by
  split
  · next hbefore =>
    have hempty : {k : ℕ | origin + k * width ≤ t} = ∅ := by
      rw [Set.eq_empty_iff_forall_notMem]
      intro k hk
      have hnonneg : 0 ≤ (k : ℤ) * width := mul_nonneg (Int.natCast_nonneg k) hwidth.le
      have hle : origin + k * width ≤ t := hk
      omega
    rw [hempty, Set.ncard_empty, Nat.cast_zero]
  · next hafter =>
    have hquotient : 0 ≤ (t - origin) / width := Int.ediv_nonneg (by omega) hwidth.le
    have hcount : {k : ℕ | origin + k * width ≤ t} = Finset.range
        ((t - origin) / width + 1).toNat := by
      ext k
      have hdiv : (k : ℤ) ≤ (t - origin) / width ↔ (k : ℤ) * width ≤ t - origin :=
        Int.le_ediv_iff_mul_le hwidth
      rw [Finset.mem_coe, Finset.mem_range]
      change origin + (k : ℤ) * width ≤ t ↔ _
      omega
    rw [hcount, Set.ncard_coe_finset, Finset.card_range, Int.toNat_of_nonneg (by omega)]

end MarketBlocks.Library
