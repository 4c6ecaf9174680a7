import Mathlib.Data.List.Basic
import Mathlib.Order.Lattice

/-!
# Running extremes

The greatest and the least of a value and a list, taken one element after the other. They
depend only on which values occur, and a value between two others does not count.
-/

namespace MarketBlocks.Library

variable {α : Type*} [LinearOrder α]

/-- A bound of the greatest is one of all. -/
theorem foldl_max_le_iff (xs : List α) (a b : α) :
    xs.foldl max a ≤ b ↔ a ≤ b ∧ ∀ x ∈ xs, x ≤ b := by
  induction xs generalizing a with
  | nil => simp
  | cons x xs ih => simp [ih, and_assoc]

/-- What the greatest reaches one of them does. -/
theorem le_foldl_max_iff (xs : List α) (a b : α) :
    b ≤ xs.foldl max a ↔ b ≤ a ∨ ∃ x ∈ xs, b ≤ x := by
  induction xs generalizing a with
  | nil => simp
  | cons x xs ih => simp [ih, or_assoc]

/-- A bound of the least is one of all. -/
theorem le_foldl_min_iff (xs : List α) (a b : α) :
    b ≤ xs.foldl min a ↔ b ≤ a ∧ ∀ x ∈ xs, b ≤ x := by
  induction xs generalizing a with
  | nil => simp
  | cons x xs ih => simp [ih, and_assoc]

/-- What the least reaches one of them does. -/
theorem foldl_min_le_iff (xs : List α) (a b : α) :
    xs.foldl min a ≤ b ↔ a ≤ b ∨ ∃ x ∈ xs, x ≤ b := by
  induction xs generalizing a with
  | nil => simp
  | cons x xs ih => simp [ih, or_assoc]

/-- The value lies between two elements of the list. -/
def Spans (xs : List α) (a : α) : Prop := (∃ x ∈ xs, x ≤ a) ∧ ∃ x ∈ xs, a ≤ x

instance (xs : List α) (a : α) : Decidable (Spans xs a) :=
  inferInstanceAs (Decidable ((∃ x ∈ xs, x ≤ a) ∧ ∃ x ∈ xs, a ≤ x))

/-- The least and the greatest of a list do not tell two first values apart exactly when these
are equal or both lie between elements of the list. -/
theorem extremes_eq_iff (xs : List α) (a b : α) :
    xs.foldl max a = xs.foldl max b ∧ xs.foldl min a = xs.foldl min b ↔
      a = b ∨ Spans xs a ∧ Spans xs b := by
  wlog hle : a ≤ b generalizing a b
  · rw [eq_comm, @eq_comm _ (xs.foldl min a), this b a (le_of_not_ge hle), eq_comm, and_comm]
  constructor
  · intro h
    obtain ⟨hmax, hmin⟩ := h
    rcases hle.eq_or_lt with heq | hlt
    · exact .inl heq
    · -- the greater value is not above the list, the less one not below it
      have habove : ∃ x ∈ xs, b ≤ x := by
        have hb : b ≤ xs.foldl max a := hmax ▸ (le_foldl_max_iff xs b b).mpr (.inl le_rfl)
        exact ((le_foldl_max_iff xs a b).mp hb).resolve_left hlt.not_ge
      have hbelow : ∃ x ∈ xs, x ≤ a := by
        have ha : xs.foldl min b ≤ a := hmin ▸ (foldl_min_le_iff xs a a).mpr (.inl le_rfl)
        exact ((foldl_min_le_iff xs b a).mp ha).resolve_left hlt.not_ge
      obtain ⟨x, hx, hbx⟩ := habove
      obtain ⟨y, hy, hya⟩ := hbelow
      exact .inr ⟨⟨⟨y, hy, hya⟩, ⟨x, hx, hle.trans hbx⟩⟩, ⟨⟨y, hy, hya.trans hle⟩, ⟨x, hx, hbx⟩⟩⟩
  · intro h
    rcases h with heq | ⟨⟨hbelow, -⟩, ⟨-, habove⟩⟩
    · subst heq
      exact ⟨rfl, rfl⟩
    · constructor
      · apply eq_of_forall_ge_iff
        intro c
        rw [foldl_max_le_iff, foldl_max_le_iff]
        obtain ⟨x, hx, hbx⟩ := habove
        constructor
        · intro hc
          exact ⟨hbx.trans (hc.2 x hx), hc.2⟩
        · intro hc
          exact ⟨hle.trans hc.1, hc.2⟩
      · apply eq_of_forall_le_iff
        intro c
        rw [le_foldl_min_iff, le_foldl_min_iff]
        obtain ⟨y, hy, hya⟩ := hbelow
        constructor
        · intro hc
          exact ⟨hc.1.trans hle, hc.2⟩
        · intro hc
          exact ⟨(hc.2 y hy).trans hya, hc.2⟩

/-- A list and a part of it have the same extremes exactly when the part spans the list. -/
theorem extremes_eq_iff_of_subset {xs ys : List α} {a b : α} (ha : a ∈ xs) (hb : b ∈ ys)
    (hpart : ∀ x ∈ xs, x ∈ ys) :
    ys.foldl max b = xs.foldl max a ∧ ys.foldl min b = xs.foldl min a ↔ ∀ y ∈ ys, Spans xs y := by
  have hmax : ∀ y, y ≤ xs.foldl max a ↔ ∃ x ∈ xs, y ≤ x := by
    intro y
    rw [le_foldl_max_iff]
    exact or_iff_right_of_imp fun h => ⟨a, ha, h⟩
  have hmin : ∀ y, xs.foldl min a ≤ y ↔ ∃ x ∈ xs, x ≤ y := by
    intro y
    rw [foldl_min_le_iff]
    exact or_iff_right_of_imp fun h => ⟨a, ha, h⟩
  constructor
  · intro h y hy
    obtain ⟨heqmax, heqmin⟩ := h
    constructor
    · exact (hmin y).mp (heqmin ▸ (foldl_min_le_iff ys b y).mpr (.inr ⟨y, hy, le_rfl⟩))
    · exact (hmax y).mp (heqmax ▸ (le_foldl_max_iff ys b y).mpr (.inr ⟨y, hy, le_rfl⟩))
  · intro h
    constructor
    · apply le_antisymm
      · exact (foldl_max_le_iff ys b _).mpr
          ⟨(hmax b).mpr (h b hb).2, fun y hy => (hmax y).mpr (h y hy).2⟩
      · exact (foldl_max_le_iff xs a _).mpr
          ⟨(le_foldl_max_iff ys b a).mpr (.inr ⟨a, hpart a ha, le_rfl⟩),
            fun x hx => (le_foldl_max_iff ys b x).mpr (.inr ⟨x, hpart x hx, le_rfl⟩)⟩
    · apply le_antisymm
      · exact (le_foldl_min_iff xs a _).mpr
          ⟨(foldl_min_le_iff ys b a).mpr (.inr ⟨a, hpart a ha, le_rfl⟩),
            fun x hx => (foldl_min_le_iff ys b x).mpr (.inr ⟨x, hpart x hx, le_rfl⟩)⟩
      · exact (le_foldl_min_iff ys b _).mpr
          ⟨(hmin b).mpr (h b hb).1, fun y hy => (hmin y).mpr (h y hy).1⟩

end MarketBlocks.Library
