import Mathlib.Data.Set.Basic
import Mathlib.Order.Lattice

/-!
# Comparing with a tolerance

A comparator that takes close elements for equal is the order of the others. Where closeness passes on
to what lies in between, the comparator is a strict order. It is a weak one exactly when closeness does
not end along a chain.
-/

namespace MarketBlocks.Library

variable {α : Type*}

/-- What an ordered set asks of its comparator: a strict order in which being incomparable is
transitive. -/
structure StrictWeakOn (lt : α → α → Bool) (domain : Set α) : Prop where
  irrefl : ∀ x ∈ domain, lt x x = false
  trans : ∀ x ∈ domain, ∀ y ∈ domain, ∀ z ∈ domain, lt x y = true → lt y z = true → lt x z = true
  incomparable_trans : ∀ x ∈ domain, ∀ y ∈ domain, ∀ z ∈ domain,
    lt x y = false → lt y x = false → lt y z = false → lt z y = false →
      lt x z = false ∧ lt z x = false

/-- A comparator is as weak an order as its converse. -/
theorem StrictWeakOn.swap {lt : α → α → Bool} {domain : Set α} (h : StrictWeakOn lt domain) :
    StrictWeakOn (fun x y => lt y x) domain where
  irrefl := h.irrefl
  trans x hx y hy z hz hxy hyz := h.trans z hz y hy x hx hyz hxy
  incomparable_trans x hx y hy z hz hxy hyx hyz hzy :=
    (h.incomparable_trans x hx y hy z hz hyx hxy hzy hyz).symm

variable [LinearOrder α]

/-- Closeness that an element has to itself, and to another one with all that lie between them. -/
structure Tolerance (close : α → α → Bool) : Prop where
  refl : ∀ x, close x x = true
  symm : ∀ x y, close x y = close y x
  between : ∀ x y z, x ≤ y → y ≤ z → close x z = true → close x y = true ∧ close y z = true

/-- The order of the elements that are not close. -/
def clearlyLess (close : α → α → Bool) (x y : α) : Bool := !close x y && decide (x < y)

variable {close : α → α → Bool} {domain : Set α} {x y z : α}

/-- To be clearly less is to be less and not close. -/
private theorem clearlyLess_iff : clearlyLess close x y = true ↔ close x y = false ∧ x < y := by
  simp [clearlyLess]

/-- The close elements are the incomparable ones. -/
theorem Tolerance.incomparable_iff (h : Tolerance close) :
    (clearlyLess close x y = false ∧ clearlyLess close y x = false) ↔ close x y = true := by
  rcases lt_trichotomy x y with hlt | rfl | hgt
  · simp [clearlyLess, hlt, hlt.not_gt]
  · simp [clearlyLess, h.refl]
  · simp [clearlyLess, hgt, hgt.not_gt, h.symm y x]

/-- What is clearly less than something clearly less is clearly less. -/
theorem Tolerance.clearlyLess_trans (h : Tolerance close) (hxy : clearlyLess close x y = true)
    (hyz : clearlyLess close y z = true) : clearlyLess close x z = true := by
  rw [clearlyLess_iff] at hxy hyz ⊢
  refine ⟨?_, hxy.2.trans hyz.2⟩
  by_contra hclose
  have hnear := (h.between x y z hxy.2.le hyz.2.le (by simpa using hclose)).1
  rw [hxy.1] at hnear
  cases hnear

/-- Elements that are close to a third one are close, unless it lies between them. -/
theorem Tolerance.close_of_not_between (h : Tolerance close) (hxy : close x y = true)
    (hyz : close y z = true) (hside : (x ≤ y ∧ z ≤ y) ∨ (y ≤ x ∧ y ≤ z)) : close x z = true := by
  rcases hside with ⟨hx, hz⟩ | ⟨hx, hz⟩
  · rcases le_total x z with hle | hle
    · exact (h.between x z y hle hz hxy).1
    · rw [h.symm] at hyz ⊢
      exact (h.between z x y hle hx hyz).1
  · rcases le_total x z with hle | hle
    · exact (h.between y x z hx hle hyz).2
    · rw [h.symm] at hxy ⊢
      exact (h.between y z x hz hle hxy).2

/-- A comparator with a tolerance is a strict weak order exactly where closeness goes along
rising chains. -/
theorem Tolerance.strictWeakOn_clearlyLess_iff (h : Tolerance close) (domain : Set α) :
    StrictWeakOn (clearlyLess close) domain ↔
      ∀ x ∈ domain, ∀ y ∈ domain, ∀ z ∈ domain, x < y → y < z →
        close x y = true → close y z = true → close x z = true := by
  constructor
  · intro hweak x hx y hy z hz _ _ hxy hyz
    obtain ⟨hless, hgreater⟩ := h.incomparable_iff.mpr hxy
    obtain ⟨hless', hgreater'⟩ := h.incomparable_iff.mpr hyz
    exact h.incomparable_iff.mp
      (hweak.incomparable_trans x hx y hy z hz hless hgreater hless' hgreater')
  · intro hchain
    refine ⟨fun x _ => by simp [clearlyLess], fun x _ y _ z _ => h.clearlyLess_trans, ?_⟩
    intro x hx y hy z hz hless hgreater hless' hgreater'
    have hxy := h.incomparable_iff.mp ⟨hless, hgreater⟩
    have hyz := h.incomparable_iff.mp ⟨hless', hgreater'⟩
    apply h.incomparable_iff.mpr
    rcases lt_or_ge x y with hx' | hx'
    · rcases lt_or_ge y z with hz' | hz'
      · exact hchain x hx y hy z hz hx' hz' hxy hyz
      · exact h.close_of_not_between hxy hyz (.inl ⟨hx'.le, hz'⟩)
    · rcases lt_or_ge z y with hz' | hz'
      · rcases hx'.eq_or_lt with rfl | hx'
        · exact hyz
        · rw [h.symm] at hxy hyz ⊢
          exact hchain z hz y hy x hx hz' hx' hyz hxy
      · exact h.close_of_not_between hxy hyz (.inr ⟨hx', hz'⟩)

end MarketBlocks.Library
