import MarketBlocks.Library.Decimal

/-!
# Numbers as texts

`std::to_string` writes a double with six digits after the point, and the `to_string` of `mathutils`
with as many as it is told.
-/

namespace MarketBlocks

open Library

/-- `std::to_string` of a double. -/
def stdToString (number : ℚ) : String := fixedText 6 number

/-- `to_string`; a stream takes a negative precision for the default one. -/
def toStringWithPrecision (number : ℚ) (precision : ℤ) : String :=
  fixedText (if precision < 0 then 6 else precision.toNat) number

/-- The number has no more than `d` digits after the point. -/
def HasDigits (d : ℕ) (number : ℚ) : Prop := ∃ n : ℤ, number = n / 10 ^ d

/-- A number is read back exactly when six digits are enough for it. -/
theorem readDecimal_stdToString_iff (number : ℚ) :
    readDecimal (stdToString number) = some number ↔ HasDigits 6 number := by
  rw [stdToString, readDecimal_fixedText, Option.some.injEq, fixedValue_eq_iff, HasDigits]

/-- No text of a number breaks a row of a table. -/
theorem notMem_stdToString (number : ℚ) {c : Char} (hdigit : c.isDigit = false) (hpoint : c ≠ '.')
    (hminus : c ≠ '-') : c ∉ (stdToString number).toList := by
  intro hmem
  rcases mem_fixedText hmem with h | h | h
  · rw [hdigit] at h
    cases h
  · exact hpoint h
  · exact hminus h

/-- `std::to_string` of an integer. -/
theorem notMem_toString_int (number : ℤ) {c : Char} (hdigit : c.isDigit = false) (hminus : c ≠ '-') :
    c ∉ (toString number).toList := by
  have hnat (n : ℕ) : c ∉ (toString n).toList := by
    intro hmem
    rw [Nat.toString_eq_ofList_toDigits, String.toList_ofList] at hmem
    have htrue := Nat.isDigit_of_mem_toDigits (by decide) (by decide) hmem
    rw [hdigit] at htrue
    cases htrue
  cases number with
  | ofNat n => exact hnat n
  | negSucc n =>
    have htext : (toString (Int.negSucc n)).toList = '-' :: (toString (n + 1)).toList := by
      change ("-" ++ toString (n + 1)).toList = _
      rw [String.toList_append]
      rfl
    rw [htext, List.mem_cons, not_or]
    exact ⟨hminus, hnat (n + 1)⟩

end MarketBlocks
