import Mathlib.Algebra.Order.Floor.Ring
import Mathlib.Data.List.TakeWhile
import Mathlib.Data.Rat.Floor
import Mathlib.Tactic.Linarith
import Mathlib.Tactic.Ring

/-!
# Decimal texts

A number is written with a fixed count of digits after the point: the nearest such number, and of two
the even one. `readDecimal` gives the number that a decimal text denotes. What is written is read back as
the nearest number, which is the number itself exactly when it has no further digits.
-/

namespace MarketBlocks.Library

/-! ## Rounding -/

/-- The nearest integer, and of two the even one. -/
def roundHalfEven (x : ℚ) : ℤ :=
  if x - ⌊x⌋ < 1 / 2 then ⌊x⌋
  else if 1 / 2 < x - ⌊x⌋ then ⌊x⌋ + 1
  else if ⌊x⌋ % 2 = 0 then ⌊x⌋
  else ⌊x⌋ + 1

variable {x : ℚ} {n : ℤ} {d : ℕ}

/-- Rounding moves a number by half a unit at most. -/
theorem abs_roundHalfEven_sub_le (x : ℚ) : |(roundHalfEven x : ℚ) - x| ≤ 1 / 2 := by
  have hbelow := Int.floor_le x
  have habove := Int.lt_floor_add_one x
  rw [abs_le]
  unfold roundHalfEven
  split_ifs
  · constructor <;> linarith
  · push_cast
    constructor <;> linarith
  · constructor <;> linarith
  · push_cast
    constructor <;> linarith

/-- A whole number is its own nearest. -/
@[simp] theorem roundHalfEven_intCast (n : ℤ) : roundHalfEven n = n := by
  simp [roundHalfEven]

/-- What is not negative is not rounded below zero. -/
theorem roundHalfEven_nonneg (h : 0 ≤ x) : 0 ≤ roundHalfEven x := by
  have hfloor : 0 ≤ ⌊x⌋ := Int.floor_nonneg.mpr h
  unfold roundHalfEven
  split_ifs <;> omega

/-! ## Digits -/

/-- At least `d` digits, with zeros in front. -/
def paddedDigits (d n : ℕ) : List Char :=
  List.replicate (d - (Nat.toDigits 10 n).length) '0' ++ Nat.toDigits 10 n

/-- Padding puts digits in front. -/
theorem isDigit_of_mem_paddedDigits {c : Char} {n : ℕ} (h : c ∈ paddedDigits d n) : c.isDigit = true := by
  rcases List.mem_append.mp h with hzero | hdigit
  · rw [List.eq_of_mem_replicate hzero]
    rfl
  · exact Nat.isDigit_of_mem_toDigits (by decide) (by decide) hdigit

/-- A number below the power has as many digits as were asked for. -/
theorem length_paddedDigits {n : ℕ} (hd : 0 < d) (hn : n < 10 ^ d) : (paddedDigits d n).length = d := by
  have hlength := (Nat.length_toDigits_le_iff (by decide) hd).mpr hn
  rw [paddedDigits, List.length_append, List.length_replicate]
  omega

/-- The zeros in front do not count. -/
theorem ofDigitChars_paddedDigits (d n : ℕ) : Nat.ofDigitChars 10 (paddedDigits d n) 0 = n := by
  rw [paddedDigits, Nat.ofDigitChars_append, Nat.ofDigitChars_replicate_zero, Nat.mul_zero,
    Nat.ofDigitChars_ten_toDigits]

/-! ## Writing -/

/-- A number that is not negative, in units of the last of `d` digits after the point. -/
def unitsText (d units : ℕ) : List Char :=
  Nat.toDigits 10 (units / 10 ^ d) ++
    if d = 0 then [] else '.' :: paddedDigits d (units % 10 ^ d)

/-- `d` digits after the point. -/
def fixedText (d : ℕ) (x : ℚ) : String :=
  String.ofList ((if x < 0 then ['-'] else []) ++ unitsText d (roundHalfEven (|x| * 10 ^ d)).toNat)

/-- The number that is written for `x`. -/
def fixedValue (d : ℕ) (x : ℚ) : ℚ :=
  (if x < 0 then -1 else 1) * (roundHalfEven (|x| * 10 ^ d) / 10 ^ d)

/-- A written number holds digits and one point. -/
theorem mem_unitsText {units : ℕ} {c : Char} (h : c ∈ unitsText d units) : c.isDigit = true ∨ c = '.' := by
  rcases List.mem_append.mp h with hwhole | hfraction
  · exact .inl (Nat.isDigit_of_mem_toDigits (by decide) (by decide) hwhole)
  · split at hfraction
    · cases hfraction
    · rcases List.mem_cons.mp hfraction with hpoint | hdigit
      · exact .inr hpoint
      · exact .inl (isDigit_of_mem_paddedDigits hdigit)

/-- Digits, a point and a minus sign are all that is written. -/
theorem mem_fixedText {c : Char} (h : c ∈ (fixedText d x).toList) :
    c.isDigit = true ∨ c = '.' ∨ c = '-' := by
  rw [fixedText, String.toList_ofList] at h
  rcases List.mem_append.mp h with hsign | hunits
  · split at hsign
    · exact .inr (.inr (List.mem_singleton.mp hsign))
    · cases hsign
  · rcases mem_unitsText hunits with hdigit | hpoint
    · exact .inl hdigit
    · exact .inr (.inl hpoint)

/-! ## Reading -/

/-- The number that a text of digits denotes. -/
def readNatural (text : List Char) : Option ℕ :=
  if !text.isEmpty && text.all Char.isDigit then some (Nat.ofDigitChars 10 text 0) else none

/-- Digits, and behind a point digits of a fraction. -/
def readUnsigned (text : List Char) : Option ℚ :=
  match text.dropWhile (· ≠ '.') with
  | [] => (readNatural text).map (↑)
  | _ :: fraction => do
    let whole ← readNatural (text.takeWhile (· ≠ '.'))
    let digits ← readNatural fraction
    return whole + digits / 10 ^ fraction.length

/-- The number that a text denotes, when it is a decimal one. -/
def readDecimal (text : String) : Option ℚ :=
  match text.toList with
  | '-' :: unsigned => (readUnsigned unsigned).map (- ·)
  | unsigned => readUnsigned unsigned

/-- Some digits are read as a number. -/
private theorem readNatural_of_digits {text : List Char} (hne : text ≠ [])
    (hdigits : ∀ c ∈ text, c.isDigit = true) :
    readNatural text = some (Nat.ofDigitChars 10 text 0) := by
  rw [readNatural, List.isEmpty_eq_false_iff.mpr hne, List.all_eq_true.mpr hdigits]
  rfl

/-- The digits of a number are read back. -/
theorem readNatural_toDigits (n : ℕ) : readNatural (Nat.toDigits 10 n) = some n := by
  have hdigits : ∀ c ∈ Nat.toDigits 10 n, c.isDigit = true := fun c hc =>
    Nat.isDigit_of_mem_toDigits (by decide) (by decide) hc
  rw [readNatural_of_digits Nat.toDigits_ne_nil hdigits, Nat.ofDigitChars_ten_toDigits]

/-- The padded digits of a number are read back. -/
theorem readNatural_paddedDigits (d n : ℕ) : readNatural (paddedDigits d n) = some n := by
  have hne : paddedDigits d n ≠ [] := by simp [paddedDigits]
  rw [readNatural_of_digits hne fun c hc => isDigit_of_mem_paddedDigits hc, ofDigitChars_paddedDigits]

/-- Without a point a text is read as a whole number. -/
theorem readUnsigned_of_notMem {text : List Char} (h : '.' ∉ text) :
    readUnsigned text = (readNatural text).map (↑) := by
  have hnone : text.dropWhile (· ≠ '.') = [] := by
    rw [List.dropWhile_eq_nil_iff]
    intro c hc
    rw [decide_eq_true_eq]
    rintro rfl
    exact h hc
  rw [readUnsigned, hnone]

/-- With one the digits behind it are a fraction. -/
private theorem readUnsigned_append_point {whole : List Char} (h : '.' ∉ whole) (fraction : List Char) :
    readUnsigned (whole ++ '.' :: fraction) = do
      let whole ← readNatural whole
      let digits ← readNatural fraction
      return (whole : ℚ) + digits / 10 ^ fraction.length := by
  have hwhole : ∀ c ∈ whole, decide (c ≠ '.') = true := by
    intro c hc
    rw [decide_eq_true_eq]
    rintro rfl
    exact h hc
  rw [readUnsigned, List.takeWhile_append_of_pos hwhole, List.dropWhile_append_of_pos hwhole,
    List.dropWhile_cons_of_neg (by simp), List.takeWhile_cons_of_neg (by simp), List.append_nil]

/-- The digits of a whole number hold no point. -/
private theorem point_notMem_toDigits (n : ℕ) : '.' ∉ Nat.toDigits 10 n := by
  intro h
  cases Nat.isDigit_of_mem_toDigits (by decide) (by decide) h

/-- What is written in units is read back as that many of them. -/
theorem readUnsigned_unitsText (d units : ℕ) :
    readUnsigned (unitsText d units) = some ((units : ℚ) / 10 ^ d) := by
  unfold unitsText
  split
  · next hzero =>
    subst hzero
    rw [List.append_nil, readUnsigned_of_notMem (point_notMem_toDigits _), readNatural_toDigits]
    simp
  · next hpos =>
    have hbelow : units % 10 ^ d < 10 ^ d := Nat.mod_lt _ (by positivity)
    have hsplit : (units : ℚ) = 10 ^ d * (units / 10 ^ d : ℕ) + (units % 10 ^ d : ℕ) := by
      exact_mod_cast (Nat.div_add_mod units (10 ^ d)).symm
    have hvalue : ((units / 10 ^ d : ℕ) : ℚ) + (units % 10 ^ d : ℕ) / 10 ^ d = units / 10 ^ d := by
      rw [eq_div_iff (by positivity), add_mul, div_mul_cancel₀ _ (by positivity), mul_comm, ← hsplit]
    rw [readUnsigned_append_point (point_notMem_toDigits _), readNatural_toDigits,
      readNatural_paddedDigits, length_paddedDigits (Nat.pos_of_ne_zero hpos) hbelow]
    exact congrArg some hvalue

/-- A text in units starts with a digit. -/
private theorem unitsText_ne_minus {units : ℕ} {rest : List Char} : unitsText d units ≠ '-' :: rest := by
  intro h
  have hmem : '-' ∈ unitsText d units := by
    rw [h]
    exact List.mem_cons_self
  rcases mem_unitsText hmem with hdigit | hpoint
  · cases hdigit
  · cases hpoint

/-- What is written is read back as the number that it is written for. -/
theorem readDecimal_fixedText (d : ℕ) (x : ℚ) : readDecimal (fixedText d x) = some (fixedValue d x) := by
  have hunits : ((roundHalfEven (|x| * 10 ^ d)).toNat : ℚ) = roundHalfEven (|x| * 10 ^ d) := by
    exact_mod_cast Int.toNat_of_nonneg (roundHalfEven_nonneg (by positivity))
  rw [readDecimal, fixedText, fixedValue, String.toList_ofList, ← hunits]
  generalize (roundHalfEven (|x| * 10 ^ d)).toNat = units
  split_ifs
  · rw [List.singleton_append]
    simp [readUnsigned_unitsText]
  · rw [List.nil_append, one_mul, ← readUnsigned_unitsText]
    split
    · next rest hrest => exact absurd hrest unitsText_ne_minus
    · rfl

/-- What is written of a number is the nearest multiple. -/
theorem fixedValue_of_nonneg (h : 0 ≤ x) : fixedValue d x = roundHalfEven (x * 10 ^ d) / 10 ^ d := by
  rw [fixedValue, if_neg (not_lt.mpr h), abs_of_nonneg h, one_mul]

/-- The sign is written apart. -/
theorem fixedValue_neg (h : 0 < x) : fixedValue d (-x) = -fixedValue d x := by
  rw [fixedValue_of_nonneg h.le, fixedValue, if_pos (neg_lt_zero.mpr h), abs_neg, abs_of_pos h,
    neg_one_mul]

/-- What is written is off by half a unit of the last digit at most. -/
theorem abs_fixedValue_sub_le (d : ℕ) (x : ℚ) : |fixedValue d x - x| ≤ 1 / 2 / 10 ^ d := by
  have hnonneg : ∀ {x : ℚ}, 0 ≤ x → |fixedValue d x - x| ≤ 1 / 2 / 10 ^ d := by
    intro x hx
    have hunit : (0 : ℚ) < 10 ^ d := by positivity
    have hround := abs_roundHalfEven_sub_le (x * 10 ^ d)
    have hscaled : fixedValue d x - x = (roundHalfEven (x * 10 ^ d) - x * 10 ^ d) / 10 ^ d := by
      rw [fixedValue_of_nonneg hx, sub_div, mul_div_cancel_right₀ _ hunit.ne']
    rw [hscaled, abs_div, abs_of_pos hunit]
    exact div_le_div_of_nonneg_right hround hunit.le
  rcases le_or_gt 0 x with hx | hx
  · exact hnonneg hx
  · have hopposite := hnonneg (neg_pos.mpr hx).le
    have hsame : fixedValue d x - x = -(fixedValue d (-x) - -x) := by
      rw [← neg_neg x, fixedValue_neg (neg_pos.mpr hx), neg_neg]
      ring
    rwa [hsame, abs_neg]

/-- What is written is a number of `d` digits. -/
theorem exists_fixedValue_eq (d : ℕ) (x : ℚ) : ∃ n : ℤ, fixedValue d x = n / 10 ^ d := by
  unfold fixedValue
  split_ifs
  · exact ⟨-roundHalfEven (|x| * 10 ^ d), by push_cast; ring⟩
  · exact ⟨roundHalfEven (|x| * 10 ^ d), one_mul _⟩

/-- A number is written as it is exactly when it has no more than `d` digits. -/
theorem fixedValue_eq_iff : fixedValue d x = x ↔ ∃ n : ℤ, x = n / 10 ^ d := by
  constructor
  · intro heq
    obtain ⟨n, hn⟩ := exists_fixedValue_eq d x
    exact ⟨n, heq ▸ hn⟩
  · rintro ⟨n, rfl⟩
    have hunit : (0 : ℚ) < 10 ^ d := by positivity
    have hscaled : |(n : ℚ) / 10 ^ d| * 10 ^ d = (|n| : ℤ) := by
      rw [abs_div, abs_of_pos hunit, div_mul_cancel₀ _ hunit.ne', Int.cast_abs]
    rw [fixedValue, hscaled, roundHalfEven_intCast, Int.cast_abs]
    split_ifs with hneg
    · rw [div_lt_iff₀ hunit, zero_mul] at hneg
      rw [abs_of_neg hneg]
      ring
    · rw [not_lt, le_div_iff₀ hunit, zero_mul] at hneg
      rw [abs_of_nonneg hneg, one_mul]

end MarketBlocks.Library
