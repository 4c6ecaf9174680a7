import Mathlib.Data.List.Basic

/-!
# Base64

The encoding of RFC 4648 with padding and without line breaks. Three bytes are four digits of six bits;
one or two bytes at the end are two or three digits, and the padding fills the group.
-/

namespace MarketBlocks.Library.Base64

/-- The digits in the order of their values. -/
def alphabet : List Char := "ABCDEFGHIJKLMNOPQRSTUVWXYZabcdefghijklmnopqrstuvwxyz0123456789+/".toList

/-- The digit of six bits. -/
def digit (n : ℕ) : Char := alphabet.getD n '='

/-- The six bits of a digit. -/
def value (c : Char) : Option ℕ := alphabet.idxOf? c

/-- A digit has its value back. -/
theorem value_digit {n : ℕ} (h : n < 64) : value (digit n) = some n := by
  have hall : ∀ n < 64, value (digit n) = some n := by decide +kernel
  exact hall n h

/-- No digit is the padding. -/
theorem digit_ne_pad {n : ℕ} (h : n < 64) : digit n ≠ '=' := by
  have hall : ∀ n < 64, digit n ≠ '=' := by decide +kernel
  exact hall n h

/-- Three bytes make four digits, and a rest of one or two is padded. -/
def encode : List UInt8 → List Char
  | [] => []
  | [a] => [digit (a.toNat / 4), digit (a.toNat % 4 * 16), '=', '=']
  | [a, b] => [digit (a.toNat / 4), digit (a.toNat % 4 * 16 + b.toNat / 16), digit (b.toNat % 16 * 4), '=']
  | a :: b :: c :: rest =>
    digit (a.toNat / 4) :: digit (a.toNat % 4 * 16 + b.toNat / 16) ::
      digit (b.toNat % 16 * 4 + c.toNat / 64) :: digit (c.toNat % 64) :: encode rest

/-- The bytes of a group of two, three or four digits. -/
def firstByte (p q : ℕ) : UInt8 := .ofNat (p * 4 + q / 16)

/-- The lower half of the second digit and the upper bits of the third. -/
def secondByte (q r : ℕ) : UInt8 := .ofNat (q % 16 * 16 + r / 4)

/-- The lower bits of the third digit and the fourth. -/
def thirdByte (r s : ℕ) : UInt8 := .ofNat (r % 4 * 64 + s)

/-- A last group that ends with padding. -/
def decodeLast (p q r : Char) : Option (List UInt8) :=
  if r = '=' then do
    let p ← value p
    let q ← value q
    return [firstByte p q]
  else do
    let p ← value p
    let q ← value q
    let r ← value r
    return [firstByte p q, secondByte q r]

/-- Padding is read in the last group only. -/
def decode : List Char → Option (List UInt8)
  | [] => some []
  | p :: q :: r :: s :: rest =>
    if s = '=' ∧ rest = [] then decodeLast p q r
    else do
      let p ← value p
      let q ← value q
      let r ← value r
      let s ← value s
      let later ← decode rest
      return firstByte p q :: secondByte q r :: thirdByte r s :: later
  | _ => none

/-! ## The round trip -/

section Bytes

variable (a b c : UInt8)

/-- The first byte is read back from its two digits. -/
theorem firstByte_eq : firstByte (a.toNat / 4) (a.toNat % 4 * 16 + b.toNat / 16) = a := by
  have ha := a.toNat_lt
  have hb := b.toNat_lt
  rw [firstByte, ← UInt8.toNat_inj, UInt8.toNat_ofNat']
  omega

/-- The second byte is read back from its two digits. -/
theorem secondByte_eq :
    secondByte (a.toNat % 4 * 16 + b.toNat / 16) (b.toNat % 16 * 4 + c.toNat / 64) = b := by
  have hb := b.toNat_lt
  have hc := c.toNat_lt
  rw [secondByte, ← UInt8.toNat_inj, UInt8.toNat_ofNat']
  omega

/-- The third byte is read back from its two digits. -/
private theorem thirdByte_eq : thirdByte (b.toNat % 16 * 4 + c.toNat / 64) (c.toNat % 64) = c := by
  have hc := c.toNat_lt
  rw [thirdByte, ← UInt8.toNat_inj, UInt8.toNat_ofNat']
  omega

end Bytes

/-- A group of three bytes is read back, whatever follows. -/
theorem decode_group (a b c : UInt8) (rest : List Char) :
    decode (digit (a.toNat / 4) :: digit (a.toNat % 4 * 16 + b.toNat / 16) ::
      digit (b.toNat % 16 * 4 + c.toNat / 64) :: digit (c.toNat % 64) :: rest) =
      (decode rest).map fun later => a :: b :: c :: later := by
  have ha := a.toNat_lt
  have hb := b.toNat_lt
  have hc := c.toNat_lt
  have hpad : ¬(digit (c.toNat % 64) = '=' ∧ rest = []) := fun h => digit_ne_pad (by omega) h.1
  rw [decode, if_neg hpad, value_digit (by omega), value_digit (by omega), value_digit (by omega),
    value_digit (by omega)]
  simp only [Option.bind_eq_bind, Option.bind_some, firstByte_eq, secondByte_eq, thirdByte_eq]
  cases decode rest <;> rfl

/-- What was encoded is decoded. -/
theorem decode_encode (data : List UInt8) : decode (encode data) = some data := by
  induction data using encode.induct with
  | case1 => rfl
  | case2 a =>
    have ha := a.toNat_lt
    have hbyte := firstByte_eq a 0
    rw [encode, decode, if_pos ⟨rfl, rfl⟩, decodeLast, if_pos rfl, value_digit (by omega),
      value_digit (by omega)]
    exact congrArg (fun byte => some [byte]) hbyte
  | case3 a b =>
    have ha := a.toNat_lt
    have hb := b.toNat_lt
    have hsecond := secondByte_eq a b 0
    rw [encode, decode, if_pos ⟨rfl, rfl⟩, decodeLast, if_neg (digit_ne_pad (by omega)),
      value_digit (by omega), value_digit (by omega), value_digit (by omega)]
    exact congrArg₂ (fun first second => some [first, second]) (firstByte_eq a b) hsecond
  | case4 a b c rest ih =>
    rw [encode, decode_group, ih]
    rfl

example : encode [77, 97, 110, 33] = "TWFuIQ==".toList := by decide

end MarketBlocks.Library.Base64
