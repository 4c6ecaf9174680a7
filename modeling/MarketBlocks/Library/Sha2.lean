import Mathlib.Data.List.Basic

/-!
# SHA-2

SHA-256 and SHA-512 for texts of whole bytes. They differ in the width of a word, in the number of rounds
and in the distances of rotations and shifts; the constants of SHA-256 are the upper halves of those of
SHA-512.
-/

namespace MarketBlocks.Library

namespace Sha2

/-- Fractional parts of the cube roots of the first 80 primes. -/
def roundConstants : List (BitVec 64) :=
  [0x428a2f98d728ae22, 0x7137449123ef65cd, 0xb5c0fbcfec4d3b2f, 0xe9b5dba58189dbbc,
    0x3956c25bf348b538, 0x59f111f1b605d019, 0x923f82a4af194f9b, 0xab1c5ed5da6d8118,
    0xd807aa98a3030242, 0x12835b0145706fbe, 0x243185be4ee4b28c, 0x550c7dc3d5ffb4e2,
    0x72be5d74f27b896f, 0x80deb1fe3b1696b1, 0x9bdc06a725c71235, 0xc19bf174cf692694,
    0xe49b69c19ef14ad2, 0xefbe4786384f25e3, 0x0fc19dc68b8cd5b5, 0x240ca1cc77ac9c65,
    0x2de92c6f592b0275, 0x4a7484aa6ea6e483, 0x5cb0a9dcbd41fbd4, 0x76f988da831153b5,
    0x983e5152ee66dfab, 0xa831c66d2db43210, 0xb00327c898fb213f, 0xbf597fc7beef0ee4,
    0xc6e00bf33da88fc2, 0xd5a79147930aa725, 0x06ca6351e003826f, 0x142929670a0e6e70,
    0x27b70a8546d22ffc, 0x2e1b21385c26c926, 0x4d2c6dfc5ac42aed, 0x53380d139d95b3df,
    0x650a73548baf63de, 0x766a0abb3c77b2a8, 0x81c2c92e47edaee6, 0x92722c851482353b,
    0xa2bfe8a14cf10364, 0xa81a664bbc423001, 0xc24b8b70d0f89791, 0xc76c51a30654be30,
    0xd192e819d6ef5218, 0xd69906245565a910, 0xf40e35855771202a, 0x106aa07032bbd1b8,
    0x19a4c116b8d2d0c8, 0x1e376c085141ab53, 0x2748774cdf8eeb99, 0x34b0bcb5e19b48a8,
    0x391c0cb3c5c95a63, 0x4ed8aa4ae3418acb, 0x5b9cca4f7763e373, 0x682e6ff3d6b2b8a3,
    0x748f82ee5defb2fc, 0x78a5636f43172f60, 0x84c87814a1f0ab72, 0x8cc702081a6439ec,
    0x90befffa23631e28, 0xa4506cebde82bde9, 0xbef9a3f7b2c67915, 0xc67178f2e372532b,
    0xca273eceea26619c, 0xd186b8c721c0c207, 0xeada7dd6cde0eb1e, 0xf57d4f7fee6ed178,
    0x06f067aa72176fba, 0x0a637dc5a2c898a6, 0x113f9804bef90dae, 0x1b710b35131c471b,
    0x28db77f523047d84, 0x32caab7b40c72493, 0x3c9ebe0a15c9bebc, 0x431d67c49c100d4c,
    0x4cc5d4becb3e42b6, 0x597f299cfc657e2a, 0x5fcb6fab3ad6faec, 0x6c44198c4a475817]

/-- Fractional parts of the square roots of the first 8 primes. -/
def initialWords : List (BitVec 64) :=
  [0x6a09e667f3bcc908, 0xbb67ae8584caa73b, 0x3c6ef372fe94f82b, 0xa54ff53a5f1d36f1,
    0x510e527fade682d1, 0x9b05688c2b3e6c1f, 0x1f83d9abfb41bd6b, 0x5be0cd19137e2179]

/-- Two rotations, and a third one or a shift. -/
abbrev Distances := ℕ × ℕ × ℕ

/-- The parameters of one member of the family. -/
structure Variant (w : ℕ) where
  rounds : ℕ
  /-- `Σ₀` and `Σ₁` of the round. -/
  sum0 : Distances
  sum1 : Distances
  /-- `σ₀` and `σ₁` of the schedule. -/
  schedule0 : Distances
  schedule1 : Distances

/-- SHA-256. -/
def variant256 : Variant 32 := ⟨64, (2, 13, 22), (6, 11, 25), (7, 18, 3), (17, 19, 10)⟩

/-- SHA-512. -/
def variant512 : Variant 64 := ⟨80, (28, 34, 39), (14, 18, 41), (1, 8, 7), (19, 61, 6)⟩

variable {w : ℕ}

/-- The sum of three rotations. -/
def rotations (d : Distances) (x : BitVec w) : BitVec w :=
  x.rotateRight d.1 ^^^ x.rotateRight d.2.1 ^^^ x.rotateRight d.2.2

/-- The sum of two rotations and a shift. -/
def rotationsAndShift (d : Distances) (x : BitVec w) : BitVec w :=
  x.rotateRight d.1 ^^^ x.rotateRight d.2.1 ^^^ x >>> d.2.2

/-- The upper bits of a constant. -/
def upperWord (w : ℕ) (x : BitVec 64) : BitVec w := (x >>> (64 - w)).setWidth w

/-! ## Bytes and words -/

/-- Words are big-endian. -/
def wordBytes (x : BitVec w) : List UInt8 :=
  (List.range (w / 8)).map fun i => UInt8.ofNat (x >>> (w - 8 - 8 * i)).toNat

/-- A word of bytes, the highest one first. -/
def wordOfBytes (w : ℕ) (bytes : List UInt8) : BitVec w :=
  BitVec.ofNat w (bytes.foldl (fun value byte => value * 256 + byte.toNat) 0)

/-- The first `n` groups of `size` elements. -/
def groups {α : Type*} (size : ℕ) : ℕ → List α → List (List α)
  | 0, _ => []
  | n + 1, data => data.take size :: groups size n (data.drop size)

/-- A block has sixteen words. -/
def blockSize (w : ℕ) : ℕ := 16 * (w / 8)

/-- A one, zeros, and the number of bits in two words. -/
def pad (w : ℕ) (data : List UInt8) : List UInt8 :=
  let zeros := blockSize w - 1 - (data.length + 2 * (w / 8)) % blockSize w
  data ++ 0x80 :: List.replicate zeros 0 ++ wordBytes (BitVec.ofNat (2 * w) (8 * data.length))

/-! ## Compression -/

/-- The last word first. -/
def extend (v : Variant w) : ℕ → List (BitVec w) → List (BitVec w)
  | 0, words => words
  | n + 1, words =>
    extend v n ((rotationsAndShift v.schedule1 (words.getD 1 0) + words.getD 6 0 +
      rotationsAndShift v.schedule0 (words.getD 14 0) + words.getD 15 0) :: words)

/-- The words of all rounds, the first sixteen of which are those of the block. -/
def schedule (v : Variant w) (block : List UInt8) : List (BitVec w) :=
  (extend v (v.rounds - 16) ((groups (w / 8) 16 block).map (wordOfBytes w)).reverse).reverse

/-- One round, on the working variables `a` to `h`. -/
def round (v : Variant w) (state : List (BitVec w)) (constant word : BitVec w) : List (BitVec w) :=
  match state with
  | [a, b, c, d, e, f, g, h] =>
    let temporary := h + rotations v.sum1 e + (e &&& f ^^^ ~~~e &&& g) + constant + word
    [temporary + rotations v.sum0 a + (a &&& b ^^^ a &&& c ^^^ b &&& c), a, b, c, d + temporary, e, f, g]
  | _ => state

/-- The rounds of one block, added to the state that it has found. -/
def compress (v : Variant w) (state : List (BitVec w)) (block : List UInt8) : List (BitVec w) :=
  let constants := (roundConstants.take v.rounds).map (upperWord w)
  let worked := (constants.zip (schedule v block)).foldl (fun s x => round v s x.1 x.2) state
  List.zipWith (· + ·) state worked

/-- The hash of any data, block by block. -/
def hash (v : Variant w) (data : List UInt8) : List UInt8 :=
  let padded := pad w data
  let blocks := groups (blockSize w) (padded.length / blockSize w) padded
  (blocks.foldl (compress v) (initialWords.map (upperWord w))).flatMap wordBytes

/-- The hash of 32 bytes. -/
def sha256 : List UInt8 → List UInt8 := hash variant256

/-- The hash of 64 bytes. -/
def sha512 : List UInt8 → List UInt8 := hash variant512

/-- The digest of the empty text. -/
example : (sha256 []).take 4 = [0xe3, 0xb0, 0xc4, 0x42] := by decide +kernel

example : (sha512 []).take 4 = [0xcf, 0x83, 0xe1, 0x35] := by decide +kernel

end Sha2

end MarketBlocks.Library
