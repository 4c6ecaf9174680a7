import Mathlib.Data.List.Basic

/-!
# Keyed hashes

HMAC over a hash function that works on blocks of a fixed size. A key that is shorter than a block is
filled up with zeros, so that zeros at its end do not matter as long as it fits.
-/

namespace MarketBlocks.Library

namespace Hmac

variable (hash : List UInt8 → List UInt8) (blockSize : ℕ)

/-- The key as one block; a longer key is hashed first. -/
def blockKey (key : List UInt8) : List UInt8 :=
  let short := if blockSize < key.length then hash key else key
  short ++ List.replicate (blockSize - short.length) 0

/-- Two hashes, the inner one of the data and the outer one of its result. -/
def mac (key data : List UInt8) : List UInt8 :=
  let block := blockKey hash blockSize key
  hash (block.map (· ^^^ 0x5c) ++ hash (block.map (· ^^^ 0x36) ++ data))

variable {hash blockSize} {key : List UInt8} {zeros : ℕ}

/-- A key that is padded by zeros makes the same block. -/
private theorem blockKey_append_zeros (h : key.length + zeros ≤ blockSize) :
    blockKey hash blockSize (key ++ List.replicate zeros 0) = blockKey hash blockSize key := by
  have hlength : (key ++ List.replicate zeros (0 : UInt8)).length = key.length + zeros := by simp
  have hfits : ¬blockSize < key.length := by omega
  rw [blockKey, blockKey, if_neg (by rw [hlength]; exact Nat.not_lt.mpr h), if_neg hfits, hlength,
    List.append_assoc, List.replicate_append_replicate]
  congr 2
  omega

/-- A key signs alike with zeros behind it. -/
theorem mac_append_zeros (h : key.length + zeros ≤ blockSize) (data : List UInt8) :
    mac hash blockSize (key ++ List.replicate zeros 0) data = mac hash blockSize key data := by
  rw [mac, blockKey_append_zeros h]
  rfl

end Hmac

end MarketBlocks.Library
