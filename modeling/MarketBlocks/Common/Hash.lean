import MarketBlocks.Common.Encoding
import MarketBlocks.Library.Hmac
import MarketBlocks.Library.Sha2

/-!
# Hashes

`sha256`, `hmac_sha256` and `hmac_sha512` over the functions of OpenSSL, and `hex_encode`. The decoder of
base64 fills a short secret up with zeros, and a keyed hash does not see them.
-/

namespace MarketBlocks

open Library

/-- `EVP_sha256` and `EVP_sha512`. -/
inductive HashAlgorithm where
  | sha256
  | sha512

/-- The bytes of a block. -/
def HashAlgorithm.blockSize : HashAlgorithm → ℕ
  | .sha256 => 64
  | .sha512 => 128

/-- The hash functions of OpenSSL. -/
structure OpenSsl where
  hash : HashAlgorithm → List UInt8 → List UInt8
  hmac : HashAlgorithm → (key data : List UInt8) → List UInt8

/-- `HMAC` implements RFC 2104. -/
def OpenSsl.Implements (openSsl : OpenSsl) : Prop :=
  ∀ algorithm key data, openSsl.hmac algorithm key data =
    Hmac.mac (openSsl.hash algorithm) algorithm.blockSize key data

/-- The functions as they are standardized. -/
def OpenSsl.standard : OpenSsl where
  hash := fun
    | .sha256 => Sha2.sha256
    | .sha512 => Sha2.sha512
  hmac := fun
    | .sha256 => Hmac.mac Sha2.sha256 64
    | .sha512 => Hmac.mac Sha2.sha512 128

/-- The hashes of the standard are an implementation. -/
theorem OpenSsl.standard_implements : standard.Implements := by
  intro algorithm key data
  cases algorithm with
  | sha256 => rfl
  | sha512 => rfl

/-- The bytes of a text. -/
def textBytes (text : String) : List UInt8 := text.toUTF8.toList

/-- `sha256`. -/
def sha256 (openSsl : OpenSsl) (data : List UInt8) : List UInt8 := openSsl.hash .sha256 data

/-- `hmac_sha256`. -/
def hmacSha256 (openSsl : OpenSsl) (data key : List UInt8) : List UInt8 := openSsl.hmac .sha256 key data

/-- `hmac_sha512`. -/
def hmacSha512 (openSsl : OpenSsl) (data key : List UInt8) : List UInt8 := openSsl.hmac .sha512 key data

/-- The stream fills a digit up with a zero. -/
def hexEncode (data : List UInt8) : String :=
  String.ofList (data.flatMap fun value =>
    List.replicate (2 - (Nat.toDigits 16 value.toNat).length) '0' ++ Nat.toDigits 16 value.toNat)

variable {openSsl : OpenSsl} {bio : Base64Bio}

/-- A decoded secret signs like the secret itself when it is not longer than the buffer. -/
theorem hmac_b64Decode (hssl : openSsl.Implements) (hbio : bio.Implements) {secret : List UInt8}
    (hlength : secret.length ≤ 64) :
    ∃ decoded, b64Decode bio (b64Encode bio secret) = .ok decoded ∧
      ∀ algorithm data, openSsl.hmac algorithm decoded data = openSsl.hmac algorithm secret data := by
  refine ⟨_, b64Decode_b64Encode hbio secret, fun algorithm data => ?_⟩
  have hfits : secret.length + (64 - secret.length) ≤ algorithm.blockSize := by
    cases algorithm with
    | sha256 => exact Nat.le_of_eq (Nat.add_sub_of_le hlength)
    | sha512 => exact Nat.le_trans (Nat.le_of_eq (Nat.add_sub_of_le hlength)) (by decide)
  rw [List.take_of_length_le hlength, hssl, hssl, Hmac.mac_append_zeros hfits]

end MarketBlocks
