import MarketBlocks.Common.Fault
import MarketBlocks.Library.Base64

/-!
# Encodings

`b64_encode` and `b64_decode`, over the base64 BIO of OpenSSL. The decoder reads once into a buffer of 64
bytes and returns the buffer: longer data are cut off, and shorter ones are filled up with zeros.
-/

namespace MarketBlocks

open Library

/-- A base64 BIO without line breaks, pushed onto a BIO in memory. -/
structure Base64Bio where
  /-- What `BIO_write` and `BIO_flush` leave in the memory. -/
  write : List UInt8 → String
  /-- What `BIO_read` puts into a buffer of the given size, its count being the number of these bytes.
  The count is negative when there are none to be read. -/
  read : String → (size : ℕ) → Option {bytes : List UInt8 // bytes.length ≤ size}

/-- The BIO implements RFC 4648, and reads as many bytes as the buffer holds. -/
structure Base64Bio.Implements (bio : Base64Bio) : Prop where
  write_eq : ∀ data, (bio.write data).toList = Base64.encode data
  read_eq : ∀ text data, Base64.decode text.toList = some data →
    ∀ size, (bio.read text size).map Subtype.val = some (data.take size)

/-- A BIO that writes and reads as the standard says. -/
def Base64Bio.rfc4648 : Base64Bio where
  write := fun data => String.ofList (Base64.encode data)
  read := fun text size =>
    (Base64.decode text.toList).map fun data => ⟨data.take size, List.length_take_le size data⟩

/-- The encoding of the standard is an implementation. -/
theorem Base64Bio.rfc4648_implements : rfc4648.Implements := by
  constructor
  · intro data
    exact String.toList_ofList
  · intro text data h size
    simp only [rfc4648, h, Option.map_some]

/-- `BIO_read` into a buffer: the bytes read take its front, and what is behind them stays. -/
def Base64Bio.readInto (bio : Base64Bio) (data : String) (output : List UInt8) : Option (List UInt8) :=
  (bio.read data output.length).map fun bytes => bytes.1 ++ output.drop bytes.1.length

/-- `b64_encode`. -/
def b64Encode (bio : Base64Bio) (data : List UInt8) : String := bio.write data

/-- `b64_decode`, into a buffer of 64 bytes whatever the data. -/
def b64Decode (bio : Base64Bio) (data : String) : Except Fault (List UInt8) :=
  match bio.readInto data (List.replicate 64 0) with
  | none => .error .otherException
  | some output => .ok output

variable {bio : Base64Bio} {output : List UInt8}

/-- A read leaves a buffer as long as it is. -/
theorem Base64Bio.length_of_readInto {data : String} {filled : List UInt8}
    (h : bio.readInto data output = some filled) : filled.length = output.length := by
  obtain ⟨bytes, -, rfl⟩ := Option.map_eq_some_iff.mp h
  have hle := bytes.2
  rw [List.length_append, List.length_drop]
  omega

/-- Encoded data are read as far as the buffer goes. -/
theorem Base64Bio.Implements.readInto_b64Encode (h : bio.Implements) (data output : List UInt8) :
    bio.readInto (b64Encode bio data) output =
      some (data.take output.length ++ output.drop data.length) := by
  have hdecode : Base64.decode (b64Encode bio data).toList = some data := by
    rw [b64Encode, h.write_eq, Base64.decode_encode]
  obtain ⟨bytes, hread, hbytes⟩ := Option.map_eq_some_iff.mp (h.read_eq _ data hdecode output.length)
  rw [Base64Bio.readInto, hread, Option.map_some, hbytes, List.length_take]
  rcases Nat.le_total output.length data.length with hle | hle
  · rw [Nat.min_eq_left hle, List.drop_length, List.drop_eq_nil_of_le hle]
  · rw [Nat.min_eq_right hle]

/-- What was encoded is cut off behind the buffer, or filled up to its end. -/
theorem b64Decode_b64Encode (h : bio.Implements) (data : List UInt8) :
    b64Decode bio (b64Encode bio data) = .ok (data.take 64 ++ List.replicate (64 - data.length) 0) := by
  rw [b64Decode, h.readInto_b64Encode, List.length_replicate, List.drop_replicate]

/-- Whatever is decoded, the buffer is returned. -/
theorem length_of_b64Decode {data : String} (h : b64Decode bio data = .ok output) :
    output.length = 64 := by
  rw [b64Decode] at h
  cases hread : bio.readInto data (List.replicate 64 0) with
  | none =>
    rw [hread] at h
    cases h
  | some filled =>
    rw [hread] at h
    cases h
    exact Base64Bio.length_of_readInto hread

/-- Decoding undoes encoding exactly for data as long as the buffer. -/
theorem b64Decode_b64Encode_iff (h : bio.Implements) (data : List UInt8) :
    b64Decode bio (b64Encode bio data) = .ok data ↔ data.length = 64 := by
  constructor
  · intro hdecode
    exact length_of_b64Decode hdecode
  · intro hlength
    rw [b64Decode_b64Encode h, hlength, ← hlength, List.take_length, Nat.sub_self]
    exact congrArg Except.ok (List.append_nil data)

/-- A single byte comes back with zeros behind it. -/
theorem b64Decode_single_byte :
    Base64Bio.rfc4648.Implements ∧
      b64Decode .rfc4648 (b64Encode .rfc4648 [7]) ≠ .ok [7] := by
  constructor
  · exact Base64Bio.rfc4648_implements
  · intro h
    have hlength := length_of_b64Decode h
    cases hlength

/-- Data of 64 bytes. -/
theorem b64Decode_b64Encode_rfc4648 :
    b64Decode .rfc4648 (b64Encode .rfc4648 (List.replicate 64 7)) = .ok (List.replicate 64 7) :=
  (b64Decode_b64Encode_iff Base64Bio.rfc4648_implements (List.replicate 64 7)).mpr rfl

end MarketBlocks
