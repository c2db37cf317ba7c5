import FramedIpc.Payload.Datum

/-!
# Numbers in Bytes

What the binary formats share: naturals in a fixed count of bytes, in either
order, and taking so many bytes off the front.

## Main definitions

* `littleEndian`: The bytes of a natural, least significant first.
* `bigEndian`: The bytes of a natural, most significant first.
* `takeBytes?`: So many bytes off the front.
* `twosComplement`: The natural that stands for an integer.
-/

namespace FramedIpc.Payload

/-- The low `size` bytes of a natural, least significant first. -/
def littleEndian : Nat → Nat → Bytes
  | 0, _ => []
  | size + 1, n => UInt8.ofNat n :: littleEndian size (n / 256)

/-- The low `size` bytes of a natural, most significant first. -/
def bigEndian (size n : Nat) : Bytes :=
  (littleEndian size n).reverse

/-- The natural that some bytes are, least significant first. -/
def ofLittleEndian (bs : Bytes) : Nat :=
  bs.foldr (fun b n => b.toNat + 256 * n) 0

/-- The natural that some bytes are, most significant first. -/
def ofBigEndian (bs : Bytes) : Nat :=
  bs.foldl (fun n b => n * 256 + b.toNat) 0

/-- So many bytes off the front, if there are so many. -/
def takeBytes? (n : Nat) (bs : Bytes) : Option (Bytes × Bytes) :=
  let taken := bs.take n
  if taken.length < n then none else some (taken, bs.drop n)

/-- A natural of `size` bytes off the front, most significant first. -/
def takeBig? (size : Nat) (bs : Bytes) : Option (Nat × Bytes) :=
  (takeBytes? size bs).map fun r => (ofBigEndian r.1, r.2)

/-- A natural of `size` bytes off the front, least significant first. -/
def takeLittle? (size : Nat) (bs : Bytes) : Option (Nat × Bytes) :=
  (takeBytes? size bs).map fun r => (ofLittleEndian r.1, r.2)

/-- The natural below `256 ^ size` that stands for an integer. -/
def twosComplement (size : Nat) (i : Int) : Nat :=
  (i % (Nat.pow 256 size : Nat)).toNat

/-- The integer that a natural below `256 ^ size` stands for. -/
def ofTwosComplement (size n : Nat) : Int :=
  if 2 * n < Nat.pow 256 size then n else n - (Nat.pow 256 size : Nat)

end FramedIpc.Payload
