import FramedIpc.Payload.Datum
import FramedIpc.Payload.Json.Text

/-!
# Numbers in JSON

A number without a point and an exponent that fits sixty-four bits is an
integer; every other number is a real, also zero with a sign.

A real is computed in a fixed way that is fast but not always nearest: the
digits that fit sixty-four bits make a natural, the natural is rounded to a
real, and that is multiplied or divided once by a power of ten, itself
rounded. Digits beyond those that fit only move the exponent. A power beyond
the largest is taken in two steps when dividing, and is out of range when
multiplying.

## Main definitions

* `Number`: What a number is read as.
* `readNumber`: A number off the front of a text.
* `skipNumber`: The same, for a number that nobody wants.
-/

namespace FramedIpc.Payload.Json

/-- What a number is read as. -/
inductive Number where
  | natural (n : Nat)
  /-- A negative integer. -/
  | negative (i : Int)
  /-- The bits of a real. -/
  | real (bits : UInt64)
  deriving DecidableEq, Repr

/-- One more than the largest natural of sixty-four bits. -/
def significandBound : Nat := 18446744073709551616

/-- The largest power of ten that reals have a number for. -/
def largestPower : Nat := 308

/-- The value of a digit. -/
def digit? (b : UInt8) : Option Nat :=
  if 48 ≤ b && b ≤ 57 then some (b.toNat - 48) else none

/-- The bits of a finite real times a power of two, as a mantissa and an
    exponent. -/
def parts (bits : Nat) : Nat × Int :=
  match Real.double.read bits with
  | .finite _ mantissa exponent => (mantissa, exponent)
  | _ => (0, 0)

/-- The bits of a power of ten. -/
def powerOfTen (n : Nat) : Nat := Real.double.nearest (Real.powerUp 10 n) 1

/-- The product of two non-negative reals, rounded. -/
def product (a b : Nat) : Nat :=
  Real.double.nearestBinary ((parts a).1 * (parts b).1) ((parts a).2 + (parts b).2)

/-- The quotient of two positive reals, rounded. -/
def quotient (a b : Nat) : Nat :=
  let exponent := (parts a).2 - (parts b).2
  Real.double.nearest ((parts a).1 * Real.powerUp 2 exponent)
    ((parts b).1 * Real.powerUp 2 (-exponent))

/-- A real divided by a power of ten, in steps if the power is too large, so
    many at most. -/
def dividedBy : Nat → Nat → Nat → Nat
  | 0, bits, _ => bits
  | steps + 1, bits, n =>
    if n ≤ largestPower then quotient bits (powerOfTen n)
    else if bits = 0 then 0
    else dividedBy steps (quotient bits (powerOfTen largestPower)) (n - largestPower)

/-- The real of a natural and a power of ten. Three steps reach zero from any
    natural that fits. -/
def realOf (positive : Bool) (significand : Nat) (exponent : Int) : Except Category Number :=
  let start := Real.double.nearest significand 1
  let bits : Except Category Nat :=
    if exponent < 0 then .ok (dividedBy 3 start exponent.natAbs)
    else if exponent.toNat ≤ largestPower then
      let scaled := product start (powerOfTen exponent.toNat)
      if scaled = Real.double.infinity then .error .malformed else .ok scaled
    else if start = 0 then .ok 0
    else .error .malformed
  bits.map fun bits => .real (UInt64.ofNat (Real.double.sign (!positive) + bits))

/-- The text after its digits. -/
def dropDigits (bs : Bytes) : Bytes := bs.dropWhile fun b => (digit? b).isSome

/-- The least exponent that no longer fits. -/
def exponentBound : Nat := 2147483648

/-- The rest of an exponent whose digits so far are `n`. -/
def readExponentDigits (positive : Bool) (significand : Nat) (start : Int) (upward : Bool)
    (n : Nat) : Bytes → Parsed Number
  | [] => finish []
  | b :: rest =>
    match digit? b with
    | none => finish (b :: rest)
    | some d =>
      if exponentBound ≤ n * 10 + d then
        -- Zero stays zero, and what is divided so often becomes zero.
        if significand ≠ 0 && upward then .error .malformed
        else .ok (.real (UInt64.ofNat (Real.double.sign (!positive))), dropDigits rest)
      else readExponentDigits positive significand start upward (n * 10 + d) rest
where
  /-- The number, the exponent read. -/
  finish (bs : Bytes) : Parsed Number :=
    (realOf positive significand (if upward then start + n else start - n)).map (·, bs)

/-- An exponent after its letter and its sign. -/
def readSignedExponent (positive : Bool) (significand : Nat) (start : Int) (upward : Bool) :
    Bytes → Parsed Number
  | [] => .error .eof
  | b :: rest =>
    match digit? b with
    | none => .error .malformed
    | some d => readExponentDigits positive significand start upward d rest

/-- An exponent after its letter. -/
def readExponent (positive : Bool) (significand : Nat) (start : Int) : Bytes → Parsed Number
  | 43 :: rest => readSignedExponent positive significand start true rest
  | 45 :: rest => readSignedExponent positive significand start false rest
  | rest => readSignedExponent positive significand start true rest

/-- What may follow the digits of a real: an exponent, or nothing. -/
def readTail (positive : Bool) (significand : Nat) (exponent : Int) : Bytes → Parsed Number
  | 101 :: rest => readExponent positive significand exponent rest
  | 69 :: rest => readExponent positive significand exponent rest
  | bs => (realOf positive significand exponent).map (·, bs)

/-- The digits after a point. `before` is the exponent at the point, and
    `places` digits have been read. -/
def readPlaces (positive : Bool) (before : Int) (significand places : Nat) :
    Bytes → Parsed Number
  | [] => if places = 0 then .error .eof else readTail positive significand (before - places) []
  | b :: rest =>
    match digit? b with
    | some d =>
      if significandBound ≤ significand * 10 + d then
        -- The places that no longer fit are dropped and count for nothing.
        readTail positive significand (before - places) (dropDigits rest)
      else readPlaces positive before (significand * 10 + d) (places + 1) rest
    | none =>
      if places = 0 then .error .malformed
      else readTail positive significand (before - places) (b :: rest)

/-- The digits of an integer that has outgrown its bound. -/
def readLong (positive : Bool) (significand : Nat) (exponent : Nat) : Bytes → Parsed Number
  | [] => readTail positive significand exponent []
  | b :: rest =>
    if (digit? b).isSome then readLong positive significand (exponent + 1) rest
    else if b = 46 then readPlaces positive exponent significand 0 rest
    else readTail positive significand exponent (b :: rest)

/-- What follows the digits of an integer. -/
def readAfterInteger (positive : Bool) (significand : Nat) (bs : Bytes) : Parsed Number :=
  match bs with
  | 46 :: rest => readPlaces positive 0 significand 0 rest
  | 101 :: rest => readExponent positive significand 0 rest
  | 69 :: rest => readExponent positive significand 0 rest
  | _ =>
    if positive then .ok (.natural significand, bs)
    -- No integer is a zero with a sign, and none of this size is negative.
    else if significand = 0 || significandBound / 2 < significand then
      .ok (.real (UInt64.ofNat (Real.double.sign true + Real.double.nearest significand 1)), bs)
    else .ok (.negative (-significand), bs)

/-- The digits of an integer. -/
def readDigits (positive : Bool) (significand : Nat) : Bytes → Parsed Number
  | [] => readAfterInteger positive significand []
  | b :: rest =>
    match digit? b with
    | some d =>
      if significandBound ≤ significand * 10 + d then readLong positive significand 0 (b :: rest)
      else readDigits positive (significand * 10 + d) rest
    | none => readAfterInteger positive significand (b :: rest)

/-- Whether a digit is at the front. -/
def startsWithDigit : Bytes → Bool
  | [] => false
  | b :: _ => (digit? b).isSome

/-- A number after its sign. A zero stands alone before the point. -/
def readUnsigned (positive : Bool) : Bytes → Parsed Number
  | [] => .error .eof
  | b :: rest =>
    match digit? b with
    | none => .error .malformed
    | some 0 => if startsWithDigit rest then .error .malformed else readAfterInteger positive 0 rest
    | some d => readDigits positive d rest

/-- A number off the front of a text. -/
def readNumber : Bytes → Parsed Number
  | 45 :: rest => readUnsigned false rest
  | bs => readUnsigned true bs

/-- Skip one digit or more. -/
def skipDigits (bs : Bytes) : Except Category Bytes :=
  if startsWithDigit bs then .ok (dropDigits bs) else .error .malformed

/-- Skip an exponent after its letter. -/
def skipExponent : Bytes → Except Category Bytes
  | 43 :: rest => skipDigits rest
  | 45 :: rest => skipDigits rest
  | rest => skipDigits rest

/-- Skip what may follow the digits of a real. -/
def skipTail : Bytes → Except Category Bytes
  | 101 :: rest => skipExponent rest
  | 69 :: rest => skipExponent rest
  | bs => .ok bs

/-- Skip what follows the digits of an integer. -/
def skipAfterInteger : Bytes → Except Category Bytes
  | 46 :: rest => skipDigits rest >>= skipTail
  | bs => skipTail bs

/-- Skip a number after its sign. A number that is cut short counts as
    malformed here. -/
def skipUnsigned : Bytes → Except Category Bytes
  | [] => .error .malformed
  | b :: rest =>
    match digit? b with
    | none => .error .malformed
    | some 0 => if startsWithDigit rest then .error .malformed else skipAfterInteger rest
    | some _ => skipAfterInteger (dropDigits rest)

/-- Skip a number. -/
def skipNumber : Bytes → Except Category Bytes
  | 45 :: rest => skipUnsigned rest
  | bs => skipUnsigned bs

end FramedIpc.Payload.Json
