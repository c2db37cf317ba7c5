/-!
# Binary Layouts of Reals

The formats write reals as floating-point numbers of three sizes that differ
only in how many bits the exponent and the fraction have. A `Layout` is those
two numbers; everything else follows from them and is done here once, in
exact arithmetic on naturals.

A finite number stands for `mantissa * 2 ^ exponent`. The bits of the
non-negative finite numbers, read as naturals, ascend with the numbers
themselves, which is why rounding up past the end of a binade needs no case
of its own.

## Main definitions

* `Layout`: The bits of an exponent and of a fraction.
* `Reading`: What the bits of a number say.
* `powerUp`: The numerator of a power.
* `Layout.read`: The reading of some bits.
* `Layout.nearest`: The bits of the number nearest to a quotient.
* `Layout.convert`: A number of one layout in another.
-/

namespace FramedIpc.Real

/-- The bits of an exponent and of a fraction. -/
structure Layout where
  fractionBits : Nat
  exponentBits : Nat
  deriving DecidableEq, Repr

/-- Numbers of sixteen bits. -/
def half : Layout := ⟨10, 5⟩

/-- Numbers of thirty-two bits. -/
def single : Layout := ⟨23, 8⟩

/-- Numbers of sixty-four bits. -/
def double : Layout := ⟨52, 11⟩

/-- What the bits of a number say. -/
inductive Reading where
  | finite (negative : Bool) (mantissa : Nat) (exponent : Int)
  | infinite (negative : Bool)
  | notNumber (negative : Bool) (payload : Nat)
  deriving DecidableEq, Repr

/-- The numerator of `base ^ exponent`, which is one where the exponent is
    negative. The denominator is the numerator for the opposite exponent. -/
def powerUp (base : Nat) (exponent : Int) : Nat := Nat.pow base exponent.toNat

namespace Layout

/-- One more than the largest fraction. -/
def fractionBound (l : Layout) : Nat := Nat.pow 2 l.fractionBits

/-- One more than the largest field of an exponent. -/
def exponentBound (l : Layout) : Nat := Nat.pow 2 l.exponentBits

/-- The exponent field of infinities and of what is no number. -/
def topExponent (l : Layout) : Nat := l.exponentBound - 1

/-- The bits of positive infinity. -/
def infinity (l : Layout) : Nat := l.topExponent * l.fractionBound

/-- The bits of the sign. -/
def signBit (l : Layout) : Nat := l.exponentBound * l.fractionBound

/-- The exponent of the smallest numbers. -/
def leastExponent (l : Layout) : Int :=
  2 - (l.exponentBound / 2 : Nat) - l.fractionBits

/-- What some bits say. -/
def read (l : Layout) (bits : Nat) : Reading :=
  let negative := bits / l.signBit % 2 = 1
  let exponent := bits / l.fractionBound % l.exponentBound
  let fraction := bits % l.fractionBound
  if exponent = l.topExponent then
    if fraction = 0 then .infinite negative else .notNumber negative fraction
  else if exponent = 0 then .finite negative fraction l.leastExponent
  else .finite negative (l.fractionBound + fraction) (l.leastExponent + exponent - 1)

/-- A quotient rounded to the nearest natural, a tie to the even one. -/
def roundDiv (num den : Nat) : Nat :=
  let quotient := num / den
  let twice := num % den * 2
  if twice < den then quotient
  else if den < twice then quotient + 1
  else quotient + quotient % 2

/-- The exponent of the highest power of two in a positive quotient. -/
def floorLog (num den : Nat) : Int :=
  let guess : Int := num.log2 - den.log2
  if den * powerUp 2 guess ≤ num * powerUp 2 (-guess) then guess else guess - 1

/-- The bits of the non-negative number nearest to a quotient, a tie to the
    even one; infinity where the quotient lies beyond all numbers. -/
def nearest (l : Layout) (num den : Nat) : Nat :=
  if num = 0 then 0
  else
    -- One mantissa has a bit more than the fraction; the smallest numbers have fewer.
    let exponent := max (floorLog num den - l.fractionBits) l.leastExponent
    let mantissa := roundDiv (num * powerUp 2 (-exponent)) (den * powerUp 2 exponent)
    -- A mantissa that is rounded up to the next binade carries into the exponent here.
    min ((exponent - l.leastExponent).toNat * l.fractionBound + mantissa) l.infinity

/-- The bits of the number nearest to `mantissa * 2 ^ exponent`. -/
def nearestBinary (l : Layout) (mantissa : Nat) (exponent : Int) : Nat :=
  l.nearest (mantissa * powerUp 2 exponent) (powerUp 2 (-exponent))

/-- The bits of a sign. -/
def sign (l : Layout) (negative : Bool) : Nat :=
  if negative then l.signBit else 0

/-- The bits in `target` of the number with `bits` in `l`. What is no number
    keeps the leading bits of its payload and is marked as quiet. -/
def convert (l target : Layout) (bits : Nat) : Nat :=
  match l.read bits with
  | .finite negative mantissa exponent =>
    target.sign negative + target.nearestBinary mantissa exponent
  | .infinite negative => target.sign negative + target.infinity
  | .notNumber negative payload =>
    -- The leading bits of a payload stay the leading ones.
    let scaled := payload * target.fractionBound / l.fractionBound
    let quiet := target.fractionBound / 2
    target.sign negative + target.infinity + (if scaled < quiet then scaled + quiet else scaled)

/-- Whether some bits are a finite number's. -/
def isFinite (l : Layout) (bits : Nat) : Bool :=
  bits / l.fractionBound % l.exponentBound != l.topExponent

end Layout

/-- The bits of a natural, rounded, in sixty-four bits. -/
def ofNat (n : Nat) : UInt64 :=
  UInt64.ofNat (double.nearest n 1)

/-- The bits of an integer, rounded, in sixty-four bits. -/
def ofInt (i : Int) : UInt64 :=
  UInt64.ofNat (double.sign (i < 0) + double.nearest i.natAbs 1)

/-- A number of thirty-two bits in sixty-four. -/
def widen (bits : UInt32) : UInt64 :=
  UInt64.ofNat (single.convert double bits.toNat)

/-- A number of sixty-four bits in thirty-two. -/
def narrow (bits : UInt64) : UInt32 :=
  UInt32.ofNat (double.convert single bits.toNat)

/-- Whether a number of sixty-four bits is finite. -/
def isFinite (bits : UInt64) : Bool :=
  double.isFinite bits.toNat

/-- The bits of the number with the other sign. -/
def negate (bits : UInt64) : UInt64 :=
  bits ^^^ 0x8000000000000000

end FramedIpc.Real
