import FramedIpc.Real.Layout

/-!
# Shortest Decimals

The decimal that stands for a floating-point number is the shortest one that
reads back as that number: among the decimals that no other number is nearer
to, one with the fewest digits, and of those the one nearest to the number.

The decimals that read back fill an interval around the number. Its ends lie
halfway to the neighbours and belong to it if the mantissa is even, since a
tie is read as the even number. For each count of digits there is a grid of
decimals, and if any point of the grid lies in the interval, so does one of
the two points next to the number. So only those two are tried, for one digit,
two digits, and on, until one of them lies in the interval.

## Main definitions

* `Decimal`: Digits and the place of the last one.
* `shortest`: The shortest decimal of a positive number.
* `jsonText`: How JSON writes a number.
-/

namespace FramedIpc.Real

/-- The decimal `digits * 10 ^ place`. -/
structure Decimal where
  digits : Nat
  place : Int
  deriving DecidableEq, Repr

/-- The decimals that read back as a number, all over one denominator: the
    number, and the ends of the interval around it. -/
structure Interval where
  low : Nat
  value : Nat
  high : Nat
  den : Nat
  /-- Whether the ends belong to the interval. -/
  closed : Bool

/-- The interval of a finite number of a layout. The gap below the least
    mantissa of a binade is half as wide as the gap above it. -/
def interval (l : Layout) (mantissa : Nat) (exponent : Int) : Interval :=
  -- Below the least mantissa of a binade the numbers lie twice as close.
  let narrowBelow := mantissa == l.fractionBound && l.leastExponent < exponent
  let scale := powerUp 2 exponent
  { low := (4 * mantissa - if narrowBelow then 1 else 2) * scale
    value := 4 * mantissa * scale
    high := (4 * mantissa + 2) * scale
    den := 4 * powerUp 2 (-exponent)
    closed := mantissa % 2 == 0 }

/-- Whether `digits * 10 ^ place` lies in an interval. -/
def Interval.holds (i : Interval) (d : Decimal) : Bool :=
  let num := d.digits * i.den * powerUp 10 d.place
  let scale := powerUp 10 (-d.place)
  if i.closed then i.low * scale ≤ num && num ≤ i.high * scale
  else i.low * scale < num && num < i.high * scale

/-- How far a decimal lies from the number, as a numerator over a denominator
    that depends on the place alone. -/
def Interval.distance (i : Interval) (d : Decimal) : Nat :=
  let num := d.digits * i.den * powerUp 10 d.place
  let value := i.value * powerUp 10 (-d.place)
  if num < value then value - num else num - value

/-- The greatest decimal with a given last place that is no greater than the
    number. -/
def Interval.below (i : Interval) (place : Int) : Decimal :=
  ⟨i.value * powerUp 10 (-place) / (i.den * powerUp 10 place), place⟩

/-- The decimal of the interval nearest to the number, if one with that last
    place lies in it. A tie goes to the even digits. -/
def Interval.onGrid? (i : Interval) (place : Int) : Option Decimal :=
  let below := i.below place
  let above : Decimal := ⟨below.digits + 1, place⟩
  let nearer :=
    if i.distance below < i.distance above then below
    else if i.distance above < i.distance below then above
    else if below.digits % 2 == 0 then below else above
  -- The nearer one may lie outside where the interval is lopsided.
  let farther := if nearer = below then above else below
  if i.holds nearer then some nearer
  else if i.holds farther then some farther
  else none

/-- The place of the first digit of a positive quotient. -/
def leadingPlace (num den : Nat) : Int :=
  let guess : Int :=
    if den ≤ num then (Nat.toDigits 10 (num / den)).length - 1
    else -((Nat.toDigits 10 (den / num)).length : Int)
  let holds (place : Int) : Bool :=
    den * powerUp 10 place ≤ num * powerUp 10 (-place)
  if holds (guess + 1) then guess + 1 else if holds guess then guess else guess - 1

/-- Try finer and finer grids, so many of them. The number itself lies on a
    grid that is fine enough. -/
def Interval.search (i : Interval) : Nat → Int → Decimal
  | 0, place => i.below place
  | n + 1, place =>
    match i.onGrid? place with
    | some d => d
    | none => i.search n (place - 1)

/-- The most digits that telling two numbers of sixty-four bits apart takes. -/
def mostDigits : Nat := 17

/-- A decimal without the zeros at its end, of which there are at most `n`. -/
def Decimal.trim : Nat → Decimal → Decimal
  | 0, d => d
  | n + 1, d =>
    if d.digits % 10 == 0 && d.digits != 0 then Decimal.trim n ⟨d.digits / 10, d.place + 1⟩
    else d

/-- The shortest decimal of a positive number of a layout. -/
def shortest (l : Layout) (mantissa : Nat) (exponent : Int) : Decimal :=
  let i := interval l mantissa exponent
  (i.search mostDigits (leadingPlace i.value i.den)).trim mostDigits

/-- The exponents of the first digit for which JSON writes all places out. -/
def plainExponents : Int × Int := (-5, 15)

/-- A decimal as JSON writes it: all places and a point where the exponent is
    moderate, else one digit before the point and a signed exponent. -/
def Decimal.jsonText (d : Decimal) : String :=
  let digits := Nat.toDigits 10 d.digits
  let exponent := d.place + digits.length - 1
  let zeros (n : Int) := List.replicate n.toNat '0'
  if plainExponents.1 ≤ exponent && exponent ≤ plainExponents.2 then
    if 0 ≤ d.place then String.ofList (digits ++ zeros d.place ++ ['.', '0'])
    else if 0 ≤ exponent then
      String.ofList (digits.take (exponent + 1).toNat ++ '.' :: digits.drop (exponent + 1).toNat)
    else String.ofList ('0' :: '.' :: zeros (-exponent - 1) ++ digits)
  else
    let mantissa := match digits with
      | [] => []
      | [d] => [d]
      | d :: rest => d :: '.' :: rest
    let sign := if 0 ≤ exponent then "e+" else "e-"
    String.ofList mantissa ++ sign ++ toString exponent.natAbs

/-- A number as JSON writes it. What is not finite is written as nothing
    there is. -/
def jsonText (l : Layout) (bits : Nat) : String :=
  match l.read bits with
  | .finite negative mantissa exponent =>
    let text := if mantissa = 0 then "0.0" else (shortest l mantissa exponent).jsonText
    if negative then "-" ++ text else text
  | _ => "null"

end FramedIpc.Real
