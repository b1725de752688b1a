import Wordloom.Binary.Leading
import Wordloom.Binary.Notation

/-!
# Big decimals

This file gives decimals of any size: a whole number together with a count of places, which
may be negative. Two decimals have the same value when they agree after the places are made
equal, so `1.0` and `1` have one value but different texts.

A decimal is turned into a double by a fixed procedure rather than by rounding its exact
value. Digits beyond the first twenty-five or so are cut off in steps of nineteen; a whole
number is then multiplied by a power of ten that is itself computed in doubles by repeated
squaring, and only a fraction is rounded correctly.
-/

namespace Wordloom

-- Powers are those of the core library, whatever else is imported.
attribute [local instance (2000)] instPowNat

/-- The number `unscaled / 10 ^ scale`. -/
structure Decimal where
  /-- The digits with the sign, as a whole number. -/
  unscaled : Int
  /-- The count of places. A negative count stands for zeros before the point. -/
  scale : Int
deriving DecidableEq, Repr

namespace Decimal

/-- A whole number without places. -/
def ofInt (number : Int) : Decimal :=
  ⟨number, 0⟩

/-- The whole number that is left when the places are cut off. More places than the number has
binary digits leave nothing, which is settled without computing the power. -/
def truncate (number : Decimal) : Int :=
  if number.unscaled = 0 then 0
  else if (number.unscaled.natAbs.log2 : Int) < number.scale then 0
  else (number.unscaled * 10 ^ (-number.scale).toNat).tdiv (10 ^ number.scale.toNat)

/-- The same number with no zeros at the end of its digits. -/
def stripZeros : (fuel : Nat) → Decimal → Decimal
  | 0, number => number
  | fuel + 1, number =>
    if number.unscaled % 10 = 0 then stripZeros fuel ⟨number.unscaled / 10, number.scale - 1⟩
    else number

/-- The one way to write a number that ends in no zero, or `0` without places. -/
def canonical (number : Decimal) : Decimal :=
  if number.unscaled = 0 then ⟨0, 0⟩
  else stripZeros (digits number.unscaled.natAbs).length number

/-- The decimal that a text says: digits with a sign, a point and an exponent. Underscores may
stand between digits, and the scale has to fit a signed 64-bit word. -/
def read (text : List Char) : Option Decimal := do
  let isMark (character : Char) : Bool := character == 'e' || character == 'E'
  let base := text.takeWhile (!isMark ·)
  let exponent ←
    match text.dropWhile (!isMark ·) with
    | [] => some 0
    | _ :: exponent => readInteger exponent
  let lead := base.takeWhile (· ≠ '.')
  let trail := (base.dropWhile (· ≠ '.')).drop 1
  let scale := ((trail.filter (· ≠ '_')).length : Int) - exponent
  guard (Int64.minValue.toInt ≤ scale ∧ scale ≤ Int64.maxValue.toInt)
  let unscaled ← readBigInteger (lead ++ trail)
  return ⟨unscaled, scale⟩

/-- The text of the digits, without a sign. -/
def magnitudeText (number : Decimal) : List Char :=
  let coefficient := digits number.unscaled.natAbs
  let length : Int := coefficient.length
  if number.scale - length > 5 then
    let power := length - number.scale - 1
    let point :=
      match coefficient with
      | first :: rest@(_ :: _) => first :: '.' :: rest
      | short => short
    point ++ 'E' :: integerText power
  else if number.scale < -15 then
    coefficient ++ 'e' :: '+' :: integerText (-number.scale)
  else if number.scale ≤ 0 then
    coefficient ++ List.replicate (-number.scale).toNat '0'
  else Binary.pointed coefficient number.scale.toNat

/--
The text of a decimal. Very small numbers and whole numbers with more than fifteen zeros left
unwritten have an exponent, all others are written out with their places.
-/
def text (number : Decimal) : List Char :=
  if number.unscaled = 0 then ['0']
  else Binary.withSign (decide (number.unscaled < 0)) number.magnitudeText

/-- A power of ten by repeated squaring in doubles, each product being rounded. -/
def roundedPower (exponent : Nat) : Float :=
  go (exponent.log2 + 1) exponent 1.0 10.0
where
  /-- The product so far times a power of the base that is squared at each step. -/
  go : Nat → Nat → Float → Float → Float
    | 0, _, product, _ => product
    | fuel + 1, remaining, product, base =>
      let product := if remaining % 2 = 1 then product * base else product
      if remaining / 2 = 0 then product else go fuel (remaining / 2) product (base * base)

/-- The digits of a number as they are estimated from its bits, in doubles. -/
def estimatedDigits (magnitude : Nat) : Nat :=
  let bits := if magnitude = 0 then 0 else magnitude.log2 + 1
  (Binary.floatOfInt (bits + 1) * 0.30102999566398119521).toUInt64.toNat

/-- A number with its digits cut off in steps of nineteen down to about twenty-five. -/
def shortened (number : Decimal) : Decimal :=
  let steps := (estimatedDigits number.unscaled.natAbs - 25) / 19
  ⟨number.unscaled.tdiv (10 ^ (19 * steps)), number.scale - (19 * steps : Nat)⟩

/-- The double that stands for a decimal. -/
def toFloat (number : Decimal) : Float :=
  if number.unscaled = 0 then 0.0
  else if number.scale = 0 then Binary.floatOfBigInteger number.unscaled
  else
    let short := number.shortened
    if short.scale < Int32.minValue.toInt ∨ Int32.maxValue.toInt < short.scale then
      Binary.toFloat (Binary.double.signed (decide (number.unscaled < 0)) Binary.double.infinity)
    else if short.scale ≤ 0 then
      Binary.floatOfBigInteger short.unscaled * roundedPower (-short.scale).toNat
    else
      Binary.toFloat
        (Binary.double.signed (decide (number.unscaled < 0))
          (Binary.double.ofDecimal short.unscaled.natAbs (-short.scale)))

/-- The decimal that the text of a binary number says, if it says a number. -/
def ofDatum (format : Binary.Format) : Binary.Datum → Option Decimal
  | .nan => none
  | .infinite _ => none
  | .finite negative significand exponent =>
    let shortest := format.shortest significand exponent
    let magnitude : Nat := shortest.coefficient * 10 ^ shortest.exponent.toNat
    some ⟨if negative then -(magnitude : Int) else magnitude, (-shortest.exponent).toNat⟩

end Decimal

end Wordloom
