import Wordloom.Binary.Format

/-!
# Rounding to the nearest binary number

This file gives the number of a format that is nearest to a given ratio, a tie going to the
even significand, and from it the nearest number to a decimal and to a number of another
format. All arithmetic is exact, on natural numbers.

A ratio is first brought to the exponent at which its integral part has as many bits as a
significand may have, or to the least exponent if it is too small for that. What is left is
one division with rounding. A ratio beyond the largest number gives infinity: patterns above
those of the finite numbers are cut to the pattern of infinity.
-/

namespace Wordloom.Binary

-- Powers are those of the core library, whatever else is imported.
attribute [local instance (2000)] instPowNat

/-- The nearest natural number to a ratio, a tie going to the even neighbour. -/
def halfEven (numerator denominator : Nat) : Nat :=
  let quotient := numerator / denominator
  match compare (2 * (numerator % denominator)) denominator with
  | .lt => quotient
  | .eq => quotient + quotient % 2
  | .gt => quotient + 1

/-- Whether a ratio is below a power of two. -/
def ratioBelow (numerator denominator : Nat) (exponent : Int) : Bool :=
  numerator * 2 ^ (-exponent).toNat < denominator * 2 ^ exponent.toNat

/-- The exponent of the largest power of two that a positive ratio reaches. -/
def leadingExponent (numerator denominator : Nat) : Int :=
  let guess : Int := (numerator.log2 : Int) - denominator.log2
  if ratioBelow numerator denominator guess then guess - 1 else guess

namespace Format

/-- The pattern of the number nearest to a ratio. -/
def nearest (format : Format) (numerator denominator : Nat) : Nat :=
  if numerator = 0 then 0
  else
    let exponent :=
      max (leadingExponent numerator denominator - format.fractionBits) format.leastExponent
    min format.infinity
      (format.pattern
        (halfEven (numerator * 2 ^ (-exponent).toNat) (denominator * 2 ^ exponent.toNat))
        exponent)

/-- The pattern of the number nearest to `significand * 2 ^ exponent`. -/
def ofBinary (format : Format) (significand : Nat) (exponent : Int) : Nat :=
  format.nearest (significand * 2 ^ exponent.toNat) (2 ^ (-exponent).toNat)

/--
The pattern of the number nearest to `coefficient * 10 ^ exponent`. Decimals that are beyond
every finite number, or nearer to zero than to any other number, by their exponent alone are
settled without computing the power.
-/
def ofDecimal (format : Format) (coefficient : Nat) (exponent : Int) : Nat :=
  if coefficient = 0 then 0
  else if exponent > (2 ^ format.exponentBits : Nat) then format.infinity
  else if exponent < -((2 ^ format.exponentBits + coefficient.log2 : Nat) : Int) then 0
  else format.nearest (coefficient * 10 ^ exponent.toNat) (10 ^ (-exponent).toNat)

/-- The pattern of the number nearest to what a datum stands for. -/
def ofDatum (format : Format) : Datum → Nat
  | .nan => format.quietNan
  | .infinite negative => format.signed negative format.infinity
  | .finite negative significand exponent =>
    format.signed negative (format.ofBinary significand exponent)

/-- The pattern of the number nearest to an integer. -/
def ofInteger (format : Format) (number : Int) : Nat :=
  format.signed (decide (number < 0)) (format.nearest number.natAbs 1)

end Format

/-- The integer that a datum is truncated to, toward zero. Only finite data have one. -/
def Datum.truncate : Datum → Option Int
  | .nan => none
  | .infinite _ => none
  | .finite negative significand exponent =>
    let size := significand * 2 ^ exponent.toNat / 2 ^ (-exponent).toNat
    some (if negative then -(size : Int) else size)

/--
The integer between two bounds that is nearest to the truncation of a datum. An infinite
datum gives a bound, and no number gives zero.
-/
def Datum.clamp (lower upper : Int) : Datum → Int
  | .nan => 0
  | .infinite negative => if negative then lower else upper
  | datum@(.finite ..) => max lower (min upper (datum.truncate.getD 0))

/-- The nearest double to an integer. -/
def floatOfInt (number : Int) : Float :=
  toFloat (double.ofInteger number)

/-- The double with the value of a single. -/
def widen (number : Float32) : Float :=
  toFloat (double.ofDatum (ofFloat32 number))

/-- The nearest single to a double. -/
def narrow (number : Float) : Float32 :=
  toFloat32 (single.ofDatum (ofFloat number))

end Wordloom.Binary
