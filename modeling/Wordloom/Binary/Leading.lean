import Wordloom.Binary.Rounding

/-!
# Doubles from whole numbers of any size

This file gives the double that stands for a whole number of any size.

A number of more than 64 bits is first cut to its leading 64 bits, and the lowest of these is
set when the part that is cut off is seen to hold something; what is left is rounded to the
nearest double. Were the whole part looked at, this would be rounding of the number itself. But
of each 64-bit word of the number only so many low bits are looked at as the highest word has
bits. A number that is a little above the middle between two doubles may thus be taken for the
middle, and go to the even one below it.
-/

namespace Wordloom.Binary

-- Powers are those of the core library, whatever else is imported.
attribute [local instance (2000)] instPowNat

/-- The bits of a word. -/
def wordBits : Nat := 64

/-- A significand of one word at most, with the power of two that it is multiplied by. -/
structure Leading where
  significand : Nat
  exponent : Nat

/-- Whether one of the lowest words has some of its low bits set. -/
def anyWordHolds (number bits words : Nat) : Bool :=
  (List.range words).any fun index => number / 2 ^ (wordBits * index) % 2 ^ bits ≠ 0

/-- The leading word of a number, with its lowest bit set if what is cut off is seen. -/
def leading (number : Nat) : Leading :=
  if number < 2 ^ wordBits then ⟨number, 0⟩
  else
    let words := number.log2 / wordBits
    let exponent := number.log2 + 1 - wordBits
    let significand := number / 2 ^ exponent
    if anyWordHolds number (number.log2 % wordBits + 1) words then
      ⟨significand ||| 1, exponent⟩
    else ⟨significand, exponent⟩

/-- The double that stands for a whole number of any size. -/
def floatOfBigInteger (number : Int) : Float :=
  let ⟨significand, exponent⟩ := leading number.natAbs
  toFloat (double.signed (decide (number < 0)) (double.ofBinary significand exponent))

end Wordloom.Binary
