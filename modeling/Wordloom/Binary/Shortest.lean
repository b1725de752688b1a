import Wordloom.Binary.Rounding
import Wordloom.Digits

/-!
# Decimals of a binary number

This file gives the decimal with the fewest digits that rounds to a given binary number, and
the decimal that rounds a binary number to a fixed count of digits.

Every finite binary number has a finite decimal expansion. For one, two, … digits the number's
two neighbours with that many digits are tried, the nearer one first and the upper one on a
tie, and the first that rounds to the number is the answer. The expansion itself is the last
candidate, so the search needs no bound on the count of digits.
-/

namespace Wordloom.Binary

-- Powers are those of the core library, whatever else is imported.
attribute [local instance (2000)] instPowNat

/-- The number `coefficient * 10 ^ exponent`. -/
structure Scientific where
  /-- The digits, read as one number. -/
  coefficient : Nat
  /-- The power of ten of the last digit. -/
  exponent : Int
deriving DecidableEq, Repr

namespace Scientific

/-- The expansion of `significand * 2 ^ exponent`, exactly. -/
def ofBinary (significand : Nat) (exponent : Int) : Scientific :=
  if significand = 0 then ⟨0, 0⟩
  else if 0 ≤ exponent then ⟨significand * 2 ^ exponent.toNat, 0⟩
  else ⟨significand * 5 ^ (-exponent).toNat, exponent⟩

/-- The count of digits before any rounding. -/
def length (number : Scientific) : Nat :=
  (digits number.coefficient).length

/-- A coefficient of at most `digitCount` digits, or the power of ten that follows them. -/
def carry (digitCount coefficient : Nat) (exponent : Int) : Scientific :=
  if coefficient = 10 ^ digitCount then ⟨1, exponent + digitCount⟩ else ⟨coefficient, exponent⟩

/-- The numbers next to a given one that have `dropped` digits less, the nearer one first. -/
def neighbours (number : Scientific) (dropped : Nat) : List Scientific :=
  let unit := 10 ^ dropped
  let exponent := number.exponent + dropped
  let lower : Scientific := ⟨number.coefficient / unit, exponent⟩
  let upper := carry (number.length - dropped) (number.coefficient / unit + 1) exponent
  if 2 * (number.coefficient % unit) < unit then [lower, upper] else [upper, lower]

/-- The first neighbour that passes a test, dropping fewer and fewer digits. -/
def search (number : Scientific) (passes : Scientific → Bool) : Nat → Scientific
  | 0 => number
  | dropped + 1 =>
    match (number.neighbours (dropped + 1)).find? passes with
    | some candidate => candidate
    | none => number.search passes dropped

/-- The decimal with a count of digits that is nearest to a positive number, a tie going to the
even digit. Shorter numbers are filled up with zeros. -/
def withDigits (number : Scientific) (digitCount : Nat) : Scientific :=
  let filled := digitCount - number.length
  let dropped := number.length - digitCount
  let rounded := halfEven (number.coefficient * 10 ^ filled) (10 ^ dropped)
  let exponent := number.exponent - filled + dropped
  if rounded = 10 ^ digitCount then ⟨10 ^ (digitCount - 1), exponent + 1⟩ else ⟨rounded, exponent⟩

end Scientific

/-- The decimal with the fewest digits that rounds to the number `significand * 2 ^ exponent`. -/
def Format.shortest (format : Format) (significand : Nat) (exponent : Int) : Scientific :=
  let expansion := Scientific.ofBinary significand exponent
  expansion.search
    (fun candidate =>
      format.ofDecimal candidate.coefficient candidate.exponent
        == format.pattern significand exponent)
    (expansion.length - 1)

end Wordloom.Binary
