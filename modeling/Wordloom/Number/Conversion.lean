import Wordloom.Number.Basic

/-!
# Conversion between numbers

This file gives the number of one representation that stands for a number of another.

A number that is held exactly, a word or a whole number or a decimal, becomes a word by
truncation toward zero and by keeping the low bits: first 64 of them, and of these as many as
the word has. A float becomes a word by truncation and by stopping at the bounds; the two narrow
words keep the low bits of the 32-bit word that is found this way. A float becomes a whole number
or a decimal through the number that its text says, which is why a float that is no finite number
becomes neither.
-/

namespace Wordloom.Number

/-- The low 64 bits of a whole number. They are those of its magnitude, which are negated for a
number below zero. -/
def lowWord (number : Int) : Int64 :=
  let low := (UInt64.ofNat number.natAbs).toInt64
  if number < 0 then -low else low

/-- The low 64 bits of the whole number toward zero, of a number that is held exactly. -/
def lowBits : Number → Option Int64
  | .byte value => some value.toInt64
  | .short value => some value.toInt64
  | .int value => some value.toInt64
  | .long value => some value
  | .float _ => none
  | .double _ => none
  | .bigInteger value => some (lowWord value)
  | .bigDecimal value => some (lowWord value.truncate)

/-- The double that stands for a number. -/
def toFloat : Number → Float
  | .byte value => Binary.floatOfInt value.toInt
  | .short value => Binary.floatOfInt value.toInt
  | .int value => Binary.floatOfInt value.toInt
  | .long value => Binary.floatOfInt value.toInt
  | .float value => Binary.widen value
  | .double value => value
  | .bigInteger value => Binary.floatOfBigInteger value
  | .bigDecimal value => value.toFloat

/-- The 32-bit word at which the double of a number stops. -/
def stopped32 (number : Number) : Int32 :=
  Int32.ofInt
    ((Binary.ofFloat number.toFloat).clamp Int32.minValue.toInt Int32.maxValue.toInt)

/-- The 64-bit word at which the double of a number stops. -/
def stopped64 (number : Number) : Int64 :=
  Int64.ofInt
    ((Binary.ofFloat number.toFloat).clamp Int64.minValue.toInt Int64.maxValue.toInt)

/-- The whole number of any size that a number becomes. A float is first widened to a double. -/
def toBigInteger : Number → Option Int
  | .bigInteger value => some value
  | .bigDecimal value => some value.truncate
  | number@(.float _) | number@(.double _) =>
    (Decimal.ofDatum Binary.double (Binary.ofFloat number.toFloat)).map Decimal.truncate
  | number => number.lowBits.map Int64.toInt

/-- The decimal that a number becomes. -/
def toDecimal : Number → Option Decimal
  | .bigDecimal value => some value
  | .bigInteger value => some (Decimal.ofInt value)
  | .float value => Decimal.ofDatum Binary.single (Binary.ofFloat32 value)
  | .double value => Decimal.ofDatum Binary.double (Binary.ofFloat value)
  | number => number.lowBits.map fun low => Decimal.ofInt low.toInt

/-- The number of a kind that stands for a number, if there is one. -/
def convert (number : Number) : NumberKind → Option Number
  | .byte => some (.byte ((number.lowBits.map Int64.toInt8).getD number.stopped32.toInt8))
  | .short => some (.short ((number.lowBits.map Int64.toInt16).getD number.stopped32.toInt16))
  | .int => some (.int ((number.lowBits.map Int64.toInt32).getD number.stopped32))
  | .long => some (.long (number.lowBits.getD number.stopped64))
  | .float => some (.float (Binary.narrow number.toFloat))
  | .double => some (.double number.toFloat)
  | .bigInteger => number.toBigInteger.map .bigInteger
  | .bigDecimal => number.toDecimal.map .bigDecimal

theorem kind_of_convert {number converted : Number} {kind : NumberKind}
    (success : number.convert kind = some converted) : converted.kind = kind := by
  cases kind with
  | bigInteger =>
    obtain ⟨_, _, rfl⟩ := Option.map_eq_some_iff.1 success
    rfl
  | bigDecimal =>
    obtain ⟨_, _, rfl⟩ := Option.map_eq_some_iff.1 success
    rfl
  | _ =>
    cases success
    rfl

end Wordloom.Number
