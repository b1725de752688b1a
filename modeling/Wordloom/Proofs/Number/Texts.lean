import Mathlib
import Wordloom.Number.Conversion
import Wordloom.Proofs.Binary.Texts
import Wordloom.Proofs.Number.Decimal.Equality

/-!
# Reading the texts of numbers

This file puts the texts of the eight kinds together. The text of a number has no blanks, and it is
read as the number again, with the one exception that a decimal may come back with other places.

A decimal keeps its count of places in a signed 64-bit word, and a text that asks for more is not
read. All numbers that are read are in this range, and so are those that they become.
-/

namespace Wordloom

-- Powers are those of the core library, whatever else is imported.
attribute [local instance (2000)] instPowNat

namespace Number

/-- Whether a number is a float that stands for no number. -/
def isNan : Number → Bool
  | .float value => value.isNaN
  | .double value => value.isNaN
  | _ => false

/-- Whether a number, if it is a decimal, has a count of places that decimals can keep. The other
kinds have nothing that is beyond their range. -/
def InRange : Number → Prop
  | .bigDecimal value => value.Fits
  | _ => True

/-- The number as which the text of a number is read. -/
def reread : Number → Number
  | .bigDecimal value => .bigDecimal value.reread
  | number => number

/-- Whether two numbers are the same in kind and value, floats also in the sign of zero. -/
def Equals : Number → Number → Prop
  | .bigDecimal left, .bigDecimal right => left.value = right.value
  | left, right => left = right

/-- Whether a number, if it is a decimal, is compared without a lost carry. -/
def ComparesWell : Number → Prop
  | .bigDecimal value => value.ComparesWell
  | _ => True

/-- Only decimals may be equal without being the same. -/
theorem Equals.eq {left right : Number} (equals : left.Equals right)
    (notDecimal : right.kind ≠ .bigDecimal) : left = right := by
  unfold Equals at equals
  split at equals
  · exact absurd rfl notDecimal
  · exact equals

variable {number : Number}

theorem inRange_of_kind_ne (notDecimal : number.kind ≠ .bigDecimal) : number.InRange := by
  unfold InRange
  split
  · exact absurd rfl notDecimal
  · trivial

/-- What is read is in range. -/
theorem inRange_of_read {kind : NumberKind} {text : String}
    (success : read kind text = some number) : number.InRange := by
  by_cases decimal : kind = .bigDecimal
  · subst decimal
    obtain ⟨value, found, rfl⟩ := Option.map_eq_some_iff.1 success
    exact Decimal.fits_of_read found
  · exact inRange_of_kind_ne (kind_of_read success ▸ decimal)

/-- The decimal of a float has at most as many places as the least double. -/
theorem fits_of_ofDatum {format : Binary.Format} {bits : ℕ} {value : Decimal}
    (least : -1074 ≤ format.leastExponent)
    (converted : Decimal.ofDatum format (format.datum bits) = some value) : value.Fits := by
  cases shape : format.datum bits with
  | nan => cases shape ▸ converted
  | infinite negative => cases shape ▸ converted
  | finite negative significand exponent =>
    rw [shape] at converted
    have canonical : format.Canonical significand exponent := Binary.Format.canonical_of_datum shape
    have expanded := format.min_exponent_le_shortest significand exponent
    have inside := least.trans canonical.least
    have bound : (-(format.shortest significand exponent).exponent).toNat ≤ 1074 := by omega
    cases converted
    constructor
    · exact (by decide : Int64.minValue.toInt ≤ 0).trans (Int.natCast_nonneg _)
    · exact (Int.ofNat_le.2 bound).trans (by decide)

/-- What a number in range becomes is in range. -/
theorem inRange_of_convert {converted : Number} {kind : NumberKind} (inRange : number.InRange)
    (success : number.convert kind = some converted) : converted.InRange := by
  by_cases decimal : kind = .bigDecimal
  · subst decimal
    obtain ⟨value, found, rfl⟩ := Option.map_eq_some_iff.1 success
    have whole : ∀ held : ℤ, (Decimal.ofInt held).Fits := fun _ =>
      (by decide : Int64.minValue.toInt ≤ 0 ∧ 0 ≤ Int64.maxValue.toInt)
    cases number with
    | float held => exact fits_of_ofDatum (by decide : -1074 ≤ Binary.single.leastExponent) found
    | double held => exact fits_of_ofDatum (by decide : -1074 ≤ Binary.double.leastExponent) found
    | bigDecimal held =>
      cases found
      exact inRange
    | _ =>
      cases found
      exact whole _
  · exact inRange_of_kind_ne (kind_of_convert success ▸ decimal)

theorem reread_equals (number : Number) : number.reread.Equals number := by
  cases number with
  | bigDecimal value => exact value.value_reread
  | _ => rfl

theorem same_reread (isNumber : number.isNan = false) (well : number.ComparesWell) :
    number.reread.same number = true := by
  cases number with
  | float value =>
    have notNan : value ≠ .nan := by
      simpa [isNan, Float32.isNaN_eq_decide_eq_nan] using isNumber
    exact Float32.beq_self_iff.2 notNan
  | double value =>
    have notNan : value ≠ .nan := by
      simpa [isNan, Float.isNaN_eq_decide_eq_nan] using isNumber
    exact Float.beq_self_iff.2 notNan
  | bigDecimal value => exact Decimal.reread_same well
  | _ => exact beq_self_eq_true _

theorem solid_text (number : Number) :
    Text.Solid number.text.toList ∧ number.text.toList ≠ [] := by
  cases number with
  | float value =>
    rw [text, Binary.float32Text, String.toList_ofList]
    exact Binary.single.solid_text _
  | double value =>
    rw [text, Binary.floatText, String.toList_ofList]
    exact Binary.double.solid_text _
  | bigDecimal value =>
    rw [text, String.toList_ofList]
    exact value.solid_text
  | _ =>
    rw [text, String.toList_ofList]
    exact ⟨solid_integerText _, integerText_ne_nil _⟩

/-- A word of some width is read when the integer is between its bounds. -/
theorem readWord_integerText {bits : ℕ} {whole : ℤ} (lower : -(2 ^ (bits - 1) : ℕ) ≤ whole)
    (upper : whole < (2 ^ (bits - 1) : ℕ)) : readWord bits (integerText whole) = some whole := by
  rw [readWord, readInteger_integerText, Option.filter_some, if_pos]
  rw [Bool.and_eq_true, decide_eq_true_eq, decide_eq_true_eq]
  exact ⟨lower, upper⟩

theorem readTrimmed_text (isNumber : number.isNan = false) (inRange : number.InRange) :
    readTrimmed number.kind number.text.toList = some number.reread := by
  cases number with
  | byte value =>
    rw [text, String.toList_ofList, kind, readTrimmed,
      readWord_integerText value.le_toInt value.toInt_lt, Option.map_some, Int8.ofInt_toInt]
    rfl
  | short value =>
    rw [text, String.toList_ofList, kind, readTrimmed,
      readWord_integerText value.le_toInt value.toInt_lt, Option.map_some, Int16.ofInt_toInt]
    rfl
  | int value =>
    rw [text, String.toList_ofList, kind, readTrimmed,
      readWord_integerText value.le_toInt value.toInt_lt, Option.map_some, Int32.ofInt_toInt]
    rfl
  | long value =>
    rw [text, String.toList_ofList, kind, readTrimmed,
      readWord_integerText value.le_toInt value.toInt_lt, Option.map_some, Int64.ofInt_toInt]
    rfl
  | float value =>
    rw [text, kind, readTrimmed, Binary.readFloat32_float32Text isNumber]
    rfl
  | double value =>
    rw [text, kind, readTrimmed, Binary.readFloat_floatText isNumber]
    rfl
  | bigInteger value =>
    rw [text, String.toList_ofList, kind, readTrimmed, readBigInteger_integerText]
    rfl
  | bigDecimal value =>
    rw [text, String.toList_ofList, kind, readTrimmed, Decimal.read_text inRange]
    rfl

/-- Blanks around the text of a number do not matter. -/
theorem read_padded_text (isNumber : number.isNan = false) (inRange : number.InRange)
    {before after : String} (beforeBlank : Text.allBlank before.toList = true)
    (afterBlank : Text.allBlank after.toList = true) :
    read number.kind (before ++ number.text ++ after) = some number.reread := by
  obtain ⟨solid, present⟩ := number.solid_text
  rw [read, String.toList_append, String.toList_append,
    Text.trim_padded beforeBlank afterBlank present solid.trim_eq,
    readTrimmed_text isNumber inRange]

end Number

end Wordloom
