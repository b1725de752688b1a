import Wordloom.Binary.Shortest

/-!
# Texts of binary numbers

This file gives the texts of binary floating point numbers: how they are written and which
texts are read as one.

A number is written with the fewest digits that are read back as it, in positional notation
whatever its size. Three more notations round: to twelve significant digits, and to a fixed
count of places.
-/

namespace Wordloom.Binary

-- Powers are those of the core library, whatever else is imported.
attribute [local instance (2000)] instPowNat

/-- Digits with a point before the last `places` of them, and a digit before the point. -/
def pointed (digitsText : List Char) (places : Nat) : List Char :=
  let padded := List.replicate (places + 1 - digitsText.length) '0' ++ digitsText
  padded.take (padded.length - places) ++ '.' :: padded.drop (padded.length - places)

/-- A decimal without an exponent. A whole number has no point. -/
def Scientific.positional (number : Scientific) : List Char :=
  if 0 ≤ number.exponent then
    digits number.coefficient ++ List.replicate number.exponent.toNat '0'
  else pointed (digits number.coefficient) (-number.exponent).toNat

/-- A text after a minus sign, if there is one to write. -/
def withSign (negative : Bool) (text : List Char) : List Char :=
  if negative then '-' :: text else text

/-- The text of an infinite datum. -/
def infiniteText (negative : Bool) : List Char :=
  withSign negative "inf".toList

/-- The text of a number that is always marked as a fraction: a whole number ends in `.0`. -/
def Format.text (format : Format) : Datum → List Char
  | .nan => "NaN".toList
  | .infinite negative => infiniteText negative
  | .finite negative significand exponent =>
    let text := (format.shortest significand exponent).positional
    withSign negative (if text.contains '.' then text else text ++ ".0".toList)

/-- One digit, a point, the other digits, and the power of ten of the first digit. -/
def scientificText (digitCount : Nat) : Datum → List Char
  | .nan => "NaN".toList
  | .infinite negative => infiniteText negative
  | .finite negative significand exponent =>
    let rounded := (Scientific.ofBinary significand exponent).withDigits digitCount
    let power := if significand = 0 then 0 else rounded.exponent + (digitCount - 1 : Nat)
    let coefficient := digits rounded.coefficient
    let filled := coefficient ++ List.replicate (digitCount - coefficient.length) '0'
    withSign negative (pointed filled (digitCount - 1) ++ 'e' :: integerText power)

/-- The number with a fixed count of places, a tie going to the even digit. -/
def fixedText (places : Nat) : Datum → List Char
  | .nan => "NaN".toList
  | .infinite negative => infiniteText negative
  | .finite negative significand exponent =>
    let rounded :=
      halfEven (significand * 2 ^ exponent.toNat * 10 ^ places) (2 ^ (-exponent).toNat)
    withSign negative (pointed (digits rounded) places)

/-- A decimal with an optional point and an optional exponent, without a sign. -/
def readScientific (text : List Char) : Option (Nat × Int) :=
  let whole := text.takeWhile Char.isDigit
  let (fraction, rest) :=
    match text.dropWhile Char.isDigit with
    | '.' :: after => (after.takeWhile Char.isDigit, after.dropWhile Char.isDigit)
    | after => ([], after)
  let power :=
    match rest with
    | [] => some 0
    | 'e' :: exponent => readInteger exponent
    | 'E' :: exponent => readInteger exponent
    | _ => none
  if whole.isEmpty && fraction.isEmpty then none
  else power.map fun exponent => (ofDigits (whole ++ fraction), exponent - fraction.length)

/-- The pattern of a text without a sign: a word for infinity or no number, or a decimal. -/
def Format.readMagnitude (format : Format) (text : List Char) : Option Nat :=
  let word := text.map Char.toLower
  if word = "inf".toList || word = "infinity".toList then some format.infinity
  else if word = "nan".toList then some format.quietNan
  else (readScientific text).map fun (coefficient, exponent) =>
    format.ofDecimal coefficient exponent

/-- The pattern of the number nearest to what a text says, with an optional sign in front. -/
def Format.read (format : Format) : List Char → Option Nat
  | '-' :: rest => (format.readMagnitude rest).map (format.signed true)
  | '+' :: rest => format.readMagnitude rest
  | text => format.readMagnitude text

/-- The text of a double. -/
def floatText (number : Float) : String :=
  String.ofList (double.text (ofFloat number))

/-- The text of a single. -/
def float32Text (number : Float32) : String :=
  String.ofList (single.text (ofFloat32 number))

/-- The double that a text says. -/
def readFloat (text : List Char) : Option Float :=
  (double.read text).map toFloat

/-- The single that a text says. -/
def readFloat32 (text : List Char) : Option Float32 :=
  (single.read text).map toFloat32

end Wordloom.Binary
