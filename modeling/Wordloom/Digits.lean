/-!
# Decimal digits

This file gives the decimal digits of a natural number and the number that digits stand for,
and the readers of integer texts built from them.

`ofDigits` is total: it is only ever applied to digits, and `digits` returns nothing else, so
`ofDigits_digits` says that no number is lost on the way through its text.
-/

namespace Wordloom

-- Powers are those of the core library, whatever else is imported.
attribute [local instance (2000)] instPowNat

/-- The decimal digits of a number, with no leading zero. Zero has the one digit `0`. -/
def digits (number : Nat) : List Char :=
  Nat.toDigits 10 number

/-- The decimal text of a number. -/
def numberText (number : Nat) : String :=
  String.ofList (digits number)

/-- The number that decimal digits stand for. Leading zeros are allowed. -/
def ofDigits (text : List Char) : Nat :=
  Nat.ofDigitChars 10 text 0

/-- Whether a text consists of ASCII digits, at least one. -/
def isNumeral (text : List Char) : Bool :=
  !text.isEmpty && text.all Char.isDigit

theorem ofDigits_digits (number : Nat) : ofDigits (digits number) = number :=
  Nat.ofDigitChars_ten_toDigits

theorem isNumeral_digits (number : Nat) : isNumeral (digits number) = true := by
  simp only [isNumeral, Bool.and_eq_true, Bool.not_eq_true', List.isEmpty_eq_false_iff,
    List.all_eq_true]
  exact ⟨Nat.toDigits_ne_nil, fun _ member =>
    Nat.isDigit_of_mem_toDigits (by decide) (by decide) member⟩

theorem ofDigits_append (left right : List Char) :
    ofDigits (left ++ right) = 10 ^ right.length * ofDigits left + ofDigits right := by
  rw [ofDigits, Nat.ofDigitChars_append, Nat.ofDigitChars_eq_ofDigitChars_zero]
  rfl

/-- The digits of a number that is written without a sign. -/
def readNatural (text : List Char) : Option Nat :=
  if isNumeral text then some (ofDigits text) else none

theorem readNatural_digits (number : Nat) : readNatural (digits number) = some number := by
  simp [readNatural, isNumeral_digits, ofDigits_digits]

/-- A natural number below a bound, with an optional `+` in front. -/
def readBelow (bound : Nat) (text : List Char) : Option Nat :=
  let number :=
    match text with
    | '+' :: rest => readNatural rest
    | _ => readNatural text
  number.filter (· < bound)

/-- An integer, with an optional sign in front. -/
def readInteger : List Char → Option Int
  | '-' :: rest => (readNatural rest).map fun (number : Nat) => -(number : Int)
  | '+' :: rest => (readNatural rest).map Int.ofNat
  | text => (readNatural text).map Int.ofNat

/-- The text of an integer: a minus sign if it is negative, then its digits. -/
def integerText (number : Int) : List Char :=
  if number < 0 then '-' :: digits number.natAbs else digits number.natAbs

/--
An integer of any size. Underscores after the first digit are ignored, and a `-` may not be
followed by a `+`.
-/
def readBigInteger (text : List Char) : Option Int :=
  match text with
  | '-' :: '+' :: _ => none
  | '-' :: rest => (grouped rest).map fun (number : Nat) => -(number : Int)
  | '+' :: rest => (grouped rest).map Int.ofNat
  | rest => (grouped rest).map Int.ofNat
where
  /-- Digits and underscores, not starting with an underscore. -/
  grouped (text : List Char) : Option Nat :=
    if text.head? = some '_' then none
    else readNatural (text.filter (· ≠ '_'))

theorem head_digits_isDigit (number : Nat) :
    ∃ first rest, digits number = first :: rest ∧ first.isDigit = true := by
  have numeral := isNumeral_digits number
  cases shape : digits number with
  | nil => simp [isNumeral, shape] at numeral
  | cons first rest => exact ⟨first, rest, rfl, by simp_all [isNumeral]⟩

/-- Reading the text of an integer gives the integer back. -/
theorem readInteger_integerText (number : Int) :
    readInteger (integerText number) = some number := by
  unfold integerText
  split
  · have magnitude : -(number.natAbs : Int) = number := by omega
    rw [readInteger, readNatural_digits, Option.map_some, magnitude]
  · obtain ⟨first, rest, shape, digit⟩ := head_digits_isDigit number.natAbs
    have unsigned : readInteger (digits number.natAbs)
        = (readNatural (digits number.natAbs)).map Int.ofNat := by
      rw [shape]
      unfold readInteger
      split <;> simp_all
    have magnitude : Int.ofNat number.natAbs = number := by
      change (number.natAbs : Int) = number
      omega
    rw [unsigned, readNatural_digits, Option.map_some, magnitude]

end Wordloom
