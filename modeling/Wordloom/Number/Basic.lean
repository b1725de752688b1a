import Wordloom.Number.Decimal.Equality
import Wordloom.Text.Blank

/-!
# Numbers

This file gives numbers in eight representations: signed words of 8, 16, 32 and 64 bits,
binary floats of two widths, and whole numbers and decimals of any size. It gives their texts,
the readers of those texts, and when two numbers are equal.

Numbers of different kinds are never equal. Floats compare as the floating point standard
says, so no NaN equals anything and the two zeros are equal; decimals compare by value.
-/

namespace Wordloom

-- Powers are those of the core library, whatever else is imported.
attribute [local instance (2000)] instPowNat

/-- The representation of a number. -/
inductive NumberKind where
  | byte
  | short
  | int
  | long
  | float
  | double
  | bigInteger
  | bigDecimal
deriving DecidableEq, Repr

namespace NumberKind

/-- The name that a kind has in messages. -/
def name : NumberKind → String
  | .byte => "byte"
  | .short => "short"
  | .int => "int"
  | .long => "long"
  | .float => "float"
  | .double => "double"
  | .bigInteger => "big integer"
  | .bigDecimal => "big decimal"

/-- Every kind, from the narrowest words to the decimals. -/
def all : List NumberKind :=
  [.byte, .short, .int, .long, .float, .double, .bigInteger, .bigDecimal]

end NumberKind

/-- A number in one of the representations. -/
inductive Number where
  | byte (value : Int8)
  | short (value : Int16)
  | int (value : Int32)
  | long (value : Int64)
  | float (value : Float32)
  | double (value : Float)
  | bigInteger (value : Int)
  | bigDecimal (value : Decimal)
deriving DecidableEq

namespace Number

/-- The representation that a number is in. -/
def kind : Number → NumberKind
  | .byte _ => .byte
  | .short _ => .short
  | .int _ => .int
  | .long _ => .long
  | .float _ => .float
  | .double _ => .double
  | .bigInteger _ => .bigInteger
  | .bigDecimal _ => .bigDecimal

/-- Whether two numbers have the same representation and the same value. -/
def same : Number → Number → Bool
  | .byte left, .byte right => left == right
  | .short left, .short right => left == right
  | .int left, .int right => left == right
  | .long left, .long right => left == right
  | .float left, .float right => left == right
  | .double left, .double right => left == right
  | .bigInteger left, .bigInteger right => left == right
  | .bigDecimal left, .bigDecimal right => left.same right
  | _, _ => false

/-- The text of a number. -/
def text : Number → String
  | .byte value => String.ofList (integerText value.toInt)
  | .short value => String.ofList (integerText value.toInt)
  | .int value => String.ofList (integerText value.toInt)
  | .long value => String.ofList (integerText value.toInt)
  | .float value => Binary.float32Text value
  | .double value => Binary.floatText value
  | .bigInteger value => String.ofList (integerText value)
  | .bigDecimal value => String.ofList value.text

/-- An integer that a text says, if it fits a signed word of some width. -/
def readWord (bits : Nat) (text : List Char) : Option Int :=
  (readInteger text).filter fun number =>
    decide (-(2 ^ (bits - 1) : Nat) ≤ number) && decide (number < (2 ^ (bits - 1) : Nat))

/-- The number of a kind that a text says, without blanks around it. -/
def readTrimmed (kind : NumberKind) (text : List Char) : Option Number :=
  match kind with
  | .byte => (readWord 8 text).map fun number => .byte (Int8.ofInt number)
  | .short => (readWord 16 text).map fun number => .short (Int16.ofInt number)
  | .int => (readWord 32 text).map fun number => .int (Int32.ofInt number)
  | .long => (readWord 64 text).map fun number => .long (Int64.ofInt number)
  | .float => (Binary.readFloat32 text).map .float
  | .double => (Binary.readFloat text).map .double
  | .bigInteger => (readBigInteger text).map .bigInteger
  | .bigDecimal => (Decimal.read text).map .bigDecimal

/-- The number of a kind that a text says. Blanks around it do not matter. -/
def read (kind : NumberKind) (text : String) : Option Number :=
  readTrimmed kind (Text.trim text.toList)

theorem kind_of_read {number : Number} {kind : NumberKind} {text : String}
    (success : read kind text = some number) : number.kind = kind := by
  cases kind <;> simp only [read, readTrimmed, Option.map_eq_some_iff] at success <;>
    (obtain ⟨_, _, rfl⟩ := success; rfl)

end Number

end Wordloom
