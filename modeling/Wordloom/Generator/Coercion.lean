import Wordloom.Generator.Basic

/-!
# Coercion

This file gives how a value is adapted to a declared type, and how a value is taken out as
a text, a truth value or a number.

A value that has the declared type is left alone, and so is every value where any type will
do. Everything becomes a string through its text. Numbers convert between representations and
strings are read as numerals; booleans are read from strings only. Everything else is an error,
which names the place where the value was needed.
-/

namespace Wordloom

/-- Why a value could not be adapted to a declared type. -/
inductive CoercionError where
  /-- No value of one type becomes a value of the other, or this one does not. -/
  | mismatch (context : String) (expected actual : ValueType) (value : String)
  /-- A text is no numeral of a kind, or a number has no counterpart in it. -/
  | malformedNumeral (context : String) (kind : NumberKind) (text : String)
deriving DecidableEq, Repr

/-- The wording of an error. -/
def CoercionError.message : CoercionError → String
  | .mismatch context expected actual value =>
    "expected " ++ context ++ " to be a value of type " ++ expected.name ++ ", but it was a "
      ++ actual.name ++ " with value '" ++ value ++ "'"
  | .malformedNumeral context kind text =>
    "malformed numeral for " ++ context ++ ": '" ++ text ++ "' is not a valid " ++ kind.name

/-- The truth value that a text says. Case and blanks around it do not matter. The lower case of
ASCII is enough, as no other character has one of these letters as its lower case. -/
def readBoolean (text : String) : Option Bool :=
  let word := (Text.trim text.toList).map Char.toLower
  if word = "true".toList then some true
  else if word = "false".toList then some false
  else none

namespace Value

variable {φ : Type}

/-- The error that a value is not of the type it is declared to be. -/
def mismatch (value : Value φ) (declared : ValueType) (context : String) : CoercionError :=
  .mismatch context declared value.type value.text

/-- A value adapted to a declared type. -/
def coerce (value : Value φ) (declared : ValueType) (context : String) :
    Except CoercionError (Value φ) :=
  if declared = .any ∨ value.type = declared then .ok value
  else
    match declared, value with
    | .string, _ => .ok (.string value.text)
    | .number kind, .number held =>
      match held.convert kind with
      | some converted => .ok (.number converted)
      | none => .error (.malformedNumeral context kind held.text)
    | .number kind, .string text =>
      match Number.read kind text with
      | some held => .ok (.number held)
      | none => .error (.malformedNumeral context kind text)
    | .boolean, .string text =>
      match readBoolean text with
      | some truth => .ok (.boolean truth)
      | none => .error (value.mismatch declared context)
    | _, _ => .error (value.mismatch declared context)

end Value

/-- The types that a value can be taken out as. -/
class FromValue (φ α : Type) where
  /-- What a value is as an `α`, or why it is none. -/
  fromValue : Value φ → String → Except CoercionError α

export FromValue (fromValue)

namespace Value

variable {φ : Type}

/-- What is left of a value of a declared type, when it has the shape that the type asks for. -/
def expect {α : Type} (declared : ValueType) (shape : Value φ → Option α) (value : Value φ)
    (context : String) : Except CoercionError α := do
  let coerced ← value.coerce declared context
  match shape coerced with
  | some found => .ok found
  | none => .error (coerced.mismatch declared context)

/-- The text of a string. -/
def string? : Value φ → Option String
  | .string text => some text
  | _ => none

/-- The truth of a boolean. -/
def boolean? : Value φ → Option Bool
  | .boolean truth => some truth
  | _ => none

/-- The word of a 32-bit number. -/
def int? : Value φ → Option Int32
  | .number (.int word) => some word
  | _ => none

/-- The word of a 64-bit number. -/
def long? : Value φ → Option Int64
  | .number (.long word) => some word
  | _ => none

/-- The float of a double. -/
def double? : Value φ → Option Float
  | .number (.double float) => some float
  | _ => none

end Value

variable {φ : Type}

instance : FromValue φ (Value φ) where
  fromValue value _ := .ok value

instance : FromValue φ String where
  fromValue := Value.expect .string Value.string?

instance : FromValue φ Bool where
  fromValue := Value.expect .boolean Value.boolean?

instance : FromValue φ Int32 where
  fromValue := Value.expect (.number .int) Value.int?

instance : FromValue φ Int64 where
  fromValue := Value.expect (.number .long) Value.long?

instance : FromValue φ Float where
  fromValue := Value.expect (.number .double) Value.double?

/-- A coercion that succeeds gives a value of the declared type, unless any type will do. -/
theorem type_of_coerce {value coerced : Value φ} {declared : ValueType} {context : String}
    (success : value.coerce declared context = .ok coerced) :
    declared = .any ∨ coerced.type = declared := by
  unfold Value.coerce at success
  split at success
  · cases success
    assumption
  · right
    split at success
    · cases success
      rfl
    · split at success
      · cases success
        simp only [Value.type, ValueType.number.injEq]
        exact Number.kind_of_convert ‹_›
      · cases success
    · split at success
      · cases success
        simp only [Value.type, ValueType.number.injEq]
        exact Number.kind_of_read ‹_›
      · cases success
    · split at success
      · cases success
        rfl
      · cases success
    · cases success

end Wordloom
