import Wordloom.Generator.Evaluation

/-!
# Combiners

This file gives the functions that combine two values of a tree: keeping one of them, joining
or comparing them, adding them as numbers, counting their characters or bytes, and refusing
them.
-/

namespace Wordloom

/-- A function that combines two values. -/
inductive Combiner where
  /-- The first value. -/
  | first
  /-- The second value. -/
  | second
  /-- Both texts with a bar between them. -/
  | join
  /-- The names of both types with a comma between them. -/
  | types
  /-- Whether the values are equal. -/
  | equal
  /-- The sum as doubles. -/
  | add
  /-- How many characters both texts have. -/
  | chars
  /-- How many bytes both texts have. -/
  | bytes
  /-- Always an error. -/
  | fail
deriving DecidableEq, Repr

namespace Combiner

/-- The double that stands for a value that is a number. -/
def asFloat {φ : Type} : Value φ → Except GeneratorError Float
  | .number value => .ok value.toFloat
  | _ => .error (.combine "expected numbers")

instance : Combining Combiner where
  apply
    | .first, left, _ => .ok left
    | .second, _, right => .ok right
    | .join, left, right => .ok (.string (left.text ++ "|" ++ right.text))
    | .types, left, right => .ok (.string (left.type.name ++ "," ++ right.type.name))
    | .equal, left, right => .ok (.boolean (left.same right))
    | .add, left, right => do
      let first ← asFloat left
      let second ← asFloat right
      return .number (.double (first + second))
    | .chars, left, right =>
      .ok (.number (.int (Int32.ofNat (left.text.length + right.text.length))))
    | .bytes, left, right =>
      .ok (.number (.long (Int64.ofNat (left.text.utf8ByteSize + right.text.utf8ByteSize))))
    | .fail, left, right =>
      .error (.combine ("cannot use " ++ left.text ++ " and " ++ right.text))

end Combiner

end Wordloom
