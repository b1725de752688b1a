import Std.Data.ExtTreeMap
import Wordloom.Generator.Coercion

/-!
# Evaluation

This file gives the value that a generator tree yields for a source of random draws and some
parameters, and batches of such values.

Children are evaluated from left to right against the same source, so the result depends on
that order. A reference reads a parameter, or its own default if there is no such parameter.

Every step down a tree, and every step from a reference into the generator that its parameter
holds, takes one level of a fixed number; an evaluation that runs out of levels is given up.
That bounds references that lead back to themselves, and it is also what the recursion of
`evaluate` is on.

A batch takes one draw and one fork from the source, whatever its size. Each of its items is
generated from a source that depends on that draw and the item's index alone.
-/

namespace Wordloom

/-- Why no value was generated. -/
inductive GeneratorError where
  /-- A value was not of the type that was declared for it. -/
  | coercion (cause : CoercionError)
  /-- Nothing could be picked from a table. -/
  | pick (cause : PickError)
  /-- No generator is registered under a name. -/
  | unknownGenerator (name : String)
  /-- The levels of nested evaluations ran out. -/
  | recursionLimit (levels : Nat)
  /-- A function that combines two values refused them. -/
  | combine (explanation : String)
deriving DecidableEq, Repr

/-- The wording of an error. -/
def GeneratorError.message : GeneratorError → String
  | .coercion cause => "type coercion failed: " ++ cause.message
  | .pick cause => cause.message
  | .unknownGenerator name => "unknown generator name: " ++ name
  | .recursionLimit levels =>
    "generator nesting exceeded " ++ numberText levels ++ " levels"
  | .combine explanation => "combine function failed: " ++ explanation

/-- The values of parameters by name. -/
abbrev Parameters (φ : Type) : Type :=
  Std.ExtTreeMap String (Value φ)

/-- What the functions that trees name do with two values. -/
class Combining (φ : Type) where
  /-- The value that a function makes of two, or its error. -/
  apply : φ → Value φ → Value φ → Except GeneratorError (Value φ)

/-- The levels of nested evaluations below the first. -/
def maxDepth : Nat := 256

namespace Generator

variable {σ φ : Type} [RandomSource σ] [Combining φ]

/-- A computation whose error is that a value is not of its declared type. -/
def coerced {α : Type} (result : Except CoercionError α) : Drawing σ GeneratorError α :=
  Drawing.ofExcept .coercion result

/-- The place that an error names for the value of a parameter. -/
def parameterContext (id : String) : String :=
  "parameter '" ++ id ++ "'"

/-- The value that a reference reads. A generator is evaluated unless one is asked for. -/
def dereference (evaluate : Generator φ → Drawing σ GeneratorError (Value φ))
    (output : ValueType) : Value φ → Drawing σ GeneratorError (Value φ)
  | .generator origin tree =>
    if output = .generator then pure (.generator origin tree) else evaluate tree
  | held => pure held

/-- The value of a tree, with a budget of levels that may still be entered. -/
def evaluate (parameters : Parameters φ) : (budget : Nat) → Generator φ →
    Drawing σ GeneratorError (Value φ)
  | 0, _ => throw (.recursionLimit maxDepth)
  | _ + 1, .constant value => pure value
  | budget + 1, .parameter id default output => do
    let held := parameters[id]?.getD default
    let value ← dereference (evaluate parameters budget) output held
    coerced (value.coerce output (parameterContext id))
  | budget + 1, .concatenate parts => do
    let values ← parts.mapM (evaluate parameters budget)
    pure (.string (String.join (values.map Value.text)))
  | budget + 1, .combine left leftType right rightType output function => do
    let first ← evaluate parameters budget left
    let first ← coerced (first.coerce leftType "first combine operand")
    let second ← evaluate parameters budget right
    let second ← coerced (second.coerce rightType "second combine operand")
    let combined ← Drawing.ofExcept id (Combining.apply function first second)
    coerced (combined.coerce output "combine result")
  | budget + 1, .table output choices => do
    let position ← ExceptT.adapt .pick choices.pick
    let value ← evaluate parameters budget (choices.entryAt position).item
    coerced (value.coerce output "table entry")

/-- The value of a tree. -/
def generate (generator : Generator φ) (parameters : Parameters φ) :
    Drawing σ GeneratorError (Value φ) :=
  generator.evaluate parameters (maxDepth + 1)

/-- The value of a tree for a seed and an index, from a source that is first reset to them. -/
def generateItem (generator : Generator φ) (parameters : Parameters φ) (seed : UInt64)
    (index : Nat) : Drawing σ GeneratorError (Value φ) := do
  modify fun source => RandomSource.reseed source seed (UInt64.ofNat index)
  generator.generate parameters

/--
A count of values whose sequence does not depend on the count. The items are numbered from one
and stop at the first that fails.
-/
def generateBatch (generator : Generator φ) (parameters : Parameters φ) (count : Nat) :
    Drawing σ GeneratorError (List (Value φ)) := do
  let seed ← Drawing.ofDraw RandomSource.next64
  let child ← Drawing.ofDraw RandomSource.fork
  let items : Drawing σ GeneratorError (List (Value φ)) :=
    (List.range count).mapM fun index => generator.generateItem parameters seed (index + 1)
  Drawing.ofExcept id (items.run child).1

end Generator

end Wordloom
