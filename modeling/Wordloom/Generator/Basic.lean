import Wordloom.Number.Conversion
import Wordloom.Table.Basic

/-!
# Values and generators

This file gives the values that flow between generators and the generator trees themselves.
The two refer to each other: a generator holds constants and defaults, and a value may be a
generator that was handed over to be evaluated later.

A tree combines two results through a function that it only names. The names are a type of
their own, so that a tree is data; what a name does is said by an instance of `Combining`.

A generator among the values carries where it came from. Two of them are equal when they came
from the same place, whatever their trees look like, because a tree holds functions.
-/

namespace Wordloom

/-- The type that a generator declares for its results. -/
inductive ValueType where
  | string
  | number (kind : NumberKind)
  | boolean
  | generator
  /-- Any value as it is. -/
  | any
deriving DecidableEq, Repr

/-- The name that a type has in messages. -/
def ValueType.name : ValueType → String
  | .string => "string"
  | .number kind => kind.name
  | .boolean => "boolean"
  | .generator => "generator"
  | .any => "any"

/-- Where a generator among the values came from. -/
inductive Origin where
  /-- It was supplied on its own. Every supplied generator has its own number. -/
  | supplied (serial : Nat)
  /-- It is registered under a name. -/
  | registered (name : String)
deriving DecidableEq, Repr

mutual

/-- A value: the result of a generator, a parameter or a constant. -/
inductive Value (φ : Type) where
  | string (text : String)
  | number (value : Number)
  | boolean (truth : Bool)
  /-- A generator that is evaluated where a reference reads it. -/
  | generator (origin : Origin) (tree : Generator φ)

/-- A generator tree. -/
inductive Generator (φ : Type) where
  /-- Always the same value. -/
  | constant (value : Value φ)
  /-- The value of a parameter, or a default if it has none. -/
  | parameter (id : String) (default : Value φ) (output : ValueType)
  /-- The texts of all parts, one after the other. -/
  | concatenate (parts : List (Generator φ))
  /-- The results of two generators, put through a function. -/
  | combine (left : Generator φ) (leftType : ValueType) (right : Generator φ)
      (rightType : ValueType) (output : ValueType) (function : φ)
  /-- The result of one generator, picked from a table. -/
  | table (output : ValueType) (choices : Table Float (Generator φ))

end

namespace Generator

variable {φ : Type}

/-- The generator of a fixed text. -/
def text (text : String) : Generator φ :=
  .constant (.string text)

/-- The generator that picks one of some options, each as likely as any other. -/
def select (output : ValueType) (options : List (Generator φ)) : Generator φ :=
  .table output (Table.ofItems options)

end Generator

/-- The type of a value. It is never `any`. -/
def Value.type {φ : Type} : Value φ → ValueType
  | .string _ => .string
  | .number value => .number value.kind
  | .boolean _ => .boolean
  | .generator _ _ => .generator

/-- The type that a generator declares for its results. -/
def Generator.output {φ : Type} : Generator φ → ValueType
  | .constant value => value.type
  | .parameter _ _ output => output
  | .concatenate _ => .string
  | .combine _ _ _ _ output _ => output
  | .table output _ => output

namespace Value

variable {φ : Type}

/-- The text of a value. -/
def text : Value φ → String
  | .string text => text
  | .number value => value.text
  | .boolean truth => if truth then "true" else "false"
  | .generator _ tree => "<" ++ tree.output.name ++ " generator>"

/-- Whether two values are equal. Generators are when they came from the same place. -/
def same : Value φ → Value φ → Bool
  | .string left, .string right => left == right
  | .number left, .number right => left.same right
  | .boolean left, .boolean right => left == right
  | .generator left _, .generator right _ => left == right
  | _, _ => false

/-- Whether a value is a generator. -/
def isGenerator : Value φ → Bool
  | .generator _ _ => true
  | _ => false

end Value

namespace Generator

variable {φ : Type}

/-- The table of a generator that picks from one. -/
def table? : Generator φ → Option (Table Float (Generator φ))
  | .table _ choices => some choices
  | _ => none

/-- The generators that an evaluation may go on to, in the order it does. -/
def children : Generator φ → List (Generator φ)
  | .constant _ => []
  | .parameter _ _ _ => []
  | .concatenate parts => parts
  | .combine left _ right _ _ _ => [left, right]
  | .table _ choices => choices.entries.map (·.item)

@[simp]
theorem children_select (output : ValueType) (options : List (Generator φ)) :
    (select output options).children = options := by
  rw [select, children, Table.ofItems, List.map_map]
  exact List.map_id options

mutual

/-- The names of all parameters that a tree reads, in the order it is evaluated. -/
def references : Generator φ → List String
  | .constant _ => []
  | .parameter id _ _ => [id]
  | .concatenate parts => referencesOfParts parts
  | .combine left _ right _ _ _ => left.references ++ right.references
  | .table _ ⟨entries, _, _⟩ => referencesOfEntries entries

/-- The names that the parts of a concatenation read. -/
def referencesOfParts : List (Generator φ) → List String
  | [] => []
  | part :: rest => part.references ++ referencesOfParts rest

/-- The names that the entries of a table read. -/
def referencesOfEntries : List (Entry Float (Generator φ)) → List String
  | [] => []
  | ⟨item, _⟩ :: rest => item.references ++ referencesOfEntries rest

end

mutual

/-- The number of steps from a tree's root to its deepest generator. A lone one has none. -/
def height : Generator φ → Nat
  | .constant _ => 0
  | .parameter _ _ _ => 0
  | .concatenate parts => heightOfParts parts
  | .combine left _ right _ _ _ => max left.height right.height + 1
  | .table _ ⟨entries, _, _⟩ => heightOfEntries entries

/-- One more than the height of the highest part, or nothing without parts. -/
def heightOfParts : List (Generator φ) → Nat
  | [] => 0
  | part :: rest => max (part.height + 1) (heightOfParts rest)

/-- One more than the height of the highest entry, or nothing without entries. -/
def heightOfEntries : List (Entry Float (Generator φ)) → Nat
  | [] => 0
  | ⟨item, _⟩ :: rest => max (item.height + 1) (heightOfEntries rest)

end

theorem height_lt_heightOfParts {parts : List (Generator φ)} {part : Generator φ}
    (member : part ∈ parts) : part.height < heightOfParts parts := by
  induction parts with
  | nil => cases member
  | cons first rest ih =>
    rw [heightOfParts]
    rcases List.mem_cons.1 member with rfl | later
    · omega
    · have := ih later
      omega

theorem height_lt_heightOfEntries {entries : List (Entry Float (Generator φ))}
    {entry : Entry Float (Generator φ)} (member : entry ∈ entries) :
    entry.item.height < heightOfEntries entries := by
  induction entries with
  | nil => cases member
  | cons first rest ih =>
    rw [heightOfEntries]
    rcases List.mem_cons.1 member with rfl | later
    · omega
    · have := ih later
      omega

theorem height_lt_of_mem_children {tree child : Generator φ} (member : child ∈ tree.children) :
    child.height < tree.height := by
  cases tree with
  | constant value => cases member
  | parameter id default output => cases member
  | concatenate parts =>
    rw [height]
    exact height_lt_heightOfParts member
  | combine left leftType right rightType output function =>
    simp only [children, List.mem_cons, List.not_mem_nil, or_false] at member
    rw [height]
    rcases member with rfl | rfl
    · omega
    · omega
  | table output choices =>
    rcases List.mem_map.1 member with ⟨entry, inside, rfl⟩
    exact height_lt_heightOfEntries inside

theorem heightOfParts_le {parts : List (Generator φ)} {bound : Nat}
    (lower : ∀ part ∈ parts, part.height < bound) : heightOfParts parts ≤ bound := by
  induction parts with
  | nil => exact Nat.zero_le bound
  | cons part rest ih =>
    simp only [List.forall_mem_cons] at lower
    have := ih lower.2
    rw [heightOfParts]
    omega

theorem heightOfEntries_le {entries : List (Entry Float (Generator φ))} {bound : Nat}
    (lower : ∀ entry ∈ entries, entry.item.height < bound) : heightOfEntries entries ≤ bound := by
  induction entries with
  | nil => exact Nat.zero_le bound
  | cons entry rest ih =>
    simp only [List.forall_mem_cons] at lower
    have := ih lower.2
    rw [heightOfEntries]
    omega

theorem height_le_of_children {tree : Generator φ} {bound : Nat}
    (lower : ∀ child ∈ tree.children, child.height < bound) : tree.height ≤ bound := by
  cases tree with
  | constant value => exact Nat.zero_le bound
  | parameter id default output => exact Nat.zero_le bound
  | concatenate parts =>
    rw [height]
    exact heightOfParts_le lower
  | combine left leftType right rightType output function =>
    have := lower left (by simp [children])
    have := lower right (by simp [children])
    rw [height]
    omega
  | table output choices =>
    apply heightOfEntries_le
    intro entry inside
    exact lower entry.item (List.mem_map_of_mem inside)

end Generator

end Wordloom
