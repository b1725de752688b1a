import Wordloom.Generator.Basic

/-!
# Editing generator trees

This file gives the generator at a path in a tree, and the tree with another put there. A path
counts the parts of a concatenation, the entries of a table, or the two sides of a combination.
-/

namespace Wordloom.Generator

variable {φ : Type}

/-- The tree with another in place of one of its children. Past the last child it is unchanged. -/
def setChild (generator : Generator φ) (index : Nat) (child : Generator φ) : Generator φ :=
  match generator with
  | .constant value => .constant value
  | .parameter id default output => .parameter id default output
  | .concatenate parts => .concatenate (parts.set index child)
  | .combine left leftType right rightType output function =>
    match index with
    | 0 => .combine child leftType right rightType output function
    | 1 => .combine left leftType child rightType output function
    | _ => .combine left leftType right rightType output function
  | .table output choices =>
    match choices.get? index with
    | some entry =>
      let entries := choices.entries.set index { entry with item := child }
      .table output { choices with entries }
    | none => .table output choices

/-- The generator at the end of a path. -/
def at? (generator : Generator φ) : List Nat → Option (Generator φ)
  | [] => some generator
  | index :: rest => (generator.children[index]?).bind (·.at? rest)

/-- The tree with another at the end of a path. -/
def setAt (generator replacement : Generator φ) : List Nat → Generator φ
  | [] => replacement
  | index :: rest =>
    match generator.children[index]? with
    | some child => generator.setChild index (child.setAt replacement rest)
    | none => generator

/-- The tree with its table replaced, if it picks from one. -/
def withTable (generator : Generator φ) (choices : Table Float (Generator φ)) : Generator φ :=
  match generator with
  | .table output _ => .table output choices
  | other => other

end Wordloom.Generator
