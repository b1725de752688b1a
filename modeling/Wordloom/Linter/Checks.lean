import Wordloom.Registry

/-!
# Checks on registered generators

This file gives what the linter finds in a registry: references to names that nobody declares,
brackets with one alternative only, and declarations that lead back to themselves whatever
alternative is taken.

The last check looks at one declaration at a time. It asks whether every way through the tree
reads the declaration's own name; ways that lead back through other declarations are not seen.
-/

namespace Wordloom

namespace Generator

variable {φ : Type}

mutual

/-- Whether every way of evaluating a tree reads a parameter. -/
def alwaysReads (name : String) : Generator φ → Bool
  | .constant _ => false
  | .parameter id _ _ => id == name
  | .concatenate parts => somePartReads name parts
  | .combine left _ right _ _ _ => left.alwaysReads name || right.alwaysReads name
  | .table _ ⟨entries, _, _⟩ => !entries.isEmpty && everyEntryReads name entries

/-- Whether some part of a concatenation always reads a parameter. -/
def somePartReads (name : String) : List (Generator φ) → Bool
  | [] => false
  | part :: rest => part.alwaysReads name || somePartReads name rest

/-- Whether all entries of a table always read a parameter. -/
def everyEntryReads (name : String) : List (Entry Float (Generator φ)) → Bool
  | [] => true
  | ⟨item, _⟩ :: rest => item.alwaysReads name && everyEntryReads name rest

end

mutual

/-- The number of tables in a tree that have one entry. -/
def singleTables : Generator φ → Nat
  | .constant _ => 0
  | .parameter _ _ _ => 0
  | .concatenate parts => singleTablesOfParts parts
  | .combine left _ right _ _ _ => left.singleTables + right.singleTables
  | .table _ ⟨entries, _, _⟩ =>
    (if entries.length = 1 then 1 else 0) + singleTablesOfEntries entries

/-- The number of such tables in the parts of a concatenation. -/
def singleTablesOfParts : List (Generator φ) → Nat
  | [] => 0
  | part :: rest => part.singleTables + singleTablesOfParts rest

/-- The number of such tables in the entries of a table. -/
def singleTablesOfEntries : List (Entry Float (Generator φ)) → Nat
  | [] => 0
  | ⟨item, _⟩ :: rest => item.singleTables + singleTablesOfEntries rest

end

end Generator

namespace Linter

/-- Something the linter has to say about a declaration. -/
inductive Finding where
  /-- A name that it reads is not declared. -/
  | undeclaredReference (name reference : String)
  /-- Some of its brackets have one alternative. -/
  | singleAlternatives (name : String) (count : Nat)
  /-- All of its alternatives lead back to it. -/
  | alwaysRecurses (name : String)
  /-- Some documents could not be loaded. -/
  | unloadedDocuments (count : Nat)
deriving DecidableEq, Repr

namespace Finding

/-- Whether a finding is an error. The others are warnings. -/
def isError : Finding → Bool
  | .undeclaredReference _ _ => false
  | .singleAlternatives _ _ => false
  | .alwaysRecurses _ => true
  | .unloadedDocuments _ => true

/-- The wording of a finding. -/
def message : Finding → String
  | .undeclaredReference name reference =>
    "'" ++ name ++ "' references undeclared name '" ++ reference
      ++ "' (it must be supplied as a parameter)"
  | .singleAlternatives name count =>
    "'" ++ name ++ "' has " ++ numberText count
      ++ " bracket(s) with a single alternative"
  | .alwaysRecurses name =>
    "'" ++ name ++ "' has no non-recursive alternative (infinite recursion)"
  | .unloadedDocuments count => numberText count ++ " document(s) failed to load"

end Finding

variable {φ : Type}

/-- The names that a tree reads and that are not registered, each once, in the order read. -/
def undeclared (registry : Registry φ) (generator : Generator φ) : List String :=
  (generator.references.filter (!registry.contains ·)).eraseDups

/-- What there is to say about one declaration. -/
def checkDeclaration (registry : Registry φ) (name : String) (generator : Generator φ) :
    List Finding :=
  let references := (undeclared registry generator).map (.undeclaredReference name)
  let single := generator.singleTables
  let brackets := if single > 0 then [.singleAlternatives name single] else []
  let recursion := if generator.alwaysReads name then [.alwaysRecurses name] else []
  references ++ brackets ++ recursion

/-- What there is to say about a registry, in the order of its names. -/
def check (registry : Registry φ) : List Finding :=
  registry.generators.toList.flatMap fun (name, generator) =>
    checkDeclaration registry name generator

theorem mem_check_iff {registry : Registry φ} {finding : Finding} :
    finding ∈ check registry ↔ ∃ name tree, registry.find? name = some tree ∧
      finding ∈ checkDeclaration registry name tree := by
  simp [check, Registry.find?]

/-- The findings that are errors. -/
def errors (findings : List Finding) : List Finding :=
  findings.filter (·.isError)

/-- The findings that are warnings. -/
def warnings (findings : List Finding) : List Finding :=
  findings.filter (!·.isError)

end Linter

end Wordloom
