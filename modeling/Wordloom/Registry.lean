import Wordloom.Document.Syntax

/-!
# The registry of named generators

This file gives generators under names, which see each other: every evaluation has the
registered generators as parameters under their own names, so that a reference to a name
expands what is declared under it. A registered name hides a parameter of the same name.

Names are kept in order. A name that is declared again replaces what was there.
-/

namespace Wordloom

/-- Generators by name. -/
structure Registry (φ : Type) where
  generators : Std.ExtTreeMap String (Generator φ)

namespace Registry

variable {σ φ : Type}

/-- No generators. -/
def empty : Registry φ :=
  ⟨∅⟩

/-- The generator under a name. -/
def find? (registry : Registry φ) (name : String) : Option (Generator φ) :=
  registry.generators[name]?

/-- Whether a name is registered. -/
def contains (registry : Registry φ) (name : String) : Bool :=
  registry.generators.contains name

/-- The registered names, in order. -/
def names (registry : Registry φ) : List String :=
  registry.generators.keys

/-- The number of registered names. -/
def size (registry : Registry φ) : Nat :=
  registry.generators.size

/-- Whether nothing is registered. -/
def isEmpty (registry : Registry φ) : Bool :=
  registry.generators.isEmpty

/-- The registry with a generator under a name. -/
def set (registry : Registry φ) (name : String) (generator : Generator φ) : Registry φ :=
  ⟨registry.generators.insert name generator⟩

/-- The registry without a name. -/
def erase (registry : Registry φ) (name : String) : Registry φ :=
  ⟨registry.generators.erase name⟩

/-- The registry with all generators of another put over its own. -/
def merge (registry other : Registry φ) : Registry φ :=
  ⟨registry.generators ∪ other.generators⟩

/-- The registry with some declarations made after what it holds. -/
def declare (registry : Registry φ) (declarations : List (Document.Declaration φ)) : Registry φ :=
  declarations.foldl (fun extended declaration =>
    extended.set declaration.name declaration.generator) registry

/-- The generators that a document declares. -/
def parse (text : String) : Except Document.SyntaxError (Registry φ) :=
  (Document.parse text).map empty.declare

/-- Parameters together with every registered generator under its name. -/
def combinedParameters (registry : Registry φ) (parameters : Parameters φ) : Parameters φ :=
  parameters ∪ registry.generators.map fun name generator =>
    .generator (.registered name) generator

/-- Registries are equal when they hold the same under every name. -/
@[ext]
theorem ext_find? {left right : Registry φ}
    (same : ∀ name, left.find? name = right.find? name) : left = right := by
  cases left
  cases right
  exact congrArg Registry.mk (Std.ExtTreeMap.ext_getElem? same)

@[simp]
theorem find?_empty (name : String) : (empty : Registry φ).find? name = none :=
  Std.ExtTreeMap.getElem?_empty

theorem find?_set (registry : Registry φ) (name other : String) (generator : Generator φ) :
    (registry.set name generator).find? other
      = if name = other then some generator else registry.find? other := by
  simp only [find?, set, Std.ExtTreeMap.getElem?_insert, Std.LawfulEqCmp.compare_eq_iff_eq]

theorem find?_erase (registry : Registry φ) (name other : String) :
    (registry.erase name).find? other = if name = other then none else registry.find? other := by
  simp only [find?, erase, Std.ExtTreeMap.getElem?_erase, Std.LawfulEqCmp.compare_eq_iff_eq]

/-- In a merged registry, what the other registry holds comes first. -/
theorem find?_merge (registry other : Registry φ) (name : String) :
    (registry.merge other).find? name = (other.find? name).or (registry.find? name) :=
  Std.ExtTreeMap.getElem?_union

theorem contains_eq_isSome_find? (registry : Registry φ) (name : String) :
    registry.contains name = (registry.find? name).isSome :=
  Std.ExtTreeMap.contains_eq_isSome_getElem?

/-- A registered generator hides a parameter of its name. -/
theorem getElem?_combinedParameters (registry : Registry φ) (parameters : Parameters φ)
    (name : String) :
    (registry.combinedParameters parameters)[name]?
      = ((registry.find? name).map (Value.generator (.registered name))).or parameters[name]? := by
  rw [combinedParameters, Std.ExtTreeMap.getElem?_union, Std.ExtTreeMap.getElem?_map]
  rfl

/-- The place that an error names for the result of a registered generator. -/
def context (name : String) : String :=
  "generator '" ++ name ++ "'"

/-- The generator under a name, or an error. -/
def require (registry : Registry φ) (name : String) : Except GeneratorError (Generator φ) :=
  match registry.find? name with
  | some generator => .ok generator
  | none => .error (.unknownGenerator name)

variable [RandomSource σ] [Combining φ]

/-- One value of a registered generator, taken out as an `α`. -/
def get (α : Type) [FromValue φ α] (registry : Registry φ) (name : String)
    (parameters : Parameters φ) : Drawing σ GeneratorError α := do
  let generator ← Drawing.ofExcept id (registry.require name)
  let value ← generator.generate (registry.combinedParameters parameters)
  Generator.coerced (fromValue value (context name))

/-- Some values of a registered generator, taken out once all of them are generated. -/
def getBatch (α : Type) [FromValue φ α] (registry : Registry φ) (name : String)
    (parameters : Parameters φ) (count : Nat) : Drawing σ GeneratorError (List α) := do
  let generator ← Drawing.ofExcept id (registry.require name)
  let values ← generator.generateBatch (registry.combinedParameters parameters) count
  Generator.coerced (values.mapM fun value => fromValue value (context name))

end Registry

end Wordloom
