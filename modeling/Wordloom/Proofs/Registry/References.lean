import Wordloom.Proofs.Stream.Drawing
import Wordloom.Registry

/-!
# References in a registry

This file gives what it comes to when the generators of a registry are evaluated together.
Getting a name evaluates the tree under it. A reference to a registered name goes on with the
tree of that name, and any other one stands for the text of the caller's parameter, or for its
own name without one.

The last is so for parameters that are no generators. They are what a caller hands over as texts,
numbers and truth values.
-/

namespace Wordloom

variable {σ φ : Type}

def Parameters.ArePlain (parameters : Parameters φ) : Prop :=
  ∀ (id : String) (value : Value φ), parameters[id]? = some value → value.isGenerator = false

theorem Parameters.ArePlain.empty : (∅ : Parameters φ).ArePlain := by
  intro id value given
  simp at given

theorem Value.coerce_string {value : Value φ} (plain : value.isGenerator = false)
    (context : String) : value.coerce .string context = .ok (.string value.text) := by
  cases value with
  | string text => rfl
  | number number => rfl
  | boolean truth => rfl
  | generator origin tree => cases plain

theorem Generator.dereference_of_isGenerator_eq_false
    {evaluate : Generator φ → Drawing σ GeneratorError (Value φ)} {output : ValueType}
    {value : Value φ} (plain : value.isGenerator = false) :
    dereference evaluate output value = pure value := by
  cases value with
  | string text => rfl
  | number number => rfl
  | boolean truth => rfl
  | generator origin tree => cases plain

namespace Registry

variable [RandomSource σ] [Combining φ] {registry : Registry φ} {parameters : Parameters φ}
  {id : String}

section Lookup

variable {α : Type} [FromValue φ α] {name : String}

theorem get_of_find?_eq_none (absent : registry.find? name = none) :
    (registry.get α name parameters : Drawing σ GeneratorError α)
      = throw (.unknownGenerator name) := by
  simp only [get, require, absent]
  exact Drawing.throw_bind _ _

theorem get_of_find?_eq_some {tree : Generator φ} (found : registry.find? name = some tree) :
    registry.get α name parameters
      = (do
        let value ← tree.generate (registry.combinedParameters parameters)
        Generator.coerced (fromValue value (context name)) : Drawing σ GeneratorError α) := by
  simp only [get, require, found]
  exact pure_bind _ _

theorem getBatch_of_find?_eq_none (absent : registry.find? name = none) (count : Nat) :
    (registry.getBatch α name parameters count : Drawing σ GeneratorError (List α))
      = throw (.unknownGenerator name) := by
  simp only [getBatch, require, absent]
  exact Drawing.throw_bind _ _

theorem getBatch_of_find?_eq_some {tree : Generator φ}
    (found : registry.find? name = some tree) (count : Nat) :
    registry.getBatch α name parameters count
      = (do
        let values ← tree.generateBatch (registry.combinedParameters parameters) count
        Generator.coerced (values.mapM fun value => fromValue value (context name)) :
          Drawing σ GeneratorError (List α)) := by
  simp only [getBatch, require, found]
  exact pure_bind _ _

end Lookup

theorem evaluate_reference_of_registered {tree : Generator φ}
    (registered : registry.find? id = some tree) (budget : Nat) :
    (Generator.parameter id (.string id) .string).evaluate
        (registry.combinedParameters parameters) (budget + 1)
      = (do
        let value ← tree.evaluate (registry.combinedParameters parameters) budget
        Generator.coerced (value.coerce .string (Generator.parameterContext id)) :
          Drawing σ GeneratorError (Value φ)) := by
  rw [Generator.evaluate, getElem?_combinedParameters, registered]
  rfl

/-- The text that a reference to a name stands for that is not registered. -/
def standIn (parameters : Parameters φ) (id : String) : String :=
  (parameters[id]?.map Value.text).getD id

theorem evaluate_reference_of_unregistered (plain : parameters.ArePlain)
    (unregistered : registry.find? id = none) (budget : Nat) :
    (Generator.parameter id (.string id) .string).evaluate
        (registry.combinedParameters parameters) (budget + 1)
      = (pure (.string (standIn parameters id)) : Drawing σ GeneratorError (Value φ)) := by
  have held : ∀ value : Value φ, value.isGenerator = false →
      (do
        let value ← Generator.dereference
          (Generator.evaluate (registry.combinedParameters parameters) budget) .string value
        Generator.coerced (value.coerce .string (Generator.parameterContext id)) :
          Drawing σ GeneratorError (Value φ)) = pure (.string value.text) := by
    intro value plain
    rw [Generator.dereference_of_isGenerator_eq_false plain, pure_bind,
      Value.coerce_string plain]
    rfl
  rw [Generator.evaluate, getElem?_combinedParameters, unregistered]
  rcases given : parameters[id]? with _ | value
  · rw [standIn, given]
    exact held (.string id) rfl
  · rw [standIn, given]
    exact held value (plain id value given)

end Registry

end Wordloom
