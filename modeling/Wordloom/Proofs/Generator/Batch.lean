import Wordloom.Generator.Combiner
import Wordloom.Proofs.Outcomes
import Wordloom.Proofs.Registry.References
import Wordloom.Stream.Basic

/-!
# Batches are reproducible

This file shows what a batch of values depends on. Its items are numbered, and each is what its
generator yields from a fresh stream for the batch's seed and the item's number. Nothing that
earlier items did to the stream that they share is left when it is reset for the next item, so
the count of a batch decides where its items stop and nothing else.

The stream that the seed is drawn from moves on by two draws, the seed and a fork, also when an
item fails.
-/

namespace Wordloom

namespace Generator

variable {φ : Type} [Combining φ]

/-- The outcome of the item with a number in a batch with a seed. -/
def item (generator : Generator φ) (parameters : Parameters φ) (seed : UInt64) (index : Nat) :
    Except GeneratorError (Value φ) :=
  ((generator.generate parameters).run
    (Stream.ofSeed (Stream.mix seed (UInt64.ofNat index)))).1

/-- An item does not depend on the stream that is reset for it. -/
theorem run_generateItem (generator : Generator φ) (parameters : Parameters φ) (seed : UInt64)
    (index : Nat) (stream : Stream) :
    ((generator.generateItem parameters seed index).run stream).1
      = generator.item parameters seed index := rfl

theorem run_generateBatch (generator : Generator φ) (parameters : Parameters φ) (count : Nat)
    (stream : Stream) :
    (generator.generateBatch parameters count).run stream
      = (outcomes (generator.item parameters stream.next64.1) count,
          RandomSource.advance 2 stream) := by
  rw [generateBatch, Drawing.run_bind, Drawing.run_ofDraw]
  simp only [Drawing.run_bind, Drawing.run_ofDraw, Drawing.run_ofExcept]
  rw [Drawing.run_mapM_fst (fun index source => run_generateItem generator parameters _ _ source)]
  change ((outcomes (generator.item parameters stream.next64.1) count).mapError id, _) = _
  rcases outcomes (generator.item parameters stream.next64.1) count with cause | values
  · rfl
  · rfl

end Generator

namespace Registry

variable {φ α : Type} [Combining φ] [FromValue φ α]

theorem run_getBatch_of_find?_eq_none {registry : Registry φ} {name : String}
    (absent : registry.find? name = none) (parameters : Parameters φ) (count : Nat)
    (stream : Stream) :
    (registry.getBatch α name parameters count).run stream
      = (.error (.unknownGenerator name), stream) := by
  rw [getBatch_of_find?_eq_none absent]
  rfl

theorem run_getBatch_of_find?_eq_some {registry : Registry φ} {name : String}
    {generator : Generator φ} (found : registry.find? name = some generator)
    (parameters : Parameters φ) (count : Nat) (stream : Stream) :
    (registry.getBatch α name parameters count).run stream
      = (convertedTogether
            (generator.item (registry.combinedParameters parameters) stream.next64.1)
            (fun value => (fromValue value (context name) : Except CoercionError α))
            .coercion count,
          RandomSource.advance 2 stream) := by
  rw [getBatch_of_find?_eq_some found, Drawing.run_bind, Generator.run_generateBatch]
  rcases first : outcomes
    (generator.item (registry.combinedParameters parameters) stream.next64.1) count
    with cause | values
  · rw [convertedTogether, first]
    rfl
  · rw [convertedTogether, first]
    rfl

end Registry

/--
Batches are reproducible. Whatever a batch becomes, its stream moves on by two draws. Its items
are those for the first of these draws, numbered from one; it succeeds when all of them do, and
otherwise fails as the first of them that fails. A smaller batch from the same stream is the
start of a larger one. A batch from a registry is the same with every value converted, where
conversions come after all items.
-/
theorem batch_reproducible (φ : Type) [Combining φ] :
    (∀ (generator : Generator φ) (parameters : Parameters φ) (stream : Stream) (count : Nat),
      let batch count := (generator.generateBatch parameters count).run stream
      let item := generator.item parameters stream.next64.1
      (batch count).2 = RandomSource.advance 2 stream ∧
        (∀ values, (batch count).1 = .ok values ↔ AllSucceed item count values) ∧
        (∀ cause, (batch count).1 = .error cause ↔ FirstFailure item count cause) ∧
        ∀ smaller values, smaller ≤ count → (batch count).1 = .ok values →
          (batch smaller).1 = .ok (values.take smaller)) ∧
    ∀ (α : Type) [FromValue φ α] (registry : Registry φ) (name : String)
      (parameters : Parameters φ) (stream : Stream) (count : Nat),
      let batch count := (registry.getBatch α name parameters count).run stream
      match registry.find? name with
      | none => batch count = (.error (.unknownGenerator name), stream)
      | some generator =>
          let item := generator.item (registry.combinedParameters parameters) stream.next64.1
          let result : Nat → Except GeneratorError α :=
            converted item (fun value => fromValue value (Registry.context name)) .coercion
          (batch count).2 = RandomSource.advance 2 stream ∧
            (∀ results, (batch count).1 = .ok results ↔ AllSucceed result count results) ∧
            (∀ cause, (batch count).1 = .error cause ↔
              FirstFailure item count cause ∨
                (∃ values, AllSucceed item count values) ∧ FirstFailure result count cause) ∧
            ∀ smaller results, smaller ≤ count → (batch count).1 = .ok results →
              (batch smaller).1 = .ok (results.take smaller) := by
  constructor
  · intro generator parameters stream count batch item
    have runs : ∀ count, batch count = (outcomes item count, RandomSource.advance 2 stream) :=
      fun count => generator.run_generateBatch parameters count stream
    simp only [runs]
    refine ⟨trivial, fun values => outcomes_eq_ok_iff, fun cause => outcomes_eq_error_iff, ?_⟩
    intro smaller values fewer done
    exact outcomes_eq_ok_iff.mpr ((outcomes_eq_ok_iff.mp done).take fewer)
  · intro α _ registry name parameters stream count batch
    rcases found : registry.find? name with _ | generator
    · exact Registry.run_getBatch_of_find?_eq_none found parameters count stream
    · have runs : ∀ count, batch count =
          (convertedTogether
              (generator.item (registry.combinedParameters parameters) stream.next64.1)
              (fun value => (fromValue value (Registry.context name) : Except CoercionError α))
              .coercion count,
            RandomSource.advance 2 stream) :=
        fun count => Registry.run_getBatch_of_find?_eq_some found parameters count stream
      simp only [runs]
      refine ⟨trivial, fun results => convertedTogether_eq_ok_iff,
        fun cause => convertedTogether_eq_error_iff, ?_⟩
      intro smaller results fewer done
      exact convertedTogether_eq_ok_iff.mpr ((convertedTogether_eq_ok_iff.mp done).take fewer)

theorem batch_reproducible_text :
    let batch count :=
      ((Generator.text "x" : Generator Combiner).generateBatch ∅ count).run (Stream.ofSeed 7)
    1 ≤ 2 ∧ (batch 2).1 = .ok [.string "x", .string "x"] ∧ (batch 1).1 = .ok [.string "x"] := by
  intro batch
  have done : (batch 2).1 = .ok [.string "x", .string "x"] := rfl
  have start := ((batch_reproducible Combiner).1 (.text "x") ∅ (Stream.ofSeed 7) 2).2.2.2
  exact ⟨by decide, done, start 1 _ (by decide) done⟩

end Wordloom
