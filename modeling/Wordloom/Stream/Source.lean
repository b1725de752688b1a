/-!
# Sources of random draws

This file gives what an evaluation needs of a source of random numbers, and the draws that are
made from 64-bit words: uniform numbers below a bound and normally distributed ones.

A draw takes a source and gives a result together with the source after it.
-/

namespace Wordloom

/-- The uniform number in the unit interval that the upper 53 bits of a word stand for. -/
def unitOfWord (word : UInt64) : Float :=
  (word >>> 11).toFloat * Float.ofBits 0x3CA0000000000000

/-- A source of random draws. -/
class RandomSource (σ : Type) where
  /-- The next 64-bit word, and the source after it. -/
  next64 : σ → UInt64 × σ
  /-- A fresh source that is derived from this one, and this one afterwards. -/
  fork : σ → σ × σ
  /-- The source that depends on a seed and an index only. -/
  reseed : σ → UInt64 → UInt64 → σ
  /-- A uniform number from zero up to a bound. Only a positive bound takes a draw. -/
  nextDouble : Float → σ → Float × σ := fun bound source =>
    if bound > 0.0 then
      let (word, after) := next64 source
      (unitOfWord word * bound, after)
    else (0.0, source)

namespace RandomSource

variable {σ : Type} [RandomSource σ]

/-- A draw from the standard normal distribution, made from two uniform ones. -/
def nextGaussian (source : σ) : Float × σ :=
  let (first, between) := next64 source
  let (second, after) := next64 between
  let radius := Float.sqrt (-2.0 * Float.log (1.0 - unitOfWord first))
  (radius * Float.cos (6.283185307179586 * unitOfWord second), after)

/-- The source after some 64-bit words were drawn from it. -/
def advance : Nat → σ → σ
  | 0, source => source
  | count + 1, source => advance count (next64 source).2

end RandomSource

/-- The results of repeating a draw, in order, and the source after the last. -/
def repeatDraw {σ α : Type} (draw : σ → α × σ) : Nat → σ → List α × σ
  | 0, source => ([], source)
  | count + 1, source =>
    let (value, between) := draw source
    let (values, after) := repeatDraw draw count between
    (value :: values, after)

end Wordloom
