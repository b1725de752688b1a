import Mathlib.Data.FinEnum
import Wordloom.Proofs.Generator.Batch

/-!
# Items of a batch have seeds of their own

This file shows that no two items of a batch start from the same seed. An item's seed is mixed
from the seed of its batch and the item's number, and every step of the mixing keeps different
words different: an exclusive or with a fixed word does, so does an odd factor, and so does an
exclusive or of a word with its own upper bits, which can be undone from the top.

So the mixing is one-to-one in the number when the seed is fixed, and in the seed when the number
is. The count of a batch is a word, and that is why its numbers are different words.
-/

namespace Wordloom

namespace Stream

/-- Mixing the upper bits of words into their lower ones keeps different words different. -/
theorem xor_shiftRight_injective {amount : UInt64} (moves : amount.toNat % 64 ≠ 0) :
    Function.Injective fun word : UInt64 => word ^^^ (word >>> amount) := by
  intro left right same
  change left ^^^ (left >>> amount) = right ^^^ (right >>> amount) at same
  -- The difference of the words is its own upper bits, so it is smaller than itself or zero.
  have crossed : left ^^^ right = (left >>> amount) ^^^ (right >>> amount) := by
    calc left ^^^ right
        = (left ^^^ (left >>> amount)) ^^^ ((left >>> amount) ^^^ right) := by
          rw [UInt64.xor_assoc, ← UInt64.xor_assoc (left >>> amount), UInt64.xor_self,
            UInt64.zero_xor]
      _ = (right ^^^ (right >>> amount)) ^^^ ((left >>> amount) ^^^ right) := by rw [same]
      _ = (left >>> amount) ^^^ (right >>> amount) := by
          rw [UInt64.xor_comm (left >>> amount), UInt64.xor_comm right, UInt64.xor_assoc,
            ← UInt64.xor_assoc right, UInt64.xor_self, UInt64.zero_xor, UInt64.xor_comm]
  rw [← UInt64.shiftRight_xor] at crossed
  have halved := congrArg UInt64.toNat crossed
  rw [UInt64.toNat_shiftRight, Nat.shiftRight_eq_div_pow] at halved
  have none : (left ^^^ right).toNat = 0 := by
    by_contra some
    have less := Nat.div_lt_self (Nat.pos_of_ne_zero some) (Nat.one_lt_two_pow moves)
    omega
  exact UInt64.xor_eq_zero_iff.mp (UInt64.toNat_inj.mp none)

theorem mul_injective {factor : UInt64} (inverse : UInt64) (inverts : factor * inverse = 1) :
    Function.Injective fun word : UInt64 => word * factor := by
  apply Function.LeftInverse.injective (g := fun word => word * inverse)
  intro word
  change word * factor * inverse = word
  rw [UInt64.mul_assoc, inverts, UInt64.mul_one]

/-- What is made of a seed and an index after they are joined to one word. -/
def scramble (word : UInt64) : UInt64 :=
  let second := (word ^^^ (word >>> 30)) * 0xBF58476D1CE4E5B9
  let third := (second ^^^ (second >>> 27)) * 0x94D049BB133111EB
  third ^^^ (third >>> 31)

theorem mix_eq (seed index : UInt64) :
    mix seed index = scramble (seed ^^^ (index * 0x9E3779B97F4A7C15)) := rfl

theorem scramble_injective : Function.Injective scramble := by
  have first : Function.Injective fun word : UInt64 => word ^^^ (word >>> 30) :=
    xor_shiftRight_injective (by decide)
  have second : Function.Injective fun word : UInt64 => word ^^^ (word >>> 27) :=
    xor_shiftRight_injective (by decide)
  have third : Function.Injective fun word : UInt64 => word ^^^ (word >>> 31) :=
    xor_shiftRight_injective (by decide)
  have once : Function.Injective fun word : UInt64 => word * 0xBF58476D1CE4E5B9 :=
    mul_injective 0x96DE1B173F119089 (by decide)
  have twice : Function.Injective fun word : UInt64 => word * 0x94D049BB133111EB :=
    mul_injective 0x319642B2D24D8EC3 (by decide)
  exact third.comp (twice.comp (second.comp (once.comp first)))

/-- With a fixed seed every index gives another word, and every word is given. -/
theorem mix_bijective (seed : UInt64) : Function.Bijective (mix seed) := by
  apply Finite.injective_iff_bijective.mp
  intro index other same
  rw [mix_eq, mix_eq] at same
  have factors := (UInt64.xor_right_inj seed).mp (scramble_injective same)
  have spreads : Function.Injective fun word : UInt64 => word * 0x9E3779B97F4A7C15 :=
    mul_injective 0xF1DE83E19937733D (by decide)
  exact spreads factors

/-- With a fixed index every seed gives another word, and every word is given. -/
theorem mix_bijective_seed (index : UInt64) :
    Function.Bijective fun seed => mix seed index := by
  apply Finite.injective_iff_bijective.mp
  intro seed other same
  exact (UInt64.xor_left_inj _).mp (scramble_injective same)

/-- The seed of the item with a number, in a batch that is generated from a stream. -/
def itemSeed (stream : Stream) (index : Nat) : UInt64 :=
  mix stream.next64.1 (UInt64.ofNat index)

end Stream

/--
Items of a batch have seeds of their own. Each item of a batch is what its generator yields from
a fresh stream for the item's seed. Items with different numbers have different seeds, and so
have items with the same number in batches whose first draws differ: the mixing of a seed and an
index goes through all words once, when either of the two is fixed.
-/
theorem batch_items_have_seeds_of_their_own (φ : Type) [Combining φ] :
    (∀ seed, Function.Bijective (Stream.mix seed)) ∧
    (∀ index, Function.Bijective fun seed => Stream.mix seed index) ∧
    ∀ (stream : Stream),
      (∀ (generator : Generator φ) (parameters : Parameters φ) (count : UInt64),
        ((generator.generateBatch parameters count.toNat).run stream).1
            = outcomes (fun index =>
                ((generator.generate parameters).run (Stream.ofSeed (stream.itemSeed index))).1)
              count.toNat ∧
          ∀ index other, index ≤ count.toNat → other ≤ count.toNat → index ≠ other →
            stream.itemSeed index ≠ stream.itemSeed other) ∧
      ∀ another : Stream, another.next64.1 ≠ stream.next64.1 →
        ∀ index, another.itemSeed index ≠ stream.itemSeed index := by
  refine ⟨Stream.mix_bijective, Stream.mix_bijective_seed, ?_⟩
  intro stream
  constructor
  · intro generator parameters count
    constructor
    · rw [generator.run_generateBatch]
      rfl
    · intro index other inside otherInside different same
      have words := (Stream.mix_bijective stream.next64.1).injective same
      have bound : count.toNat < UInt64.size := count.toNat_lt
      have numbers := congrArg UInt64.toNat words
      rw [UInt64.toNat_ofNat_of_lt' (inside.trans_lt bound),
        UInt64.toNat_ofNat_of_lt' (otherInside.trans_lt bound)] at numbers
      exact different numbers
  · intro another differ index same
    exact differ ((Stream.mix_bijective_seed (UInt64.ofNat index)).injective same)

theorem batch_items_have_seeds_of_their_own_text :
    ((Generator.text "x" : Generator Combiner).generateBatch ∅ 2).run (Stream.ofSeed 7)
        = (.ok [.string "x", .string "x"], RandomSource.advance 2 (Stream.ofSeed 7)) ∧
      (Stream.ofSeed 7).itemSeed 1 ≠ (Stream.ofSeed 7).itemSeed 2 ∧
      (Stream.ofSeed 8).next64.1 ≠ (Stream.ofSeed 7).next64.1 ∧
      (Stream.ofSeed 8).itemSeed 1 ≠ (Stream.ofSeed 7).itemSeed 1 := by
  have own := (batch_items_have_seeds_of_their_own Combiner).2.2 (Stream.ofSeed 7)
  have within := (own.1 (.text "x") ∅ 2).2
  have differ : (Stream.ofSeed 8).next64.1 ≠ (Stream.ofSeed 7).next64.1 := by decide +kernel
  refine ⟨rfl, ?_, differ, own.2 (Stream.ofSeed 8) differ 1⟩
  exact within 1 2 (by decide) (by decide) (by decide)

end Wordloom
