import Wordloom.Stream.Block
import Wordloom.Stream.Source

/-!
# The stream of random words

This file gives the random stream of the generators. A stream is a key and the count of words
taken from it so far, so how far two streams are apart is a number, and what a stream yields
depends on nothing but its key and its position.

Sixty-four-bit draws take two words, the low one first. Drawing bytes takes whole words and
drops what is left of the last. Streams derived from a stream are keyed by one of its draws,
or by a seed and an index that are mixed so that neighbouring indexes lie far apart.
-/

namespace Wordloom

/-- A stream of pseudorandom words. -/
structure Stream where
  /-- The key, which fixes every word. -/
  key : ChaCha.Key
  /-- The count of words already taken. -/
  position : Nat
deriving DecidableEq

namespace Stream

/-- The word at a position. -/
def wordAt (key : ChaCha.Key) (position : Nat) : UInt32 :=
  let index : Fin 16 := ⟨position % 16, Nat.mod_lt _ (by decide)⟩
  (ChaCha.block key (UInt64.ofNat (position / 16)))[index]

/-- The successor in the sequence that spreads a seed over a key. -/
def spread (state : UInt64) : UInt64 :=
  state * 6364136223846793005 + 11634580027462260723

/-- The word of a key that a state of that sequence stands for. -/
def keyWord (state : UInt64) : UInt32 :=
  let mixed := (((state >>> 18) ^^^ state) >>> 27).toUInt32
  let amount := (state >>> 59).toUInt32
  (mixed >>> amount) ||| (mixed <<< ((32 - amount) % 32))

/-- The key that a seed is spread to. -/
def keyOfSeed (seed : UInt64) : ChaCha.Key :=
  Vector.ofFn fun index => keyWord (Nat.repeat spread (index + 1) seed)

/-- The stream that starts from a seed. -/
def ofSeed (seed : UInt64) : Stream :=
  ⟨keyOfSeed seed, 0⟩

/-- The next word, and the stream after it. -/
def next32 (stream : Stream) : UInt32 × Stream :=
  (wordAt stream.key stream.position, { stream with position := stream.position + 1 })

/-- The next two words as one, the low one first, and the stream after them. -/
def next64 (stream : Stream) : UInt64 × Stream :=
  let low := wordAt stream.key stream.position
  let high := wordAt stream.key (stream.position + 1)
  ((high.toUInt64 <<< 32) ||| low.toUInt64, { stream with position := stream.position + 2 })

/-- The bytes of a word, the lowest first. -/
def wordBytes (word : UInt32) : List UInt8 :=
  [word.toUInt8, (word >>> 8).toUInt8, (word >>> 16).toUInt8, (word >>> 24).toUInt8]

/-- Some bytes, and the stream after the words they were taken from. -/
def nextBytes (count : Nat) (stream : Stream) : List UInt8 × Stream :=
  let (words, after) := repeatDraw next32 ((count + 3) / 4) stream
  ((words.flatMap wordBytes).take count, after)

/-- A seed and an index made into one seed. -/
def mix (seed index : UInt64) : UInt64 :=
  let first := seed ^^^ (index * 0x9E3779B97F4A7C15)
  let second := (first ^^^ (first >>> 30)) * 0xBF58476D1CE4E5B9
  let third := (second ^^^ (second >>> 27)) * 0x94D049BB133111EB
  third ^^^ (third >>> 31)

/-- A stream seeded by the next draw, and the stream after that draw. -/
def fork (stream : Stream) : Stream × Stream :=
  let (seed, after) := stream.next64
  (ofSeed seed, after)

/-- The stream for a seed and an index, whatever stream was there before. -/
def reseeded (seed index : UInt64) : Stream :=
  ofSeed (mix seed index)

instance : RandomSource Stream where
  next64 := next64
  fork := fork
  reseed _ := reseeded

theorem nextDouble_of_positive {bound : Float} (positive : bound > 0.0) (stream : Stream) :
    RandomSource.nextDouble bound stream
      = (unitOfWord stream.next64.1 * bound, stream.next64.2) :=
  if_pos positive

/-- A 64-bit draw moves a stream on by two words. -/
theorem advance_eq (count : Nat) (stream : Stream) :
    RandomSource.advance count stream
      = { stream with position := stream.position + 2 * count } := by
  induction count generalizing stream with
  | zero => rfl
  | succ count ih =>
    rw [RandomSource.advance, ih]
    simp only [RandomSource.next64, next64, Stream.mk.injEq, true_and]
    omega

end Stream

end Wordloom
