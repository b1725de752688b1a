/-!
# Blocks of pseudorandom words

This file gives the ChaCha block function with twelve rounds: sixteen pseudorandom words for
every 256-bit key and every block number.

A block starts from four constant words, the key, the block number and two zero words. Six
double rounds mix it, each of them four quarter rounds down the columns and four along the
diagonals of the four by four square, and the start is added at the end.
-/

namespace Wordloom.ChaCha

/-- The words of a key. -/
abbrev Key : Type := Vector UInt32 8

/-- The words of a block, row by row. -/
abbrev Block : Type := Vector UInt32 16

/-- The word with its bits moved to the left, those that leave coming back on the right. -/
def rotateLeft (word amount : UInt32) : UInt32 :=
  (word <<< amount) ||| (word >>> (32 - amount))

/-- One step of a quarter round: one word is added to a second, a third is mixed with the sum. -/
def mixStep (block : Block) (target source rotated : Fin 16) (amount : UInt32) : Block :=
  let sum := block[target] + block[source]
  let block := block.set target sum
  block.set rotated (rotateLeft (block[rotated] ^^^ sum) amount)

/-- Four words mixed with each other. -/
def quarterRound (block : Block) (a b c d : Fin 16) : Block :=
  let block := mixStep block a b d 16
  let block := mixStep block c d b 12
  let block := mixStep block a b d 8
  mixStep block c d b 7

/-- Quarter rounds on the four columns and on the four diagonals. -/
def doubleRound (block : Block) : Block :=
  let block := quarterRound block 0 4 8 12
  let block := quarterRound block 1 5 9 13
  let block := quarterRound block 2 6 10 14
  let block := quarterRound block 3 7 11 15
  let block := quarterRound block 0 5 10 15
  let block := quarterRound block 1 6 11 12
  let block := quarterRound block 2 7 8 13
  quarterRound block 3 4 9 14

/-- The block before any round. -/
def start (key : Key) (number : UInt64) : Block :=
  #v[0x61707865, 0x3320646e, 0x79622d32, 0x6b206574,
    key[0], key[1], key[2], key[3], key[4], key[5], key[6], key[7],
    number.toUInt32, (number >>> 32).toUInt32, 0, 0]

/-- The block with a number under a key. -/
def block (key : Key) (number : UInt64) : Block :=
  let first := start key number
  let mixed := Nat.repeat doubleRound 6 first
  mixed.zipWith (· + ·) first

end Wordloom.ChaCha
