import Wordloom.Number.Decimal

/-!
# Equality of big decimals

This file gives the equality of decimals of any size.

Two decimals with the same count of places are equal when their digits are. Otherwise the one
with fewer places is multiplied by a power of ten. While the power fits a 64-bit word this is
done word by word, from the least one, and each word is compared as soon as it is known. The
sum of a product and what is carried over is kept to 64 bits, so a carry can get lost, and then
equal decimals may be told apart and unequal ones taken for equal. A product that does not fit
64 bits by itself stops this, and the values of the decimals are compared instead.
-/

namespace Wordloom.Decimal

-- Powers are those of the core library, whatever else is imported.
attribute [local instance (2000)] instPowNat

/-- Whether two decimals have the same value, whatever their counts of places are. -/
def sameValue (left right : Decimal) : Bool :=
  left.canonical == right.canonical

/-- The count of binary digits of a number. Zero has none. -/
def bitLength (number : Nat) : Nat :=
  if number = 0 then 0 else number.log2 + 1

/-- The 32-bit words of a number, the least one first and the highest one not zero. -/
def words (number : Nat) : List UInt32 :=
  (List.range ((bitLength number + 31) / 32)).map fun index =>
    UInt32.ofNat (number / 2 ^ (32 * index))

/--
Whether words are those of a product, of which `source` are the words that are left to multiply
and `carry` is what is carried over to them. There is no answer when a product of one word does
not fit 64 bits.
-/
def matchesProduct (factor carry : UInt64) : (target source : List UInt32) → Option Bool
  | found :: target, word :: source =>
    if UInt64.size ≤ word.toNat * factor.toNat then none
    else
      let product := word.toUInt64 * factor + carry
      if product.toUInt32 = found then matchesProduct factor (product >>> 32) target source
      else some false
  | [], _ :: _ => some false
  | found :: target, [] =>
    if found = carry.toUInt32 then matchesProduct factor 0 target [] else some false
  | [], [] => some (carry == 0)

/-- The largest power of ten that fits a 64-bit word. -/
def largestPower : Nat := 19

/--
The answer to whether one number is a power of ten times another one, as it is found by lengths
and words. There is none when the power or a product does not fit 64 bits.
-/
def matchesScaled? (target source power : Nat) : Option Bool :=
  if largestPower < power then none
  else if bitLength target < bitLength source + (10 ^ power).log2 then some false
  else matchesProduct (UInt64.ofNat (10 ^ power)) 0 (words target) (words source)

/-- Whether one decimal equals another one of its sign that has more places. -/
def sameScaled (fewer more : Decimal) : Bool :=
  (matchesScaled? more.unscaled.natAbs fewer.unscaled.natAbs
    (more.scale - fewer.scale).toNat).getD (sameValue fewer more)

/-- Whether two decimals are equal. -/
def same (left right : Decimal) : Bool :=
  if left.scale = right.scale then left.unscaled == right.unscaled
  else if left.unscaled.sign ≠ right.unscaled.sign then false
  else if left.unscaled = 0 then true
  else if left.scale < right.scale then sameScaled left right
  else sameScaled right left

end Wordloom.Decimal
