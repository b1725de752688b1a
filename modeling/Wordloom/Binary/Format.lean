/-!
# Binary floating point formats

This file gives the interchange formats of binary floating point numbers: how a bit pattern
is read as an exact number, and how a number that a format holds is written as a pattern.

A finite pattern stands for `significand * 2 ^ exponent` with a natural significand. Patterns
of one sign are ordered like the numbers they stand for, and the pattern of the number
`significand * 2 ^ exponent` is `significand` plus the distance of `exponent` from the least
exponent, counted in steps of `2 ^ fractionBits`. The hidden leading bit of a normal number is
what carries the exponent field to its biased value, so normal and subnormal numbers need no
separate treatment, and a significand that rounds up to the next power of two carries over
into the exponent by itself.
-/

namespace Wordloom.Binary

-- Powers are those of the core library, whatever else is imported.
attribute [local instance (2000)] instPowNat

/-- A format, given by the widths of its two fields besides the sign. -/
structure Format where
  /-- The bits of the fraction, without the hidden leading bit. -/
  fractionBits : Nat
  /-- The bits of the biased exponent. -/
  exponentBits : Nat
deriving DecidableEq, Repr

/-- The 32-bit format. -/
def single : Format := ⟨23, 8⟩

/-- The 64-bit format. -/
def double : Format := ⟨52, 11⟩

/-- What a bit pattern stands for. -/
inductive Datum where
  /-- No number. -/
  | nan
  /-- Larger than every finite number, or below them all. -/
  | infinite (negative : Bool)
  /-- The number `significand * 2 ^ exponent` with its sign, which zero has too. -/
  | finite (negative : Bool) (significand : Nat) (exponent : Int)
deriving DecidableEq, Repr

namespace Format

/-- The exponent of the least positive number, and of all subnormal numbers. -/
def leastExponent (format : Format) : Int :=
  2 - (2 ^ (format.exponentBits - 1) : Nat) - format.fractionBits

/-- The pattern of positive infinity, above those of all positive numbers. -/
def infinity (format : Format) : Nat :=
  (2 ^ format.exponentBits - 1) * 2 ^ format.fractionBits

/-- The bit of the sign. -/
def signBit (format : Format) : Nat :=
  2 ^ (format.fractionBits + format.exponentBits)

/-- The pattern of a positive number, its sign bit being clear. -/
def pattern (format : Format) (significand : Nat) (exponent : Int) : Nat :=
  significand + (exponent - format.leastExponent).toNat * 2 ^ format.fractionBits

/-- A pattern of a positive number with the sign that is asked for. -/
def signed (format : Format) (negative : Bool) (magnitude : Nat) : Nat :=
  if negative then format.signBit + magnitude else magnitude

/-- What a pattern without a sign bit stands for, read with the sign that is given. -/
def magnitude (format : Format) (negative : Bool) (bits : Nat) : Datum :=
  let biased := bits / 2 ^ format.fractionBits
  let fraction := bits % 2 ^ format.fractionBits
  if biased = 2 ^ format.exponentBits - 1 then
    if fraction = 0 then .infinite negative else .nan
  else if biased = 0 then .finite negative fraction format.leastExponent
  else
    .finite negative (2 ^ format.fractionBits + fraction)
      (format.leastExponent + (biased - 1 : Nat))

/-- What a bit pattern stands for. -/
def datum (format : Format) (bits : Nat) : Datum :=
  format.magnitude (decide (format.signBit ≤ bits)) (bits % format.signBit)

/-- The pattern of a finite magnitude gives back the bits it was read from. -/
theorem pattern_of_magnitude {format : Format} {negative : Bool} {bits significand : Nat}
    {exponent : Int}
    (finite : format.magnitude negative bits = .finite negative significand exponent) :
    format.pattern significand exponent = bits := by
  unfold magnitude at finite
  dsimp only at finite
  have whole := Nat.div_add_mod bits (2 ^ format.fractionBits)
  generalize bits / 2 ^ format.fractionBits = biased at finite whole
  generalize bits % 2 ^ format.fractionBits = fraction at finite whole
  split at finite
  · split at finite <;> simp at finite
  · split at finite
    · obtain ⟨-, rfl, rfl⟩ := Datum.finite.inj finite
      simp_all [pattern]
    · obtain ⟨-, rfl, rfl⟩ := Datum.finite.inj finite
      obtain ⟨steps, rfl⟩ := Nat.exists_eq_succ_of_ne_zero ‹biased ≠ 0›
      have distance : (format.leastExponent + (steps.succ - 1 : Nat)
          - format.leastExponent).toNat = steps := by omega
      rw [pattern, distance, ← whole, Nat.mul_succ, Nat.mul_comm]
      omega

end Format

/-- What a single-width float stands for. -/
def ofFloat32 (number : Float32) : Datum :=
  single.datum number.toBits.toNat

/-- What a double-width float stands for. -/
def ofFloat (number : Float) : Datum :=
  double.datum number.toBits.toNat

/-- The single-width float with a pattern. -/
def toFloat32 (bits : Nat) : Float32 :=
  Float32.ofBits (UInt32.ofNat bits)

/-- The double-width float with a pattern. -/
def toFloat (bits : Nat) : Float :=
  Float.ofBits (UInt64.ofNat bits)

/-- A pattern that stands for no number. -/
def Format.quietNan (format : Format) : Nat :=
  format.infinity + 2 ^ (format.fractionBits - 1)

end Wordloom.Binary
