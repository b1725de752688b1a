import Mathlib
import Wordloom.Proofs.Binary.Nearest

/-!
# Values of floats

This file gives the exact values of finite floats, and shows that a double is what its bits stand
for, that there is one float of each width that stands for no number, and that widening a single to
a double keeps its value.
-/

namespace Wordloom.Binary

-- Powers are those of the core library, whatever else is imported.
attribute [local instance (2000)] instPowNat

/-- A number with a sign. -/
def withSignOf (negative : Bool) (size : ℚ) : ℚ :=
  if negative then -size else size

/-- The exact value of a datum, if it is finite. -/
def Datum.value? : Datum → Option ℚ
  | .nan => none
  | .infinite _ => none
  | .finite negative significand exponent =>
    some (withSignOf negative (scaled significand exponent))

theorem abs_withSignOf (negative : Bool) (size : ℚ) : |withSignOf negative size| = |size| := by
  rw [withSignOf]
  split
  · exact abs_neg size
  · rfl

/-- A finite datum is one that has a value. -/
theorem Datum.eq_finite_of_value? {datum : Datum} {value : ℚ} (finite : datum.value? = some value) :
    ∃ negative significand exponent, datum = .finite negative significand exponent ∧
      value = withSignOf negative (scaled significand exponent) := by
  cases datum with
  | nan => cases finite
  | infinite negative => cases finite
  | finite negative significand exponent =>
    exact ⟨negative, significand, exponent, rfl, (Option.some.inj finite).symm⟩

/-- A pattern stands for no number when its exponent is the greatest and its fraction is not
zero. -/
theorem Format.datum_eq_nan_iff {format : Format} (bits : ℕ) :
    format.datum bits = .nan ↔
      bits % format.signBit / 2 ^ format.fractionBits = 2 ^ format.exponentBits - 1 ∧
        bits % format.signBit % 2 ^ format.fractionBits ≠ 0 := by
  rw [datum, magnitude]
  generalize bits % format.signBit / 2 ^ format.fractionBits = biased
  generalize bits % format.signBit % 2 ^ format.fractionBits = fraction
  by_cases special : biased = 2 ^ format.exponentBits - 1
  · by_cases zero : fraction = 0 <;> simp [special, zero]
  · rw [if_neg special]
    split <;> simp [special]

open Float.Model.UnpackedFloat in
theorem isNaNBits_iff {format : Format} {spec : Float.Model.Format}
    (fractions : format.fractionBits = spec.mantissaBitsWithoutImplicit)
    (exponents : format.exponentBits = spec.exponentBits) (bits : BitVec spec.numBits) :
    isNaNBits bits = true ↔ format.datum bits.toNat = .nan := by
  have field : bits.toNat % format.signBit / 2 ^ format.fractionBits
      = bits.toNat / 2 ^ format.fractionBits % 2 ^ format.exponentBits := by
    rw [Format.signBit, Nat.pow_add, Nat.mod_mul_right_div_self]
  have rest : bits.toNat % format.signBit % 2 ^ format.fractionBits
      = bits.toNat % 2 ^ format.fractionBits := by
    rw [Format.signBit, Nat.pow_add, Nat.mod_mul_right_mod]
  rw [isNaNBits, decide_eq_true_eq, Format.datum_eq_nan_iff, field, rest, fractions, exponents,
    ← BitVec.toNat_inj, unpackExponent_def, BitVec.extractLsb'_toNat, ne_eq, ← BitVec.toNat_inj,
    unpackMantissa_def, BitVec.extractLsb'_toNat, BitVec.neg_one_eq_allOnes,
    BitVec.toNat_allOnes, BitVec.toNat_zero, Nat.shiftRight_eq_div_pow, Nat.shiftRight_zero]

open Float.Model.UnpackedFloat in
theorem eq_packedNaN {spec : Float.Model.Format} {bits : BitVec spec.numBits}
    (valid : spec.Valid bits) (enough : 2 ≤ spec.exponentBits) (special : isNaNBits bits = true) :
    bits = packedNaN spec := by
  rw [← pack_unpack_of_valid valid enough, pack_unpack bits enough, if_pos special]

open Float.Model.UnpackedFloat in
/-- The one double that stands for no number. -/
theorem ofFloat_eq_nan_iff {number : Float} : ofFloat number = .nan ↔ number.isNaN = true := by
  have special := @isNaNBits_iff double .binary64 rfl rfl number.toBits.toBitVec
  change _ ↔ ofFloat number = .nan at special
  rw [Float.isNaN_eq_decide_eq_nan, decide_eq_true_eq, ← special]
  constructor
  · intro isNan
    have bits := eq_packedNaN number.toModel.valid (by decide) isNan
    exact Float.toBits_inj.1 (UInt64.toBitVec_inj.1 bits)
  · rintro rfl
    exact isNaNBits_packedNaN

open Float.Model.UnpackedFloat in
theorem ofFloat32_eq_nan_iff {number : Float32} :
    ofFloat32 number = .nan ↔ number.isNaN = true := by
  have special := @isNaNBits_iff single .binary32 rfl rfl number.toBits.toBitVec
  change _ ↔ ofFloat32 number = .nan at special
  rw [Float32.isNaN_eq_decide_eq_nan, decide_eq_true_eq, ← special]
  constructor
  · intro isNan
    have bits := eq_packedNaN number.toModel.valid (by decide) isNan
    exact Float32.toBits_inj.1 (UInt32.toBitVec_inj.1 bits)
  · rintro rfl
    exact isNaNBits_packedNaN

open Float.Model.UnpackedFloat in
/-- Bits that stand for a number are those of the double that is made of them. -/
theorem toBits_toFloat {bits : ℕ} (inside : bits < 2 ^ (64 : ℕ))
    (notNan : double.datum bits ≠ .nan) :
    (toFloat bits).toBits.toNat = bits := by
  have kept : (UInt64.ofNat bits).toNat = bits := UInt64.toNat_ofNat_of_lt' inside
  have isNumber : ¬@isNaNBits .binary64 (UInt64.ofNat bits).toBitVec = true := by
    rw [@isNaNBits_iff double .binary64 rfl rfl (UInt64.ofNat bits).toBitVec]
    change ¬double.datum (UInt64.ofNat bits).toNat = .nan
    rwa [kept]
  have packed := @pack_unpack .binary64 (UInt64.ofNat bits).toBitVec (by decide)
  rw [if_neg isNumber] at packed
  exact (congrArg BitVec.toNat packed).trans kept

theorem toFloat_toBits (number : Float) : toFloat number.toBits.toNat = number := by
  rw [toFloat, UInt64.ofNat_toNat, Float.ofBits_toBits]

theorem ofFloat_toFloat {bits : ℕ} (inside : bits < 2 ^ (64 : ℕ))
    (notNan : double.datum bits ≠ .nan) : ofFloat (toFloat bits) = double.datum bits := by
  rw [ofFloat, toBits_toFloat inside notNan]

variable {significand : ℕ} {exponent : ℤ} {negative : Bool}

/-- A finite double is made of its sign, its significand and its exponent. -/
theorem toFloat_signed_pattern {number : Float}
    (finite : ofFloat number = .finite negative significand exponent) :
    toFloat (double.signed negative (double.pattern significand exponent)) = number := by
  rw [Format.signed_pattern_of_datum number.toBits.toNat_lt finite, toFloat_toBits]

theorem ofFloat_signed_pattern (canonical : double.Canonical significand exponent)
    (negative : Bool) :
    ofFloat (toFloat (double.signed negative (double.pattern significand exponent)))
      = .finite negative significand exponent := by
  have read := canonical.datum_signed negative
  rw [ofFloat_toFloat (canonical.signed_lt negative) (by rw [read]; nofun), read]

/-- Widening keeps the value. -/
theorem value?_widen {number : Float32} {value : ℚ}
    (finite : (ofFloat32 number).value? = some value) :
    (ofFloat (widen number)).value? = some value := by
  obtain ⟨negative, significand, exponent, isFinite, rfl⟩ := Datum.eq_finite_of_value? finite
  have canonical : single.Canonical significand exponent := Format.canonical_of_datum isFinite
  obtain ⟨steps, rfl, greatest⟩ := canonical.exists_steps Format.single_regular
  have narrow : significand < 2 ^ (double.fractionBits + 1) :=
    canonical.narrow.trans (Nat.pow_lt_pow_right (by decide) (by decide))
  have shorter : steps + 925 + 3 ≤ 2 ^ double.exponentBits := by
    have fewer : steps + 3 ≤ 2 ^ (8 : ℕ) := greatest
    have exponents : 2 ^ double.exponentBits = 2048 := rfl
    omega
  obtain ⟨held, power, wide, same⟩ := Format.exists_canonical narrow shorter
  have least : double.leastExponent + (steps + 925 : ℕ) = single.leastExponent + steps := by
    have doubles : double.leastExponent = -1074 := rfl
    have singles : single.leastExponent = -149 := rfl
    omega
  rw [least] at same
  rw [widen, isFinite, Format.ofDatum, wide.ofBinary_eq same.symm,
    ofFloat_signed_pattern wide negative, Datum.value?, same]

end Wordloom.Binary
