import Wordloom.Proofs.Binary.Sums
import Wordloom.Proofs.Binary.Values

/-!
# Patterns of doubles from zero on

This file shows that a double from zero on is what its bits are read as. Unpacked, it has the
significand and the exponent that its format holds it by, and packing puts them together to its
pattern, or to that of infinity if the number is too large. So such doubles are ordered like
their patterns.
-/

namespace Wordloom.Binary

open Float.Model

-- Powers are those of the core library, whatever else is imported.
attribute [local instance (2000)] instPowNat

variable {significand other : ℕ} {exponent power : ℤ}

theorem leastExponent_double : double.leastExponent = -1074 := rfl

theorem infinity_double : double.infinity = 2047 * 2 ^ (52 : ℕ) := rfl

theorem pattern_double (significand : ℕ) (exponent : ℤ) :
    double.pattern significand exponent
      = significand + (exponent + 1074).toNat * 2 ^ (52 : ℕ) := by
  rw [Format.pattern, leastExponent_double, sub_neg_eq_add]
  rfl

/-- Doubles above zero are held in the way of their format. -/
theorem held_iff :
    Held significand exponent ↔ 0 < significand ∧ double.Canonical significand exponent := by
  constructor
  · rintro ⟨positive, narrow, least, greatest, full⟩
    refine ⟨positive, narrow, least, full, ?_⟩
    rw [pattern_double, infinity_double]
    omega
  · rintro ⟨positive, narrow, least, full, finite⟩
    rw [pattern_double, infinity_double] at finite
    change significand < 2 ^ (53 : ℕ) at narrow
    change 2 ^ (52 : ℕ) ≤ significand ∨ exponent = -1074 at full
    exact ⟨positive, narrow, least, by omega, full⟩

section Packing

theorem toNat_packComponents (biased : BitVec 11) (fraction : BitVec 52) :
    (UnpackedFloat.packComponents .binary64 .positive biased fraction).toNat
      = biased.toNat * 2 ^ (52 : ℕ) + fraction.toNat := by
  change (0#1 ++ biased ++ fraction).toNat = _
  rw [BitVec.toNat_append, BitVec.toNat_append, ← Nat.shiftLeft_add_eq_or_of_lt fraction.isLt,
    Nat.shiftLeft_eq]
  simp

/-- A number is packed to its pattern, or to infinity if it is too large. -/
theorem toNat_pack (positive : 0 < significand) (narrow : significand < 2 ^ (53 : ℕ))
    (least : -1074 ≤ exponent) (full : 2 ^ (52 : ℕ) ≤ significand ∨ exponent = -1074) :
    (UnpackedFloat.pack .binary64 (.finite .positive significand exponent positive)).toNat
      = min double.infinity (double.pattern significand exponent) := by
  rw [pattern_double, infinity_double]
  by_cases tooLarge : 2 ^ (11 : ℕ) ≤ (exponent + 1075).toNat + 1
  · have bits : (UnpackedFloat.packedInfinity .binary64 .positive).toNat = 2047 * 2 ^ (52 : ℕ) :=
      rfl
    rw [pack_of_tooLarge tooLarge, bits]
    omega
  · rcases Nat.lt_or_ge significand (2 ^ (52 : ℕ)) with short | long
    · have subnormal := (Nat.log2_lt (Nat.ne_of_gt positive)).mpr short
      rw [pack_of_subnormal tooLarge subnormal, toNat_packComponents, BitVec.toNat_ofNat,
        BitVec.toNat_ofNat, Nat.mod_eq_of_lt short]
      omega
    · have normal : significand.log2 = 52 :=
        (Nat.log2_eq_iff (Nat.ne_of_gt positive)).mpr ⟨long, narrow⟩
      rw [pack_of_normal tooLarge normal, toNat_packComponents, BitVec.toNat_ofNat,
        BitVec.toNat_ofNat]
      omega

theorem ofModel_pack_finite (positive : 0 < significand) (narrow : significand < 2 ^ (53 : ℕ))
    (least : -1074 ≤ exponent) (full : 2 ^ (52 : ℕ) ≤ significand ∨ exponent = -1074) :
    Float.ofModel (.pack (.finite .positive significand exponent positive))
      = toFloat (min double.infinity (double.pattern significand exponent)) := by
  rw [← toNat_pack positive narrow least full]
  exact (toFloat_toBits _).symm

end Packing

section Reading

variable {number : Float}

theorem toFloat_pattern (finite : ofFloat number = .finite false significand exponent) :
    toFloat (double.pattern significand exponent) = number := by
  have made := toFloat_signed_pattern finite
  rwa [Format.signed, if_neg Bool.false_ne_true] at made

theorem unpack_of_ofFloat (finite : ofFloat number = .finite false significand exponent)
    (positive : 0 < significand) :
    number.toModel.unpack = .finite .positive significand exponent positive := by
  have canonical : double.Canonical significand exponent := Format.canonical_of_datum finite
  have held := held_iff.mpr ⟨positive, canonical⟩
  have packed := ofModel_pack_finite held.positive held.narrow held.least held.full
  rw [min_eq_right canonical.finite.le] at packed
  rw [← toFloat_pattern finite, ← packed]
  exact held.unpack_pack

theorem unpack_of_ofFloat_zero (finite : ofFloat number = .finite false 0 exponent) :
    number.toModel.unpack = .zero .positive := by
  have canonical : double.Canonical 0 exponent := Format.canonical_of_datum finite
  have none : double.pattern 0 exponent = 0 :=
    canonical.pattern_eq_zero (by rw [scaled, Nat.cast_zero, zero_mul])
  rw [← toFloat_pattern finite, none]
  rfl

open Float.Model.UnpackedFloat in
theorem ofFloat_of_unpack {positive : 0 < significand}
    (unpacked : number.toModel.unpack = .finite .positive significand exponent positive) :
    ofFloat number = .finite false significand exponent := by
  have held := held_of_unpack unpacked
  have canonical := (held_iff.mp held).2
  have packed := toNat_pack held.positive held.narrow held.least held.full
  have kept := pack_unpack_of_valid number.toModel.valid (by decide)
  change UnpackedFloat.pack .binary64 number.toModel.unpack = _ at kept
  rw [unpacked] at kept
  rw [kept, min_eq_right canonical.finite.le] at packed
  change double.datum number.toModel.toBits.toBitVec.toNat = _
  rw [packed]
  exact canonical.datum_signed false

/-- A double stands for the units that its bits are read as. -/
theorem hasUnits_of_ofFloat (finite : ofFloat number = .finite false significand exponent) :
    HasUnits number (units significand exponent) := by
  rcases Nat.eq_zero_or_pos significand with rfl | positive
  · rw [units, Nat.zero_mul]
    exact .zero (unpack_of_ofFloat_zero finite)
  · have canonical : double.Canonical significand exponent := Format.canonical_of_datum finite
    exact .finite (held_iff.mpr ⟨positive, canonical⟩) (unpack_of_ofFloat finite positive)

theorem exists_ofFloat_of_positive (positive : number > 0.0) (finite : number.isFinite = true) :
    ∃ significand exponent,
      0 < significand ∧ ofFloat number = .finite false significand exponent := by
  rw [above_iff] at positive
  change UnpackedFloat.isFinite number.toModel.unpack = true at finite
  generalize unpacked : number.toModel.unpack = held at positive finite
  cases positive with
  | finite significand exponent present =>
      exact ⟨significand, exponent, present, ofFloat_of_unpack unpacked⟩
  | infinity => cases finite

end Reading

section Order

theorem cast_units (least : -1074 ≤ exponent) :
    (units significand exponent : ℚ) = scaled significand exponent * 2 ^ (1074 : ℤ) := by
  have whole : ((exponent + 1074).toNat : ℤ) = exponent + 1074 := by omega
  rw [units, scaled, mul_assoc, ← zpow_add₀ two_ne_zero, ← whole, zpow_natCast]
  push_cast
  rfl

theorem units_least (significand : ℕ) : units significand (-1074) = significand :=
  Nat.mul_one significand

theorem units_lt_units_iff (canonical : double.Canonical significand exponent)
    (otherCanonical : double.Canonical other power) :
    units significand exponent < units other power ↔
      double.pattern significand exponent < double.pattern other power := by
  have scaled_lt_iff : units significand exponent < units other power ↔
      scaled significand exponent < scaled other power := by
    rw [← Nat.cast_lt (α := ℚ), cast_units canonical.least, cast_units otherCanonical.least]
    exact mul_lt_mul_iff_left₀ (by positivity)
  rw [scaled_lt_iff]
  constructor
  · intro less
    exact canonical.pattern_lt_pattern otherCanonical less
  · contrapose!
    intro atMost
    rw [← otherCanonical.ofBinary_eq rfl]
    exact canonical.ofBinary_le atMost

variable {bits lower upper : ℕ}

/-- A pattern below infinity is that of a number. -/
theorem exists_hasUnits_toFloat (finite : bits < double.infinity) :
    ∃ significand exponent, double.Canonical significand exponent ∧
      double.pattern significand exponent = bits ∧
      HasUnits (toFloat bits) (units significand exponent) := by
  have inside : bits < double.signBit := finite.trans (by decide)
  have special : bits / 2 ^ double.fractionBits ≠ 2 ^ double.exponentBits - 1 := by
    intro same
    have := Nat.div_mul_le_self bits (2 ^ double.fractionBits)
    rw [same] at this
    exact absurd finite (Nat.not_lt_of_le this)
  have read : ∃ significand exponent,
      double.magnitude false bits = .finite false significand exponent := by
    rw [Format.magnitude, if_neg special]
    split
    · exact ⟨_, _, rfl⟩
    · exact ⟨_, _, rfl⟩
  rcases read with ⟨significand, exponent, read⟩
  have canonical := Format.canonical_of_magnitude inside read
  have pattern := Format.pattern_of_magnitude read
  have has := hasUnits_of_ofFloat (ofFloat_signed_pattern canonical false)
  change HasUnits (toFloat (double.pattern significand exponent)) _ at has
  rw [pattern] at has
  exact ⟨significand, exponent, canonical, pattern, has⟩

/-- Doubles from zero on are ordered like their patterns. -/
theorem toFloat_lt_toFloat (finite : upper < double.infinity) (less : lower < upper) :
    toFloat lower < toFloat upper := by
  rcases exists_hasUnits_toFloat (less.trans finite) with ⟨_, _, canonical, rfl, has⟩
  rcases exists_hasUnits_toFloat finite with ⟨_, _, otherCanonical, rfl, otherHas⟩
  rw [has.lt_iff otherHas, units_lt_units_iff canonical otherCanonical]
  exact less

theorem toFloat_le_toFloat (finite : upper < double.infinity) (atMost : lower ≤ upper) :
    toFloat lower ≤ toFloat upper := by
  rcases exists_hasUnits_toFloat (atMost.trans_lt finite) with ⟨_, _, canonical, rfl, has⟩
  rcases exists_hasUnits_toFloat finite with ⟨_, _, otherCanonical, rfl, otherHas⟩
  rw [has.le_iff otherHas, ← not_lt, units_lt_units_iff otherCanonical canonical, not_lt]
  exact atMost

end Order

end Wordloom.Binary
