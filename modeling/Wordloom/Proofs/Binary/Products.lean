import Wordloom.Proofs.Binary.Patterns

/-!
# Products of doubles from zero on

This file shows that the product of doubles from zero on is the double nearest to their exact
product, and that a word is turned into the double nearest to it.

Rounding cuts off the bits of a significand that are too many. Of these it keeps two facts, which
are enough to find the nearest number: whether they reach half a unit, and whether they are
something else. When the rounded significand gets one bit too many it is a power of two, so
cutting this bit off as well is no second rounding.

Numbers that are too short for a double would have to be extended first. A product never is: it is
at least as long as its longer factor, unless all bits of both are too low anyway.
-/

namespace Wordloom.Binary

open Float.Model

-- Powers are those of the core library, whatever else is imported.
attribute [local instance (2000)] instPowNat

variable {significand other : ℕ} {exponent power : ℤ}

/-- What is kept when the lowest bits of a number are cut off: whether they reach half a unit, and
whether they are neither nothing nor just half a unit. -/
theorem shiftRight_eq (significand steps : ℕ) :
    (⟨significand, false, false⟩ : UnpackedFloat.ExtendedMantissa) >>> steps
      = ⟨significand / 2 ^ steps,
          decide (2 ^ steps ≤ 2 * (significand % 2 ^ steps)),
          decide (significand % 2 ^ steps ≠ 0 ∧ 2 * (significand % 2 ^ steps) ≠ 2 ^ steps)⟩ := by
  induction steps with
  | zero =>
      simp only [Nat.pow_zero, Nat.div_one, Nat.mod_one]
      rfl
  | succ steps ih =>
      change UnpackedFloat.ExtendedMantissa.shiftRightOne
        ((⟨significand, false, false⟩ : UnpackedFloat.ExtendedMantissa) >>> steps) = _
      have below := Nat.mod_lt significand (Nat.two_pow_pos steps)
      rw [ih, UnpackedFloat.ExtendedMantissa.shiftRightOne, Nat.div_div_eq_div_mul,
        ← Nat.pow_succ, Nat.mod_pow_succ, Nat.pow_succ]
      dsimp only
      generalize significand % 2 ^ steps = rest at below ⊢
      generalize significand / 2 ^ steps = whole
      generalize 2 ^ steps = unit at below ⊢
      simp only [UnpackedFloat.ExtendedMantissa.mk.injEq, true_and]
      -- The next bit is the highest of those that are cut off now.
      rcases Nat.mod_two_eq_zero_or_one whole with even | odd
      · rw [even, Nat.mul_zero, Nat.add_zero]
        constructor
        · rw [decide_eq_false (by omega : ¬unit * 2 ≤ 2 * rest)]
          rfl
        · rw [← Bool.decide_or, decide_eq_decide]
          omega
      · rw [odd, Nat.mul_one]
        constructor
        · rw [decide_eq_true (by omega : unit * 2 ≤ 2 * (rest + unit))]
          rfl
        · rw [← Bool.decide_or, decide_eq_decide]
          omega

/-- What is kept of the lowest bits is enough to find the nearest number. -/
theorem roundedMantissa_shiftRight (significand steps : ℕ) :
    ((⟨significand, false, false⟩ : UnpackedFloat.ExtendedMantissa) >>> steps).roundedMantissa
      = halfEven significand (2 ^ steps) := by
  rw [shiftRight_eq, halfEven, UnpackedFloat.ExtendedMantissa.roundedMantissa]
  have positive := Nat.two_pow_pos steps
  generalize significand % 2 ^ steps = rest
  generalize 2 ^ steps = unit at positive ⊢
  rcases Nat.lt_trichotomy (2 * rest) unit with less | same | more
  · rw [Nat.compare_eq_lt.mpr less, decide_eq_false (by omega : ¬unit ≤ 2 * rest)]
    rcases decide (rest ≠ 0 ∧ 2 * rest ≠ unit) with _ | _ <;> rfl
  · rw [Nat.compare_eq_eq.mpr same, decide_eq_true (by omega : unit ≤ 2 * rest),
      decide_eq_false (by omega : ¬(rest ≠ 0 ∧ 2 * rest ≠ unit))]
    rfl
  · rw [Nat.compare_eq_gt.mpr more, decide_eq_true (by omega : unit ≤ 2 * rest),
      decide_eq_true (by omega : rest ≠ 0 ∧ 2 * rest ≠ unit)]
    rfl

/-- The number of bits that are too many for a double. -/
def excessBits (significand : ℕ) (exponent : ℤ) : ℕ :=
  (max (significand.log2 + exponent - 52) (-1074) - exponent).toNat

section Excess

theorem shiftToTargetExponent_exact (significand : ℕ) (exponent : ℤ) :
    UnpackedFloat.shiftToTargetExponent .binary64 significand exponent .exact
      = ((⟨significand, false, false⟩ : UnpackedFloat.ExtendedMantissa)
            >>> excessBits significand exponent,
          exponent + excessBits significand exponent) := by
  have target : Float.Model.Format.binary64.targetExponent (totalExponent significand exponent)
      = max (significand.log2 + 1 + exponent - 53) (-1074) := rfl
  have amount : (max (significand.log2 + 1 + exponent - 53) (-1074) - exponent).toNat
      = excessBits significand exponent := by
    rw [excessBits]
    omega
  rw [UnpackedFloat.shiftToTargetExponent, UnpackedFloat.shiftToExponent, target, amount]
  rfl

theorem excessBits_eq_zero (narrow : significand < 2 ^ (53 : ℕ)) (least : -1074 ≤ exponent) :
    excessBits significand exponent = 0 := by
  have short : significand.log2 ≤ 52 := by
    rcases Nat.eq_zero_or_pos significand with rfl | positive
    · decide
    · have := (Nat.log2_lt (Nat.ne_of_gt positive)).mpr narrow
      omega
  rw [excessBits]
  omega

/-- A rounded significand has at most one bit too many, and then it is a power of two. -/
theorem halfEven_excessBits_le (significand : ℕ) (exponent : ℤ) :
    halfEven significand (2 ^ excessBits significand exponent) ≤ 2 ^ (53 : ℕ) := by
  apply halfEven_le (Nat.two_pow_pos _)
  rw [← Nat.pow_add]
  refine Nat.lt_log2_self.le.trans (Nat.pow_le_pow_right two_pos ?_)
  rw [excessBits]
  omega

variable (positive : 0 < significand) (long : 52 ≤ significand.log2 ∨ exponent ≤ -1074)

include positive long

theorem full_halfEven_excessBits :
    2 ^ (52 : ℕ) ≤ halfEven significand (2 ^ excessBits significand exponent) ∨
      exponent + excessBits significand exponent = -1074 := by
  rcases lt_or_ge (-1074) ((significand.log2 : ℤ) + exponent - 52) with above | least
  · left
    apply le_halfEven (Nat.two_pow_pos _)
    rw [← Nat.pow_add]
    refine (Nat.pow_le_pow_right two_pos ?_).trans (Nat.log2_self_le (Nat.ne_of_gt positive))
    rw [excessBits]
    omega
  · right
    rw [excessBits]
    omega

theorem ofBinary_eq_min :
    double.ofBinary significand exponent
      = min double.infinity (double.pattern
          (halfEven significand (2 ^ excessBits significand exponent))
          (exponent + excessBits significand exponent)) := by
  have above : significand * 2 ^ exponent.toNat ≠ 0 :=
    Nat.ne_of_gt (Nat.mul_pos positive (Nat.two_pow_pos _))
  have target : max (significand.log2 + exponent - double.fractionBits) double.leastExponent
      = exponent + excessBits significand exponent := by
    rw [leastExponent_double, excessBits]
    change max (significand.log2 + exponent - (52 : ℕ)) (-1074) = _
    omega
  rw [Format.ofBinary, Format.nearest, if_neg above, leadingExponent_mul_two_pow positive, target]
  dsimp only
  generalize excessBits significand exponent = steps
  rw [halfEven_congr (Nat.mul_pos (Nat.two_pow_pos _) (Nat.two_pow_pos _)) (Nat.two_pow_pos steps)]
  rw [Nat.mul_assoc, Nat.mul_assoc, ← Nat.pow_add, ← Nat.pow_add, ← Nat.pow_add]
  congr 2
  omega

/-- A number that is not too short for a double is rounded to the nearest. -/
theorem ofModel_pack_roundWithAccuracy :
    Float.ofModel (.pack (UnpackedFloat.roundWithAccuracy .binary64 .positive significand exponent
      .exact)) = toFloat (double.ofBinary significand exponent) := by
  have narrow := halfEven_excessBits_le significand exponent
  have full := full_halfEven_excessBits positive long
  have least : -1074 ≤ exponent + excessBits significand exponent := by
    rw [excessBits]
    omega
  rw [UnpackedFloat.roundWithAccuracy, shiftToTargetExponent_exact, ofBinary_eq_min positive long]
  dsimp only
  rw [roundedMantissa_shiftRight]
  generalize halfEven significand (2 ^ excessBits significand exponent) = rounded at narrow full ⊢
  generalize exponent + (excessBits significand exponent : ℤ) = reached at full least ⊢
  rw [shiftToTargetExponent_exact]
  dsimp only
  rcases Nat.lt_or_eq_of_le narrow with short | carried
  · rw [excessBits_eq_zero short least, Int.ofNat_zero, add_zero]
    change Float.ofModel (.pack (if none : rounded = 0 then _ else _)) = _
    by_cases none : rounded = 0
    · rw [dif_pos none, none, full.resolve_left (by rw [none]; decide)]
      rfl
    · rw [dif_neg none]
      exact ofModel_pack_finite (Nat.pos_of_ne_zero none) short least full
  · have one : excessBits (2 ^ (53 : ℕ)) reached = 1 := by
      rw [excessBits, Nat.log2_two_pow]
      omega
    have pattern : double.pattern (2 ^ (53 : ℕ)) reached
        = double.pattern (2 ^ (52 : ℕ)) (reached + 1) := by
      rw [pattern_double, pattern_double]
      omega
    rw [carried, one, pattern]
    exact ofModel_pack_finite (by decide) (by decide) (by omega) (.inl (le_refl _))

end Excess

/-- A number that is too short is extended by zeros before it is rounded. -/
theorem ofModel_pack_round (positive : 0 < significand) (exponent : ℤ) :
    Float.ofModel (.pack (UnpackedFloat.round .binary64 .positive significand exponent))
      = toFloat (double.ofBinary significand exponent) := by
  have target : Float.Model.Format.binary64.targetExponent (totalExponent significand exponent)
      = max (significand.log2 + 1 + exponent - 53) (-1074) := rfl
  rw [UnpackedFloat.round, target, UnpackedFloat.decreaseExponent]
  dsimp only
  generalize amount : (exponent - max (significand.log2 + 1 + exponent - 53) (-1074)).toNat = steps
  rw [Nat.shiftLeft_eq, ofModel_pack_roundWithAccuracy,
    Format.ofBinary_congr (scaled_mul_two_pow significand steps exponent)]
  · exact Nat.mul_pos positive (Nat.two_pow_pos _)
  · rw [log2_mul_two_pow positive]
    omega

/-- A word is turned into the double nearest to it. -/
theorem toFloat_word (word : UInt64) : word.toFloat = toFloat (double.ofBinary word.toNat 0) := by
  change Float.ofModel (.pack (UnpackedFloat.normalize .binary64 (word.toNat : ℤ) 0 .positive)) = _
  rcases Nat.eq_zero_or_pos word.toNat with none | positive
  · rw [none]
    rfl
  · rw [normalize_natCast positive, ofModel_pack_round positive]

/-- A word that is short enough is turned into a double without rounding. -/
theorem exists_ofFloat_toFloat_word {word : UInt64} (narrow : word.toNat < 2 ^ (53 : ℕ)) :
    ∃ significand exponent, ofFloat word.toFloat = .finite false significand exponent ∧
      scaled significand exponent = word.toNat := by
  rcases Format.exists_canonical_natCast Format.double_regular narrow with
    ⟨significand, exponent, canonical, same⟩
  have exact : double.ofBinary word.toNat 0 = double.pattern significand exponent := by
    apply canonical.ofBinary_eq
    rw [same, scaled, zpow_zero, mul_one]
  refine ⟨significand, exponent, ?_, same⟩
  rw [toFloat_word, exact]
  exact ofFloat_signed_pattern canonical false

theorem Held.long_mul (held : Held significand exponent) (otherHeld : Held other power) :
    52 ≤ (significand * other).log2 ∨ exponent + power ≤ -1074 := by
  have present : significand * other ≠ 0 :=
    Nat.ne_of_gt (Nat.mul_pos held.positive otherHeld.positive)
  rw [Nat.le_log2 present]
  rcases held.full with full | least
  · exact .inl (full.trans (Nat.le_mul_of_pos_right _ otherHeld.positive))
  · rcases otherHeld.full with full | otherLeast
    · exact .inl (full.trans (Nat.le_mul_of_pos_left _ held.positive))
    · right
      omega

theorem ofBinary_zero (exponent : ℤ) : double.ofBinary 0 exponent = 0 := by
  rw [Format.ofBinary, Nat.zero_mul, Format.nearest, if_pos rfl]

/-- The product of doubles from zero on is the double nearest to the exact product. -/
theorem mul_eq_toFloat_ofBinary {left right : Float}
    (leftFinite : ofFloat left = .finite false significand exponent)
    (rightFinite : ofFloat right = .finite false other power) :
    left * right = toFloat (double.ofBinary (significand * other) (exponent + power)) := by
  change Float.ofModel (.pack (UnpackedFloat.mul .binary64 left.toModel.unpack
    right.toModel.unpack)) = _
  rcases Nat.eq_zero_or_pos significand with rfl | positive
  · rw [unpack_of_ofFloat_zero leftFinite, Nat.zero_mul, ofBinary_zero]
    rcases Nat.eq_zero_or_pos other with rfl | otherPositive
    · rw [unpack_of_ofFloat_zero rightFinite]
      rfl
    · rw [unpack_of_ofFloat rightFinite otherPositive]
      rfl
  · rw [unpack_of_ofFloat leftFinite positive]
    rcases Nat.eq_zero_or_pos other with rfl | otherPositive
    · rw [unpack_of_ofFloat_zero rightFinite, Nat.mul_zero, ofBinary_zero]
      rfl
    · have held := held_iff.mpr ⟨positive, Format.canonical_of_datum leftFinite⟩
      have otherHeld := held_iff.mpr ⟨otherPositive, Format.canonical_of_datum rightFinite⟩
      rw [unpack_of_ofFloat rightFinite otherPositive]
      exact ofModel_pack_roundWithAccuracy (Nat.mul_pos positive otherPositive)
        (held.long_mul otherHeld)

/-- A product that a double stands for is exact. -/
theorem ofFloat_mul_of_scaled_eq {left right : Float}
    (leftFinite : ofFloat left = .finite false significand exponent)
    (rightFinite : ofFloat right = .finite false other power) {held : ℕ} {reached : ℤ}
    (canonical : double.Canonical held reached)
    (same : scaled significand exponent * scaled other power = scaled held reached) :
    ofFloat (left * right) = .finite false held reached := by
  rw [← scaled_mul] at same
  rw [mul_eq_toFloat_ofBinary leftFinite rightFinite, canonical.ofBinary_eq same]
  exact ofFloat_signed_pattern canonical false

end Wordloom.Binary
