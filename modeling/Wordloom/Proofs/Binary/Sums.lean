import Wordloom.Proofs.Binary.Units

/-!
# Sums of doubles from zero on

This file shows when a sum of doubles is above zero, if none of the summands is below it. It is
so if and only if one of the summands is. However a sum is rounded, it does not vanish, and one
that is too large for a double becomes infinity. So such sums are always numbers.
-/

namespace Wordloom.Binary

open Float.Model

-- Powers are those of the core library, whatever else is imported.
attribute [local instance (2000)] instPowNat

theorem mantissa_shiftRight (mantissa : UnpackedFloat.ExtendedMantissa) (steps : Nat) :
    (mantissa >>> steps).mantissa = mantissa.mantissa / 2 ^ steps := by
  induction steps with
  | zero => rw [Nat.pow_zero, Nat.div_one]; rfl
  | succ steps ih =>
      change (mantissa >>> steps).mantissa / 2 = _
      rw [ih, Nat.div_div_eq_div_mul, Nat.pow_succ]

theorem le_roundedMantissa (mantissa : UnpackedFloat.ExtendedMantissa) :
    mantissa.mantissa ≤ mantissa.roundedMantissa := by
  rcases mantissa with ⟨whole, half, rest⟩
  cases half <;> cases rest <;>
    simp [UnpackedFloat.ExtendedMantissa.roundedMantissa,
      UnpackedFloat.ExtendedMantissa.accuracy, UnpackedFloat.Accuracy.roundToNearestEven]

theorem mantissa_ofMantissaAndAccuracy (significand : Nat) (accuracy : UnpackedFloat.Accuracy) :
    (UnpackedFloat.ExtendedMantissa.ofMantissaAndAccuracy significand accuracy).mantissa
      = significand := by
  rcases accuracy with _ | order
  · rfl
  · cases order <;> rfl

/-- The bits by which a significand is too long are cut off, and no others. -/
theorem shiftToTargetExponent_cuts (significand : Nat) {exponent : Int} (least : -1074 ≤ exponent)
    (accuracy : UnpackedFloat.Accuracy) :
    (UnpackedFloat.shiftToTargetExponent .binary64 significand exponent accuracy).1.mantissa
        = significand / 2 ^ (significand.log2 - 52) ∧
      (UnpackedFloat.shiftToTargetExponent .binary64 significand exponent accuracy).2
        = exponent + (significand.log2 - 52 : Nat) := by
  have target : Format.binary64.targetExponent (totalExponent significand exponent)
      = max (significand.log2 + 1 + exponent - 53) (-1074) := rfl
  have amount : (max (significand.log2 + 1 + exponent - 53) (-1074) - exponent).toNat
      = significand.log2 - 52 := by omega
  rw [UnpackedFloat.shiftToTargetExponent, UnpackedFloat.shiftToExponent, target, amount]
  refine ⟨?_, rfl⟩
  dsimp only
  rw [mantissa_shiftRight, mantissa_ofMantissaAndAccuracy]

theorem cut_pos {significand : Nat} (positive : 0 < significand) :
    0 < significand / 2 ^ (significand.log2 - 52) := by
  refine Nat.div_pos ?_ (Nat.two_pow_pos _)
  calc 2 ^ (significand.log2 - 52) ≤ 2 ^ significand.log2 :=
        Nat.pow_le_pow_right (by decide) (Nat.sub_le _ _)
    _ ≤ significand := Nat.log2_self_le (Nat.ne_of_gt positive)

theorem cut_lt (significand : Nat) : significand / 2 ^ (significand.log2 - 52) < 2 ^ (53 : Nat) := by
  rw [Nat.div_lt_iff_lt_mul (Nat.two_pow_pos _), ← Nat.pow_add]
  calc significand < 2 ^ (significand.log2 + 1) := Nat.lt_log2_self
    _ ≤ 2 ^ (53 + (significand.log2 - 52)) := Nat.pow_le_pow_right (by decide) (by omega)

/-- A number above zero is rounded to one above zero, which may be too large for a double. -/
theorem exists_round_eq {significand : Nat} (positive : 0 < significand) {exponent : Int}
    (least : -1074 ≤ exponent) :
    ∃ rounded reached, ∃ roundedPositive : 0 < rounded,
      rounded < 2 ^ (53 : Nat) ∧ -1074 ≤ reached ∧
      UnpackedFloat.round .binary64 .positive significand exponent
        = .finite .positive rounded reached roundedPositive := by
  have target : Format.binary64.targetExponent (totalExponent significand exponent)
      = max (significand.log2 + 1 + exponent - 53) (-1074) := rfl
  rw [UnpackedFloat.round, target, UnpackedFloat.decreaseExponent]
  dsimp only
  generalize amount : (exponent - max (significand.log2 + 1 + exponent - 53) (-1074)).toNat = steps
  have extended : 0 < significand <<< steps := by
    rw [Nat.shiftLeft_eq]
    exact Nat.mul_pos positive (Nat.two_pow_pos _)
  have startLeast : -1074 ≤ exponent - (steps : Int) := by omega
  generalize significand <<< steps = start at extended
  generalize exponent - (steps : Int) = power at startLeast
  have first := shiftToTargetExponent_cuts start startLeast .exact
  rw [UnpackedFloat.roundWithAccuracy]
  generalize UnpackedFloat.shiftToTargetExponent .binary64 start power .exact = cut at first
  rcases cut with ⟨mantissa, reached⟩
  dsimp only at first ⊢
  have roundedPositive : 0 < mantissa.roundedMantissa := by
    refine Nat.lt_of_lt_of_le ?_ (le_roundedMantissa mantissa)
    rw [first.1]
    exact cut_pos extended
  have second := shiftToTargetExponent_cuts mantissa.roundedMantissa
    (by omega : -1074 ≤ reached) .exact
  generalize UnpackedFloat.shiftToTargetExponent .binary64 mantissa.roundedMantissa reached .exact
    = final at second
  rcases final with ⟨last, lastExponent⟩
  dsimp only at second ⊢
  have lastPositive : 0 < last.mantissa := by
    rw [second.1]
    exact cut_pos roundedPositive
  refine ⟨last.mantissa, lastExponent, lastPositive, ?_, by omega,
    dif_neg (Nat.ne_of_gt lastPositive)⟩
  rw [second.1]
  exact cut_lt _

/-- What doubles above zero are unpacked to. -/
inductive AboveZero : UnpackedFloat → Prop where
  | finite (significand : Nat) (exponent : Int) (positive : 0 < significand) :
      AboveZero (.finite .positive significand exponent positive)
  | infinity : AboveZero (.infinity .positive)

/-- What doubles from zero on are unpacked to. -/
inductive FromZero : UnpackedFloat → Prop where
  | zero (sign : UnpackedFloat.Sign) : FromZero (.zero sign)
  | above {number : UnpackedFloat} (above : AboveZero number) : FromZero number

theorem above_iff (number : Float) : number > 0.0 ↔ AboveZero number.toModel.unpack := by
  have zero : (0.0 : Float).toModel.unpack = .zero .positive := rfl
  change 0.0 < number ↔ _
  rw [lt_iff_unpack, zero]
  rcases number.toModel.unpack with sign | _ | sign | ⟨sign, significand, exponent, positive⟩
  · cases sign with
    | positive => exact iff_of_true rfl .infinity
    | negative => exact iff_of_false Bool.false_ne_true nofun
  · exact iff_of_false Bool.false_ne_true nofun
  · exact iff_of_false Bool.false_ne_true nofun
  · cases sign with
    | positive => exact iff_of_true rfl (.finite ..)
    | negative => exact iff_of_false Bool.false_ne_true nofun

/-- A number above zero stays above zero when it is packed, be it as infinity. -/
theorem aboveZero_pack {significand : Nat} {exponent : Int} (positive : 0 < significand)
    (narrow : significand < 2 ^ (53 : Nat)) (least : -1074 ≤ exponent) :
    AboveZero (Float.Model.pack (.finite .positive significand exponent positive)).unpack := by
  by_cases tooLarge : 2 ^ (11 : Nat) ≤ (exponent + 1075).toNat + 1
  · change AboveZero (UnpackedFloat.unpack .binary64 (UnpackedFloat.pack .binary64
      (.finite .positive significand exponent positive)))
    rw [pack_of_tooLarge tooLarge]
    exact .infinity
  · rcases Nat.lt_or_ge significand.log2 52 with short | long
    · have low : (BitVec.ofNat 52 significand).toNat = significand := by
        rw [BitVec.toNat_ofNat, Nat.mod_eq_of_lt]
        exact (Nat.log2_lt (Nat.ne_of_gt positive)).mp short
      have present : 0 < (BitVec.ofNat 52 significand).toNat := by
        rw [low]
        exact positive
      change AboveZero (UnpackedFloat.unpack .binary64 (UnpackedFloat.pack .binary64
        (.finite .positive significand exponent positive)))
      rw [pack_of_subnormal tooLarge short, unpack_packComponents_of_subnormal present]
      exact .finite ..
    · have full : significand.log2 = 52 := by
        have := (Nat.log2_lt (Nat.ne_of_gt positive)).mpr narrow
        omega
      have held := held_of_log2_eq full least (by omega)
      rw [held.unpack_pack]
      exact .finite ..

theorem AboveZero.unpack_pack {number : Float} (above : AboveZero number.toModel.unpack) :
    (Float.Model.pack number.toModel.unpack).unpack = number.toModel.unpack := by
  generalize unpacked : number.toModel.unpack = held at above ⊢
  cases above with
  | finite significand exponent positive => exact (held_of_unpack unpacked).unpack_pack
  | infinity => rfl

/-- The sum of two numbers above zero is above zero. -/
theorem aboveZero_add_finite {significand other : Nat} {exponent power : Int}
    (held : Held significand exponent) (otherHeld : Held other power) :
    AboveZero (Float.Model.pack (UnpackedFloat.add .binary64
      (.finite .positive significand exponent held.positive)
      (.finite .positive other power otherHeld.positive))).unpack := by
  have least : -1074 ≤ min exponent power := by
    have := held.least
    have := otherHeld.least
    omega
  rw [UnpackedFloat.add]
  dsimp only
  have present : 0 < (UnpackedFloat.decreaseExponent significand exponent (min exponent power)).1 := by
    rw [UnpackedFloat.decreaseExponent, Nat.shiftLeft_eq]
    exact Nat.mul_pos held.positive (Nat.two_pow_pos _)
  generalize (UnpackedFloat.decreaseExponent significand exponent (min exponent power)).1 = first
    at present ⊢
  generalize (UnpackedFloat.decreaseExponent other power (min exponent power)).1 = second
  change AboveZero (Float.Model.pack (UnpackedFloat.normalize .binary64
    ((first + second : Nat) : Int) (min exponent power) .positive)).unpack
  rw [normalize_natCast (Nat.add_pos_left present second)]
  rcases exists_round_eq (Nat.add_pos_left present second) least with
    ⟨rounded, reached, roundedPositive, narrow, reachedLeast, same⟩
  rw [same]
  exact aboveZero_pack roundedPositive narrow reachedLeast

theorem AboveZero.add_zero_eq {number : UnpackedFloat} (above : AboveZero number)
    (sign : UnpackedFloat.Sign) : UnpackedFloat.add .binary64 number (.zero sign) = number := by
  cases above <;> rfl

theorem AboveZero.zero_add_eq {number : UnpackedFloat} (above : AboveZero number)
    (sign : UnpackedFloat.Sign) : UnpackedFloat.add .binary64 (.zero sign) number = number := by
  cases above <;> rfl

theorem AboveZero.add_infinity_eq {number : UnpackedFloat} (above : AboveZero number) :
    UnpackedFloat.add .binary64 number (.infinity .positive) = .infinity .positive := by
  cases above <;> rfl

theorem aboveZero_pack_infinity : AboveZero (Float.Model.pack (.infinity .positive)).unpack :=
  .infinity

theorem toModel_unpack_add (left right : Float) :
    (left + right).toModel.unpack = (Float.Model.pack (UnpackedFloat.add .binary64
      left.toModel.unpack right.toModel.unpack)).unpack :=
  rfl

theorem AboveZero.add {left right : Float} (leftAbove : AboveZero left.toModel.unpack)
    (rightAbove : AboveZero right.toModel.unpack) :
    AboveZero (left + right).toModel.unpack := by
  rw [toModel_unpack_add]
  generalize leftUnpacked : left.toModel.unpack = first at leftAbove ⊢
  generalize rightUnpacked : right.toModel.unpack = second at rightAbove ⊢
  cases rightAbove with
  | infinity =>
      rw [leftAbove.add_infinity_eq]
      exact aboveZero_pack_infinity
  | finite other power otherPositive =>
      cases leftAbove with
      | infinity => exact aboveZero_pack_infinity
      | finite significand exponent positive =>
          exact aboveZero_add_finite (held_of_unpack leftUnpacked) (held_of_unpack rightUnpacked)

theorem AboveZero.add_zero {left right : Float} {sign : UnpackedFloat.Sign}
    (above : AboveZero left.toModel.unpack) (zero : right.toModel.unpack = .zero sign) :
    AboveZero (left + right).toModel.unpack := by
  rw [toModel_unpack_add, zero, above.add_zero_eq, above.unpack_pack]
  exact above

theorem AboveZero.zero_add {left right : Float} {sign : UnpackedFloat.Sign}
    (zero : left.toModel.unpack = .zero sign) (above : AboveZero right.toModel.unpack) :
    AboveZero (left + right).toModel.unpack := by
  rw [toModel_unpack_add, zero, above.zero_add_eq, above.unpack_pack]
  exact above

theorem exists_zero_add_zero {left right : Float} {sign other : UnpackedFloat.Sign}
    (leftZero : left.toModel.unpack = .zero sign) (rightZero : right.toModel.unpack = .zero other) :
    ∃ reached, (left + right).toModel.unpack = .zero reached := by
  rw [toModel_unpack_add, leftZero, rightZero]
  cases sign <;> cases other <;> exact ⟨_, rfl⟩

/-- A sum of numbers from zero on is one as well, and above zero if one of them is. -/
theorem FromZero.add {left right : Float} (leftFrom : FromZero left.toModel.unpack)
    (rightFrom : FromZero right.toModel.unpack) :
    FromZero (left + right).toModel.unpack ∧
      (AboveZero (left + right).toModel.unpack ↔
        AboveZero left.toModel.unpack ∨ AboveZero right.toModel.unpack) := by
  generalize leftUnpacked : left.toModel.unpack = first at leftFrom ⊢
  generalize rightUnpacked : right.toModel.unpack = second at rightFrom ⊢
  cases leftFrom with
  | zero sign =>
      cases rightFrom with
      | zero other =>
          rcases exists_zero_add_zero leftUnpacked rightUnpacked with ⟨reached, unpacked⟩
          rw [unpacked]
          exact ⟨.zero reached, iff_of_false nofun (not_or.mpr ⟨nofun, nofun⟩)⟩
      | above rightAbove =>
          have above := AboveZero.zero_add leftUnpacked (rightUnpacked ▸ rightAbove)
          exact ⟨.above above, iff_of_true above (.inr rightAbove)⟩
  | above leftAbove =>
      have above : AboveZero (left + right).toModel.unpack := by
        subst leftUnpacked
        cases rightFrom with
        | zero other => exact leftAbove.add_zero rightUnpacked
        | above rightAbove => exact leftAbove.add (rightUnpacked ▸ rightAbove)
      exact ⟨.above above, iff_of_true above (.inl leftAbove)⟩

/-- Numbers from zero on, added up from a number from zero on. -/
theorem FromZero.foldl {numbers : List Float} {start : Float}
    (startFrom : FromZero start.toModel.unpack)
    (from_zero : ∀ number ∈ numbers, FromZero number.toModel.unpack) :
    FromZero (numbers.foldl (· + ·) start).toModel.unpack ∧
      (numbers.foldl (· + ·) start > 0.0 ↔ start > 0.0 ∨ ∃ number ∈ numbers, number > 0.0) := by
  induction numbers generalizing start with
  | nil => exact ⟨startFrom, by simp⟩
  | cons number rest ih =>
      have sum := startFrom.add (from_zero number List.mem_cons_self)
      have later := ih sum.1 fun other member => from_zero other (List.mem_cons_of_mem _ member)
      refine ⟨later.1, ?_⟩
      have added : start + number > 0.0 ↔ start > 0.0 ∨ number > 0.0 := by
        rw [above_iff, above_iff, above_iff]
        exact sum.2
      rw [List.foldl_cons, later.2, added]
      simp [or_assoc]

/-- A number from zero on is finite unless it is infinite. -/
theorem FromZero.isInf_eq {number : Float} (from_zero : FromZero number.toModel.unpack) :
    number.isInf = !number.isFinite := by
  change UnpackedFloat.isInf number.toModel.unpack = !UnpackedFloat.isFinite number.toModel.unpack
  generalize number.toModel.unpack = unpacked at from_zero ⊢
  cases from_zero with
  | zero sign => rfl
  | above above => cases above <;> rfl

end Wordloom.Binary
