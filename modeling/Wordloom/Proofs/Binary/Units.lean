import Mathlib

/-!
# Doubles as whole numbers of units

This file gives what doubles from zero on stand for as whole numbers of one unit, the least
double above zero. Every finite double is a multiple of it, so the order of doubles and exact
sums of them are those of natural numbers.

A double above zero is held as a significand and an exponent. The significand has all its bits
unless the exponent is the least one, so a number is held in one way only. A number that is
given in another way is brought to this one without loss, in either direction: a significand
that is too short is extended by zeros, and of one that is too long only zeros are cut off.
-/

namespace Wordloom.Binary

open Float.Model

-- Powers are those of the core library, whatever else is imported.
attribute [local instance (2000)] instPowNat

/-- The significands and exponents as which doubles above zero are held. -/
structure Held (significand : Nat) (exponent : Int) : Prop where
  positive : 0 < significand
  narrow : significand < 2 ^ (53 : Nat)
  least : -1074 ≤ exponent
  greatest : exponent ≤ 971
  full : 2 ^ (52 : Nat) ≤ significand ∨ exponent = -1074

/-- The units of `significand * 2 ^ exponent`. -/
def units (significand : Nat) (exponent : Int) : Nat :=
  significand * 2 ^ (exponent + 1074).toNat

theorem units_pos {significand : Nat} (positive : 0 < significand) (exponent : Int) :
    0 < units significand exponent :=
  Nat.mul_pos positive (Nat.two_pow_pos _)

theorem units_lt_units {left right : Nat} (less : left < right) (exponent : Int) :
    units left exponent < units right exponent :=
  Nat.mul_lt_mul_of_pos_right less (Nat.two_pow_pos _)

theorem units_le_units {left right : Nat} (atMost : left ≤ right) (exponent : Int) :
    units left exponent ≤ units right exponent :=
  Nat.mul_le_mul_right _ atMost

theorem lt_of_units_lt {left right : Nat} {exponent : Int}
    (less : units left exponent < units right exponent) : left < right :=
  Nat.lt_of_mul_lt_mul_right less

theorem units_inj {left right : Nat} {exponent : Int}
    (same : units left exponent = units right exponent) : left = right :=
  Nat.eq_of_mul_eq_mul_right (Nat.two_pow_pos _) same

theorem units_mul_two_pow (significand steps : Nat) {exponent : Int} (least : -1074 ≤ exponent) :
    units (significand * 2 ^ steps) exponent = units significand (exponent + steps) := by
  have shifted : (exponent + steps + 1074).toNat = steps + (exponent + 1074).toNat := by omega
  rw [units, units, shifted, Nat.pow_add, Nat.mul_assoc]

theorem units_add (left right : Nat) (exponent : Int) :
    units (left + right) exponent = units left exponent + units right exponent :=
  Nat.add_mul _ _ _

theorem log2_mul_two_pow {number : Nat} (positive : 0 < number) (steps : Nat) :
    (number * 2 ^ steps).log2 = number.log2 + steps := by
  rw [Nat.log2_eq_iff (Nat.ne_of_gt (Nat.mul_pos positive (Nat.two_pow_pos steps)))]
  have lower := Nat.log2_self_le (Nat.ne_of_gt positive)
  have upper : number < 2 ^ (number.log2 + 1) := Nat.lt_log2_self
  rw [Nat.add_right_comm, Nat.pow_add, Nat.pow_add]
  exact ⟨Nat.mul_le_mul_right _ lower, Nat.mul_lt_mul_of_pos_right upper (Nat.two_pow_pos steps)⟩

namespace Held

variable {significand other : Nat} {exponent power : Int}

/-- A greater exponent outweighs the significand. -/
theorem units_lt_of_lt (held : Held significand exponent) (otherHeld : Held other power)
    (less : exponent < power) : units significand exponent < units other power := by
  -- Its exponent is not the least one, so the greater number has a full significand.
  have full : 2 ^ (52 : Nat) ≤ other := by
    rcases otherHeld.full with full | least
    · exact full
    · have := held.least
      omega
  have step : (power + 1074).toNat
      = (exponent + 1074).toNat + 1 + (power - exponent - 1).toNat := by
    have := held.least
    omega
  calc units significand exponent < 2 ^ (53 : Nat) * 2 ^ (exponent + 1074).toNat :=
        Nat.mul_lt_mul_of_pos_right held.narrow (Nat.two_pow_pos _)
    _ = 2 ^ (52 : Nat) * 2 ^ ((exponent + 1074).toNat + 1) := by
        rw [← Nat.pow_add, ← Nat.pow_add]
        congr 1
        omega
    _ ≤ other * 2 ^ (power + 1074).toNat := by
        refine Nat.mul_le_mul full (Nat.pow_le_pow_right (by decide) ?_)
        omega

/-- Doubles are ordered by their exponents, and by their significands if these are the same. -/
theorem compare_eq (held : Held significand exponent) (otherHeld : Held other power) :
    (compare exponent power).then (compare significand other)
      = compare (units significand exponent) (units other power) := by
  rcases Int.lt_trichotomy exponent power with less | same | greater
  · rw [Int.compare_eq_lt.mpr less, Nat.compare_eq_lt.mpr (held.units_lt_of_lt otherHeld less)]
    rfl
  · subst same
    rw [Int.compare_eq_eq.mpr rfl]
    rcases Nat.lt_trichotomy significand other with less | same | greater
    · rw [Nat.compare_eq_lt.mpr less, Nat.compare_eq_lt.mpr (units_lt_units less exponent)]
      rfl
    · subst same
      rw [Nat.compare_eq_eq.mpr rfl, Nat.compare_eq_eq.mpr rfl]
      rfl
    · rw [Nat.compare_eq_gt.mpr greater, Nat.compare_eq_gt.mpr (units_lt_units greater exponent)]
      rfl
  · rw [Int.compare_eq_gt.mpr greater,
      Nat.compare_eq_gt.mpr (otherHeld.units_lt_of_lt held greater)]
    rfl

theorem eq_of_units_eq (held : Held significand exponent) (otherHeld : Held other power)
    (same : units significand exponent = units other power) :
    significand = other ∧ exponent = power := by
  have compared := held.compare_eq otherHeld
  rw [same, Nat.compare_eq_eq.mpr rfl, Ordering.then_eq_eq] at compared
  exact ⟨Nat.compare_eq_eq.mp compared.2, Int.compare_eq_eq.mp compared.1⟩

theorem log2_of_full (held : Held significand exponent) (full : 2 ^ (52 : Nat) ≤ significand) :
    significand.log2 = 52 :=
  (Nat.log2_eq_iff (Nat.ne_of_gt held.positive)).mpr ⟨full, held.narrow⟩

theorem log2_le (held : Held significand exponent) : significand.log2 ≤ 52 :=
  Nat.le_of_lt_succ ((Nat.log2_lt (Nat.ne_of_gt held.positive)).mpr held.narrow)

/-- The exponent under which a double is held is the one that its format asks for. -/
theorem targetExponent_eq (held : Held significand exponent) :
    Format.binary64.targetExponent (totalExponent significand exponent) = exponent := by
  have target : Format.binary64.targetExponent (totalExponent significand exponent)
      = max (significand.log2 + 1 + exponent - 53) (-1074) := rfl
  rw [target]
  have short := held.log2_le
  have least := held.least
  rcases held.full with full | lowest
  · rw [held.log2_of_full full]
    omega
  · omega

end Held

theorem exponentBias_binary64 : Format.binary64.exponentBias = 1023 := rfl

theorem mantissaBits_binary64 : Format.binary64.mantissaBits = 53 := rfl

theorem unpack_packComponents_of_normal {exponent : BitVec 11} {fraction : BitVec 52}
    (positive : 0 < (1#1 ++ fraction).toNat) (finite : exponent ≠ -1#11)
    (normal : exponent ≠ 0#11) :
    UnpackedFloat.unpack .binary64
        (UnpackedFloat.packComponents .binary64 .positive exponent fraction)
      = .finite .positive (1#1 ++ fraction).toNat (exponent.toNat - 1075) positive := by
  unfold UnpackedFloat.unpack
  simp only [UnpackedFloat.unpackExponent_packComponents,
    UnpackedFloat.unpackMantissa_packComponents, UnpackedFloat.unpackSign_packComponents]
  rw [if_neg finite, if_neg normal]
  rfl

theorem unpack_packComponents_of_subnormal {fraction : BitVec 52}
    (positive : 0 < fraction.toNat) :
    UnpackedFloat.unpack .binary64
        (UnpackedFloat.packComponents .binary64 .positive 0#11 fraction)
      = .finite .positive fraction.toNat (-1074) positive := by
  have present : ¬fraction = 0#52 := by
    rintro rfl
    exact absurd positive (by decide)
  unfold UnpackedFloat.unpack
  simp only [UnpackedFloat.unpackExponent_packComponents,
    UnpackedFloat.unpackMantissa_packComponents, UnpackedFloat.unpackSign_packComponents]
  rw [if_neg (by decide), if_pos trivial, dif_neg present]
  rfl

theorem toNat_one_append (fraction : BitVec 52) :
    (1#1 ++ fraction).toNat = 2 ^ (52 : Nat) + fraction.toNat := by
  rw [BitVec.toNat_append, ← Nat.shiftLeft_add_eq_or_of_lt fraction.isLt]
  rfl

theorem pack_of_tooLarge {significand : Nat} {exponent : Int} {positive : 0 < significand}
    (tooLarge : 2 ^ (11 : Nat) ≤ (exponent + 1075).toNat + 1) :
    UnpackedFloat.pack .binary64 (.finite .positive significand exponent positive)
      = UnpackedFloat.packedInfinity .binary64 .positive := by
  have biased : exponent + (1023 : Nat) + (52 : Nat) = exponent + 1075 := by omega
  unfold UnpackedFloat.pack
  dsimp only
  rw [exponentBias_binary64, biased, if_pos tooLarge]

theorem pack_of_normal {significand : Nat} {exponent : Int} {positive : 0 < significand}
    (inside : ¬2 ^ (11 : Nat) ≤ (exponent + 1075).toNat + 1) (full : significand.log2 = 52) :
    UnpackedFloat.pack .binary64 (.finite .positive significand exponent positive)
      = UnpackedFloat.packComponents .binary64 .positive
        (BitVec.ofNat 11 (exponent + 1075).toNat) (BitVec.ofNat 52 significand) := by
  have biased : exponent + (1023 : Nat) + (52 : Nat) = exponent + 1075 := by omega
  unfold UnpackedFloat.pack
  dsimp only
  rw [exponentBias_binary64, mantissaBits_binary64, biased, if_neg inside, full]
  rfl

theorem pack_of_subnormal {significand : Nat} {exponent : Int} {positive : 0 < significand}
    (inside : ¬2 ^ (11 : Nat) ≤ (exponent + 1075).toNat + 1) (short : significand.log2 < 52) :
    UnpackedFloat.pack .binary64 (.finite .positive significand exponent positive)
      = UnpackedFloat.packComponents .binary64 .positive 0#11 (BitVec.ofNat 52 significand) := by
  have notFull : ¬significand.log2 + 1 = 53 := by omega
  have biased : exponent + (1023 : Nat) + (52 : Nat) = exponent + 1075 := by omega
  unfold UnpackedFloat.pack
  dsimp only
  rw [exponentBias_binary64, mantissaBits_binary64, biased, if_neg inside, if_neg notFull]

/-- Nothing is lost when a number that is held is packed. -/
theorem Held.unpack_pack {significand : Nat} {exponent : Int} (held : Held significand exponent) :
    (Float.Model.pack (.finite .positive significand exponent held.positive)).unpack
      = .finite .positive significand exponent held.positive := by
  have least := held.least
  have greatest := held.greatest
  have narrow := held.narrow
  change UnpackedFloat.unpack .binary64 (UnpackedFloat.pack .binary64
    (.finite .positive significand exponent held.positive)) = _
  -- A full significand is packed without its top bit, for which a nonzero exponent stands.
  by_cases full : 2 ^ (52 : Nat) ≤ significand
  · have biased : (BitVec.ofNat 11 (exponent + 1075).toNat).toNat = (exponent + 1075).toNat := by
      rw [BitVec.toNat_ofNat, Nat.mod_eq_of_lt (by omega)]
    have whole : (1#1 ++ BitVec.ofNat 52 significand).toNat = significand := by
      obtain ⟨fraction, rfl⟩ := Nat.exists_eq_add_of_le full
      rw [toNat_one_append, BitVec.toNat_ofNat, Nat.add_mod_left, Nat.mod_eq_of_lt (by omega)]
    rw [pack_of_normal (by omega) (held.log2_of_full full), unpack_packComponents_of_normal]
    · have reached : ((exponent + 1075).toNat : Int) - 1075 = exponent := by omega
      rw [UnpackedFloat.finite.injEq, biased]
      exact ⟨rfl, whole, reached⟩
    · rw [whole]
      exact held.positive
    · intro same
      have := congrArg BitVec.toNat same
      rw [biased] at this
      change (exponent + 1075).toNat = 2047 at this
      omega
    · intro same
      have := congrArg BitVec.toNat same
      rw [biased] at this
      change (exponent + 1075).toNat = 0 at this
      omega
  · have lowest : exponent = -1074 := held.full.resolve_left full
    subst lowest
    have low : (BitVec.ofNat 52 significand).toNat = significand := by
      rw [BitVec.toNat_ofNat, Nat.mod_eq_of_lt (by omega)]
    have short : significand.log2 < 52 :=
      (Nat.log2_lt (Nat.ne_of_gt held.positive)).mpr (by omega)
    have present : 0 < (BitVec.ofNat 52 significand).toNat := by
      rw [low]
      exact held.positive
    rw [pack_of_subnormal (by decide) short, unpack_packComponents_of_subnormal present]
    rw [UnpackedFloat.finite.injEq]
    exact ⟨rfl, low, rfl⟩

theorem held_of_unpack {number : Float.Model} {sign : UnpackedFloat.Sign} {significand : Nat}
    {exponent : Int} {positive : 0 < significand}
    (unpacked : number.unpack = .finite sign significand exponent positive) :
    Held significand exponent := by
  unfold Float.Model.unpack UnpackedFloat.unpack at unpacked
  dsimp only at unpacked
  have narrow : (@UnpackedFloat.unpackMantissa .binary64 number.toBits.toBitVec).toNat
      < 2 ^ (52 : Nat) := BitVec.isLt _
  have inside : (@UnpackedFloat.unpackExponent .binary64 number.toBits.toBitVec).toNat
      < 2 ^ (11 : Nat) := BitVec.isLt _
  split at unpacked
  · split at unpacked <;> cases unpacked
  · rename_i finite
    split at unpacked
    · rename_i none
      split at unpacked
      · cases unpacked
      · cases unpacked
        rw [none]
        exact ⟨positive, Nat.lt_trans narrow (by decide), by decide, by decide, .inr rfl⟩
    · rename_i some
      cases unpacked
      rw [toNat_one_append, exponentBias_binary64]
      have notNone : (@UnpackedFloat.unpackExponent .binary64 number.toBits.toBitVec).toNat ≠ 0 :=
        fun same => some (BitVec.eq_of_toNat_eq same)
      have notAll : (@UnpackedFloat.unpackExponent .binary64 number.toBits.toBitVec).toNat ≠ 2047 :=
        fun same => finite (BitVec.eq_of_toNat_eq same)
      exact ⟨by omega, by omega, by omega, by omega, .inl (by omega)⟩

theorem totalExponent_mul_two_pow {significand : Nat} (positive : 0 < significand) (steps : Nat)
    (exponent : Int) :
    totalExponent (significand * 2 ^ steps) (exponent - steps)
      = totalExponent significand exponent := by
  rw [totalExponent, totalExponent, log2_mul_two_pow positive]
  omega

theorem shiftRight_mul_two_pow (significand steps : Nat) :
    (⟨significand * 2 ^ steps, false, false⟩ : UnpackedFloat.ExtendedMantissa) >>> steps
      = ⟨significand, false, false⟩ := by
  induction steps generalizing significand with
  | zero => rw [Nat.pow_zero, Nat.mul_one]; rfl
  | succ steps ih =>
      have doubled : significand * 2 ^ (steps + 1) = significand * 2 * 2 ^ steps := by
        rw [Nat.pow_succ, Nat.mul_comm (2 ^ steps), Nat.mul_assoc]
      change UnpackedFloat.ExtendedMantissa.shiftRightOne
        ((⟨significand * 2 ^ (steps + 1), false, false⟩ : UnpackedFloat.ExtendedMantissa)
          >>> steps) = _
      rw [doubled, ih]
      simp [UnpackedFloat.ExtendedMantissa.shiftRightOne]

namespace Held

variable {significand other : Nat} {exponent power : Int}

theorem shiftToTargetExponent_eq (held : Held significand exponent) (steps : Nat) :
    UnpackedFloat.shiftToTargetExponent .binary64 (significand * 2 ^ steps) (exponent - steps)
      .exact = (⟨significand, false, false⟩, exponent) := by
  have amount : (exponent - (exponent - steps)).toNat = steps := by omega
  have reached : exponent - (steps : Int) + steps = exponent := by omega
  rw [UnpackedFloat.shiftToTargetExponent, totalExponent_mul_two_pow held.positive,
    held.targetExponent_eq, UnpackedFloat.shiftToExponent, amount, reached,
    UnpackedFloat.ExtendedMantissa.ofMantissaAndAccuracy, shiftRight_mul_two_pow]

theorem roundWithAccuracy_eq (held : Held significand exponent) (steps : Nat) :
    UnpackedFloat.roundWithAccuracy .binary64 .positive (significand * 2 ^ steps)
        (exponent - steps) .exact
      = .finite .positive significand exponent held.positive := by
  have again := held.shiftToTargetExponent_eq 0
  rw [Nat.pow_zero, Nat.mul_one, Int.ofNat_zero, Int.sub_zero] at again
  rw [UnpackedFloat.roundWithAccuracy, held.shiftToTargetExponent_eq steps]
  dsimp only [UnpackedFloat.ExtendedMantissa.roundedMantissa,
    UnpackedFloat.ExtendedMantissa.accuracy, UnpackedFloat.Accuracy.roundToNearestEven]
  rw [again]
  exact dif_neg (Nat.ne_of_gt held.positive)

/-- A number with the units of one that is held is rounded to that one. -/
theorem round_eq (held : Held other power) (least : -1074 ≤ exponent)
    (same : units significand exponent = units other power) :
    UnpackedFloat.round .binary64 .positive significand exponent
      = .finite .positive other power held.positive := by
  -- The given significand is too short or too long by some zeros. A short one is extended
  -- before rounding and a long one is cut in it.
  rcases Int.le_total power exponent with below | above
  · obtain ⟨steps, rfl⟩ := Int.exists_add_of_le below
    rw [← units_mul_two_pow significand steps held.least] at same
    have whole := units_inj same
    subst whole
    have positive : 0 < significand := Nat.pos_of_mul_pos_right held.positive
    have target := held.targetExponent_eq
    have back : power + (steps : Int) - steps = power := by omega
    have amount : (power + (steps : Int) - power).toNat = steps := by omega
    have total := totalExponent_mul_two_pow positive steps (power + steps)
    rw [back] at total
    have rounded := held.roundWithAccuracy_eq 0
    rw [Nat.pow_zero, Nat.mul_one, Int.ofNat_zero, Int.sub_zero] at rounded
    rw [UnpackedFloat.round, ← total, target, UnpackedFloat.decreaseExponent, amount, back,
      Nat.shiftLeft_eq]
    exact rounded
  · obtain ⟨steps, rfl⟩ := Int.exists_add_of_le above
    rw [← units_mul_two_pow other steps least] at same
    have whole := units_inj same
    subst whole
    have back : exponent + (steps : Int) - steps = exponent := by omega
    have amount : (exponent - (exponent + (steps : Int))).toNat = 0 := by omega
    have total := totalExponent_mul_two_pow held.positive steps (exponent + steps)
    rw [back] at total
    have rounded := held.roundWithAccuracy_eq steps
    rw [back] at rounded
    rw [UnpackedFloat.round, total, held.targetExponent_eq, UnpackedFloat.decreaseExponent,
      amount, Nat.shiftLeft_zero, Int.ofNat_zero, Int.sub_zero]
    exact rounded

end Held

/-- Whether a double from zero on stands for a number of units. Both zeros stand for none. -/
inductive HasUnits (number : Float) : Nat → Prop where
  | zero {sign : UnpackedFloat.Sign} (unpacked : number.toModel.unpack = .zero sign) :
      HasUnits number 0
  | finite {significand : Nat} {exponent : Int} (held : Held significand exponent)
      (unpacked : number.toModel.unpack = .finite .positive significand exponent held.positive) :
      HasUnits number (units significand exponent)

/-- Whether a double stands for a number of units. -/
def Representable (count : Nat) : Prop :=
  ∃ number, HasUnits number count

theorem Held.hasUnits {significand : Nat} {exponent : Int} (held : Held significand exponent) :
    HasUnits (.ofModel (.pack (.finite .positive significand exponent held.positive)))
      (units significand exponent) :=
  .finite held held.unpack_pack

theorem hasUnits_pack_zero (sign : UnpackedFloat.Sign) :
    HasUnits (.ofModel (.pack (.zero sign))) 0 := by
  have unpacked : (Float.Model.pack (.zero sign)).unpack = .zero sign := by
    cases sign <;> rfl
  exact .zero unpacked

theorem Representable.exists_held {count : Nat} (representable : Representable count)
    (positive : 0 < count) :
    ∃ significand exponent, Held significand exponent ∧ units significand exponent = count := by
  obtain ⟨number, has⟩ := representable
  cases has with
  | zero unpacked => exact absurd positive (Nat.lt_irrefl 0)
  | finite held unpacked => exact ⟨_, _, held, rfl⟩

theorem Held.representable {significand : Nat} {exponent : Int}
    (held : Held significand exponent) : Representable (units significand exponent) :=
  ⟨_, held.hasUnits⟩

theorem held_of_log2_eq {significand : Nat} {exponent : Int} (full : significand.log2 = 52)
    (least : -1074 ≤ exponent) (greatest : exponent ≤ 971) : Held significand exponent := by
  have present : significand ≠ 0 := by
    rintro rfl
    exact absurd full (by decide)
  have bounds := (Nat.log2_eq_iff present).mp full
  exact ⟨Nat.pos_of_ne_zero present, bounds.2, least, greatest, .inl bounds.1⟩

theorem held_of_log2_le {significand : Nat} (positive : 0 < significand)
    (short : significand.log2 ≤ 52) : Held significand (-1074) :=
  ⟨positive, (Nat.log2_lt (Nat.ne_of_gt positive)).mp (by omega), by decide, by decide, .inr rfl⟩

/-- A significand may be short. It is extended by zeros, until it has all its bits or the
exponent is the least one. -/
theorem representable_units {significand : Nat} {exponent : Int}
    (narrow : significand < 2 ^ (53 : Nat)) (least : -1074 ≤ exponent) (greatest : exponent ≤ 971) :
    Representable (units significand exponent) := by
  rcases Nat.eq_zero_or_pos significand with rfl | positive
  · rw [units, Nat.zero_mul]
    exact ⟨_, hasUnits_pack_zero .positive⟩
  · have short : significand.log2 < 53 := (Nat.log2_lt (Nat.ne_of_gt positive)).mpr narrow
    -- The exponent is lowered until the significand is full, or as far as it goes.
    obtain ⟨steps, lowest⟩ := Int.exists_add_of_le least
    rcases Nat.le_total (52 - significand.log2) steps with room | tight
    · have full := log2_mul_two_pow positive (52 - significand.log2)
      rw [Nat.add_sub_cancel' (by omega)] at full
      have held : Held (significand * 2 ^ (52 - significand.log2))
          (exponent - (52 - significand.log2 : Nat)) :=
        held_of_log2_eq full (by omega) (by omega)
      have represented := held.representable
      rwa [units_mul_two_pow _ _ held.least, Int.sub_add_cancel] at represented
    · have held : Held (significand * 2 ^ steps) (-1074) :=
        held_of_log2_le (Nat.mul_pos positive (Nat.two_pow_pos _)) (by
          rw [log2_mul_two_pow positive]
          omega)
      have represented := held.representable
      rwa [units_mul_two_pow _ _ held.least, ← lowest] at represented

theorem normalize_natCast {significand : Nat} (positive : 0 < significand) (exponent : Int)
    (sign : UnpackedFloat.Sign) :
    UnpackedFloat.normalize .binary64 (significand : Int) exponent sign
      = UnpackedFloat.round .binary64 .positive significand exponent := by
  rw [UnpackedFloat.normalize, Int.compare_eq_gt.mpr (Int.natCast_pos.mpr positive)]
  rfl

theorem hasUnits_add_zero (sign other : UnpackedFloat.Sign) :
    HasUnits (.ofModel (.pack (UnpackedFloat.add .binary64 (.zero sign) (.zero other)))) 0 := by
  rw [UnpackedFloat.add]
  split
  · exact hasUnits_pack_zero sign
  · exact hasUnits_pack_zero .positive

theorem units_decreaseExponent (significand : Nat) {exponent target : Int}
    (below : target ≤ exponent) (least : -1074 ≤ target) :
    units (UnpackedFloat.decreaseExponent significand exponent target).1 target
      = units significand exponent := by
  obtain ⟨steps, rfl⟩ := Int.exists_add_of_le below
  have amount : (target + (steps : Int) - target).toNat = steps := by omega
  rw [UnpackedFloat.decreaseExponent, amount, Nat.shiftLeft_eq, units_mul_two_pow _ _ least]

/-- Both summands are brought to the smaller exponent, where their significands are added. -/
theorem Held.hasUnits_add {significand other : Nat} {exponent power : Int}
    (held : Held significand exponent) (otherHeld : Held other power)
    (representable : Representable (units significand exponent + units other power)) :
    HasUnits (.ofModel (.pack (UnpackedFloat.add .binary64
        (.finite .positive significand exponent held.positive)
        (.finite .positive other power otherHeld.positive))))
      (units significand exponent + units other power) := by
  have least : -1074 ≤ min exponent power := by
    have := held.least
    have := otherHeld.least
    omega
  have leftUnits := units_decreaseExponent significand (Int.min_le_left exponent power) least
  have rightUnits := units_decreaseExponent other (Int.min_le_right exponent power) least
  rw [UnpackedFloat.add]
  dsimp only
  generalize (UnpackedFloat.decreaseExponent significand exponent (min exponent power)).1 = first
    at leftUnits ⊢
  generalize (UnpackedFloat.decreaseExponent other power (min exponent power)).1 = second
    at rightUnits ⊢
  have sum : units (first + second) (min exponent power)
      = units significand exponent + units other power := by
    rw [units_add, leftUnits, rightUnits]
  have positive : 0 < first + second := by
    have := units_pos held.positive exponent
    refine Nat.pos_of_ne_zero fun none => ?_
    rw [none, units, Nat.zero_mul] at sum
    omega
  obtain ⟨whole, reached, wholeHeld, same⟩ := representable.exists_held
    (Nat.add_pos_left (units_pos held.positive exponent) _)
  change HasUnits (.ofModel (.pack (UnpackedFloat.normalize .binary64
    ((first + second : Nat) : Int) (min exponent power) .positive))) _
  rw [normalize_natCast positive, wholeHeld.round_eq least (by rw [sum, same]), ← same]
  exact wholeHeld.hasUnits

theorem lt_iff_unpack (left right : Float) :
    left < right ↔ UnpackedFloat.lt left.toModel.unpack right.toModel.unpack = true :=
  decide_eq_true_iff

theorem le_iff_unpack (left right : Float) :
    left ≤ right ↔ UnpackedFloat.le left.toModel.unpack right.toModel.unpack = true :=
  decide_eq_true_iff

namespace HasUnits

variable {left right : Float} {leftUnits rightUnits : Nat}

theorem compare_eq (leftHas : HasUnits left leftUnits) (rightHas : HasUnits right rightUnits) :
    left.toModel.unpack.compare right.toModel.unpack = some (compare leftUnits rightUnits) := by
  cases leftHas with
  | zero unpacked =>
      rw [unpacked]
      cases rightHas with
      | zero other =>
          rw [other]
          rfl
      | finite held other =>
          rw [other, Nat.compare_eq_lt.mpr (units_pos held.positive _)]
          rfl
  | finite held unpacked =>
      rw [unpacked]
      cases rightHas with
      | zero other =>
          rw [other, Nat.compare_eq_gt.mpr (units_pos held.positive _)]
          rfl
      | finite otherHeld other =>
          rw [other, UnpackedFloat.compare, held.compare_eq otherHeld]

theorem lt_iff (leftHas : HasUnits left leftUnits) (rightHas : HasUnits right rightUnits) :
    left < right ↔ leftUnits < rightUnits := by
  rw [lt_iff_unpack, UnpackedFloat.lt, leftHas.compare_eq rightHas, beq_iff_eq,
    Option.some.injEq, Nat.compare_eq_lt]

theorem le_iff (leftHas : HasUnits left leftUnits) (rightHas : HasUnits right rightUnits) :
    left ≤ right ↔ leftUnits ≤ rightUnits := by
  rw [le_iff_unpack, UnpackedFloat.le, leftHas.compare_eq rightHas, Option.any_some,
    Nat.isLE_compare]

theorem isFinite (has : HasUnits left leftUnits) : left.isFinite = true := by
  change UnpackedFloat.isFinite _ = true
  cases has with
  | zero unpacked => rw [unpacked]; rfl
  | finite held unpacked => rw [unpacked]; rfl

/-- A sum that a double stands for is exact. -/
theorem add (leftHas : HasUnits left leftUnits) (rightHas : HasUnits right rightUnits)
    (representable : Representable (leftUnits + rightUnits)) :
    HasUnits (left + right) (leftUnits + rightUnits) := by
  change HasUnits (.ofModel (.pack (UnpackedFloat.add .binary64 left.toModel.unpack
    right.toModel.unpack))) _
  cases leftHas with
  | zero unpacked =>
      rw [unpacked]
      cases rightHas with
      | zero other =>
          rw [other]
          exact hasUnits_add_zero _ _
      | finite held other =>
          rw [other, Nat.zero_add]
          exact held.hasUnits
  | finite held unpacked =>
      rw [unpacked]
      cases rightHas with
      | zero other =>
          rw [other, Nat.add_zero]
          exact held.hasUnits
      | finite otherHeld other =>
          rw [other]
          exact held.hasUnits_add otherHeld representable

theorem le_of_infinity_negative (has : HasUnits right rightUnits)
    (unpacked : left.toModel.unpack = .infinity .negative) : left ≤ right := by
  rw [le_iff_unpack, unpacked]
  cases has with
  | zero other => rw [other]; rfl
  | finite held other => rw [other]; rfl

theorem le_of_finite_negative (has : HasUnits right rightUnits) {significand : Nat}
    {exponent : Int} {positive : 0 < significand}
    (unpacked : left.toModel.unpack = .finite .negative significand exponent positive) :
    left ≤ right := by
  rw [le_iff_unpack, unpacked]
  cases has with
  | zero other => rw [other]; rfl
  | finite held other => rw [other]; rfl

theorem not_lt_of_infinity_positive (has : HasUnits right rightUnits)
    (unpacked : left.toModel.unpack = .infinity .positive) : ¬left < right := by
  rw [lt_iff_unpack, unpacked]
  cases has with
  | zero other => rw [other]; exact Bool.false_ne_true
  | finite held other => rw [other]; exact Bool.false_ne_true

/-- What is below a number of units is such a number as well, or it is below all of them. -/
theorem exists_or_forall_le_of_lt (has : HasUnits right rightUnits) (less : left < right) :
    (∃ count, HasUnits left count) ∨ ∀ other count, HasUnits other count → left ≤ other := by
  rcases unpacked : left.toModel.unpack
    with sign | _ | sign | ⟨sign, significand, exponent, positive⟩
  · cases sign with
    | negative => exact .inr fun _ _ otherHas => otherHas.le_of_infinity_negative unpacked
    | positive => exact absurd less (has.not_lt_of_infinity_positive unpacked)
  · rw [lt_iff_unpack, unpacked] at less
    cases less
  · exact .inl ⟨0, .zero unpacked⟩
  · cases sign with
    | negative => exact .inr fun _ _ otherHas => otherHas.le_of_finite_negative unpacked
    | positive => exact .inl ⟨_, .finite (held_of_unpack unpacked) unpacked⟩

end HasUnits

theorem hasUnits_one : HasUnits (Float.ofNat 1) (units 1 0) := by
  have held : Held (1 * 2 ^ (52 : Nat)) (-52) :=
    ⟨by decide, by decide, by decide, by decide, .inl (by decide)⟩
  have has : HasUnits (Float.ofNat 1) (units (1 * 2 ^ (52 : Nat)) (-52)) := .finite held rfl
  rw [units_mul_two_pow 1 52 held.least] at has
  exact has

theorem hasUnits_zero : HasUnits (Float.ofNat 0) 0 := by
  have unpacked : (Float.ofNat 0).toModel.unpack = .zero .positive := rfl
  exact .zero unpacked

theorem hasUnits_literal_zero : HasUnits 0.0 0 := by
  have unpacked : (0.0 : Float).toModel.unpack = .zero .positive := rfl
  exact .zero unpacked

theorem hasUnits_negative_zero : HasUnits (-0.0) 0 := by
  have unpacked : (-0.0 : Float).toModel.unpack = .zero .negative := rfl
  exact .zero unpacked

end Wordloom.Binary
