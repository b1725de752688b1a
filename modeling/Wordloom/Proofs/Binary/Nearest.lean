import Mathlib
import Wordloom.Binary.Rounding

/-!
# Nearest numbers

This file shows what rounding to a format keeps of the order of numbers. A ratio that is at most
a number of the format is not rounded above it, and one that is at least this number is not
rounded below it. So a number of the format is rounded to itself, and no ratio is rounded across
another number. The same holds of decimals, also of those that are settled by their exponent.

A format holds each of its numbers in one way: the significand has all its bits unless the
exponent is the least one. The exponent to which a ratio is brought is compared with that of the
number. If the two differ, already the leading bits decide.
-/

namespace Wordloom.Binary

-- Powers are those of the core library, whatever else is imported.
attribute [local instance (2000)] instPowNat

/-- The number `significand * 2 ^ exponent`. -/
def scaled (significand : ℕ) (exponent : ℤ) : ℚ :=
  significand * (2 : ℚ) ^ exponent

theorem scaled_nonneg (significand : ℕ) (exponent : ℤ) : 0 ≤ scaled significand exponent :=
  mul_nonneg (Nat.cast_nonneg _) (by positivity)

/-- A power as a fraction of whole numbers, one of which is one. -/
theorem zpow_eq_div {base : ℕ} (positive : 0 < base) (exponent : ℤ) :
    (base : ℚ) ^ exponent
      = ((base ^ exponent.toNat : ℕ) : ℚ) / ((base ^ (-exponent).toNat : ℕ) : ℚ) := by
  have nonzero : (base : ℚ) ≠ 0 := by exact_mod_cast Nat.ne_of_gt positive
  rw [Nat.cast_pow, Nat.cast_pow, ← zpow_natCast, ← zpow_natCast, ← zpow_sub₀ nonzero]
  congr 1
  omega

theorem scaled_eq_div (significand : ℕ) (exponent : ℤ) :
    scaled significand exponent
      = ((significand * 2 ^ exponent.toNat : ℕ) : ℚ) / ((2 ^ (-exponent).toNat : ℕ) : ℚ) := by
  have power := zpow_eq_div (by decide : 0 < 2) exponent
  rw [Nat.cast_ofNat] at power
  rw [scaled, power, Nat.cast_mul, mul_div_assoc]

/-- A scaled number is at most a ratio if it is so after both are brought to whole numbers. -/
theorem scaled_le_div_iff {numerator denominator significand : ℕ} (positive : 0 < denominator)
    (exponent : ℤ) :
    scaled significand exponent ≤ (numerator : ℚ) / denominator ↔
      significand * (denominator * 2 ^ exponent.toNat) ≤ numerator * 2 ^ (-exponent).toNat := by
  have scale : (0 : ℚ) < ((2 ^ (-exponent).toNat : ℕ) : ℚ) := by
    exact_mod_cast Nat.two_pow_pos _
  rw [scaled_eq_div, div_le_div_iff₀ scale (by exact_mod_cast positive), ← Nat.cast_mul,
    ← Nat.cast_mul, Nat.cast_le, Nat.mul_right_comm, Nat.mul_assoc, Nat.mul_comm denominator]

theorem div_le_scaled_iff {numerator denominator significand : ℕ} (positive : 0 < denominator)
    (exponent : ℤ) :
    (numerator : ℚ) / denominator ≤ scaled significand exponent ↔
      numerator * 2 ^ (-exponent).toNat ≤ significand * (denominator * 2 ^ exponent.toNat) := by
  have scale : (0 : ℚ) < ((2 ^ (-exponent).toNat : ℕ) : ℚ) := by
    exact_mod_cast Nat.two_pow_pos _
  rw [scaled_eq_div, div_le_div_iff₀ (by exact_mod_cast positive) scale, ← Nat.cast_mul,
    ← Nat.cast_mul, Nat.cast_le, Nat.mul_right_comm, Nat.mul_assoc, Nat.mul_comm denominator]

theorem div_lt_scaled_iff {numerator denominator significand : ℕ} (positive : 0 < denominator)
    (exponent : ℤ) :
    (numerator : ℚ) / denominator < scaled significand exponent ↔
      numerator * 2 ^ (-exponent).toNat < significand * (denominator * 2 ^ exponent.toNat) :=
  lt_iff_lt_of_le_iff_le (scaled_le_div_iff positive exponent)

/-- A number is below the power of two that its significand does not reach. -/
theorem scaled_lt_two_zpow {significand bits : ℕ} (narrow : significand < 2 ^ bits)
    (exponent : ℤ) : scaled significand exponent < (2 : ℚ) ^ (exponent + bits) := by
  have less : (significand : ℚ) < (2 : ℚ) ^ (bits : ℤ) := by exact_mod_cast narrow
  rw [add_comm, zpow_add₀ two_ne_zero]
  exact mul_lt_mul_of_pos_right less (by positivity)

theorem scaled_lt_scaled {left right : ℕ} (less : left < right) (exponent : ℤ) :
    scaled left exponent < scaled right exponent :=
  mul_lt_mul_of_pos_right (by exact_mod_cast less) (by positivity)

theorem scaled_le_scaled {left right : ℕ} (atMost : left ≤ right) (exponent : ℤ) :
    scaled left exponent ≤ scaled right exponent :=
  mul_le_mul_of_nonneg_right (by exact_mod_cast atMost) (by positivity)

theorem scaled_mul (significand other : ℕ) (exponent power : ℤ) :
    scaled (significand * other) (exponent + power)
      = scaled significand exponent * scaled other power := by
  rw [scaled, scaled, scaled, zpow_add₀ two_ne_zero, Nat.cast_mul]
  ring

theorem scaled_mul_two_pow (significand steps : ℕ) (exponent : ℤ) :
    scaled (significand * 2 ^ steps) (exponent - steps) = scaled significand exponent := by
  rw [scaled, scaled, zpow_sub₀ two_ne_zero, zpow_natCast, Nat.cast_mul, Nat.cast_pow,
    Nat.cast_ofNat]
  field_simp

theorem div_le_halfEven (numerator denominator : ℕ) :
    numerator / denominator ≤ halfEven numerator denominator := by
  rw [halfEven]
  split <;> omega

theorem halfEven_of_lt {numerator denominator : ℕ}
    (less : denominator < 2 * (numerator % denominator)) :
    halfEven numerator denominator = numerator / denominator + 1 := by
  rw [halfEven, Nat.compare_eq_gt.mpr less]

theorem halfEven_of_eq {numerator denominator : ℕ}
    (same : 2 * (numerator % denominator) = denominator) :
    halfEven numerator denominator
      = numerator / denominator + numerator / denominator % 2 := by
  rw [halfEven, Nat.compare_eq_eq.mpr same]

/-- Rounding does not go below a whole number. -/
theorem le_halfEven {numerator denominator bound : ℕ} (positive : 0 < denominator)
    (atMost : bound * denominator ≤ numerator) : bound ≤ halfEven numerator denominator :=
  ((Nat.le_div_iff_mul_le positive).2 atMost).trans (div_le_halfEven numerator denominator)

/-- Rounding goes above a whole number only if the ratio is at least half way to the next. -/
theorem halfEven_le_of_lt {numerator denominator bound : ℕ}
    (less : 2 * numerator < (2 * bound + 1) * denominator) :
    halfEven numerator denominator ≤ bound := by
  have whole := Nat.div_add_mod' numerator denominator
  have atMost : numerator / denominator ≤ bound := by
    by_contra above
    have := Nat.mul_le_mul_right denominator (Nat.succ_le_of_lt (Nat.lt_of_not_le above))
    rw [Nat.add_mul, Nat.mul_assoc] at less
    rw [Nat.succ_mul] at this
    omega
  rw [halfEven]
  rcases Nat.lt_or_eq_of_le atMost with next | same
  · split <;> omega
  · have nearer : 2 * (numerator % denominator) < denominator := by
      rw [same] at whole
      rw [Nat.add_mul, Nat.mul_assoc] at less
      omega
    rw [Nat.compare_eq_lt.mpr nearer]
    exact atMost

/-- Rounding does not go above a whole number. -/
theorem halfEven_le {numerator denominator bound : ℕ} (positive : 0 < denominator)
    (atLeast : numerator ≤ bound * denominator) : halfEven numerator denominator ≤ bound := by
  apply halfEven_le_of_lt
  rw [Nat.add_mul, Nat.mul_assoc]
  omega

theorem halfEven_mul_right (numerator denominator : ℕ) {scale : ℕ} (positive : 0 < scale) :
    halfEven (numerator * scale) (denominator * scale) = halfEven numerator denominator := by
  have compared : compare (2 * (numerator % denominator * scale)) (denominator * scale)
      = compare (2 * (numerator % denominator)) denominator := by
    rw [← Nat.mul_assoc]
    rcases Nat.lt_trichotomy (2 * (numerator % denominator)) denominator with less | same | more
    · rw [Nat.compare_eq_lt.2 less, Nat.compare_eq_lt.2 (Nat.mul_lt_mul_of_pos_right less positive)]
    · rw [same, Nat.compare_eq_eq.2 rfl, Nat.compare_eq_eq.2 rfl]
    · rw [Nat.compare_eq_gt.2 more, Nat.compare_eq_gt.2 (Nat.mul_lt_mul_of_pos_right more positive)]
  rw [halfEven, halfEven, Nat.mul_mod_mul_right, Nat.mul_div_mul_right _ _ positive, compared]

/-- Rounding depends on the ratio only. -/
theorem halfEven_congr {numerator denominator numerator' denominator' : ℕ}
    (positive : 0 < denominator) (positive' : 0 < denominator')
    (same : numerator * denominator' = numerator' * denominator) :
    halfEven numerator denominator = halfEven numerator' denominator' := by
  rw [← halfEven_mul_right numerator denominator positive', same, Nat.mul_comm denominator,
    halfEven_mul_right _ _ positive]

theorem ratioBelow_iff {numerator denominator : ℕ} (positive : 0 < denominator)
    (exponent : ℤ) :
    ratioBelow numerator denominator exponent = true ↔
      (numerator : ℚ) / denominator < (2 : ℚ) ^ exponent := by
  have reached : scaled 1 exponent ≤ (numerator : ℚ) / denominator ↔ _ :=
    scaled_le_div_iff positive exponent
  rw [scaled, Nat.cast_one, one_mul, Nat.one_mul] at reached
  rw [ratioBelow, decide_eq_true_iff, ← not_le, ← not_le, not_iff_not]
  exact reached.symm

/-- The leading exponent is that of the largest power of two that a ratio reaches. -/
theorem leadingExponent_spec {numerator denominator : ℕ} (above : 0 < numerator)
    (positive : 0 < denominator) :
    (2 : ℚ) ^ leadingExponent numerator denominator ≤ (numerator : ℚ) / denominator ∧
      (numerator : ℚ) / denominator < (2 : ℚ) ^ (leadingExponent numerator denominator + 1) := by
  have least : (2 : ℚ) ^ (numerator.log2 : ℤ) ≤ numerator := by
    rw [zpow_natCast]
    exact_mod_cast Nat.log2_self_le (Nat.ne_of_gt above)
  have less : (numerator : ℚ) < (2 : ℚ) ^ (numerator.log2 + 1 : ℤ) := by
    exact_mod_cast Nat.lt_log2_self (n := numerator)
  have least' : (2 : ℚ) ^ (denominator.log2 : ℤ) ≤ denominator := by
    rw [zpow_natCast]
    exact_mod_cast Nat.log2_self_le (Nat.ne_of_gt positive)
  have less' : (denominator : ℚ) < (2 : ℚ) ^ (denominator.log2 + 1 : ℤ) := by
    exact_mod_cast Nat.lt_log2_self (n := denominator)
  have divisor : (0 : ℚ) < denominator := by exact_mod_cast positive
  have lower : (2 : ℚ) ^ ((numerator.log2 : ℤ) - denominator.log2 - 1)
      ≤ (numerator : ℚ) / denominator := by
    rw [le_div_iff₀ divisor]
    calc (2 : ℚ) ^ ((numerator.log2 : ℤ) - denominator.log2 - 1) * denominator
        ≤ (2 : ℚ) ^ ((numerator.log2 : ℤ) - denominator.log2 - 1)
            * (2 : ℚ) ^ (denominator.log2 + 1 : ℤ) :=
          mul_le_mul_of_nonneg_left less'.le (by positivity)
      _ = (2 : ℚ) ^ (numerator.log2 : ℤ) := by
          rw [← zpow_add₀ two_ne_zero]
          congr 1
          omega
      _ ≤ numerator := least
  have upper : (numerator : ℚ) / denominator
      < (2 : ℚ) ^ ((numerator.log2 : ℤ) - denominator.log2 + 1) := by
    rw [div_lt_iff₀ divisor]
    calc (numerator : ℚ) < (2 : ℚ) ^ (numerator.log2 + 1 : ℤ) := less
      _ = (2 : ℚ) ^ ((numerator.log2 : ℤ) - denominator.log2 + 1)
            * (2 : ℚ) ^ (denominator.log2 : ℤ) := by
          rw [← zpow_add₀ two_ne_zero]
          congr 1
          omega
      _ ≤ (2 : ℚ) ^ ((numerator.log2 : ℤ) - denominator.log2 + 1) * denominator :=
          mul_le_mul_of_nonneg_left least' (by positivity)
  rw [leadingExponent]
  split
  · rename_i below
    rw [ratioBelow_iff positive] at below
    rw [Int.sub_add_cancel]
    exact ⟨lower, below⟩
  · rename_i reached
    rw [ratioBelow_iff positive, not_lt] at reached
    exact ⟨reached, upper⟩

theorem leadingExponent_congr {numerator denominator numerator' denominator' : ℕ}
    (above : 0 < numerator) (positive : 0 < denominator) (above' : 0 < numerator')
    (positive' : 0 < denominator')
    (same : (numerator : ℚ) / denominator = (numerator' : ℚ) / denominator') :
    leadingExponent numerator denominator = leadingExponent numerator' denominator' := by
  obtain ⟨reached, less⟩ := leadingExponent_spec above positive
  obtain ⟨reached', less'⟩ := leadingExponent_spec above' positive'
  rw [← same] at reached' less'
  have atMost := (zpow_lt_zpow_iff_right₀ one_lt_two).1 (reached.trans_lt less')
  have atLeast := (zpow_lt_zpow_iff_right₀ one_lt_two).1 (reached'.trans_lt less)
  omega

theorem leadingExponent_mul_two_pow {significand : ℕ} (positive : 0 < significand) (exponent : ℤ) :
    leadingExponent (significand * 2 ^ exponent.toNat) (2 ^ (-exponent).toNat)
      = significand.log2 + exponent := by
  have above : 0 < significand * 2 ^ exponent.toNat := Nat.mul_pos positive (Nat.two_pow_pos _)
  obtain ⟨reached, less⟩ := leadingExponent_spec above (Nat.two_pow_pos (-exponent).toNat)
  rw [← scaled_eq_div] at reached less
  have leading : (2 : ℚ) ^ (significand.log2 + exponent) ≤ scaled significand exponent := by
    rw [zpow_add₀ two_ne_zero, scaled, zpow_natCast]
    refine mul_le_mul_of_nonneg_right ?_ (by positivity)
    exact_mod_cast Nat.log2_self_le (Nat.ne_of_gt positive)
  have below := scaled_lt_two_zpow (Nat.lt_log2_self (n := significand)) exponent
  have atMost := (zpow_lt_zpow_iff_right₀ one_lt_two).1 (reached.trans_lt below)
  have atLeast := (zpow_lt_zpow_iff_right₀ one_lt_two).1 (leading.trans_lt less)
  omega

namespace Format

variable {format : Format} {significand other : ℕ} {exponent power : ℤ}

/-- The significands and exponents as which a format holds its finite numbers. -/
structure Canonical (format : Format) (significand : ℕ) (exponent : ℤ) : Prop where
  narrow : significand < 2 ^ (format.fractionBits + 1)
  least : format.leastExponent ≤ exponent
  full : 2 ^ format.fractionBits ≤ significand ∨ exponent = format.leastExponent
  finite : format.pattern significand exponent < format.infinity

theorem pattern_le_pattern (atMost : significand ≤ other) (exponent : ℤ) :
    format.pattern significand exponent ≤ format.pattern other exponent :=
  Nat.add_le_add_right atMost _

/-- A full significand with a greater exponent has the greater pattern. -/
theorem pattern_le_pattern_of_lt (narrow : significand ≤ 2 ^ (format.fractionBits + 1))
    (least : format.leastExponent ≤ exponent) (less : exponent < power)
    (full : 2 ^ format.fractionBits ≤ other) :
    format.pattern significand exponent ≤ format.pattern other power := by
  rw [pattern, pattern]
  have further : (exponent - format.leastExponent).toNat + 1
      ≤ (power - format.leastExponent).toNat := by omega
  have steps := Nat.mul_le_mul_right (2 ^ format.fractionBits) further
  rw [Nat.add_mul, Nat.one_mul] at steps
  rw [Nat.pow_succ] at narrow
  omega

/-- A positive ratio is brought to an exponent at which it is no longer than a significand, and
full unless the exponent is the least one. -/
theorem exists_nearest_eq (format : Format) {numerator denominator : ℕ} (above : 0 < numerator)
    (positive : 0 < denominator) :
    ∃ exponent : ℤ,
      format.nearest numerator denominator = min format.infinity
        (format.pattern
          (halfEven (numerator * 2 ^ (-exponent).toNat) (denominator * 2 ^ exponent.toNat))
          exponent) ∧
      format.leastExponent ≤ exponent ∧
      (numerator : ℚ) / denominator < (2 : ℚ) ^ (exponent + format.fractionBits + 1) ∧
      (exponent = format.leastExponent ∨
        (2 : ℚ) ^ (exponent + format.fractionBits) ≤ (numerator : ℚ) / denominator) := by
  obtain ⟨reached, less⟩ := leadingExponent_spec above positive
  refine ⟨max (leadingExponent numerator denominator - format.fractionBits) format.leastExponent,
    ?_, le_max_right _ _, ?_, ?_⟩
  · rw [nearest, if_neg (Nat.ne_of_gt above)]
  · refine less.trans_le (zpow_le_zpow_right₀ one_le_two ?_)
    omega
  · rcases le_total (leadingExponent numerator denominator - format.fractionBits)
      format.leastExponent with small | large
    · exact Or.inl (max_eq_right small)
    · right
      rwa [max_eq_left large, Int.sub_add_cancel]

/-- The nearest number depends on the ratio only. -/
theorem nearest_congr {numerator denominator numerator' denominator' : ℕ}
    (positive : 0 < denominator) (positive' : 0 < denominator')
    (same : (numerator : ℚ) / denominator = (numerator' : ℚ) / denominator') :
    format.nearest numerator denominator = format.nearest numerator' denominator' := by
  have crossed : numerator * denominator' = numerator' * denominator := by
    rw [div_eq_div_iff (by positivity) (by positivity)] at same
    exact_mod_cast same
  rw [nearest, nearest]
  rcases Nat.eq_zero_or_pos numerator with rfl | above
  · have zero : numerator' = 0 := by
      rw [Nat.zero_mul] at crossed
      exact (Nat.mul_eq_zero.1 crossed.symm).resolve_right (Nat.ne_of_gt positive)
    rw [if_pos rfl, if_pos zero]
  · have above' : 0 < numerator' :=
      Nat.pos_of_mul_pos_right (crossed ▸ Nat.mul_pos above positive')
    rw [if_neg (Nat.ne_of_gt above), if_neg (Nat.ne_of_gt above'),
      leadingExponent_congr above positive above' positive' same]
    dsimp only
    rw [halfEven_congr (Nat.mul_pos positive (Nat.two_pow_pos _))
      (Nat.mul_pos positive' (Nat.two_pow_pos _))]
    rw [Nat.mul_mul_mul_comm, crossed, Nat.mul_mul_mul_comm]

theorem ofBinary_congr (same : scaled significand exponent = scaled other power) :
    format.ofBinary significand exponent = format.ofBinary other power :=
  nearest_congr (Nat.two_pow_pos _) (Nat.two_pow_pos _)
    (by rw [← scaled_eq_div, ← scaled_eq_div, same])

namespace Canonical

/-- A number of a format is below the power of two that its significand may not reach. -/
theorem scaled_lt (canonical : format.Canonical significand exponent) :
    scaled significand exponent < (2 : ℚ) ^ (exponent + format.fractionBits + 1) := by
  have less := scaled_lt_two_zpow canonical.narrow exponent
  rwa [Nat.cast_succ, ← add_assoc] at less

/-- Above the least exponent a number reaches the power of two of its leading bit. -/
theorem le_scaled (canonical : format.Canonical significand exponent)
    (above : format.leastExponent < exponent) :
    (2 : ℚ) ^ (exponent + format.fractionBits) ≤ scaled significand exponent := by
  have full : 2 ^ format.fractionBits ≤ significand :=
    canonical.full.resolve_right (Int.ne_of_gt above)
  have leading : (2 : ℚ) ^ (format.fractionBits : ℤ) ≤ significand := by exact_mod_cast full
  calc (2 : ℚ) ^ (exponent + format.fractionBits)
      = (2 : ℚ) ^ (format.fractionBits : ℤ) * (2 : ℚ) ^ exponent := by
        rw [← zpow_add₀ two_ne_zero, add_comm]
    _ ≤ scaled significand exponent := mul_le_mul_of_nonneg_right leading (by positivity)

/-- A ratio that is nearer to a number of the format than half way to the next is not rounded
above this number. -/
theorem nearest_le_of_lt (canonical : format.Canonical significand exponent)
    {numerator denominator : ℕ} (positive : 0 < denominator)
    (less : ((2 * numerator : ℕ) : ℚ) / denominator < scaled (2 * significand + 1) exponent) :
    format.nearest numerator denominator ≤ format.pattern significand exponent := by
  rcases Nat.eq_zero_or_pos numerator with rfl | above
  · rw [nearest, if_pos rfl]
    exact Nat.zero_le _
  obtain ⟨target, found, least, below, full⟩ := exists_nearest_eq format above positive
  have divisor : 0 < denominator * 2 ^ target.toNat :=
    Nat.mul_pos positive (Nat.two_pow_pos _)
  rw [found]
  refine (Nat.min_le_right _ _).trans ?_
  rcases Int.lt_trichotomy exponent target with lower | rfl | higher
  · have reached := full.resolve_left (by have := canonical.least; omega)
    have narrow : 2 * significand + 1 < 2 ^ (format.fractionBits + 2) := by
      have := canonical.narrow
      rw [Nat.pow_succ] at this ⊢
      omega
    have beyond : (2 : ℚ) ^ (exponent + (format.fractionBits + 2 : ℕ))
        ≤ ((2 * numerator : ℕ) : ℚ) / denominator := by
      calc (2 : ℚ) ^ (exponent + (format.fractionBits + 2 : ℕ))
          ≤ (2 : ℚ) ^ (target + format.fractionBits + 1) :=
            zpow_le_zpow_right₀ one_le_two (by push_cast; omega)
        _ = 2 * (2 : ℚ) ^ (target + format.fractionBits) := by
            rw [zpow_add_one₀ two_ne_zero, mul_comm]
        _ ≤ 2 * ((numerator : ℚ) / denominator) := mul_le_mul_of_nonneg_left reached two_pos.le
        _ = ((2 * numerator : ℕ) : ℚ) / denominator := by
            rw [Nat.cast_mul, Nat.cast_ofNat, mul_div_assoc]
    exact absurd (less.trans (scaled_lt_two_zpow narrow exponent)) (not_lt_of_ge beyond)
  · refine pattern_le_pattern (halfEven_le_of_lt ?_) exponent
    rw [← Nat.mul_assoc]
    exact (div_lt_scaled_iff positive exponent).1 less
  · refine pattern_le_pattern_of_lt (halfEven_le divisor ?_) least higher
      (canonical.full.resolve_right (by omega))
    refine (div_le_scaled_iff positive target).1 (below.le.trans_eq ?_)
    rw [scaled, Nat.cast_pow, Nat.cast_ofNat, ← zpow_natCast, ← zpow_add₀ two_ne_zero]
    congr 1
    omega

/-- A ratio is not rounded above a number of the format that it does not exceed. -/
theorem nearest_le (canonical : format.Canonical significand exponent)
    {numerator denominator : ℕ} (positive : 0 < denominator)
    (atMost : (numerator : ℚ) / denominator ≤ scaled significand exponent) :
    format.nearest numerator denominator ≤ format.pattern significand exponent := by
  apply canonical.nearest_le_of_lt positive
  rw [div_le_scaled_iff positive] at atMost
  have scale : 0 < denominator * 2 ^ exponent.toNat := Nat.mul_pos positive (Nat.two_pow_pos _)
  rw [div_lt_scaled_iff positive, Nat.mul_assoc, Nat.add_mul, Nat.mul_assoc]
  omega

/-- What is not above zero has the least pattern. -/
theorem pattern_eq_zero (canonical : format.Canonical significand exponent)
    (zero : scaled significand exponent ≤ 0) : format.pattern significand exponent = 0 := by
  have none : significand = 0 := by
    by_contra some
    have positive : (0 : ℚ) < significand := by exact_mod_cast Nat.pos_of_ne_zero some
    exact absurd zero (not_le_of_gt (mul_pos positive (by positivity)))
  have least : exponent = format.leastExponent := by
    refine canonical.full.resolve_left ?_
    rw [none, Nat.le_zero]
    exact Nat.ne_of_gt (Nat.two_pow_pos _)
  rw [pattern, none, least, sub_self, Int.toNat_zero, Nat.zero_mul]

/-- A ratio is not rounded below a number of the format that it reaches. -/
theorem le_nearest (canonical : format.Canonical significand exponent)
    {numerator denominator : ℕ} (positive : 0 < denominator)
    (atLeast : scaled significand exponent ≤ (numerator : ℚ) / denominator) :
    format.pattern significand exponent ≤ format.nearest numerator denominator := by
  rcases Nat.eq_zero_or_pos numerator with rfl | above
  · rw [canonical.pattern_eq_zero (by simpa using atLeast)]
    exact Nat.zero_le _
  obtain ⟨target, found, least, less, full⟩ := exists_nearest_eq format above positive
  have divisor : 0 < denominator * 2 ^ target.toNat :=
    Nat.mul_pos positive (Nat.two_pow_pos _)
  rw [found]
  refine Nat.le_min.2 ⟨canonical.finite.le, ?_⟩
  rcases Int.lt_trichotomy exponent target with lower | rfl | higher
  · have reached := full.resolve_left (by have := canonical.least; omega)
    refine pattern_le_pattern_of_lt canonical.narrow.le canonical.least lower
      (le_halfEven divisor ?_)
    refine (scaled_le_div_iff positive target).1 (le_of_eq_of_le ?_ reached)
    rw [scaled, Nat.cast_pow, Nat.cast_ofNat, ← zpow_natCast, ← zpow_add₀ two_ne_zero, add_comm]
  · refine pattern_le_pattern (le_halfEven divisor ?_) exponent
    exact (scaled_le_div_iff positive exponent).1 atLeast
  · have below : (2 : ℚ) ^ (target + format.fractionBits + 1)
        ≤ (2 : ℚ) ^ (exponent + format.fractionBits) :=
      zpow_le_zpow_right₀ one_le_two (by omega)
    have reached := (canonical.le_scaled (by omega)).trans atLeast
    exact absurd (below.trans reached) (not_le_of_gt less)

/-- A number of the format is rounded to itself. -/
theorem nearest_eq (canonical : format.Canonical significand exponent)
    {numerator denominator : ℕ} (positive : 0 < denominator)
    (same : (numerator : ℚ) / denominator = scaled significand exponent) :
    format.nearest numerator denominator = format.pattern significand exponent :=
  Nat.le_antisymm (canonical.nearest_le positive same.le) (canonical.le_nearest positive same.ge)

theorem ofBinary_le (canonical : format.Canonical significand exponent)
    (atMost : scaled other power ≤ scaled significand exponent) :
    format.ofBinary other power ≤ format.pattern significand exponent :=
  canonical.nearest_le (Nat.two_pow_pos _) ((scaled_eq_div _ _).symm.trans_le atMost)

theorem ofBinary_le_of_lt (canonical : format.Canonical significand exponent)
    (less : scaled (2 * other) power < scaled (2 * significand + 1) exponent) :
    format.ofBinary other power ≤ format.pattern significand exponent := by
  apply canonical.nearest_le_of_lt (Nat.two_pow_pos _)
  rwa [← Nat.mul_assoc, ← scaled_eq_div]

theorem ofBinary_eq (canonical : format.Canonical significand exponent)
    (same : scaled other power = scaled significand exponent) :
    format.ofBinary other power = format.pattern significand exponent :=
  canonical.nearest_eq (Nat.two_pow_pos _) (by rw [← scaled_eq_div, same])

/-- A pattern is read as the significand and the exponent that it was put together from. -/
theorem magnitude_pattern (canonical : format.Canonical significand exponent) (negative : Bool) :
    format.magnitude negative (format.pattern significand exponent)
      = .finite negative significand exponent := by
  have finite := canonical.finite
  rw [infinity] at finite
  rcases Nat.lt_or_ge significand (2 ^ format.fractionBits) with short | full
  · have least := canonical.full.resolve_left (Nat.not_le_of_lt short)
    have bits : format.pattern significand exponent = significand := by
      rw [pattern, least, sub_self, Int.toNat_zero, Nat.zero_mul, Nat.add_zero]
    rw [bits] at finite ⊢
    have inside : 0 ≠ 2 ^ format.exponentBits - 1 := by
      rintro same
      rw [← same, Nat.zero_mul] at finite
      exact Nat.not_lt_zero _ finite
    rw [magnitude, Nat.div_eq_of_lt short, Nat.mod_eq_of_lt short, if_neg inside, if_pos rfl, least]
  · obtain ⟨fraction, rfl⟩ := Nat.exists_eq_add_of_le full
    obtain ⟨steps, rfl⟩ := Int.le.dest canonical.least
    have short : fraction < 2 ^ format.fractionBits := by
      have := canonical.narrow
      rw [Nat.pow_succ] at this
      omega
    have bits : format.pattern (2 ^ format.fractionBits + fraction) (format.leastExponent + steps)
        = fraction + (steps + 1) * 2 ^ format.fractionBits := by
      rw [pattern, Nat.add_mul]
      simp only [add_sub_cancel_left, Int.toNat_natCast]
      omega
    rw [bits] at finite ⊢
    have biased : (fraction + (steps + 1) * 2 ^ format.fractionBits) / 2 ^ format.fractionBits
        = steps + 1 := by
      rw [Nat.add_mul_div_right _ _ (Nat.two_pow_pos _), Nat.div_eq_of_lt short, Nat.zero_add]
    have rest : (fraction + (steps + 1) * 2 ^ format.fractionBits) % 2 ^ format.fractionBits
        = fraction := by
      rw [Nat.add_mul_mod_self_right, Nat.mod_eq_of_lt short]
    have inside : steps + 1 ≠ 2 ^ format.exponentBits - 1 := by
      rintro same
      rw [same] at finite
      omega
    rw [magnitude, biased, rest, if_neg inside, if_neg (Nat.succ_ne_zero steps)]
    rfl

theorem eq_of_pattern_eq (canonical : format.Canonical significand exponent)
    (otherCanonical : format.Canonical other power)
    (same : format.pattern significand exponent = format.pattern other power) :
    significand = other ∧ exponent = power := by
  have read := canonical.magnitude_pattern false
  rw [same, otherCanonical.magnitude_pattern] at read
  exact ⟨(Datum.finite.inj read).2.1.symm, (Datum.finite.inj read).2.2.symm⟩

/-- Patterns are ordered like the numbers that they stand for. -/
theorem pattern_lt_pattern (canonical : format.Canonical significand exponent)
    (otherCanonical : format.Canonical other power)
    (less : scaled significand exponent < scaled other power) :
    format.pattern significand exponent < format.pattern other power := by
  refine lt_of_le_of_ne ?_ fun same => ?_
  · rw [← canonical.ofBinary_eq rfl]
    exact otherCanonical.ofBinary_le less.le
  · obtain ⟨rfl, rfl⟩ := canonical.eq_of_pattern_eq otherCanonical same
    exact lt_irrefl _ less

end Canonical

/-- What a pattern without a sign bit stands for, if it is finite, is held in the one way. -/
theorem canonical_of_magnitude {bits : ℕ} {negative : Bool}
    (inside : bits < format.signBit)
    (finite : format.magnitude negative bits = .finite negative significand exponent) :
    format.Canonical significand exponent := by
  have bitsOf := pattern_of_magnitude finite
  have whole := Nat.div_add_mod' bits (2 ^ format.fractionBits)
  have short : bits % 2 ^ format.fractionBits < 2 ^ format.fractionBits :=
    Nat.mod_lt _ (Nat.two_pow_pos _)
  have field : bits / 2 ^ format.fractionBits < 2 ^ format.exponentBits :=
    Nat.div_lt_of_lt_mul (by rwa [← Nat.pow_add])
  have double : 2 ^ (format.fractionBits + 1) = 2 ^ format.fractionBits * 2 := Nat.pow_succ _ _
  rw [magnitude] at finite
  split at finite
  · split at finite <;> cases finite
  · rename_i special
    have finiteBits : bits < format.infinity := by
      have next : bits / 2 ^ format.fractionBits + 1 ≤ 2 ^ format.exponentBits - 1 := by omega
      have := Nat.mul_le_mul_right (2 ^ format.fractionBits) next
      rw [Nat.add_mul, Nat.one_mul] at this
      rw [infinity]
      omega
    split at finite
    · obtain ⟨-, rfl, rfl⟩ := Datum.finite.inj finite
      exact ⟨by omega, le_rfl, Or.inr rfl, bitsOf.trans_lt finiteBits⟩
    · obtain ⟨-, rfl, rfl⟩ := Datum.finite.inj finite
      exact ⟨by omega, by omega, Or.inl (Nat.le_add_right _ _), bitsOf.trans_lt finiteBits⟩

theorem negative_of_magnitude {bits : ℕ} {sign negative : Bool}
    (finite : format.magnitude sign bits = .finite negative significand exponent) :
    negative = sign := by
  rw [magnitude] at finite
  split at finite
  · split at finite <;> cases finite
  · split at finite <;> exact (Datum.finite.inj finite).1.symm

theorem canonical_of_datum {bits : ℕ} {negative : Bool}
    (finite : format.datum bits = .finite negative significand exponent) :
    format.Canonical significand exponent := by
  have sign := negative_of_magnitude finite
  subst sign
  exact canonical_of_magnitude (Nat.mod_lt _ (Nat.two_pow_pos _)) finite

/-- The bits of a finite number are those of its magnitude with its sign. -/
theorem signed_pattern_of_datum {bits : ℕ} {negative : Bool} (inside : bits < 2 * format.signBit)
    (finite : format.datum bits = .finite negative significand exponent) :
    format.signed negative (format.pattern significand exponent) = bits := by
  have sign := negative_of_magnitude finite
  subst sign
  rw [pattern_of_magnitude finite, signed]
  split <;> rename_i sign
  · have reached : format.signBit ≤ bits := of_decide_eq_true sign
    rw [Nat.mod_eq_sub_mod reached, Nat.mod_eq_of_lt (by omega)]
    omega
  · exact Nat.mod_eq_of_lt (not_le.mp (of_decide_eq_false (eq_false_of_ne_true sign)))

namespace Canonical

theorem pattern_lt_signBit (canonical : format.Canonical significand exponent) :
    format.pattern significand exponent < format.signBit := by
  refine canonical.finite.trans_le ?_
  rw [infinity, signBit, Nat.pow_add, Nat.mul_comm]
  exact Nat.mul_le_mul_left _ (Nat.sub_le _ _)

theorem signed_lt (canonical : format.Canonical significand exponent) (negative : Bool) :
    format.signed negative (format.pattern significand exponent) < 2 * format.signBit := by
  have inside := canonical.pattern_lt_signBit
  rw [signed]
  split <;> omega

/-- A magnitude with a sign is read with this sign. -/
theorem datum_signed (canonical : format.Canonical significand exponent) (negative : Bool) :
    format.datum (format.signed negative (format.pattern significand exponent))
      = .finite negative significand exponent := by
  have inside := canonical.pattern_lt_signBit
  rw [datum]
  cases negative
  · have clear : ¬format.signBit ≤ format.signed false (format.pattern significand exponent) :=
      not_le_of_gt inside
    rw [decide_eq_false clear, signed, if_neg Bool.false_ne_true, Nat.mod_eq_of_lt inside]
    exact canonical.magnitude_pattern false
  · rw [signed, if_pos rfl, decide_eq_true (Nat.le_add_right _ _), Nat.add_mod_left,
      Nat.mod_eq_of_lt inside]
    exact canonical.magnitude_pattern true

end Canonical

theorem scaled_two_mul (significand : ℕ) (exponent : ℤ) :
    scaled (2 * significand) exponent = scaled significand (exponent + 1) := by
  rw [scaled, scaled, zpow_add_one₀ two_ne_zero, Nat.cast_mul, Nat.cast_ofNat]
  ring

theorem pattern_lt_infinity {steps : ℕ} (narrow : significand < 2 ^ (format.fractionBits + 1))
    (greatest : steps + 3 ≤ 2 ^ format.exponentBits) :
    format.pattern significand (format.leastExponent + steps) < format.infinity := by
  have further : steps + 2 ≤ 2 ^ format.exponentBits - 1 := by omega
  have finite := Nat.mul_le_mul_right (2 ^ format.fractionBits) further
  rw [Nat.add_mul] at finite
  rw [Nat.pow_succ] at narrow
  rw [pattern, infinity, add_sub_cancel_left, Int.toNat_natCast]
  omega

/-- A number whose exponent fits is held by the format, if its significand is short. The induction
is on the distance from the least exponent: a significand that is not full is doubled. -/
theorem exists_canonical {steps : ℕ} (narrow : significand < 2 ^ (format.fractionBits + 1))
    (greatest : steps + 3 ≤ 2 ^ format.exponentBits) :
    ∃ held power, format.Canonical held power ∧
      scaled held power = scaled significand (format.leastExponent + steps) := by
  induction steps generalizing significand with
  | zero =>
    have finite := pattern_lt_infinity narrow greatest
    rw [Nat.cast_zero, add_zero] at finite ⊢
    exact ⟨significand, format.leastExponent, ⟨narrow, le_rfl, Or.inr rfl, finite⟩, rfl⟩
  | succ steps ih =>
    rcases Nat.lt_or_ge significand (2 ^ format.fractionBits) with short | full
    · have doubled : 2 * significand < 2 ^ (format.fractionBits + 1) := by
        rw [Nat.pow_succ]
        omega
      obtain ⟨held, power, canonical, same⟩ := ih doubled (by omega)
      refine ⟨held, power, canonical, same.trans ?_⟩
      rw [scaled_two_mul, Nat.cast_succ, add_assoc]
    · have finite := pattern_lt_infinity narrow greatest
      exact ⟨significand, _, ⟨narrow, by omega, Or.inl full, finite⟩, rfl⟩

/-- The formats whose exponents are wide enough for their significands. -/
def Regular (format : Format) : Prop :=
  format.fractionBits + 3 ≤ 2 ^ (format.exponentBits - 1)

theorem single_regular : single.Regular := by
  rw [Regular]
  decide

theorem double_regular : double.Regular := by
  rw [Regular]
  decide

theorem Regular.two_pow (regular : format.Regular) :
    2 ^ format.exponentBits = 2 * 2 ^ (format.exponentBits - 1) := by
  rcases format with ⟨fractionBits, exponentBits⟩
  rw [Regular] at regular
  cases exponentBits with
  | zero =>
    have none : fractionBits + 3 ≤ 1 := regular
    omega
  | succ exponentBits => rw [Nat.add_sub_cancel, Nat.pow_succ, Nat.mul_comm]

/-- A significand of the format is held also when it is multiplied by a small power of two. -/
theorem exists_canonical_of_le_two (regular : format.Regular)
    (narrow : significand < 2 ^ (format.fractionBits + 1)) {doublings : ℕ} (few : doublings ≤ 2) :
    ∃ held power, format.Canonical held power ∧
      scaled held power = (significand * 2 ^ doublings : ℕ) := by
  have powers := regular.two_pow
  rw [Regular] at regular
  have greatest : doublings + 2 ^ (format.exponentBits - 1) + format.fractionBits - 2 + 3
      ≤ 2 ^ format.exponentBits := by omega
  obtain ⟨held, power, canonical, same⟩ := exists_canonical narrow greatest
  refine ⟨held, power, canonical, same.trans ?_⟩
  have exponent : format.leastExponent
      + (doublings + 2 ^ (format.exponentBits - 1) + format.fractionBits - 2 : ℕ) = doublings := by
    rw [leastExponent]
    omega
  rw [exponent, scaled, zpow_natCast, Nat.cast_mul, Nat.cast_pow, Nat.cast_ofNat]

theorem exists_canonical_natCast (regular : format.Regular)
    (narrow : significand < 2 ^ (format.fractionBits + 1)) :
    ∃ held power, format.Canonical held power ∧ scaled held power = significand := by
  obtain ⟨held, power, canonical, same⟩ :=
    exists_canonical_of_le_two regular narrow (Nat.zero_le 2)
  exact ⟨held, power, canonical, by rw [same, Nat.pow_zero, Nat.mul_one]⟩

namespace Canonical

/-- The exponent of a number of the format is one that fits. -/
theorem exists_steps (canonical : format.Canonical significand exponent)
    (regular : format.Regular) :
    ∃ steps : ℕ, exponent = format.leastExponent + steps ∧
      steps + 3 ≤ 2 ^ format.exponentBits := by
  obtain ⟨steps, rfl⟩ := Int.le.dest canonical.least
  refine ⟨steps, rfl, ?_⟩
  rcases canonical.full with full | least
  · have finite := canonical.finite
    rw [pattern, infinity, add_sub_cancel_left, Int.toNat_natCast] at finite
    have fewer : (steps + 1) * 2 ^ format.fractionBits
        < (2 ^ format.exponentBits - 1) * 2 ^ format.fractionBits := by
      rw [Nat.add_mul, Nat.one_mul]
      omega
    have := Nat.lt_of_mul_lt_mul_right fewer
    omega
  · have powers := regular.two_pow
    rw [Regular] at regular
    omega

/-- All numbers of the format are below one power of two. -/
theorem scaled_lt_two_pow (canonical : format.Canonical significand exponent)
    (regular : format.Regular) :
    scaled significand exponent < (2 : ℚ) ^ (2 ^ format.exponentBits : ℕ) := by
  obtain ⟨steps, rfl, greatest⟩ := canonical.exists_steps regular
  refine canonical.scaled_lt.trans_le ?_
  rw [← zpow_natCast]
  refine zpow_le_zpow_right₀ one_le_two ?_
  have positive := Nat.two_pow_pos (format.exponentBits - 1)
  rw [leastExponent]
  omega

/-- Any number of the format above zero reaches the least one. -/
theorem two_zpow_le_scaled (canonical : format.Canonical significand exponent)
    (above : 0 < scaled significand exponent) :
    (2 : ℚ) ^ format.leastExponent ≤ scaled significand exponent := by
  have positive : 0 < significand := by
    by_contra zero
    rw [Nat.eq_zero_of_not_pos zero, scaled, Nat.cast_zero, zero_mul] at above
    exact lt_irrefl _ above
  calc (2 : ℚ) ^ format.leastExponent ≤ (2 : ℚ) ^ exponent :=
        zpow_le_zpow_right₀ one_le_two canonical.least
    _ ≤ scaled significand exponent :=
        le_mul_of_one_le_left (by positivity) (by exact_mod_cast positive)

end Canonical

variable {coefficient : ℕ} {tens : ℤ}

theorem decimal_eq_div (coefficient : ℕ) (tens : ℤ) :
    ((coefficient * 10 ^ tens.toNat : ℕ) : ℚ) / ((10 ^ (-tens).toNat : ℕ) : ℚ)
      = coefficient * (10 : ℚ) ^ tens := by
  have power := zpow_eq_div (by decide : 0 < 10) tens
  rw [Nat.cast_ofNat] at power
  rw [power, Nat.cast_mul, mul_div_assoc]

/-- A decimal that is too large by its exponent is above all numbers of the format. -/
theorem two_pow_lt_decimal (positive : 0 < coefficient)
    (large : tens > (2 ^ format.exponentBits : ℕ)) :
    (2 : ℚ) ^ (2 ^ format.exponentBits : ℕ) < coefficient * (10 : ℚ) ^ tens := by
  have one : (1 : ℚ) ≤ coefficient := by exact_mod_cast positive
  have nonneg : 0 ≤ tens := (Int.natCast_nonneg _).trans (le_of_lt large)
  calc (2 : ℚ) ^ (2 ^ format.exponentBits : ℕ) = (2 : ℚ) ^ ((2 ^ format.exponentBits : ℕ) : ℤ) :=
        (zpow_natCast _ _).symm
    _ < (2 : ℚ) ^ tens := zpow_lt_zpow_right₀ one_lt_two large
    _ ≤ (10 : ℚ) ^ tens := zpow_le_zpow_left₀ nonneg (by norm_num) (by norm_num)
    _ ≤ coefficient * (10 : ℚ) ^ tens := le_mul_of_one_le_left (by positivity) one

/-- A decimal that is too small by its exponent is below all numbers of the format above zero. -/
theorem decimal_lt_two_zpow (regular : format.Regular)
    (small : tens < -((2 ^ format.exponentBits + coefficient.log2 : ℕ) : ℤ)) :
    coefficient * (10 : ℚ) ^ tens < (2 : ℚ) ^ format.leastExponent := by
  have less : (coefficient : ℚ) < (2 : ℚ) ^ (coefficient.log2 + 1 : ℤ) := by
    exact_mod_cast Nat.lt_log2_self (n := coefficient)
  obtain ⟨places, rfl⟩ : ∃ places : ℕ, tens = -(places : ℤ) := by
    have := Nat.two_pow_pos format.exponentBits
    exact ⟨(-tens).toNat, by omega⟩
  have eighths : (2 : ℚ) ^ (3 * places : ℤ) ≤ (10 : ℚ) ^ places := by
    rw [zpow_mul, zpow_natCast]
    exact pow_le_pow_left₀ (by norm_num) (by norm_num) places
  have powers := regular.two_pow
  rw [Regular] at regular
  rw [zpow_neg, zpow_natCast, ← div_eq_mul_inv, div_lt_iff₀ (by positivity)]
  calc (coefficient : ℚ) < (2 : ℚ) ^ (coefficient.log2 + 1 : ℤ) := less
    _ ≤ (2 : ℚ) ^ (format.leastExponent + 3 * places) := by
        refine zpow_le_zpow_right₀ one_le_two ?_
        rw [leastExponent]
        omega
    _ = (2 : ℚ) ^ format.leastExponent * (2 : ℚ) ^ (3 * places : ℤ) := zpow_add₀ two_ne_zero _ _
    _ ≤ (2 : ℚ) ^ format.leastExponent * (10 : ℚ) ^ places :=
        mul_le_mul_of_nonneg_left eighths (by positivity)

namespace Canonical

/-- A decimal is not rounded above a number of the format that it does not exceed. -/
theorem ofDecimal_le (canonical : format.Canonical significand exponent)
    (regular : format.Regular)
    (atMost : (coefficient : ℚ) * (10 : ℚ) ^ tens ≤ scaled significand exponent) :
    format.ofDecimal coefficient tens ≤ format.pattern significand exponent := by
  rw [ofDecimal]
  split
  · exact Nat.zero_le _
  rename_i above
  split
  · rename_i large
    have beyond := two_pow_lt_decimal (Nat.pos_of_ne_zero above) large
    exact absurd (atMost.trans_lt (canonical.scaled_lt_two_pow regular)) (not_lt_of_gt beyond)
  split
  · exact Nat.zero_le _
  · exact canonical.nearest_le (Nat.pow_pos (by decide)) ((decimal_eq_div _ _).trans_le atMost)

/-- A decimal is not rounded below a number of the format that it reaches. -/
theorem le_ofDecimal (canonical : format.Canonical significand exponent)
    (regular : format.Regular)
    (atLeast : scaled significand exponent ≤ (coefficient : ℚ) * (10 : ℚ) ^ tens) :
    format.pattern significand exponent ≤ format.ofDecimal coefficient tens := by
  rcases le_or_gt (scaled significand exponent) 0 with zero | above
  · rw [canonical.pattern_eq_zero zero]
    exact Nat.zero_le _
  rw [ofDecimal]
  split
  · rename_i zero
    rw [zero, Nat.cast_zero, zero_mul] at atLeast
    exact absurd above (not_lt_of_ge atLeast)
  rename_i positive
  split
  · exact canonical.finite.le
  split
  · rename_i small
    have less := decimal_lt_two_zpow regular small
    exact absurd (canonical.two_zpow_le_scaled above) (not_le_of_gt (atLeast.trans_lt less))
  · exact canonical.le_nearest (Nat.pow_pos (by decide)) (atLeast.trans_eq (decimal_eq_div _ _).symm)

/-- A decimal that says a number of the format is rounded to it. -/
theorem ofDecimal_eq (canonical : format.Canonical significand exponent)
    (regular : format.Regular)
    (same : (coefficient : ℚ) * (10 : ℚ) ^ tens = scaled significand exponent) :
    format.ofDecimal coefficient tens = format.pattern significand exponent :=
  Nat.le_antisymm (canonical.ofDecimal_le regular same.le) (canonical.le_ofDecimal regular same.ge)

/-- If a decimal is rounded to a number above zero, so is the ratio that it says. -/
theorem nearest_eq_of_ofDecimal_eq (canonical : format.Canonical significand exponent)
    (above : 0 < significand)
    (rounds : format.ofDecimal coefficient tens = format.pattern significand exponent)
    {numerator denominator : ℕ} (positive : 0 < denominator)
    (same : (numerator : ℚ) / denominator = coefficient * (10 : ℚ) ^ tens) :
    format.nearest numerator denominator = format.pattern significand exponent := by
  have nonzero : format.pattern significand exponent ≠ 0 :=
    Nat.ne_of_gt (Nat.lt_of_lt_of_le above (Nat.le_add_right _ _))
  rw [ofDecimal] at rounds
  split at rounds
  · exact absurd rounds.symm nonzero
  split at rounds
  · exact absurd rounds.symm (Nat.ne_of_lt canonical.finite)
  split at rounds
  · exact absurd rounds.symm nonzero
  · rw [← rounds]
    exact nearest_congr positive (Nat.pow_pos (by decide)) (same.trans (decimal_eq_div _ _).symm)

end Canonical

end Format

end Wordloom.Binary
