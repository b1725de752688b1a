import Mathlib
import Wordloom.Proofs.Binary.Shortest
import Wordloom.Proofs.Binary.Values
import Wordloom.Proofs.Number.Exact

/-!
# Conversion of floats to whole numbers

This file shows what becomes of a finite float as a whole number. The way leads through the
shortest decimal of the float as a double, of which the places are cut off. Up to a bound this is
truncation of the float itself, and the long that the float becomes directly is the same. Beyond
the bound the decimal is some whole number that the double is nearest to, which need not be the
double. A double for which it is not is shown.
-/

namespace Wordloom

-- Powers are those of the core library, whatever else is imported.
attribute [local instance (2000)] instPowNat

open Binary

theorem towardZero_neg (number : ℚ) : towardZero (-number) = -towardZero number := by
  rw [towardZero, towardZero]
  rcases lt_trichotomy number 0 with negative | rfl | positive
  · rw [if_pos (neg_pos.2 negative).le, if_neg (not_le_of_gt negative), Int.floor_neg]
  · simp
  · rw [if_neg (not_le_of_gt (neg_neg_iff_pos.2 positive)), if_pos positive.le, Int.ceil_neg]

/-- What is left of a number with a sign is the whole part of its size. -/
theorem towardZero_withSignOf (negative : Bool) {size : ℚ} (nonneg : 0 ≤ size) :
    towardZero (withSignOf negative size) = if negative then -(⌊size⌋₊ : ℤ) else ⌊size⌋₊ := by
  have whole : towardZero size = ⌊size⌋₊ := by
    rw [towardZero, if_pos nonneg, Int.natCast_floor_eq_floor nonneg]
  rw [withSignOf]
  split
  · rw [towardZero_neg, whole]
  · exact whole

namespace Binary

theorem Datum.truncate_finite (negative : Bool) (significand : ℕ) (exponent : ℤ) :
    (Datum.finite negative significand exponent).truncate
      = some (towardZero (withSignOf negative (scaled significand exponent))) := by
  rw [towardZero_withSignOf negative (scaled_nonneg significand exponent), scaled_eq_div,
    Nat.floor_div_eq_div]
  rfl

/-- Between the bounds nothing stops the truncation. -/
theorem Datum.clamp_finite {negative : Bool} {significand : ℕ} {exponent lower upper : ℤ}
    (atLeast : lower ≤ towardZero (withSignOf negative (scaled significand exponent)))
    (atMost : towardZero (withSignOf negative (scaled significand exponent)) ≤ upper) :
    (Datum.finite negative significand exponent).clamp lower upper
      = towardZero (withSignOf negative (scaled significand exponent)) := by
  rw [clamp, truncate_finite, Option.getD_some, min_eq_right atMost, max_eq_right atLeast]

end Binary

namespace Decimal

/-- The decimal of a finite datum has the value of the shortest decimal, with its sign. -/
theorem exists_ofDatum (format : Format) (negative : Bool) (significand : ℕ) (exponent : ℤ) :
    ∃ decimal, ofDatum format (.finite negative significand exponent) = some decimal ∧
      decimal.value = withSignOf negative (format.shortest significand exponent).value := by
  refine ⟨_, rfl, ?_⟩
  generalize format.shortest significand exponent = shortest
  rw [value, Scientific.value, ← Format.decimal_eq_div, withSignOf, zpow_neg, zpow_natCast,
    ← div_eq_mul_inv]
  split
  · push_cast
    rw [neg_div]
  · push_cast
    rfl

end Decimal

namespace Number

variable {number : Number} {value : ℚ}

/-- The value of a float that is finite. -/
def floatValue? : Number → Option ℚ
  | .float value => (ofFloat32 value).value?
  | .double value => (ofFloat value).value?
  | _ => none

theorem value?_toFloat (finite : number.floatValue? = some value) :
    (ofFloat number.toFloat).value? = some value := by
  cases number
  case float single => exact value?_widen finite
  case double double => exact finite
  all_goals cases finite

theorem toBigInteger_of_finite (finite : number.floatValue? = some value) :
    number.toBigInteger
      = (Decimal.ofDatum Binary.double (ofFloat number.toFloat)).map Decimal.truncate := by
  cases number
  case float single => rfl
  case double double => rfl
  all_goals cases finite

theorem lowBits_of_finite (finite : number.floatValue? = some value) : number.lowBits = none := by
  cases number
  case float single => rfl
  case double double => rfl
  all_goals cases finite

/-- The long of a float within the bounds is what the float is toward zero. -/
theorem convert_long_of_finite (finite : number.floatValue? = some value)
    (small : |value| < 2 ^ 54) :
    number.convert .long = some (.long (Int64.ofInt (towardZero value))) := by
  obtain ⟨negative, significand, exponent, isFinite, rfl⟩ :=
    Datum.eq_finite_of_value? (value?_toFloat finite)
  have nonneg := scaled_nonneg significand exponent
  rw [abs_withSignOf, abs_of_nonneg nonneg] at small
  have whole := towardZero_withSignOf negative nonneg
  have inside : ⌊scaled significand exponent⌋₊ < 2 ^ 54 :=
    (Nat.floor_lt nonneg).2 (by exact_mod_cast small)
  have least : Int64.minValue.toInt = -2 ^ 63 := by decide
  have greatest : Int64.maxValue.toInt = 2 ^ 63 - 1 := by decide
  rw [convert, lowBits_of_finite finite, Option.getD_none, stopped64, isFinite,
    Datum.clamp_finite]
  all_goals
    rw [whole]
    split <;> omega

/-- A finite float is held as a double, and the whole number that it becomes is what the shortest
decimal of this double is toward zero. -/
theorem exists_toBigInteger_eq (finite : number.floatValue? = some value) :
    ∃ negative significand exponent, Binary.double.Canonical significand exponent ∧
      ofFloat number.toFloat = .finite negative significand exponent ∧
      value = withSignOf negative (scaled significand exponent) ∧
      number.toBigInteger = some (towardZero
        (withSignOf negative (Binary.double.shortest significand exponent).value)) := by
  obtain ⟨negative, significand, exponent, isFinite, same⟩ :=
    Datum.eq_finite_of_value? (value?_toFloat finite)
  obtain ⟨decimal, found, sameDecimal⟩ :=
    Decimal.exists_ofDatum Binary.double negative significand exponent
  refine ⟨negative, significand, exponent, Format.canonical_of_datum isFinite, isFinite, same, ?_⟩
  rw [toBigInteger_of_finite finite, isFinite, found, Option.map_some, Decimal.truncate_eq,
    sameDecimal]

/-- Below the bound the places of the decimal are all that is cut off. -/
theorem toBigInteger_of_small (finite : number.floatValue? = some value)
    (small : |value| < 2 ^ 54) : number.toBigInteger = some (towardZero value) := by
  obtain ⟨negative, significand, exponent, canonical, -, rfl, found⟩ :=
    exists_toBigInteger_eq finite
  have nonneg := scaled_nonneg significand exponent
  rw [abs_withSignOf, abs_of_nonneg nonneg] at small
  have floors := canonical.floor_shortest Format.double_regular (by exact_mod_cast small)
  rw [found, towardZero_withSignOf negative (Scientific.value_nonneg _), floors,
    towardZero_withSignOf negative nonneg]

/-- Far from zero the double is nearest to the whole number that it becomes. -/
theorem toBigInteger_of_large (finite : number.floatValue? = some value)
    (large : 2 ^ 53 ≤ |value|) :
    ∃ whole : ℤ, number.toBigInteger = some whole ∧ floatOfInt whole = number.toFloat := by
  obtain ⟨negative, significand, exponent, canonical, isFinite, rfl, found⟩ :=
    exists_toBigInteger_eq finite
  rw [abs_withSignOf, abs_of_nonneg (scaled_nonneg significand exponent)] at large
  obtain ⟨size, positive, isSize, rounded⟩ :=
    canonical.exists_value_shortest_of_large Format.double_regular (by exact_mod_cast large)
  refine ⟨if negative then -(size : ℤ) else size, ?_, ?_⟩
  · rw [found, isSize, towardZero_withSignOf negative (Nat.cast_nonneg _), Nat.floor_natCast]
  · have sign : decide ((if negative then -(size : ℤ) else size) < 0) = negative := by
      cases negative <;> simp [positive]
    have magnitude : (if negative then -(size : ℤ) else size).natAbs = size := by
      split <;> omega
    rw [← toFloat_signed_pattern isFinite, ← rounded, floatOfInt, Format.ofInteger, sign, magnitude]

/-- What a finite float becomes as a whole number. Below the bound it is what the float is toward
zero, and the long that the float becomes is the same. Far from zero it is a whole number to which
the float, as a double, is nearest. A detour through the double changes nothing. -/
theorem whole_numbers_of_floats (finite : number.floatValue? = some value) :
    ∃ whole : ℤ, number.convert .bigInteger = some (.bigInteger whole) ∧
      (|value| < 2 ^ 54 → whole = towardZero value ∧
        (bigInteger whole).convert .long = number.convert .long) ∧
      (2 ^ 53 ≤ |value| → floatOfInt whole = number.toFloat) ∧
      (number.convert .double).bind (·.convert .bigInteger) = number.convert .bigInteger := by
  have through : (number.convert .double).bind (·.convert .bigInteger)
      = number.convert .bigInteger := by
    cases number
    case float single => rfl
    case double double => rfl
    all_goals cases finite
  obtain ⟨whole, found⟩ : ∃ whole, number.toBigInteger = some whole := by
    obtain ⟨_, _, _, _, _, _, found⟩ := exists_toBigInteger_eq finite
    exact ⟨_, found⟩
  refine ⟨whole, by rw [convert, found, Option.map_some], fun small => ?_, fun large => ?_, through⟩
  · obtain rfl : whole = towardZero value :=
      Option.some.inj (found.symm.trans (toBigInteger_of_small finite small))
    have exact : (bigInteger (towardZero value)).value? = some ((towardZero value : ℤ) : ℚ) := rfl
    refine ⟨rfl, ?_⟩
    rw [convert_long_of_finite finite small, convert_eq_ofWhole? exact (by decide),
      towardZero_intCast]
    rfl
  · obtain ⟨whole', found', near⟩ := toBigInteger_of_large finite large
    rwa [← Option.some.inj (found.symm.trans found')] at near

/-- The double next to the bound, below zero. -/
theorem whole_numbers_of_floats_within_bound :
    (double (Float.ofBits 0xC34FFFFFFFFFFFFF)).floatValue? = some (-18014398509481982) ∧
      |(-18014398509481982 : ℚ)| < 2 ^ 54 ∧ 2 ^ 53 ≤ |(-18014398509481982 : ℚ)| ∧
      ∃ whole : ℤ, (double (Float.ofBits 0xC34FFFFFFFFFFFFF)).convert .bigInteger
          = some (.bigInteger whole) ∧
        whole = towardZero (-18014398509481982) ∧
        floatOfInt whole = Float.ofBits 0xC34FFFFFFFFFFFFF := by
  have held : ofFloat (Float.ofBits 0xC34FFFFFFFFFFFFF) = .finite true 9007199254740991 1 := by
    decide +kernel
  have finite : (double (Float.ofBits 0xC34FFFFFFFFFFFFF)).floatValue?
      = some (-18014398509481982) := by
    rw [floatValue?, held, Datum.value?, withSignOf, scaled]
    norm_num
  have small : |(-18014398509481982 : ℚ)| < 2 ^ 54 := by norm_num
  have large : 2 ^ 53 ≤ |(-18014398509481982 : ℚ)| := by norm_num
  obtain ⟨whole, converted, truncated, near, -⟩ := whole_numbers_of_floats finite
  exact ⟨finite, small, large, whole, converted, (truncated small).1, near large⟩

/-- The 60th power of two, whose shortest decimal is another whole number. The long that it becomes
is exact, unless it becomes a whole number of any size before. -/
theorem whole_number_of_float_beyond_bound :
    (double (Float.ofBits 0x43B0000000000000)).floatValue? = some 1152921504606846976 ∧
      (double (Float.ofBits 0x43B0000000000000)).convert .bigInteger
        = some (.bigInteger 1152921504606847000) ∧
      ((double (Float.ofBits 0x43B0000000000000)).convert .bigInteger).bind (·.convert .long)
        = some (.long 1152921504606847000) ∧
      (double (Float.ofBits 0x43B0000000000000)).convert .long
        = some (.long 1152921504606846976) := by
  have held : ofFloat (Float.ofBits 0x43B0000000000000) = .finite false 4503599627370496 8 := by
    decide +kernel
  refine ⟨?_, by decide +kernel, by decide +kernel, by decide +kernel⟩
  rw [floatValue?, held, Datum.value?, withSignOf, scaled]
  norm_num

end Number

end Wordloom
