import Mathlib
import Wordloom.Proofs.Binary.Shortest
import Wordloom.Proofs.Binary.Values
import Wordloom.Proofs.Text.Numerals

/-!
# Reading the texts of floats

This file shows that the text of a float is read as the same bits, for every float but a NaN. The
digits of the text are those of the shortest decimal, and this rounds to the number. A whole
decimal is written with one more digit after the point, which makes it another decimal of the same
value; it is rounded the same way, because neither of the two is so large or so small that its
power of ten is not computed.
-/

namespace Wordloom.Binary

-- Powers are those of the core library, whatever else is imported.
attribute [local instance (2000)] instPowNat

open Text (Solid)

/-- Digits around a point are read as one number with places. -/
theorem readScientific_point {whole fraction : List Char} (digital : Digital (whole ++ fraction))
    (present : whole ≠ []) :
    readScientific (whole ++ '.' :: fraction)
      = some (ofDigits (whole ++ fraction), -(fraction.length : ℤ)) := by
  obtain ⟨wholeDigital, fractionDigital⟩ := digital_append.1 digital
  have before : (whole ++ '.' :: fraction).takeWhile Char.isDigit = whole := by
    rw [List.takeWhile_append_of_pos wholeDigital, List.takeWhile_cons_of_neg (by decide),
      List.append_nil]
  have behind : (whole ++ '.' :: fraction).dropWhile Char.isDigit = '.' :: fraction := by
    rw [List.dropWhile_append_of_pos wholeDigital, List.dropWhile_cons_of_neg (by decide)]
  have all : fraction.takeWhile Char.isDigit = fraction :=
    List.takeWhile_eq_self_iff.2 fractionDigital
  have none : fraction.dropWhile Char.isDigit = [] :=
    List.dropWhile_eq_nil_iff.2 fractionDigital
  rw [readScientific, before, behind]
  simp only [all, none]
  rw [if_neg (by simp [present]), Option.map_some, zero_sub]

namespace Format

variable {format : Format}

/-- A decimal with a tenth more that is zero is rounded like the decimal without. -/
theorem ofDecimal_tenths {coefficient tens : ℕ}
    (finite : format.ofDecimal coefficient tens < format.infinity) :
    format.ofDecimal (coefficient * 10 ^ (tens + 1)) (-1) = format.ofDecimal coefficient tens := by
  rcases Nat.eq_zero_or_pos coefficient with rfl | positive
  · rw [Nat.zero_mul, ofDecimal, ofDecimal, if_pos rfl, if_pos rfl]
  · have scaledUp : coefficient * 10 ^ (tens + 1) ≠ 0 :=
      Nat.ne_of_gt (Nat.mul_pos positive (Nat.pow_pos (by decide)))
    have inside : ¬(tens : ℤ) > (2 ^ format.exponentBits : ℕ) := by
      intro beyond
      rw [ofDecimal, if_neg (Nat.ne_of_gt positive), if_pos beyond] at finite
      exact absurd finite (Nat.lt_irrefl _)
    have shifted : ofDecimal format (coefficient * 10 ^ (tens + 1)) (-1)
        = format.nearest (coefficient * 10 ^ (tens + 1) * 10 ^ (-1 : ℤ).toNat)
          (10 ^ (- -1 : ℤ).toNat) := by
      have range : 0 < 2 ^ format.exponentBits := Nat.two_pow_pos _
      rw [ofDecimal, if_neg scaledUp, if_neg (by omega), if_neg (by omega)]
    have plain : ofDecimal format coefficient tens
        = format.nearest (coefficient * 10 ^ (tens : ℤ).toNat) (10 ^ (-tens : ℤ).toNat) := by
      rw [ofDecimal, if_neg (Nat.ne_of_gt positive), if_neg inside, if_neg (by omega)]
    rw [shifted, plain]
    refine nearest_congr (Nat.pow_pos (by decide)) (Nat.pow_pos (by decide)) ?_
    rw [decimal_eq_div, decimal_eq_div, zpow_neg_one, zpow_natCast, Nat.cast_mul, Nat.cast_pow,
      Nat.cast_ofNat, pow_succ]
    field_simp

end Format

/-- The text of a decimal that is marked as a fraction. -/
def Scientific.marked (number : Scientific) : List Char :=
  let text := number.positional
  if text.contains '.' then text else text ++ ".0".toList

/-- The text has digits on both sides of a point, and what these say is rounded like the decimal
itself. -/
theorem Scientific.exists_marked (number : Scientific) :
    ∃ whole fraction, number.marked = whole ++ '.' :: fraction ∧ whole ≠ [] ∧
      Digital (whole ++ fraction) ∧ ∀ format : Format,
        format.ofDecimal number.coefficient number.exponent < format.infinity →
          format.ofDecimal (ofDigits (whole ++ fraction)) (-(fraction.length : ℤ))
            = format.ofDecimal number.coefficient number.exponent := by
  rcases number with ⟨coefficient, exponent⟩
  have digital := digital_digits coefficient
  by_cases nonneg : 0 ≤ exponent
  · obtain ⟨tens, rfl⟩ := Int.eq_ofNat_of_zero_le nonneg
    have filled : Digital (digits coefficient ++ List.replicate tens '0') :=
      digital_append.2 ⟨digital, digital_replicate_zero tens⟩
    have unmarked : (digits coefficient ++ List.replicate tens '0').contains '.' = false := by
      rw [← Bool.not_eq_true, List.contains_iff_mem]
      intro member
      exact absurd (filled _ member) (by decide)
    refine ⟨digits coefficient ++ List.replicate tens '0', ['0'], ?_, ?_, ?_,
      fun format finite => ?_⟩
    · rw [marked, positional, if_pos nonneg, Int.toNat_natCast, unmarked]
      rfl
    · exact List.append_ne_nil_of_left_ne_nil (digits_ne_nil _) _
    · exact digital_append.2 ⟨filled, digital_replicate_zero 1⟩
    · have value : ofDigits (digits coefficient ++ List.replicate tens '0' ++ ['0'])
          = coefficient * 10 ^ (tens + 1) := by
        rw [List.append_assoc, ← List.replicate_succ', ofDigits_append_zeros, ofDigits_digits]
      rw [value]
      exact Format.ofDecimal_tenths finite
  · obtain ⟨whole, fraction, shape, present, length, zeros, split⟩ :=
      exists_pointed (digits coefficient) (-exponent).toNat
    refine ⟨whole, fraction, ?_, present, ?_, fun format _ => ?_⟩
    · have point : (whole ++ '.' :: fraction).contains '.' = true := by simp
      rw [marked, positional, if_neg nonneg, shape, point, if_pos rfl]
    · rw [split]
      exact digital_append.2 ⟨digital_replicate_zero zeros, digital⟩
    · have places : -(fraction.length : ℤ) = exponent := by omega
      rw [split, ofDigits_zeros_append, ofDigits_digits, places]

namespace Format

variable {format : Format} {bits : ℕ}

/-- A text that starts with a digit and has a point is no word. -/
theorem readMagnitude_point {whole fraction : List Char} (digital : Digital (whole ++ fraction))
    (present : whole ≠ []) :
    format.readMagnitude (whole ++ '.' :: fraction)
      = some (format.ofDecimal (ofDigits (whole ++ fraction)) (-(fraction.length : ℤ))) := by
  have point : '.' ∈ (whole ++ '.' :: fraction).map Char.toLower :=
    List.mem_map.2 ⟨'.', by simp, by decide⟩
  have noWord : ∀ word : String, word.toList.contains '.' = false →
      (whole ++ '.' :: fraction).map Char.toLower ≠ word.toList := by
    rintro word pointless same
    rw [same] at point
    simp [point] at pointless
  rw [readMagnitude, readScientific_point digital present]
  dsimp only
  rw [if_neg, if_neg (noWord "nan" (by decide)), Option.map_some]
  rw [Bool.or_eq_true, decide_eq_true_eq, decide_eq_true_eq, not_or]
  exact ⟨noWord "inf" (by decide), noWord "infinity" (by decide)⟩

/-- A sign goes through, unless the text brings its own. -/
theorem read_withSign {text : List Char} {size : ℕ} (negative : Bool)
    (unsigned : text.head? ≠ some '-' ∧ text.head? ≠ some '+')
    (magnitude : format.readMagnitude text = some size) :
    format.read (withSign negative text) = some (format.signed negative size) := by
  cases negative with
  | true => rw [withSign, if_pos rfl, read, magnitude, Option.map_some]
  | false =>
    rw [withSign, if_neg (by decide), read.eq_def]
    split
    · simp at unsigned
    · simp at unsigned
    · rw [magnitude]
      rfl

/-- The text of a finite number is read as the bits that the number is made of. -/
theorem read_text_finite {negative : Bool} {significand : ℕ} {exponent : ℤ}
    (canonical : format.Canonical significand exponent) (regular : format.Regular) :
    format.read (format.text (.finite negative significand exponent))
      = some (format.signed negative (format.pattern significand exponent)) := by
  have rounds := canonical.ofDecimal_shortest regular
  obtain ⟨whole, fraction, shape, present, digital, same⟩ :=
    (format.shortest significand exponent).exists_marked
  have text : format.text (.finite negative significand exponent)
      = withSign negative (format.shortest significand exponent).marked := rfl
  rw [text, shape]
  refine read_withSign negative ?_ ?_
  · obtain ⟨first, rest, rfl⟩ := List.exists_cons_of_ne_nil present
    have digit : first.isDigit = true := digital first (by simp)
    rw [List.cons_append, List.head?_cons]
    constructor
    all_goals
      intro starts
      rw [Option.some.inj starts] at digit
      exact absurd digit (by decide)
  · rw [readMagnitude_point digital present, same format (rounds ▸ canonical.finite), rounds]

/-- Only one pattern of each sign stands for an infinity. -/
theorem signed_infinity_of_datum {negative : Bool} (inside : bits < 2 * format.signBit)
    (infinite : format.datum bits = .infinite negative) :
    format.signed negative format.infinity = bits := by
  rw [datum, magnitude] at infinite
  have whole := Nat.div_add_mod (bits % format.signBit) (2 ^ format.fractionBits)
  have magnitude : bits % format.signBit = format.infinity ∧
      decide (format.signBit ≤ bits) = negative := by
    split at infinite
    · rename_i special
      split at infinite
      · rename_i none
        rw [special, none, Nat.add_zero, Nat.mul_comm] at whole
        exact ⟨whole.symm, Datum.infinite.inj infinite⟩
      · cases infinite
    · split at infinite <;> cases infinite
  obtain ⟨magnitude, rfl⟩ := magnitude
  rw [signed, ← magnitude]
  split
  · rename_i reached
    rw [decide_eq_true_eq] at reached
    rw [Nat.mod_eq_sub_mod reached, Nat.mod_eq_of_lt (by omega)]
    omega
  · rename_i below
    rw [decide_eq_true_eq] at below
    exact Nat.mod_eq_of_lt (by omega)

/-- The text of what bits stand for is read as these bits, unless they stand for no number. -/
theorem read_text (regular : format.Regular) (inside : bits < 2 * format.signBit)
    (notNan : format.datum bits ≠ .nan) :
    format.read (format.text (format.datum bits)) = some bits := by
  cases shape : format.datum bits with
  | nan => exact absurd shape notNan
  | infinite negative =>
    have read : format.read (infiniteText negative)
        = some (format.signed negative format.infinity) :=
      read_withSign negative (by decide) rfl
    rw [text, read, signed_infinity_of_datum inside shape]
  | finite negative significand exponent =>
    rw [read_text_finite (canonical_of_datum shape) regular, signed_pattern_of_datum inside shape]

theorem solid_text (format : Format) (datum : Datum) :
    Solid (format.text datum) ∧ format.text datum ≠ [] := by
  cases datum with
  | nan => exact (by decide : Solid "NaN".toList ∧ "NaN".toList ≠ [])
  | infinite negative =>
    rw [text]
    cases negative <;> decide
  | finite negative significand exponent =>
    obtain ⟨whole, fraction, shape, present, digital, -⟩ :=
      (format.shortest significand exponent).exists_marked
    obtain ⟨wholeDigital, fractionDigital⟩ := digital_append.1 digital
    have text : format.text (.finite negative significand exponent)
        = withSign negative (format.shortest significand exponent).marked := rfl
    rw [text, shape]
    have solid : Solid (whole ++ '.' :: fraction) :=
      Text.solid_append.2 ⟨wholeDigital.solid,
        Text.solid_cons.2 ⟨by decide, fractionDigital.solid⟩⟩
    refine ⟨solid_withSign solid negative, ?_⟩
    cases negative <;> simp [withSign]

end Format

theorem readFloat_floatText {number : Float} (isNumber : number.isNaN = false) :
    readFloat (floatText number).toList = some number := by
  have notNan : ofFloat number ≠ .nan := by
    rw [ne_eq, ofFloat_eq_nan_iff, isNumber]
    decide
  rw [floatText, String.toList_ofList, readFloat, ofFloat,
    Format.read_text Format.double_regular number.toBits.toNat_lt notNan, Option.map_some,
    toFloat_toBits]

theorem readFloat32_float32Text {number : Float32} (isNumber : number.isNaN = false) :
    readFloat32 (float32Text number).toList = some number := by
  have notNan : ofFloat32 number ≠ .nan := by
    rw [ne_eq, ofFloat32_eq_nan_iff, isNumber]
    decide
  rw [float32Text, String.toList_ofList, readFloat32, ofFloat32,
    Format.read_text Format.single_regular number.toBits.toNat_lt notNan, Option.map_some,
    toFloat32, UInt32.ofNat_toNat, Float32.ofBits_toBits]

end Wordloom.Binary
