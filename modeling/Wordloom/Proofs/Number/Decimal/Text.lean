import Mathlib
import Wordloom.Proofs.Number.Exact
import Wordloom.Proofs.Text.Numerals

/-!
# Reading the texts of decimals

This file shows as which decimal the text of a decimal is read. It is the decimal itself, digits
and places, except for whole numbers with up to fifteen zeros left unwritten, whose text has these
zeros, and for zero, whose text has no places. So the value is always the same.

A text is taken apart once: digits around a point that may be missing, and an exponent that may be
missing. The four ways in which a decimal is written are then told apart by where its point is and
by what its exponent says.
-/

namespace Wordloom

-- Powers are those of the core library, whatever else is imported.
attribute [local instance (2000)] instPowNat

open Text (Solid)

namespace Decimal

/-- Whether the count of places fits a signed 64-bit word, which is where decimals keep it. -/
def Fits (number : Decimal) : Prop :=
  Int64.minValue.toInt ≤ number.scale ∧ number.scale ≤ Int64.maxValue.toInt

instance (number : Decimal) : Decidable number.Fits :=
  inferInstanceAs (Decidable (_ ∧ _))

/-- A text is not read when it asks for other counts. -/
theorem fits_of_read {text : List Char} {number : Decimal} (success : read text = some number) :
    number.Fits := by
  unfold read at success
  dsimp only at success
  split at success
  all_goals
    simp only [Option.bind_eq_bind, Option.bind_eq_some_iff, Option.pure_def, Option.some.injEq]
      at success
    obtain ⟨exponent, -, _, guarded, unscaled, -, rfl⟩ := success
    by_contra outside
    rw [Fits] at outside
    simp only [guard, if_neg outside] at guarded
    cases guarded

/-- What stands for the places after the digits before them. -/
def afterLead (trail : List Char) : List Char :=
  if trail = [] then [] else '.' :: trail

/-- What a text may end in, and the exponent that this says. -/
inductive Ending : List Char → ℤ → Prop
  | none : Ending [] 0
  | small (power : ℤ) : Ending ('E' :: integerText power) power
  | large (zeros : ℕ) : Ending ('e' :: '+' :: digits zeros) zeros

variable {number : Decimal} {text lead trail ending : List Char} {exponent : ℤ} {negative : Bool}

theorem Ending.solid (ends : Ending ending exponent) : Solid ending := by
  cases ends with
  | none => exact (by decide : Solid [])
  | small power => exact Text.solid_cons.2 ⟨by decide, solid_integerText exponent⟩
  | large zeros =>
    exact Text.solid_cons.2 ⟨by decide, Text.solid_cons.2 ⟨by decide, (digital_digits _).solid⟩⟩

/-- Whether a character starts an exponent. -/
def isMark (character : Char) : Bool :=
  character == 'e' || character == 'E'

/-- An ending is split off where its mark is. -/
theorem Ending.split {base : List Char} (unmarked : ∀ character ∈ base, isMark character = false)
    (ends : Ending ending exponent) :
    (base ++ ending).takeWhile (!isMark ·) = base ∧
      (base ++ ending).dropWhile (!isMark ·) = ending := by
  have stop : ending.takeWhile (!isMark ·) = [] ∧ ending.dropWhile (!isMark ·) = ending := by
    cases ends <;> exact ⟨rfl, rfl⟩
  rw [List.takeWhile_append_of_pos (by simpa using unmarked), stop.1, List.append_nil,
    List.dropWhile_append_of_pos (by simpa using unmarked), stop.2]
  exact ⟨rfl, rfl⟩

/-- The places are split off where the point is. -/
theorem afterLead_split (trail : List Char) (pointless : '.' ∉ lead) :
    (lead ++ afterLead trail).takeWhile (· ≠ '.') = lead ∧
      ((lead ++ afterLead trail).dropWhile (· ≠ '.')).drop 1 = trail := by
  have kept : ∀ character ∈ lead, decide (character ≠ '.') = true := by
    intro character member
    rw [decide_eq_true_eq]
    rintro rfl
    exact pointless member
  rw [List.takeWhile_append_of_pos kept, List.dropWhile_append_of_pos kept, afterLead]
  split
  · rename_i none
    simp [none]
  · simp

/-- Which characters are written before an ending. -/
theorem mem_withSign_append_afterLead (digital : Digital (lead ++ trail)) {character : Char}
    (member : character ∈ Binary.withSign negative (lead ++ afterLead trail)) :
    character = '-' ∨ character = '.' ∨ character.isDigit = true := by
  have unsigned : character = '-' ∨ character ∈ lead ++ afterLead trail := by
    rw [Binary.withSign] at member
    split at member
    · exact List.mem_cons.1 member
    · exact Or.inr member
  refine unsigned.imp_right fun inside => ?_
  rw [afterLead] at inside
  split at inside
  · rw [List.append_nil] at inside
    exact Or.inr (digital character (List.mem_append_left trail inside))
  · rcases List.mem_append.1 inside with inLead | behind
    · exact Or.inr (digital character (List.mem_append_left trail inLead))
    · exact (List.mem_cons.1 behind).imp_right fun inTrail =>
        digital character (List.mem_append_right lead inTrail)

/-- Whether a text without a sign consists of digits around a point and of an exponent that make a
decimal of some sign. -/
def Spells (text : List Char) (negative : Bool) (number : Decimal) : Prop :=
  ∃ lead trail ending exponent, text = lead ++ afterLead trail ++ ending ∧
    Digital (lead ++ trail) ∧ lead ≠ [] ∧ Ending ending exponent ∧
    number = ⟨signedOf negative (ofDigits (lead ++ trail)), trail.length - exponent⟩

theorem Spells.ne_nil (spells : Spells text negative number) : text ≠ [] := by
  obtain ⟨lead, trail, ending, exponent, rfl, -, present, -⟩ := spells
  simp [present]

theorem Spells.solid (spells : Spells text negative number) :
    Solid (Binary.withSign negative text) := by
  obtain ⟨lead, trail, ending, exponent, rfl, digital, -, ends, -⟩ := spells
  rw [Binary.withSign_append]
  refine Text.solid_append.2 ⟨fun character member => ?_, ends.solid⟩
  rcases mem_withSign_append_afterLead digital member with rfl | rfl | digit
  · rfl
  · rfl
  · exact Text.isBlank_eq_false_of_isDigit digit

/-- What spells a decimal is read as this decimal. -/
theorem Spells.read_eq (spells : Spells text negative number) (fits : number.Fits) :
    read (Binary.withSign negative text) = some number := by
  obtain ⟨lead, trail, ending, exponent, rfl, digital, present, ends, rfl⟩ := spells
  obtain ⟨leadDigital, trailDigital⟩ := digital_append.1 digital
  have unmarked : ∀ character ∈ Binary.withSign negative (lead ++ afterLead trail),
      isMark character = false := by
    intro character member
    rcases mem_withSign_append_afterLead digital member with rfl | rfl | digit
    · rfl
    · rfl
    · rw [← Bool.not_eq_true, isMark, Bool.or_eq_true, beq_iff_eq, beq_iff_eq]
      rintro (rfl | rfl) <;> exact absurd digit (by decide)
  have pointless : '.' ∉ Binary.withSign negative lead := by
    intro member
    have digit : '.' ∈ lead := by cases negative <;> simpa [Binary.withSign] using member
    exact absurd (leadDigital _ digit) (by decide)
  obtain ⟨leadSplit, trailSplit⟩ := afterLead_split trail pointless
  obtain ⟨baseSplit, endingSplit⟩ := ends.split unmarked
  have unscaled : readBigInteger (Binary.withSign negative lead ++ trail)
      = some (signedOf negative (ofDigits (lead ++ trail))) := by
    rw [← Binary.withSign_append]
    exact readBigInteger_withSign digital (List.append_ne_nil_of_left_ne_nil present trail) _
  have plus : ∀ zeros : ℕ, readInteger ('+' :: digits zeros) = some (zeros : ℤ) := by
    intro zeros
    rw [readInteger, readNatural_digits]
    rfl
  rw [Fits] at fits
  unfold isMark at baseSplit endingSplit
  rw [Binary.withSign_append] at *
  unfold read
  simp only [baseSplit, endingSplit, Binary.withSign_append, leadSplit, trailSplit,
    trailDigital.filter_underscores, unscaled]
  cases ends
  all_goals
    simp only [readInteger_integerText, plus, guard, Option.bind_eq_bind, Option.bind_some,
      if_pos fits]
    rfl

/-- The decimal as which the text of a decimal is read. -/
def reread (number : Decimal) : Decimal :=
  if number.unscaled = 0 then ⟨0, 0⟩
  else if -15 ≤ number.scale ∧ number.scale ≤ 0 then
    ⟨number.unscaled * 10 ^ (-number.scale).toNat, 0⟩
  else number

theorem value_reread (number : Decimal) : number.reread.value = number.value := by
  rw [reread]
  split
  · rename_i zero
    rw [value, value, zero, Int.cast_zero, zero_mul, zero_mul]
  · split
    · rename_i zeros
      obtain ⟨count, places⟩ : ∃ count : ℕ, -number.scale = count :=
        ⟨(-number.scale).toNat, by omega⟩
      rw [value, value, places, Int.toNat_natCast, neg_zero, zpow_zero, mul_one, zpow_natCast]
      push_cast
      rfl
    · rfl

/-- The parts of a decimal are its own digits, as many of them behind the point as it has places
after the exponent. -/
theorem spells_of_digits (digitsOf : ofDigits (lead ++ trail) = number.unscaled.natAbs)
    (digital : Digital (lead ++ trail)) (present : lead ≠ []) (ends : Ending ending exponent)
    (places : trail.length - exponent = number.scale) :
    Spells (lead ++ afterLead trail ++ ending) (decide (number.unscaled < 0)) number := by
  refine ⟨lead, trail, ending, exponent, rfl, digital, present, ends, ?_⟩
  rw [digitsOf, signedOf_natAbs, places]

/-- One digit before the point, and the power of this digit. -/
theorem spells_small {first : Char} {rest : List Char}
    (shape : digits number.unscaled.natAbs = first :: rest) :
    Spells ([first] ++ afterLead rest ++
        'E' :: integerText ((first :: rest).length - number.scale - 1))
      (decide (number.unscaled < 0)) number := by
  refine spells_of_digits ?_ ?_ (List.cons_ne_nil _ _) (.small _) ?_
  · rw [List.singleton_append, ← shape, ofDigits_digits]
  · rw [List.singleton_append, ← shape]
    exact digital_digits _
  · rw [List.length_cons]
    omega

/-- The digits as they are, and the count of zeros. -/
theorem spells_large (whole : number.scale ≤ 0) :
    Spells (digits number.unscaled.natAbs ++ 'e' :: '+' :: integerText (-number.scale))
      (decide (number.unscaled < 0)) number := by
  obtain ⟨zeros, count⟩ : ∃ zeros : ℕ, number.scale = -(zeros : ℤ) :=
    ⟨(-number.scale).toNat, by omega⟩
  have written : integerText (-number.scale) = digits zeros := by
    rw [count, neg_neg, integerText, if_neg (by omega), Int.natAbs_natCast]
  have digital := digital_digits number.unscaled.natAbs
  have value := ofDigits_digits number.unscaled.natAbs
  rw [← List.append_nil (digits number.unscaled.natAbs)] at digital value
  have spells := spells_of_digits value digital (digits_ne_nil _) (.large zeros)
    (by rw [count, List.length_nil]; omega)
  rw [afterLead, if_pos rfl, List.append_nil] at spells
  rwa [written]

/-- The zeros are written out. -/
theorem spells_filled (number : Decimal) :
    Spells (digits number.unscaled.natAbs ++ List.replicate (-number.scale).toNat '0')
      (decide (number.unscaled < 0)) ⟨number.unscaled * 10 ^ (-number.scale).toNat, 0⟩ := by
  refine ⟨digits number.unscaled.natAbs ++ List.replicate (-number.scale).toNat '0', [], [], 0,
    ?_, ?_, ?_, .none, ?_⟩
  · simp [afterLead]
  · rw [List.append_nil]
    exact digital_append.2 ⟨digital_digits _, digital_replicate_zero _⟩
  · exact List.append_ne_nil_of_left_ne_nil (digits_ne_nil _) _
  · have filled : signedOf (decide (number.unscaled < 0))
        (number.unscaled.natAbs * 10 ^ (-number.scale).toNat)
        = number.unscaled * 10 ^ (-number.scale).toNat := by
      rw [signedOf_mul, signedOf_natAbs, Nat.cast_pow, Nat.cast_ofNat]
    rw [List.append_nil, ofDigits_append_zeros, ofDigits_digits, filled]
    rfl

/-- A point between the digits, or zeros between the two. -/
theorem spells_pointed (places : 0 < number.scale) :
    Spells (Binary.pointed (digits number.unscaled.natAbs) number.scale.toNat)
      (decide (number.unscaled < 0)) number := by
  obtain ⟨lead, trail, text, present, length, zeros, split⟩ :=
    Binary.exists_pointed (digits number.unscaled.natAbs) number.scale.toNat
  have behind : trail ≠ [] := by
    rw [← List.length_pos_iff]
    omega
  have digital : Digital (lead ++ trail) := by
    rw [split]
    exact digital_append.2 ⟨digital_replicate_zero _, digital_digits _⟩
  have value : ofDigits (lead ++ trail) = number.unscaled.natAbs := by
    rw [split, ofDigits_zeros_append, ofDigits_digits]
  have spells := spells_of_digits value digital present .none (by omega)
  rw [afterLead, if_neg behind, List.append_nil] at spells
  rwa [text]

theorem spells_magnitudeText (nonzero : number.unscaled ≠ 0) :
    Spells number.magnitudeText (decide (number.unscaled < 0)) number.reread := by
  rw [magnitudeText, reread, if_neg nonzero]
  dsimp only
  split
  · obtain ⟨first, rest, shape⟩ := List.exists_cons_of_ne_nil (digits_ne_nil number.unscaled.natAbs)
    have spells := spells_small shape
    rw [if_neg (by omega), shape]
    cases rest <;> exact spells
  · split
    · rw [if_neg (by omega)]
      exact spells_large (by omega)
    · split
      · rw [if_pos (by omega)]
        exact spells_filled number
      · rw [if_neg (by omega)]
        exact spells_pointed (by omega)

theorem solid_text (number : Decimal) : Solid number.text ∧ number.text ≠ [] := by
  rw [text]
  split
  · decide
  · rename_i nonzero
    have spells := spells_magnitudeText nonzero
    refine ⟨spells.solid, ?_⟩
    rw [Binary.withSign]
    split
    · exact List.cons_ne_nil _ _
    · exact spells.ne_nil

theorem fits_reread (fits : number.Fits) : number.reread.Fits := by
  rw [reread]
  split
  · decide
  · split
    · exact (by decide : Int64.minValue.toInt ≤ 0 ∧ 0 ≤ Int64.maxValue.toInt)
    · exact fits

theorem read_text (fits : number.Fits) : read number.text = some number.reread := by
  by_cases zero : number.unscaled = 0
  · rw [text, reread, if_pos zero, if_pos zero]
    decide
  · rw [text, if_neg zero]
    exact (spells_magnitudeText zero).read_eq (fits_reread fits)

end Decimal

end Wordloom
