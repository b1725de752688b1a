import Mathlib.Data.List.TakeWhile
import Wordloom.Binary.Notation
import Wordloom.Proofs.Text.Trim

/-!
# Reading what is written in digits

This file shows that the texts of whole numbers have no blanks and are read as the numbers again,
by both readers of integers, and that a point between digits does not change which digits there
are.
-/

namespace Wordloom

-- Powers are those of the core library, whatever else is imported.
attribute [local instance (2000)] instPowNat

open Text (Solid)

/-- Whether a text has no characters but digits. -/
def Digital (text : List Char) : Prop :=
  ∀ character ∈ text, character.isDigit = true

theorem digital_append {left right : List Char} :
    Digital (left ++ right) ↔ Digital left ∧ Digital right :=
  List.forall_mem_append

theorem digital_replicate_zero (count : Nat) : Digital (List.replicate count '0') := by
  intro character member
  rw [List.eq_of_mem_replicate member]
  rfl

theorem digital_digits (number : Nat) : Digital (digits number) := fun _ member =>
  Nat.isDigit_of_mem_toDigits (by decide) (by decide) member

theorem digits_ne_nil (number : Nat) : digits number ≠ [] :=
  Nat.toDigits_ne_nil

theorem Digital.solid {text : List Char} (digital : Digital text) : Solid text :=
  fun character member => Text.isBlank_eq_false_of_isDigit (digital character member)

theorem readNatural_of_digital {text : List Char} (digital : Digital text)
    (present : text ≠ []) : readNatural text = some (ofDigits text) := by
  have numeral : isNumeral text = true := by
    rw [isNumeral, Bool.and_eq_true, List.all_eq_true]
    exact ⟨by simpa using present, digital⟩
  rw [readNatural, if_pos numeral]

theorem solid_of_readNatural {text : List Char} {number : Nat}
    (read : readNatural text = some number) : Solid text ∧ text ≠ [] := by
  rw [readNatural] at read
  split at read
  · rename_i numeral
    rw [isNumeral, Bool.and_eq_true, List.all_eq_true] at numeral
    exact ⟨Digital.solid numeral.2, by simpa using numeral.1⟩
  · cases read

/-- A number that is read has no blanks in its text. -/
theorem solid_of_readBelow {bound number : Nat} {text : List Char}
    (read : readBelow bound text = some number) : Solid text ∧ text ≠ [] := by
  rw [readBelow.eq_def] at read
  have inside := (Option.filter_eq_some_iff.mp read).1
  split at inside
  · rename_i rest
    have digits := (solid_of_readNatural inside).1
    exact ⟨Text.solid_cons.mpr ⟨by decide, digits⟩, List.cons_ne_nil _ _⟩
  · exact solid_of_readNatural inside

/-- Zeros at the start do not count. -/
theorem ofDigits_zeros_append (count : Nat) (text : List Char) :
    ofDigits (List.replicate count '0' ++ text) = ofDigits text := by
  have zeros : ofDigits (List.replicate count '0') = 0 := Nat.ofDigitChars_replicate_zero
  rw [ofDigits_append, zeros, Nat.mul_zero, Nat.zero_add]

/-- Each zero at the end is a factor of ten. -/
theorem ofDigits_append_zeros (text : List Char) (count : Nat) :
    ofDigits (text ++ List.replicate count '0') = ofDigits text * 10 ^ count := by
  have zeros : ofDigits (List.replicate count '0') = 0 := Nat.ofDigitChars_replicate_zero
  rw [ofDigits_append, zeros, List.length_replicate, Nat.add_zero, Nat.mul_comm]

section Integers

theorem solid_integerText (number : Int) : Solid (integerText number) := by
  have solid := (digital_digits number.natAbs).solid
  rw [integerText]
  split
  · exact Text.solid_cons.2 ⟨by decide, solid⟩
  · exact solid

theorem integerText_ne_nil (number : Int) : integerText number ≠ [] := by
  rw [integerText]
  split
  · exact List.cons_ne_nil _ _
  · exact digits_ne_nil _

/-- The whole number of some size, with a sign. -/
def signedOf (negative : Bool) (size : Nat) : Int :=
  if negative then -(size : Int) else size

theorem signedOf_natAbs (number : Int) :
    signedOf (decide (number < 0)) number.natAbs = number := by
  rw [signedOf]
  split
  · rename_i negative
    rw [decide_eq_true_eq] at negative
    omega
  · rename_i nonneg
    rw [decide_eq_true_eq] at nonneg
    omega

theorem signedOf_mul (negative : Bool) (size factor : Nat) :
    signedOf negative (size * factor) = signedOf negative size * factor := by
  rw [signedOf, signedOf]
  split
  · rw [Int.natCast_mul, Int.neg_mul]
  · exact Int.natCast_mul size factor

/-- There are no underscores to leave out. -/
theorem Digital.filter_underscores {text : List Char} (digital : Digital text) :
    text.filter (· ≠ '_') = text := by
  refine List.filter_eq_self.2 fun character member => ?_
  rw [decide_eq_true_eq]
  rintro rfl
  exact absurd (digital _ member) (by decide)

/-- Digits after a sign are read as a whole number of any size. -/
theorem readBigInteger_withSign {text : List Char} (digital : Digital text) (present : text ≠ [])
    (negative : Bool) :
    readBigInteger (Binary.withSign negative text) = some (signedOf negative (ofDigits text)) := by
  obtain ⟨first, rest, rfl⟩ := List.exists_cons_of_ne_nil present
  have digit : first.isDigit = true := digital first List.mem_cons_self
  have grouped : readBigInteger.grouped (first :: rest) = some (ofDigits (first :: rest)) := by
    rw [readBigInteger.grouped, digital.filter_underscores,
      readNatural_of_digital digital present, if_neg]
    intro starts
    rw [Option.some.inj starts] at digit
    exact absurd digit (by decide)
  cases negative with
  | true =>
    rw [Binary.withSign, if_pos rfl, readBigInteger.eq_def]
    split
    · simp_all
    · simp_all [signedOf]
    all_goals simp_all
  | false =>
    rw [Binary.withSign, if_neg (by decide), readBigInteger.eq_def]
    split
    all_goals simp_all [signedOf]

theorem readBigInteger_integerText (number : Int) :
    readBigInteger (integerText number) = some number := by
  have text : integerText number
      = Binary.withSign (decide (number < 0)) (digits number.natAbs) := by
    simp [integerText, Binary.withSign]
  rw [text, readBigInteger_withSign (digital_digits _) (digits_ne_nil _), ofDigits_digits,
    signedOf_natAbs]

end Integers

namespace Binary

variable {text : List Char}

theorem withSign_append (negative : Bool) (left right : List Char) :
    withSign negative (left ++ right) = withSign negative left ++ right := by
  cases negative <;> rfl

theorem solid_withSign (solid : Solid text) (negative : Bool) :
    Solid (withSign negative text) := by
  rw [withSign]
  split
  · exact Text.solid_cons.2 ⟨by decide, solid⟩
  · exact solid

/-- A point splits the digits, with zeros before them if they are too few. -/
theorem exists_pointed (digitsText : List Char) (places : Nat) :
    ∃ whole fraction, pointed digitsText places = whole ++ '.' :: fraction ∧ whole ≠ [] ∧
      fraction.length = places ∧ ∃ zeros,
        whole ++ fraction = List.replicate zeros '0' ++ digitsText := by
  refine ⟨_, _, rfl, ?_, ?_, _, List.take_append_drop _ _⟩
  · rw [ne_eq, ← List.length_eq_zero_iff, List.length_take, List.length_append,
      List.length_replicate]
    omega
  · rw [List.length_drop, List.length_append, List.length_replicate]
    omega

end Binary

end Wordloom
