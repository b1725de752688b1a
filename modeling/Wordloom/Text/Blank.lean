/-!
# Blank text

This file gives the blank characters and the three things done with them: trimming both
ends of a text, asking whether a text is blank throughout, and splitting a text into words.

A character is blank when it has the Unicode property White_Space. The property holds of
twenty-five characters in ten ranges, so it is written down range by range; the ASCII blanks
of `Char.isWhitespace` are among them.

Texts are lists of characters here, because everything that reads a text one character at
a time is stated over lists. `trimmed` and `wordsOf` are the same on strings.
-/

namespace Wordloom.Text

/-- The ranges of the White_Space property, each from its first to its last character. -/
def blankRanges : List (Nat × Nat) :=
  [(0x9, 0xD), (0x20, 0x20), (0x85, 0x85), (0xA0, 0xA0), (0x1680, 0x1680), (0x2000, 0x200A),
    (0x2028, 0x2029), (0x202F, 0x202F), (0x205F, 0x205F), (0x3000, 0x3000)]

/-- Whether a character separates words. -/
def isBlank (character : Char) : Bool :=
  blankRanges.any fun (first, last) =>
    decide (first ≤ character.toNat) && decide (character.toNat ≤ last)

/-- The text without the blanks at its start. -/
def trimStart (text : List Char) : List Char :=
  text.dropWhile isBlank

/-- The text without the blanks at its end. -/
def trimEnd (text : List Char) : List Char :=
  (text.reverse.dropWhile isBlank).reverse

/-- The text without the blanks at either end. -/
def trim (text : List Char) : List Char :=
  trimEnd (trimStart text)

/-- Whether a text holds blanks only. The empty text does. -/
def allBlank (text : List Char) : Bool :=
  text.all isBlank

/-- The longest runs of characters that are not blank, in order. -/
def words : List Char → List (List Char)
  | [] => []
  | character :: rest =>
    if isBlank character then words rest
    else
      match rest with
      | [] => [[character]]
      | next :: _ =>
        if isBlank next then [character] :: words rest
        else
          match words rest with
          | [] => [[character]]
          | word :: others => (character :: word) :: others

@[simp]
theorem trim_nil : trim [] = [] := rfl

theorem trimStart_eq_nil {text : List Char} : trimStart text = [] ↔ allBlank text = true := by
  induction text with
  | nil => simp [trimStart, allBlank]
  | cons character rest ih =>
    by_cases first : isBlank character = true <;> simp_all [trimStart, allBlank]

theorem trimEnd_eq_nil {text : List Char} : trimEnd text = [] ↔ allBlank text = true := by
  have reversed : allBlank text.reverse = allBlank text := by simp [allBlank]
  rw [← reversed, ← trimStart_eq_nil, trimEnd, List.reverse_eq_nil_iff, trimStart]

/-- Trimming leaves nothing exactly when nothing but blanks was there. -/
theorem trim_eq_nil {text : List Char} : trim text = [] ↔ allBlank text = true := by
  rw [trim, trimEnd_eq_nil]
  constructor
  · intro blank
    induction text with
    | nil => rfl
    | cons character rest ih =>
      by_cases first : isBlank character = true
      · have shorter : trimStart (character :: rest) = trimStart rest := by
          simp [trimStart, first]
        rw [shorter] at blank
        simpa [allBlank, first] using ih blank
      · have whole : trimStart (character :: rest) = character :: rest := by
          simp [trimStart, first]
        rwa [whole] at blank
  · intro blank
    rw [trimStart_eq_nil.2 blank]
    rfl

/-- The string without the blanks at either end. -/
def trimmed (text : String) : String :=
  String.ofList (trim text.toList)

/-- The words of a string, in order. -/
def wordsOf (text : String) : List String :=
  (words text.toList).map String.ofList

end Wordloom.Text
