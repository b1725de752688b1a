import Wordloom.Proofs.Text.Numerals

/-!
# Words of a text

This file takes the words of a text one by one. A word that is followed by a blank is the first of
the words, and the others are those of what follows. So a text without blanks stays whole, and any
other text loses what stands after its first word.
-/

namespace Wordloom

namespace Text

theorem words_cons_blank {character : Char} (blank : isBlank character = true)
    (rest : List Char) : words (character :: rest) = words rest := by
  rw [words.eq_def]
  exact if_pos blank

/-- A character that stands before a word belongs to it. -/
theorem words_cons_of_words {character next : Char} {rest word : List Char}
    {others : List (List Char)} (graphic : isBlank character = false)
    (nextGraphic : isBlank next = false) (later : words (next :: rest) = word :: others) :
    words (character :: next :: rest) = (character :: word) :: others := by
  rw [words.eq_def]
  simp only [graphic, nextGraphic, later, Bool.false_eq_true, if_false]

/-- A text without blanks is one word. -/
theorem words_of_solid {text : List Char} (solid : Solid text) (present : text ≠ []) :
    words text = [text] := by
  induction text with
  | nil => exact absurd rfl present
  | cons character rest ih =>
      rw [solid_cons] at solid
      rcases rest with _ | ⟨next, rest⟩
      · simp [words, solid.1]
      · have later := ih solid.2 (List.cons_ne_nil _ _)
        exact words_cons_of_words solid.1 (solid_cons.mp solid.2).1 later

/-- A word that is followed by a blank is the first of the words. -/
theorem words_append_blank {word : List Char} (solid : Solid word) (present : word ≠ [])
    {blank : Char} (separates : isBlank blank = true) (rest : List Char) :
    words (word ++ blank :: rest) = word :: words rest := by
  induction word with
  | nil => exact absurd rfl present
  | cons character others ih =>
      rw [solid_cons] at solid
      rcases others with _ | ⟨next, others⟩
      · rw [List.singleton_append, words.eq_def]
        simp [solid.1, separates, words_cons_blank]
      · have later := ih solid.2 (List.cons_ne_nil _ _)
        exact words_cons_of_words solid.1 (solid_cons.mp solid.2).1 later

/-- A text that has blanks goes on with one after the characters before the first of them. -/
theorem exists_append_blank {text : List Char} (blanks : ¬Solid text) :
    ∃ word blank rest, text = word ++ blank :: rest ∧ Solid word ∧ isBlank blank = true := by
  induction text with
  | nil => exact absurd (fun _ member => absurd member List.not_mem_nil) blanks
  | cons character rest ih =>
      rcases graphic : isBlank character with _ | _
      · have later : ¬Solid rest := fun solid => blanks (solid_cons.mpr ⟨graphic, solid⟩)
        rcases ih later with ⟨word, blank, after, rfl, solid, separates⟩
        exact ⟨character :: word, blank, after, rfl, solid_cons.mpr ⟨graphic, solid⟩, separates⟩
      · exact ⟨[], character, rest, rfl, fun _ member => absurd member List.not_mem_nil, graphic⟩

end Text

end Wordloom
