import Wordloom.Proofs.Document.Lexemes

/-!
# Places of tokens

This file says where the tokens of a document stand. A token stands where the lexemes before it
end, so the tokens of a text are known from its lexemes alone, and texts whose lexemes start
alike have tokens that start alike.

The place where a text ends is counted in the text: its line feeds give the line, and the
characters after the last of them give the column.
-/

namespace Wordloom.Document

namespace Position

theorem afterText_append (position : Position) (left right : List Char) :
    position.afterText (left ++ right) = (position.afterText left).afterText right :=
  List.foldl_append

theorem line_afterText_start (text : List Char) :
    (start.afterText text).line = text.count '\n' + 1 := by
  induction text using List.reverseRecOn with
  | nil => rfl
  | append_singleton text character ih =>
      rw [afterText_append]
      by_cases feed : character = '\n'
      · simp [afterText, after, feed, ← ih]
      · simp [afterText, after, feed, ← ih]

theorem column_afterText_start (text : List Char) :
    (start.afterText text).column = (text.reverse.takeWhile (· != '\n')).length + 1 := by
  induction text using List.reverseRecOn with
  | nil => rfl
  | append_singleton text character ih =>
      rw [afterText_append]
      by_cases feed : character = '\n'
      · simp [afterText, after, feed]
      · simp [afterText, after, feed, ← ih]

end Position

/-- Lexemes as tokens, the first of them at a given place. -/
def placed (position : Position) : List Lexeme → List Token
  | [] => []
  | lexeme :: rest => ⟨lexeme, position⟩ :: placed (position.afterText lexeme.raw) rest

@[simp]
theorem map_lexeme_placed (position : Position) (cut : List Lexeme) :
    (placed position cut).map Token.lexeme = cut := by
  induction cut generalizing position with
  | nil => rfl
  | cons lexeme rest ih => simp [placed, ih]

@[simp]
theorem length_placed (position : Position) (cut : List Lexeme) :
    (placed position cut).length = cut.length := by
  rw [← List.length_map, map_lexeme_placed]

theorem placed_append (position : Position) (left right : List Lexeme) :
    placed position (left ++ right)
      = placed position left
        ++ placed (position.afterText (left.flatMap Lexeme.raw)) right := by
  induction left generalizing position with
  | nil => rfl
  | cons lexeme rest ih => simp [placed, ih, Position.afterText_append]

theorem tokensFrom_eq_placed (position : Position) (text : List Char) :
    tokensFrom position text = placed position ((tokensFrom position text).map Token.lexeme) := by
  induction text generalizing position with
  | nil => rfl
  | cons character rest ih =>
      have later := ih (position.after character)
      rw [tokensFrom]
      split
      · rw [List.map_cons, placed, Lexeme.raw_mark, Mark.character_of_ofCharacter? ‹_›]
        simpa [Position.afterText] using later
      · split
        · rename_i shape
          simp only [shape, List.map_cons, placed, List.cons.injEq, Token.mk.injEq] at later
          rcases later with ⟨⟨-, rfl⟩, others⟩
          simpa [placed, Position.afterText] using others
        · simpa [placed, Position.afterText] using later

/-- The tokens of a text are its lexemes, each where those before it end. -/
theorem tokens_eq_placed (text : List Char) : tokens text = placed .start (lexemes text) :=
  tokensFrom_eq_placed .start text

/-- Tokens that a text is split into stand where those before them end. -/
theorem eq_placed_of_tokens_eq_append {text : List Char} {earlier later : List Token}
    (split : tokens text = earlier ++ later) :
    earlier = placed .start (earlier.map Token.lexeme) ∧
      later = placed
        (Position.start.afterText ((earlier.map Token.lexeme).flatMap Lexeme.raw))
        (later.map Token.lexeme) := by
  have places := tokens_eq_placed text
  rw [lexemes, split, List.map_append, placed_append] at places
  apply List.append_inj places
  rw [length_placed, List.length_map]

/-- What is left of a text starts where the tokens before it end. -/
theorem position_head?_getD {text : List Char} {earlier later : List Token}
    (split : tokens text = earlier ++ later) :
    (later.head?.map Token.position).getD (Position.start.afterText text)
      = Position.start.afterText ((earlier.map Token.lexeme).flatMap Lexeme.raw) := by
  cases later with
  | nil =>
      have whole := flatMap_raw_lexemes text
      rw [lexemes, split, List.append_nil] at whole
      rw [whole]
      rfl
  | cons token later =>
      have places := (eq_placed_of_tokens_eq_append split).2
      rw [List.map_cons, placed, List.cons.injEq] at places
      simpa using congrArg Token.position places.1

/-- Texts whose lexemes start alike have tokens that start alike. -/
theorem exists_tokens_eq_append {text other : List Char} {earlier later : List Token}
    {following : List Lexeme} (split : tokens text = earlier ++ later)
    (alike : lexemes other = earlier.map Token.lexeme ++ following) :
    ∃ rest, tokens other = earlier ++ rest ∧ rest.map Token.lexeme = following := by
  have places := (eq_placed_of_tokens_eq_append split).1
  refine ⟨placed (Position.start.afterText ((earlier.map Token.lexeme).flatMap Lexeme.raw))
    following, ?_, map_lexeme_placed _ following⟩
  rw [tokens_eq_placed, alike, placed_append, ← places]

end Wordloom.Document
