import Wordloom.Text.Blank

/-!
# Tokens of template documents

This file splits the text of a template document into its tokens and gives each its place.

Nine characters are structural and are tokens by themselves. The longest runs of all others are
text tokens, which keep their blanks. Lines and columns count from one, and only a line feed
ends a line.
-/

namespace Wordloom.Document

/-- A place in a text. -/
structure Position where
  line : Nat
  column : Nat
deriving DecidableEq, Repr

namespace Position

/-- The place of a text's first character. -/
def start : Position := ⟨1, 1⟩

/-- The place after a character that stands at a given place. -/
def after (position : Position) (character : Char) : Position :=
  if character = '\n' then ⟨position.line + 1, 1⟩
  else { position with column := position.column + 1 }

/-- The place after a text that starts at a given place. -/
def afterText (position : Position) (text : List Char) : Position :=
  text.foldl after position

end Position

/-- A structural character. -/
inductive Mark where
  | openBracket
  | closeBracket
  | openBrace
  | closeBrace
  | less
  | greater
  | slash
  | semicolon
  | assign
deriving DecidableEq, Repr

namespace Mark

/-- How a mark is written. -/
def character : Mark → Char
  | .openBracket => '['
  | .closeBracket => ']'
  | .openBrace => '{'
  | .closeBrace => '}'
  | .less => '<'
  | .greater => '>'
  | .slash => '/'
  | .semicolon => ';'
  | .assign => '='

/-- The mark that a character is, if it is one. -/
def ofCharacter? : Char → Option Mark
  | '[' => some .openBracket
  | ']' => some .closeBracket
  | '{' => some .openBrace
  | '}' => some .closeBrace
  | '<' => some .less
  | '>' => some .greater
  | '/' => some .slash
  | ';' => some .semicolon
  | '=' => some .assign
  | _ => none

theorem ofCharacter?_character (mark : Mark) : ofCharacter? mark.character = some mark := by
  cases mark <;> rfl

theorem character_of_ofCharacter? {character : Char} {mark : Mark}
    (found : ofCharacter? character = some mark) : mark.character = character := by
  unfold ofCharacter? at found
  split at found <;> cases found <;> rfl

end Mark

/-- What stands in a document at one place: a mark, or a run of text. -/
inductive Lexeme where
  | mark (mark : Mark)
  | text (run : List Char)
deriving DecidableEq, Repr

namespace Lexeme

/-- The characters of a lexeme as they stand in the document. -/
def raw : Lexeme → List Char
  | .mark found => [found.character]
  | .text run => run

@[simp]
theorem raw_mark (found : Mark) : (mark found).raw = [found.character] := rfl

@[simp]
theorem raw_text (run : List Char) : (text run).raw = run := rfl

/-- The characters of a lexeme without blanks around them. -/
def trimmed : Lexeme → String
  | .mark found => String.singleton found.character
  | .text run => String.ofList (Text.trim run)

/-- How a lexeme is named in messages. -/
def description : Lexeme → String
  | .mark found => "'" ++ String.singleton found.character ++ "'"
  | .text run => "text '" ++ String.ofList (Text.trim run) ++ "'"

end Lexeme

/-- A lexeme at its place. -/
structure Token where
  lexeme : Lexeme
  position : Position
deriving DecidableEq, Repr

/-- The tokens of a text that starts at a given place. -/
def tokensFrom (position : Position) : List Char → List Token
  | [] => []
  | character :: rest =>
    let later := tokensFrom (position.after character) rest
    match Mark.ofCharacter? character with
    | some mark => ⟨.mark mark, position⟩ :: later
    | none =>
      match later with
      | ⟨.text run, _⟩ :: others => ⟨.text (character :: run), position⟩ :: others
      | others => ⟨.text [character], position⟩ :: others

/-- The tokens of a document. -/
def tokens (text : List Char) : List Token :=
  tokensFrom .start text

/-- Nothing of a text is lost in its tokens. -/
theorem flatMap_raw_tokensFrom (position : Position) (text : List Char) :
    (tokensFrom position text).flatMap (·.lexeme.raw) = text := by
  induction text generalizing position with
  | nil => rfl
  | cons character rest ih =>
    have later := ih (position.after character)
    rw [tokensFrom]
    split
    · simp [Mark.character_of_ofCharacter? ‹_›, later]
    · split
      · rename_i shape
        rw [shape] at later
        simpa using later
      · simp [later]

end Wordloom.Document
