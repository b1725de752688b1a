import Wordloom.Proofs.Document.Places

/-!
# Tokens in one pass

This file says what the tokens of a document and the place of its end should be, and shows that
one pass over its characters finds them.

The tokens should lose nothing of the text, their runs should be as long as they can be, and all
of them should stand where the characters before them end. This leaves no choice, so the pass
finds the same tokens and the same end as the recursion on the text that documents are read with.

A `Scan` looks at every character once. It keeps the finished tokens, the run of text that is
still open with the place where it began, and the place that it has come to. A run may go over
several lines, so the two places are kept apart. The invariant is that everything would be right
if the text ended there (`Scan.Sound`); to go on from there it takes one more fact, that the
finished tokens do not end with a run.
-/

namespace Wordloom.Document

/-- The text that tokens are cut from. -/
def joined (found : List Token) : List Char :=
  found.flatMap (·.lexeme.raw)

@[simp]
theorem joined_append (left right : List Token) :
    joined (left ++ right) = joined left ++ joined right :=
  List.flatMap_append

@[simp]
theorem joined_singleton (token : Token) : joined [token] = token.lexeme.raw :=
  List.flatMap_singleton ..

theorem joined_eq_flatMap_raw (found : List Token) :
    joined found = (found.map Token.lexeme).flatMap Lexeme.raw :=
  (List.flatMap_map ..).symm

/-- Whether a place is the one right after a text: one line more than it has line feeds, and one
column more than it has characters after the last of them. -/
def Position.ComesAfter (position : Position) (text : List Char) : Prop :=
  position.line = text.count '\n' + 1 ∧
    position.column = (text.reverse.takeWhile (· != '\n')).length + 1

theorem Position.comesAfter_iff {position : Position} {text : List Char} :
    position.ComesAfter text ↔ position = start.afterText text := by
  rw [ComesAfter, ← line_afterText_start, ← column_afterText_start]
  constructor
  · rintro ⟨line, column⟩
    exact congr (congrArg Position.mk line) column
  · rintro rfl
    exact ⟨rfl, rfl⟩

theorem Position.ComesAfter.afterText {position : Position} {text : List Char}
    (comes : position.ComesAfter text) (more : List Char) :
    (position.afterText more).ComesAfter (text ++ more) := by
  rw [comesAfter_iff] at comes ⊢
  rw [afterText_append, comes]

@[simp]
theorem Position.afterText_singleton (position : Position) (character : Char) :
    position.afterText [character] = position.after character := rfl

/-- Whether every token stands where the characters before it end. -/
def InPlace (found : List Token) : Prop :=
  ∀ earlier token later, found = earlier ++ token :: later →
    token.position.ComesAfter (joined earlier)

theorem inPlace_append_singleton {found : List Token} {last : Token} :
    InPlace (found ++ [last]) ↔ InPlace found ∧ last.position.ComesAfter (joined found) := by
  constructor
  · intro places
    refine ⟨fun earlier token later split => ?_, places found last [] rfl⟩
    exact places earlier token (later ++ [last]) (by simp [split])
  · rintro ⟨places, lastPlace⟩ earlier token later split
    rcases List.eq_nil_or_concat later with rfl | ⟨later, other, rfl⟩
    · rcases List.append_singleton_inj.mp split with ⟨rfl, rfl⟩
      exact lastPlace
    · rw [List.concat_eq_append, ← List.cons_append, ← List.append_assoc] at split
      exact places earlier token later (List.append_singleton_inj.mp split).1

theorem inPlace_iff_eq_placed {found : List Token} :
    InPlace found ↔ found = placed .start (found.map Token.lexeme) := by
  induction found using List.reverseRecOn with
  | nil => simp [InPlace, placed]
  | append_singleton found last ih =>
      rcases last with ⟨lexeme, position⟩
      rw [inPlace_append_singleton, ih, Position.comesAfter_iff, joined_eq_flatMap_raw,
        List.map_append, placed_append, List.map_singleton, placed, placed,
        List.append_singleton_inj, Token.mk.injEq]
      simp

/-- Whether a text has given tokens and ends at a given place. -/
structure Tokenized (text : List Char) (found : List Token) (ending : Position) : Prop where
  /-- Nothing of the text is lost. -/
  whole : joined found = text
  /-- Runs are not empty, have no structural characters and are not adjacent. -/
  maximal : Maximal (found.map Token.lexeme)
  inPlace : InPlace found
  ended : ending.ComesAfter text

/-- A text has only one list of tokens and one end. -/
theorem tokenized_iff {text : List Char} {found : List Token} {ending : Position} :
    Tokenized text found ending ↔
      found = tokens text ∧ ending = Position.start.afterText text := by
  constructor
  · rintro ⟨whole, maximal, places, ended⟩
    rw [joined_eq_flatMap_raw] at whole
    rw [inPlace_iff_eq_placed, ← lexemes_eq_of_flatMap_raw maximal whole,
      ← tokens_eq_placed] at places
    exact ⟨places, Position.comesAfter_iff.mp ended⟩
  · rintro ⟨rfl, rfl⟩
    exact {
      whole := flatMap_raw_tokensFrom .start text
      maximal := maximal_lexemes text
      inPlace := inPlace_iff_eq_placed.mpr (tokens_eq_placed text)
      ended := Position.comesAfter_iff.mpr rfl }

namespace Tokenized

variable {text : List Char} {found : List Token} {ending : Position}

theorem nil : Tokenized [] [] .start :=
  tokenized_iff.mpr ⟨rfl, rfl⟩

/-- One more lexeme stands where the text ended before. -/
theorem push {lexeme : Lexeme} (tokenized : Tokenized text found ending)
    (maximal : Maximal (found.map Token.lexeme ++ [lexeme])) :
    Tokenized (text ++ lexeme.raw) (found ++ [⟨lexeme, ending⟩])
      (ending.afterText lexeme.raw) where
  whole := by simp [tokenized.whole]
  maximal := by simpa using maximal
  inPlace := inPlace_append_singleton.mpr
    ⟨tokenized.inPlace, by simpa [tokenized.whole] using tokenized.ended⟩
  ended := tokenized.ended.afterText lexeme.raw

/-- The last run goes on. -/
theorem extend {run : List Char} {opened : Position} {character : Char}
    (tokenized : Tokenized text (found ++ [⟨.text run, opened⟩]) ending)
    (plain : Plain [character]) :
    Tokenized (text ++ [character]) (found ++ [⟨.text (run ++ [character]), opened⟩])
      (ending.after character) where
  whole := by simp [← tokenized.whole]
  maximal := by
    have maximal := tokenized.maximal
    rw [List.map_append] at maximal ⊢
    exact maximal.extend plain
  inPlace := by
    have places := tokenized.inPlace
    rw [inPlace_append_singleton] at places ⊢
    exact places
  ended := tokenized.ended.afterText [character]

end Tokenized

/-- How far a text is scanned. -/
structure Scan where
  /-- The finished tokens. -/
  found : List Token
  /-- The open run of text. There is none while it is empty. -/
  run : List Char
  /-- Where the open run began. -/
  opened : Position
  /-- Where the next character stands. -/
  position : Position

namespace Scan

def start : Scan :=
  ⟨[], [], .start, .start⟩

/-- The tokens with the open run as the last of them. -/
def closed (scan : Scan) : List Token :=
  if scan.run = [] then scan.found else scan.found ++ [⟨.text scan.run, scan.opened⟩]

/-- One character. -/
def step (scan : Scan) (character : Char) : Scan :=
  let position := scan.position.after character
  match Mark.ofCharacter? character with
  | some mark =>
    { scan with found := scan.closed ++ [⟨.mark mark, scan.position⟩], run := [], position }
  | none =>
    let opened := if scan.run = [] then scan.position else scan.opened
    { scan with run := scan.run ++ [character], opened, position }

/-- Whether a scan is right about the characters that it has passed. -/
structure Sound (scan : Scan) (before : List Char) : Prop where
  /-- All is as it should be if nothing follows. -/
  tokenized : Tokenized before scan.closed scan.position
  /-- A run can be opened after the finished tokens. -/
  separate : ∀ last ∈ (scan.found.map Token.lexeme).getLast?, last.isText = false

namespace Sound

theorem start : Scan.start.Sound [] :=
  ⟨.nil, by simp [Scan.start]⟩

theorem step {scan : Scan} {before : List Char} (sound : scan.Sound before) (character : Char) :
    (scan.step character).Sound (before ++ [character]) := by
  have tokenized := sound.tokenized
  unfold Scan.step
  split
  · -- A mark closes the open run and is finished itself.
    rename_i mark found
    have pushed := tokenized.push (tokenized.maximal.append (.cons_mark mark .nil) (by simp))
    rw [Lexeme.raw_mark, Mark.character_of_ofCharacter? found] at pushed
    exact ⟨by simpa [closed] using pushed, by simp⟩
  · rename_i found
    have plain : Plain [character] := by simpa [Plain] using found
    by_cases opens : scan.run = []
    · -- The run begins where the scan stands.
      simp only [closed, opens, if_true] at tokenized
      have run : Maximal [.text [character]] := .cons_text (by simp) plain (by simp) .nil
      have maximal := tokenized.maximal.append run (by simpa [Apart] using sound.separate)
      exact ⟨by simpa [closed, opens] using tokenized.push maximal, sound.separate⟩
    · -- The run keeps the place where it began, also on a later line.
      simp only [closed, opens, if_false] at tokenized
      exact ⟨by simpa [closed, opens] using tokenized.extend plain, sound.separate⟩

theorem foldl {scan : Scan} {before : List Char} (sound : scan.Sound before) (text : List Char) :
    (text.foldl Scan.step scan).Sound (before ++ text) := by
  induction text generalizing scan before with
  | nil => simpa using sound
  | cons character rest ih => simpa using ih (sound.step character)

end Sound

end Scan

/-- The tokens of a text and the place of its end, found in one pass. -/
def scan (text : List Char) : List Token × Position :=
  let last := text.foldl Scan.step .start
  (last.closed, last.position)

theorem scan_eq (text : List Char) :
    scan text = (tokens text, Position.start.afterText text) := by
  have passed := (Scan.Sound.start.foldl text).tokenized
  exact Prod.ext_iff.mpr (tokenized_iff.mp passed)

/--
The tokens of a document lose nothing of it, their runs of text are as long as they can be, and
they and the end of the document have the lines and columns that the characters before them
give. One pass over the document finds these tokens and this end, and no others are like that.
-/
theorem tokens_are_whole_and_in_place (text : List Char) :
    Tokenized text (tokens text) (Position.start.afterText text) ∧
      ∀ found ending, Tokenized text found ending ↔ scan text = (found, ending) := by
  refine ⟨tokenized_iff.mpr ⟨rfl, rfl⟩, fun found ending => ?_⟩
  rw [tokenized_iff, scan_eq, Prod.mk.injEq]
  exact and_congr eq_comm eq_comm

/-- A run over two lines stands where it begins. -/
example : scan "b;\nc=".toList =
    ([⟨.text ['b'], ⟨1, 1⟩⟩, ⟨.mark .semicolon, ⟨1, 2⟩⟩, ⟨.text ['\n', 'c'], ⟨1, 3⟩⟩,
      ⟨.mark .assign, ⟨2, 2⟩⟩], ⟨2, 3⟩) := by
  decide

end Wordloom.Document
