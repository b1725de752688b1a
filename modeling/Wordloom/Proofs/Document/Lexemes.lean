import Mathlib.Data.List.Chain
import Wordloom.Document.Token

/-!
# Lexemes are the longest there are

This file characterizes how a document is cut into lexemes. Runs of text hold no structural
characters and are not empty, and no two of them are adjacent; there is only one way to cut a
text like that. So the lexemes of a text are known as soon as some lexemes are known that are
cut this way and give the text when they are joined.
-/

namespace Wordloom.Document

/-- Whether a text has no structural characters. -/
def Plain (text : List Char) : Prop :=
  ∀ character ∈ text, Mark.ofCharacter? character = none

theorem plain_append {left right : List Char} :
    Plain (left ++ right) ↔ Plain left ∧ Plain right :=
  List.forall_mem_append

def Lexeme.isText : Lexeme → Bool
  | .mark _ => false
  | .text _ => true

@[simp]
theorem Lexeme.isText_mark (mark : Mark) : (Lexeme.mark mark).isText = false := rfl

@[simp]
theorem Lexeme.isText_text (run : List Char) : (Lexeme.text run).isText = true := rfl

/-- Whether not both of two things are texts. -/
def Apart (left right : Bool) : Prop :=
  ¬(left = true ∧ right = true)

@[simp]
theorem apart_false_left (right : Bool) : Apart false right := by
  simp [Apart]

@[simp]
theorem apart_false_right (left : Bool) : Apart left false := by
  simp [Apart]

@[simp]
theorem apart_true_true : ¬Apart true true := by
  simp [Apart]

theorem Apart.symm {left right : Bool} (apart : Apart left right) : Apart right left :=
  fun both => apart both.symm

/-- Lexemes whose runs of text are as long as they can be. -/
structure Maximal (lexemes : List Lexeme) : Prop where
  present : ∀ run, Lexeme.text run ∈ lexemes → run ≠ []
  plain : ∀ run, Lexeme.text run ∈ lexemes → Plain run
  apart : lexemes.IsChain fun left right => Apart left.isText right.isText

namespace Maximal

theorem nil : Maximal [] :=
  ⟨by simp, by simp, .nil⟩

theorem tail {lexeme : Lexeme} {lexemes : List Lexeme} (maximal : Maximal (lexeme :: lexemes)) :
    Maximal lexemes where
  present run member := maximal.present run (List.mem_cons_of_mem _ member)
  plain run member := maximal.plain run (List.mem_cons_of_mem _ member)
  apart := maximal.apart.tail

theorem left_of_append {left right : List Lexeme} (maximal : Maximal (left ++ right)) :
    Maximal left where
  present run member := maximal.present run (List.mem_append_left _ member)
  plain run member := maximal.plain run (List.mem_append_left _ member)
  apart := maximal.apart.left_of_append

theorem cons_mark {lexemes : List Lexeme} (mark : Mark) (maximal : Maximal lexemes) :
    Maximal (.mark mark :: lexemes) where
  present run member := maximal.present run (by simpa using member)
  plain run member := maximal.plain run (by simpa using member)
  apart := maximal.apart.cons (by simp)

theorem cons_text {lexemes : List Lexeme} {run : List Char} (present : run ≠ [])
    (plain : Plain run) (first : ∀ lexeme ∈ lexemes.head?, lexeme.isText = false)
    (maximal : Maximal lexemes) : Maximal (.text run :: lexemes) where
  present other member := by
    rcases List.mem_cons.mp member with same | later
    · exact Lexeme.text.inj same ▸ present
    · exact maximal.present other later
  plain other member := by
    rcases List.mem_cons.mp member with same | later
    · exact Lexeme.text.inj same ▸ plain
    · exact maximal.plain other later
  apart := maximal.apart.cons fun lexeme member => by
    rw [first lexeme member]
    exact apart_false_right _

theorem append {left right : List Lexeme} (leftMaximal : Maximal left)
    (rightMaximal : Maximal right)
    (between : ∀ last ∈ left.getLast?, ∀ first ∈ right.head?, Apart last.isText first.isText) :
    Maximal (left ++ right) where
  present run member := by
    rcases List.mem_append.mp member with inLeft | inRight
    · exact leftMaximal.present run inLeft
    · exact rightMaximal.present run inRight
  plain run member := by
    rcases List.mem_append.mp member with inLeft | inRight
    · exact leftMaximal.plain run inLeft
    · exact rightMaximal.plain run inRight
  apart := leftMaximal.apart.append rightMaximal.apart between

/-- A character that is not structural makes the run at the end longer. -/
theorem extend {lexemes : List Lexeme} {run : List Char} {character : Char}
    (maximal : Maximal (lexemes ++ [.text run])) (plain : Plain [character]) :
    Maximal (lexemes ++ [.text (run ++ [character])]) := by
  have whole : Plain (run ++ [character]) := plain_append.mpr ⟨maximal.plain run (by simp), plain⟩
  refine maximal.left_of_append.append (.cons_text (by simp) whole (by simp) .nil) ?_
  simpa using (List.isChain_append.mp maximal.apart).2.2

theorem isText_head?_eq_false {lexemes : List Lexeme} {run : List Char}
    (maximal : Maximal (.text run :: lexemes)) :
    ∀ lexeme ∈ lexemes.head?, lexeme.isText = false := by
  intro lexeme member
  have apart := maximal.apart.rel_head? member
  cases lexeme with
  | mark mark => rfl
  | text other => exact absurd apart apart_true_true

/-- The character after a run of text is structural. -/
theorem structural_of_flatMap_raw {lexemes : List Lexeme} {run rest : List Char}
    {character : Char} (maximal : Maximal (.text run :: lexemes))
    (raw : lexemes.flatMap Lexeme.raw = character :: rest) :
    Mark.ofCharacter? character ≠ none := by
  rcases lexemes with _ | ⟨lexeme, later⟩
  · simp at raw
  · have mark := maximal.isText_head?_eq_false lexeme rfl
    cases lexeme with
    | mark mark =>
        simp only [List.flatMap_cons, Lexeme.raw_mark, List.singleton_append,
          List.cons.injEq] at raw
        rw [← raw.1, Mark.ofCharacter?_character]
        exact Option.some_ne_none _
    | text other => simp at mark

/-- A run of text at the start is no longer in one cut than in another. -/
theorem run_eq_of_append_eq {left right : List Lexeme} {run other more : List Char}
    (leftMaximal : Maximal (.text run :: left)) (rightMaximal : Maximal (.text other :: right))
    (longer : other = run ++ more)
    (raw : left.flatMap Lexeme.raw = more ++ right.flatMap Lexeme.raw) : more = [] := by
  rcases more with _ | ⟨character, rest⟩
  · rfl
  · have plain := rightMaximal.plain other List.mem_cons_self character (by simp [longer])
    exact absurd plain (leftMaximal.structural_of_flatMap_raw raw)

theorem ne_nil_of_raw {lexeme : Lexeme} {lexemes : List Lexeme}
    (maximal : Maximal (lexeme :: lexemes)) : lexeme.raw ≠ [] := by
  cases lexeme with
  | mark mark => simp
  | text run => exact maximal.present run List.mem_cons_self

theorem not_mark_text {left right : List Lexeme} {mark : Mark} {run : List Char}
    (maximal : Maximal (.text run :: right))
    (raw : mark.character :: left.flatMap Lexeme.raw = run ++ right.flatMap Lexeme.raw) :
    False := by
  rcases run with _ | ⟨character, rest⟩
  · exact maximal.present [] List.mem_cons_self rfl
  · have plain := maximal.plain _ List.mem_cons_self character List.mem_cons_self
    rw [List.cons_append, List.cons.injEq] at raw
    rw [← raw.1, Mark.ofCharacter?_character] at plain
    exact Option.some_ne_none _ plain

/-- Two cuts of one text start with the same lexeme. -/
theorem head_eq_of_flatMap_raw {left right : List Lexeme} {lexeme other : Lexeme}
    (leftMaximal : Maximal (lexeme :: left)) (rightMaximal : Maximal (other :: right))
    (raw : lexeme.raw ++ left.flatMap Lexeme.raw = other.raw ++ right.flatMap Lexeme.raw) :
    lexeme = other := by
  cases lexeme with
  | mark mark =>
      cases other with
      | mark otherMark =>
          have same : mark.character = otherMark.character := (List.cons.inj raw).1
          have found := congrArg Mark.ofCharacter? same
          simp only [Mark.ofCharacter?_character, Option.some.injEq] at found
          rw [found]
      | text run => exact (rightMaximal.not_mark_text raw).elim
  | text run =>
      cases other with
      | mark mark => exact (leftMaximal.not_mark_text raw.symm).elim
      | text otherRun =>
          -- One of the runs is the start of the other.
          rcases List.append_eq_append_iff.mp raw with
            ⟨more, longer, rest⟩ | ⟨more, longer, rest⟩
          · have none := run_eq_of_append_eq leftMaximal rightMaximal longer rest
            simp only [Lexeme.raw_text] at longer
            rw [longer, none, List.append_nil]
          · have none := run_eq_of_append_eq rightMaximal leftMaximal longer rest
            simp only [Lexeme.raw_text] at longer
            rw [longer, none, List.append_nil]

/-- There is only one way to cut a text into lexemes that are as long as they can be. -/
theorem eq_of_flatMap_raw {left right : List Lexeme} (leftMaximal : Maximal left)
    (rightMaximal : Maximal right)
    (raw : left.flatMap Lexeme.raw = right.flatMap Lexeme.raw) : left = right := by
  induction left generalizing right with
  | nil =>
      rcases right with _ | ⟨other, right⟩
      · rfl
      · have present := rightMaximal.ne_nil_of_raw
        simp [present] at raw
  | cons lexeme left ih =>
      rcases right with _ | ⟨other, right⟩
      · have present := leftMaximal.ne_nil_of_raw
        simp [present] at raw
      · simp only [List.flatMap_cons] at raw
        have same := head_eq_of_flatMap_raw leftMaximal rightMaximal raw
        subst same
        rw [ih leftMaximal.tail rightMaximal.tail (List.append_cancel_left raw)]

end Maximal

def lexemes (text : List Char) : List Lexeme :=
  (tokens text).map Token.lexeme

theorem maximal_tokensFrom (position : Position) (text : List Char) :
    Maximal ((tokensFrom position text).map Token.lexeme) := by
  induction text generalizing position with
  | nil => exact Maximal.nil
  | cons character rest ih =>
      -- A character that is not structural joins a run right after it, if there is one.
      have later := ih (position.after character)
      rw [tokensFrom]
      split
      · exact later.cons_mark _
      · have plain : Plain [character] := by simpa [Plain] using ‹_ = none›
        split
        · rename_i run _ others shape
          rw [shape, List.map_cons] at later
          have whole : Plain (character :: run) :=
            plain_append.2 ⟨plain, later.plain run List.mem_cons_self⟩
          exact later.tail.cons_text (by simp) whole later.isText_head?_eq_false
        · rename_i notText
          refine later.cons_text (by simp) plain ?_
          intro lexeme member
          rcases shape : tokensFrom (position.after character) rest with _ | ⟨token, others⟩
          · simp [shape] at member
          · rcases token with ⟨mark | run, place⟩
            · simp only [shape, List.map_cons, List.head?_cons, Option.mem_some_iff] at member
              rw [← member, Lexeme.isText_mark]
            · exact (notText run place others shape).elim

theorem maximal_lexemes (text : List Char) : Maximal (lexemes text) :=
  maximal_tokensFrom .start text

theorem flatMap_raw_lexemes (text : List Char) : (lexemes text).flatMap Lexeme.raw = text := by
  have whole := flatMap_raw_tokensFrom .start text
  rw [lexemes, List.flatMap_map]
  exact whole

/-- Lexemes that are as long as they can be are those of the text that they are cut from. -/
theorem lexemes_eq_of_flatMap_raw {cut : List Lexeme} {text : List Char} (maximal : Maximal cut)
    (raw : cut.flatMap Lexeme.raw = text) : lexemes text = cut :=
  (maximal_lexemes text).eq_of_flatMap_raw maximal (by rw [flatMap_raw_lexemes, raw])

end Wordloom.Document
