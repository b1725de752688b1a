import Wordloom.Proofs.Document.Written
import Wordloom.Proofs.Text.Trim

/-!
# The tokens of a written document

This file shows that the tokens of a written document are its pieces, one for one.

Pieces are spaced when no two texts or names are adjacent and each of them can be told from
what is around it. The pieces of templates are spaced, because an element that is no text starts
and ends with a mark. However spaced pieces are written, what is written for each of them is a
lexeme by itself, so the lexemes of the document are these.
-/

namespace Wordloom.Document

variable {φ : Type}

def Piece.isText : Piece → Bool
  | .mark _ => false
  | .text _ => true
  | .name _ => true

/-- Whether a piece can be told from what is around it. -/
def Piece.Proper : Piece → Prop
  | .mark _ => True
  | .text run => run ≠ [] ∧ Plain run
  | .name letters =>
      Text.allBlank letters = false ∧ Plain letters ∧ Text.trim letters = letters

/-- Proper pieces with no two texts or names next to each other. -/
structure Spaced (pieces : List Piece) : Prop where
  proper : ∀ piece ∈ pieces, piece.Proper
  apart : pieces.IsChain fun left right => Apart left.isText right.isText

namespace Spaced

theorem nil : Spaced [] :=
  ⟨by simp, .nil⟩

theorem single {piece : Piece} (proper : piece.Proper) : Spaced [piece] :=
  ⟨by simpa using proper, .singleton _⟩

theorem append {left right : List Piece} (leftSpaced : Spaced left) (rightSpaced : Spaced right)
    (between : ∀ last ∈ left.getLast?, ∀ first ∈ right.head?, Apart last.isText first.isText) :
    Spaced (left ++ right) where
  proper := List.forall_mem_append.mpr ⟨leftSpaced.proper, rightSpaced.proper⟩
  apart := leftSpaced.apart.append rightSpaced.apart between

theorem mark (mark : Mark) : Spaced [.mark mark] :=
  have proper : Piece.Proper (.mark mark) := trivial
  single proper

theorem cons_mark {pieces : List Piece} (mark : Mark) (spaced : Spaced pieces) :
    Spaced (.mark mark :: pieces) :=
  append (Spaced.mark mark) spaced (by simp [Piece.isText])

theorem append_mark {pieces : List Piece} (mark : Mark) (spaced : Spaced pieces) :
    Spaced (pieces ++ [.mark mark]) :=
  append spaced (Spaced.mark mark) (by simp [Piece.isText])

theorem intercalate {lists : List (List Piece)} (mark : Mark)
    (spaced : ∀ pieces ∈ lists, Spaced pieces) : Spaced ([.mark mark].intercalate lists) := by
  induction lists with
  | nil => exact nil
  | cons first rest ih =>
      have firstSpaced := spaced first List.mem_cons_self
      have restSpaced := ih fun pieces member => spaced pieces (List.mem_cons_of_mem _ member)
      rcases rest with _ | ⟨second, others⟩
      · simpa using firstSpaced
      · rw [List.intercalate_cons_cons, List.append_assoc, List.singleton_append]
        apply firstSpaced.append (restSpaced.cons_mark mark)
        intro last _ piece member
        simp only [List.head?_cons, Option.mem_some_iff] at member
        rw [← member]
        exact apart_false_right _

theorem literal {run : List Char} (plain : Plain run) : Spaced (Document.literal run) := by
  rcases run with _ | ⟨character, rest⟩
  · exact nil
  · exact single ⟨by simp, plain⟩

end Spaced

end Document

theorem IsName.proper {name : String} (named : IsName name) :
    (Document.Piece.name name.toList).Proper :=
  ⟨named.present, named.plain, named.trimmed⟩

namespace Generator

variable {φ : Type} {depth : Nat} {generator : Generator φ}

/-- An element starts and ends with a mark, unless it is a text. -/
theorem IsTemplate.isText_of_mem_ends (template : generator.IsTemplate depth)
    (single : generator.IsElement) {piece : Document.Piece}
    (ends : piece ∈ generator.pieces.head? ∨ piece ∈ generator.pieces.getLast?)
    (text : piece.isText = true) : generator.isText = true := by
  cases template with
  | text plain => rfl
  | reference named =>
      rw [pieces_parameter] at ends
      rcases ends with first | last
      · simp only [List.head?_cons, Option.mem_some_iff] at first
        simp [← first, Document.Piece.isText] at text
      · simp only [List.getLast?_cons_cons, List.getLast?_singleton, Option.mem_some_iff] at last
        simp [← last, Document.Piece.isText] at text
  | brackets present templates =>
      rw [pieces_select] at ends
      rcases ends with first | last
      · simp only [List.cons_append, List.head?_cons, Option.mem_some_iff] at first
        simp [← first, Document.Piece.isText] at text
      · simp only [List.getLast?_append, List.getLast?_singleton, Option.some_or,
          Option.mem_some_iff] at last
        simp [← last, Document.Piece.isText] at text
  | several several templates elements apart => exact single.elim

theorem pieces_ne_nil_of_isElement (template : generator.IsTemplate depth)
    (single : generator.IsElement) : generator.pieces ≠ [] := by
  cases template with
  | text plain =>
      rename_i text
      have present : text.toList ≠ [] := by
        intro empty
        exact single (String.toList_eq_nil_iff.mp empty)
      rw [pieces_text, Document.literal_of_ne_nil present]
      simp
  | reference named => simp
  | brackets present templates => simp
  | several several templates elements apart => exact single.elim

theorem spaced_flatMap_pieces {parts : List (Generator φ)}
    (templates : ∀ part ∈ parts, part.IsTemplate depth)
    (elements : ∀ part ∈ parts, part.IsElement)
    (apart : parts.IsChain fun left right => Document.Apart left.isText right.isText)
    (spaced : ∀ part ∈ parts, Document.Spaced part.pieces) :
    Document.Spaced (parts.flatMap pieces) := by
  induction parts with
  | nil => exact .nil
  | cons part rest ih =>
      simp only [List.forall_mem_cons] at templates elements spaced
      rw [List.flatMap_cons]
      apply spaced.1.append (ih templates.2 elements.2 apart.tail spaced.2)
      -- Where two elements meet there are two texts only if both elements are texts.
      intro last lastMember first firstMember both
      rcases rest with _ | ⟨second, others⟩
      · simp at firstMember
      · simp only [List.forall_mem_cons] at templates elements
        have present := pieces_ne_nil_of_isElement templates.2.1 elements.2.1
        rw [List.flatMap_cons, List.head?_append_of_ne_nil _ present] at firstMember
        have left := templates.1.isText_of_mem_ends elements.1 (.inr lastMember) both.1
        have right := templates.2.1.isText_of_mem_ends elements.2.1 (.inl firstMember) both.2
        exact apart.rel_head? rfl ⟨left, right⟩

theorem IsTemplate.spaced (template : generator.IsTemplate depth) :
    Document.Spaced generator.pieces := by
  induction template with
  | text plain =>
      rw [pieces_text]
      exact .literal plain
  | reference named =>
      rw [pieces_parameter]
      exact ((Document.Spaced.single named.proper).append_mark .greater).cons_mark .less
  | @brackets depth options present templates ih =>
      rw [pieces_select]
      apply Document.Spaced.append_mark
      apply Document.Spaced.cons_mark
      apply Document.Spaced.intercalate
      intro pieces member
      rcases List.mem_map.mp member with ⟨option, optionMember, rfl⟩
      exact ih option optionMember
  | several several templates elements apart ih =>
      rw [pieces_concatenate]
      exact spaced_flatMap_pieces templates elements apart ih

end Generator

namespace Document

variable {φ : Type}

theorem Declaration.spaced_pieces {declaration : Declaration φ}
    (named : IsName declaration.name)
    (template : declaration.generator.IsTemplate maxDepth) : Spaced declaration.pieces := by
  have body := (template.spaced.cons_mark .assign).append_mark .semicolon
  exact (Spaced.single named.proper).append body (by simp [Piece.isText])

/-- The pieces of declarations are spaced, and so they are with a text after them. -/
theorem spaced_flatMap_append_literal {declarations : List (Declaration φ)} {after : List Char}
    (names : ∀ declaration ∈ declarations, IsName declaration.name)
    (templates : ∀ declaration ∈ declarations, declaration.generator.IsTemplate maxDepth)
    (plain : Plain after) :
    Spaced (declarations.flatMap Declaration.pieces ++ literal after) := by
  induction declarations with
  | nil => exact .literal plain
  | cons declaration rest ih =>
      simp only [List.forall_mem_cons] at names templates
      rw [List.flatMap_cons, List.append_assoc]
      apply (Declaration.spaced_pieces names.1 templates.1).append (ih names.2 templates.2)
      intro last lastMember first _
      simp only [Declaration.pieces, List.getLast?_append, List.getLast?_singleton,
        Option.some_or, Option.mem_some_iff] at lastMember
      rw [← lastMember]
      exact apart_false_left _

theorem plain_of_allBlank {text : List Char} (blank : Text.allBlank text = true) :
    Plain text := by
  intro character member
  have isBlank : Text.isBlank character = true := List.all_eq_true.mp blank character member
  by_contra structural
  rcases Option.ne_none_iff_exists'.mp structural with ⟨mark, found⟩
  rw [← Mark.character_of_ofCharacter? found] at isBlank
  cases mark <;> exact absurd isBlank (by decide)

/-- What is written for a proper piece is a lexeme from which the piece is read. -/
theorem Piece.Writes.exists_lexeme {piece : Piece} {written : List Char}
    (writes : piece.Writes written) (proper : piece.Proper) :
    ∃ lexeme : Lexeme, lexeme.raw = written ∧ lexeme.isText = piece.isText ∧
      (∀ run, lexeme = .text run → run ≠ [] ∧ Plain run) ∧
      ∀ position, piece.Reads ⟨lexeme, position⟩ := by
  cases piece with
  | mark found => exact ⟨.mark found, writes.symm, rfl, by simp, fun _ => rfl⟩
  | text run =>
      refine ⟨.text run, writes.symm, rfl, ?_, fun _ => rfl⟩
      intro other same
      exact Lexeme.text.inj same ▸ proper
  | name letters =>
      rcases writes with ⟨before, after, beforeBlank, afterBlank, rfl⟩
      rcases proper with ⟨present, plain, trimmed⟩
      have nonempty : letters ≠ [] := by
        rintro rfl
        simp [Text.allBlank] at present
      refine ⟨.text (before ++ letters ++ after), rfl, rfl, ?_, fun position => ?_⟩
      · intro other same
        rw [← Lexeme.text.inj same]
        refine ⟨by simp [nonempty], plain_append.mpr ⟨plain_append.mpr ⟨?_, plain⟩, ?_⟩⟩
        · exact plain_of_allBlank beforeBlank
        · exact plain_of_allBlank afterBlank
      · refine ⟨_, rfl, ?_, Text.trim_padded beforeBlank afterBlank nonempty trimmed⟩
        by_contra blank
        rw [Bool.not_eq_false, Text.allBlank_append, Text.allBlank_append, present] at blank
        exact Bool.false_ne_true blank.1.2

/-- What is written for spaced pieces is a cut into lexemes from which the pieces are read. -/
theorem Spaced.exists_lexemes {pieces : List Piece} {written : List (List Char)}
    (spaced : Spaced pieces) (writes : List.Forall₂ Piece.Writes pieces written) :
    ∃ cut : List Lexeme, Maximal cut ∧ cut.flatMap Lexeme.raw = written.flatten ∧
      List.Forall₂ (fun piece lexeme => lexeme.isText = piece.isText ∧
        ∀ position, piece.Reads ⟨lexeme, position⟩) pieces cut := by
  induction writes with
  | nil => exact ⟨[], .nil, rfl, .nil⟩
  | @cons piece first pieces written writes rest ih =>
      rcases spaced with ⟨proper, apart⟩
      simp only [List.forall_mem_cons] at proper
      rcases ih ⟨proper.2, apart.tail⟩ with ⟨cut, maximal, raw, reads⟩
      rcases writes.exists_lexeme proper.1 with ⟨lexeme, lexemeRaw, kind, run, lexemeReads⟩
      refine ⟨lexeme :: cut, ?_, ?_, .cons ⟨kind, lexemeReads⟩ reads⟩
      -- Lexemes are texts where their pieces are, so no two of them are adjacent.
      · cases lexeme with
        | mark mark => exact maximal.cons_mark mark
        | text letters =>
            apply maximal.cons_text (run letters rfl).1 (run letters rfl).2
            intro next member
            rcases reads with _ | ⟨⟨nextKind, -⟩, -⟩
            · simp at member
            · simp only [List.head?_cons, Option.mem_some_iff] at member
              rw [← member, nextKind]
              by_contra text
              rw [Bool.not_eq_false] at text
              exact apart.rel_head? rfl ⟨kind.symm, text⟩
      · simp [lexemeRaw, raw]

/-- The tokens of a written document are a way to read its pieces, one for one. -/
theorem Spaced.forall₂_reads_tokens {pieces : List Piece} {written : List (List Char)}
    (spaced : Spaced pieces) (writes : List.Forall₂ Piece.Writes pieces written) :
    List.Forall₂ Piece.Reads pieces (tokens written.flatten) := by
  rcases spaced.exists_lexemes writes with ⟨cut, maximal, raw, reads⟩
  have same := lexemes_eq_of_flatMap_raw maximal raw
  rw [← same, lexemes, List.forall₂_map_right_iff] at reads
  exact reads.imp fun _ token both => both.2 token.position

end Document

end Wordloom
