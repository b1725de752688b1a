import Wordloom.Proofs.Document.Reading
import Wordloom.Proofs.Document.Written
import Wordloom.Proofs.Text.Trim

/-!
# Accepted documents are written templates

This file shows that the declarations of an accepted document are templates, and that the
document is a way to write them.

The pieces of a reader's progress are those of all it holds, the finished declarations and the
open one. Every move adds one piece, which the token of the move is a way to read, so the pieces
of the progress are read by the tokens so far. That no two texts are adjacent in a sequence is
read off the tokens: the last piece of a text is the last token, and no text token follows
another.
-/

namespace Wordloom.Document

variable {φ : Type}

theorem intercalate_append_singleton {α : Type} (separator : α) (lists : List (List α))
    (last : List α) :
    [separator].intercalate (lists ++ [last])
      = lists.flatMap (fun list => list ++ [separator]) ++ last := by
  induction lists with
  | nil => simp
  | cons first rest ih =>
      have present : rest ++ [last] ≠ [] := by simp
      rw [List.cons_append, List.intercalate_cons_of_ne_nil present, ih]
      simp

theorem isName_ofList_trim {run : List Char} (plain : Plain run)
    (present : Text.allBlank run = false) : IsName (String.ofList (Text.trim run)) := by
  rcases Text.exists_eq_append_trim_append run with ⟨before, after, -, -, whole⟩
  refine ⟨?_, ?_, ?_⟩
  · rw [String.toList_ofList]
    by_contra blank
    have empty := Text.trim_eq_nil.mpr (by simpa using blank)
    rw [Text.trim_trim, Text.trim_eq_nil, present] at empty
    exact Bool.false_ne_true empty
  · rw [String.toList_ofList]
    rw [whole] at plain
    exact (plain_append.mp (plain_append.mp plain).1).2
  · rw [String.toList_ofList, Text.trim_trim]

/-! ### The pieces of what is read -/

/-- A lexeme as a piece that is written as it stands. -/
def Lexeme.piece : Lexeme → Piece
  | .mark found => .mark found
  | .text run => .text run

/-- The pieces of an open bracket, up to its last slash. -/
def Frame.pieces (frame : Frame φ) : List Piece :=
  frame.before.reverse.flatMap Generator.pieces ++ .mark .openBracket ::
    frame.options.reverse.flatMap fun option => option.pieces ++ [.mark .slash]

def Draft.pieces (draft : Draft φ) : List Piece :=
  .name draft.name.toList :: .mark .assign ::
    (draft.frames.reverse.flatMap Frame.pieces
      ++ draft.elements.reverse.flatMap Generator.pieces)

/-- The pieces after the last finished declaration. -/
def Stage.pieces : Stage φ → List Piece
  | .between => []
  | .ending blank => [blank.lexeme.piece]
  | .named name => [.name name.toList]
  | .template draft => draft.pieces
  | .reference draft => draft.pieces ++ [.mark .less]
  | .closing draft id => draft.pieces ++ [.mark .less, .name id.toList]

/-- The pieces of everything that is read. -/
def Progress.pieces (progress : Progress φ) : List Piece :=
  progress.declarations.reverse.flatMap Declaration.pieces ++ progress.stage.pieces

/-- Every move adds one piece, which its token is a way to read. -/
theorem Move.exists_pieces_eq {progress after : Progress φ} {token : Token}
    (move : Move sequence progress token after)
    (present : ∀ run, token.lexeme = .text run → run ≠ []) :
    ∃ piece : Piece, after.pieces = progress.pieces ++ [piece] ∧ piece.Reads token := by
  cases move with
  | blank blank =>
      refine ⟨.text _, ?_, rfl⟩
      simp [Progress.pieces, Stage.pieces, Lexeme.piece]
  | @name _ run _ notBlank =>
      refine ⟨.name (Text.trim run), ?_, run, rfl, notBlank, rfl⟩
      simp [Progress.pieces, Stage.pieces]
  | assign =>
      refine ⟨.mark .assign, ?_, rfl⟩
      simp [Progress.pieces, Stage.pieces, Draft.pieces]
  | @text _ _ _ _ run _ =>
      refine ⟨.text run, ?_, rfl⟩
      have literally := literal_of_ne_nil (present run rfl)
      simp [Progress.pieces, Stage.pieces, Draft.pieces, literally]
  | less =>
      refine ⟨.mark .less, ?_, rfl⟩
      simp [Progress.pieces, Stage.pieces]
  | @id _ _ run _ notBlank =>
      refine ⟨.name (Text.trim run), ?_, run, rfl, notBlank, rfl⟩
      simp [Progress.pieces, Stage.pieces]
  | greater =>
      refine ⟨.mark .greater, ?_, rfl⟩
      simp [Progress.pieces, Stage.pieces, Draft.pieces]
  | openBracket room =>
      refine ⟨.mark .openBracket, ?_, rfl⟩
      simp [Progress.pieces, Stage.pieces, Draft.pieces, Frame.pieces]
  | slash =>
      refine ⟨.mark .slash, ?_, rfl⟩
      simp [Progress.pieces, Stage.pieces, Draft.pieces, Frame.pieces,
        Generator.pieces_sequence]
  | closeBracket =>
      refine ⟨.mark .closeBracket, ?_, rfl⟩
      simp [Progress.pieces, Stage.pieces, Draft.pieces, Frame.pieces,
        Generator.pieces_sequence, intercalate_append_singleton]
      rw [← List.map_reverse, List.flatMap_map]
  | semicolon =>
      refine ⟨.mark .semicolon, ?_, rfl⟩
      simp [Progress.pieces, Stage.pieces, Draft.pieces, Declaration.pieces,
        Generator.pieces_sequence]

/-! ### What is read makes templates -/

/-- The elements of a sequence, in any direction, with brackets that are nested up to a depth. -/
structure AreElements (depth : Nat) (elements : List (Generator φ)) : Prop where
  templates : ∀ element ∈ elements, element.IsTemplate depth
  single : ∀ element ∈ elements, element.IsElement
  apart : elements.IsChain fun left right => Apart left.isText right.isText

namespace AreElements

variable {depth : Nat} {elements : List (Generator φ)} {element : Generator φ}

theorem nil : AreElements depth ([] : List (Generator φ)) :=
  ⟨by simp, by simp, .nil⟩

theorem cons (template : element.IsTemplate depth) (isElement : element.IsElement)
    (apart : ∀ other ∈ elements.head?, Apart element.isText other.isText)
    (rest : AreElements depth elements) : AreElements depth (element :: elements) where
  templates := by
    simpa using ⟨template, rest.templates⟩
  single := by
    simpa using ⟨isElement, rest.single⟩
  apart := rest.apart.cons apart

theorem reverse (forward : AreElements depth elements) : AreElements depth elements.reverse where
  templates := by simpa using forward.templates
  single := by simpa using forward.single
  apart := by
    rw [List.isChain_reverse]
    exact forward.apart.imp fun _ _ apart => apart.symm

theorem isTemplate_sequence (areElements : AreElements depth elements) :
    (sequence elements).IsTemplate depth := by
  rcases elements with _ | ⟨first, _ | ⟨second, rest⟩⟩
  · exact .text (by simp [Plain])
  · exact areElements.templates first List.mem_cons_self
  · exact .several (by simp) areElements.templates areElements.single areElements.apart

end AreElements

/-- Open brackets whose elements and alternatives may stand in a document. -/
inductive FramesFit : List (Frame φ) → Prop where
  | nil : FramesFit []
  | cons {frame : Frame φ} {outer : List (Frame φ)} (fit : FramesFit outer)
      (room : outer.length < maxDepth)
      (before : AreElements (maxDepth - outer.length) frame.before)
      (options : ∀ option ∈ frame.options,
        option.IsTemplate (maxDepth - (outer.length + 1))) :
      FramesFit (frame :: outer)

/-- An open declaration that may stand in a document. -/
structure Draft.Fits (draft : Draft φ) : Prop where
  name : IsName draft.name
  frames : FramesFit draft.frames
  elements : AreElements (maxDepth - draft.frames.length) draft.elements

def Stage.Fits : Stage φ → Prop
  | .between => True
  | .ending blank => ∃ run, blank.lexeme = .text run ∧ Text.allBlank run = true
  | .named name => IsName name
  | .template draft => draft.Fits
  | .reference draft => draft.Fits
  | .closing draft id => draft.Fits ∧ IsName id

/-- Everything that is read may stand in a document. -/
structure Progress.Fits (progress : Progress φ) : Prop where
  names : ∀ declaration ∈ progress.declarations, IsName declaration.name
  templates : ∀ declaration ∈ progress.declarations,
    declaration.generator.IsTemplate maxDepth
  stage : progress.stage.Fits

/-- Some tokens are what has been read so far. -/
structure Progress.HasRead (progress : Progress φ) (tokens : List Token) : Prop where
  fits : progress.Fits
  pieces : List.Forall₂ Piece.Reads progress.pieces tokens

theorem isTemplate_sequence_reverse {depth : Nat} {elements : List (Generator φ)}
    (areElements : AreElements depth elements) :
    (sequence elements.reverse).IsTemplate depth :=
  areElements.reverse.isTemplate_sequence

theorem FramesFit.areElements_close {frame : Frame φ} {outer : List (Frame φ)}
    {elements : List (Generator φ)} (fit : FramesFit (frame :: outer))
    (areElements : AreElements (maxDepth - (outer.length + 1)) elements) :
    AreElements (maxDepth - outer.length)
      (.select .string (sequence elements.reverse :: frame.options).reverse :: frame.before) := by
  cases fit with
  | cons fit room before options =>
      apply before.cons
      · have deeper : maxDepth - outer.length = maxDepth - (outer.length + 1) + 1 := by omega
        rw [deeper]
        apply Generator.IsTemplate.brackets
        · simp
        · intro option member
          simp only [List.mem_reverse, List.mem_cons] at member
          rcases member with same | member
          · rw [same]
            exact isTemplate_sequence_reverse areElements
          · exact options option member
      · trivial
      · intro other member
        exact apart_false_left _

/-- What is read fits after a move, when the token may follow the one before it. -/
theorem Move.fits {progress after : Progress φ} {token : Token}
    (move : Move sequence progress token after) (fits : progress.Fits)
    (present : ∀ run, token.lexeme = .text run → run ≠ [])
    (plain : ∀ run, token.lexeme = .text run → Plain run)
    (apart : ∀ draft, progress.stage = .template draft →
      ∀ element ∈ draft.elements.head?, Apart token.lexeme.isText element.isText) :
    after.Fits := by
  rcases fits with ⟨names, templates, stage⟩
  cases move with
  | blank blank => exact ⟨names, templates, _, rfl, blank⟩
  | name notBlank => exact ⟨names, templates, isName_ofList_trim (plain _ rfl) notBlank⟩
  | assign => exact ⟨names, templates, stage, .nil, .nil⟩
  | @text _ _ _ _ run _ =>
      refine ⟨names, templates, stage.name, stage.frames, stage.elements.cons ?_ ?_ ?_⟩
      · exact .text (by simpa using plain run rfl)
      · intro empty
        exact present run rfl (by simpa using congrArg String.toList empty)
      · exact apart _ rfl
  | less => exact ⟨names, templates, stage⟩
  | id notBlank => exact ⟨names, templates, stage, isName_ofList_trim (plain _ rfl) notBlank⟩
  | greater =>
      rcases stage with ⟨fit, named⟩
      refine ⟨names, templates, fit.name, fit.frames, fit.elements.cons ?_ trivial ?_⟩
      · exact .reference named
      · intro other member
        exact apart_false_left _
  | openBracket room =>
      refine ⟨names, templates, stage.name, ?_, .nil⟩
      exact .cons stage.frames room stage.elements (by simp)
  | slash =>
      have finished := isTemplate_sequence_reverse stage.elements
      refine ⟨names, templates, stage.name, ?_, .nil⟩
      cases stage.frames with
      | cons fit room before options =>
          refine .cons fit room before ?_
          intro option member
          rcases List.mem_cons.mp member with same | member
          · rw [same]
            exact finished
          · exact options option member
  | closeBracket =>
      have closed := stage.frames.areElements_close stage.elements
      refine ⟨names, templates, stage.name, ?_, closed⟩
      cases stage.frames with
      | cons fit room before options => exact fit
  | semicolon =>
      have finished := isTemplate_sequence_reverse stage.elements
      refine ⟨?_, ?_, trivial⟩
      · simpa using ⟨stage.name, names⟩
      · simpa using ⟨finished, templates⟩

/-- The last piece of a text element is the last piece that is read. -/
theorem Progress.exists_pieces_eq_append_text {progress : Progress φ} {draft : Draft φ}
    {element : Generator φ} (template : progress.stage = .template draft)
    (last : element ∈ draft.elements.head?) (single : element.IsElement)
    (text : element.isText = true) :
    ∃ earlier run, progress.pieces = earlier ++ [.text run] := by
  rcases progress with ⟨declarations, stage⟩
  rcases draft with ⟨name, frames, elements⟩
  subst template
  rcases elements with _ | ⟨first, others⟩
  · simp at last
  · simp only [List.head?_cons, Option.mem_some_iff] at last
    subst last
    cases first with
    | constant value =>
        cases value with
        | string written =>
            have present : written.toList ≠ [] := by
              intro empty
              exact single (String.toList_eq_nil_iff.mp empty)
            have literally := literal_of_ne_nil present
            refine ⟨declarations.reverse.flatMap Declaration.pieces
              ++ Draft.pieces ⟨name, frames, others⟩, written.toList, ?_⟩
            simp [Progress.pieces, Stage.pieces, Draft.pieces, Generator.pieces, literally]
        | _ => simp [Generator.isText] at text
    | _ => simp [Generator.isText] at text

theorem Progress.HasRead.move {progress after : Progress φ} {tokens : List Token} {token : Token}
    (hasRead : progress.HasRead tokens)
    (maximal : Maximal ((tokens ++ [token]).map Token.lexeme))
    (move : Move sequence progress token after) : after.HasRead (tokens ++ [token]) := by
  rw [List.map_append, List.map_singleton] at maximal
  have present : ∀ run, token.lexeme = .text run → run ≠ [] := by
    intro run shape
    exact maximal.present run (by simp [shape])
  have plain : ∀ run, token.lexeme = .text run → Plain run := by
    intro run shape
    exact maximal.plain run (by simp [shape])
  constructor
  · apply move.fits hasRead.fits present plain
    intro draft template element last both
    -- A text element was read from the last token, and no text token follows another.
    have stage := hasRead.fits.stage
    rw [template] at stage
    have single := stage.elements.single element (List.mem_of_mem_head? last)
    rcases progress.exists_pieces_eq_append_text template last single both.2 with
      ⟨earlier, run, pieces⟩
    have read := hasRead.pieces
    rw [pieces] at read
    rcases exists_append_of_forall₂ read with ⟨before, ending, whole, -, last⟩
    rcases exists_eq_singleton_of_forall₂ last with ⟨previous, rfl, reads⟩
    have apart := (List.isChain_append.mp maximal.apart).2.2
    refine apart previous.lexeme ?_ token.lexeme rfl ⟨?_, both.1⟩
    · simp [whole]
    · simp only [Piece.Reads] at reads
      rw [reads, Lexeme.isText_text]
  · rcases move.exists_pieces_eq present with ⟨piece, pieces, reads⟩
    rw [pieces]
    exact List.rel_append hasRead.pieces (.cons reads .nil)

theorem Progress.HasRead.run {progress after : Progress φ} {earlier tokens : List Token}
    (hasRead : progress.HasRead earlier)
    (maximal : Maximal ((earlier ++ tokens).map Token.lexeme))
    (run : Run sequence progress tokens after) : after.HasRead (earlier ++ tokens) := by
  induction run generalizing earlier with
  | nil => simpa using hasRead
  | @cons _ _ _ token tokens move run ih =>
      rw [List.append_cons] at maximal ⊢
      apply ih _ maximal
      apply hasRead.move _ move
      rw [List.map_append] at maximal
      exact maximal.left_of_append

theorem Progress.hasRead_start : (Progress.start : Progress φ).HasRead [] :=
  ⟨⟨by simp [Progress.start], by simp [Progress.start], trivial⟩, .nil⟩

theorem Piece.Reads.writes {piece : Piece} {token : Token} (reads : piece.Reads token) :
    piece.Writes token.lexeme.raw := by
  cases piece with
  | mark found => simp_all [Piece.Reads, Piece.Writes]
  | text run => simp_all [Piece.Reads, Piece.Writes]
  | name letters =>
      rcases reads with ⟨run, shape, -, trimmed⟩
      rcases Text.exists_eq_append_trim_append run with ⟨before, after, blank, blank', whole⟩
      refine ⟨before, after, blank, blank', ?_⟩
      rw [shape, Lexeme.raw_text, ← trimmed]
      exact whole

theorem forall₂_writes_raw {pieces : List Piece} {tokens : List Token}
    (read : List.Forall₂ Piece.Reads pieces tokens) :
    List.Forall₂ Piece.Writes pieces (tokens.map fun token => token.lexeme.raw) := by
  rw [List.forall₂_map_right_iff]
  exact read.imp fun _ _ reads => reads.writes

theorem flatten_raw_tokens (text : List Char) :
    ((tokens text).map fun token => token.lexeme.raw).flatten = text := by
  rw [← List.flatMap_def]
  exact flatMap_raw_tokensFrom .start text

/-- What an accepted document declares can be declared, and the document is a way to write it. -/
theorem areDeclarations_and_writes_of_parse {text : String} {declarations : List (Declaration φ)}
    (accepted : parse text = .ok declarations) :
    AreDeclarations declarations ∧ Writes declarations text := by
  rcases parseWith_eq_ok_iff.mp accepted with ⟨progress, run, stops, present, rfl⟩
  -- That what is read fits and that its pieces are those of the tokens go through together,
  -- as the pieces tell which element was read last.
  have hasRead : progress.HasRead (tokens text.toList) :=
    Progress.hasRead_start.run (maximal_lexemes text.toList) run
  refine ⟨⟨by simpa using present, ?_, ?_⟩, ?_⟩
  · simpa using hasRead.fits.names
  · simpa using hasRead.fits.templates
  · have read := hasRead.pieces
    have whole := flatten_raw_tokens text.toList
    rcases stops with stage | ⟨blank, stage⟩
    · simp only [Progress.pieces, stage, Stage.pieces, List.append_nil] at read
      exact ⟨_, [], forall₂_writes_raw read, rfl, by rw [whole, List.append_nil]⟩
    · have fits := hasRead.fits.stage
      simp only [stage, Stage.Fits] at fits
      rcases fits with ⟨run, shape, isBlank⟩
      simp only [Progress.pieces, stage, Stage.pieces, shape, Lexeme.piece] at read
      rcases exists_append_of_forall₂ read with ⟨earlier, ending, split, reads, last⟩
      rcases exists_eq_singleton_of_forall₂ last with ⟨token, rfl, lastReads⟩
      refine ⟨_, run, forall₂_writes_raw reads, isBlank, ?_⟩
      rw [split, List.map_append, List.flatten_append] at whole
      simp only [Piece.Reads] at lastReads
      simpa [lastReads] using whole.symm

end Wordloom.Document
