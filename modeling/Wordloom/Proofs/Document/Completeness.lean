import Wordloom.Proofs.Document.Soundness
import Wordloom.Proofs.Document.Spacing

/-!
# Written templates are accepted

This file shows that a reader accepts every way to write some declarations and gives these
declarations back. Together with what accepted documents are, that makes reading a document the
inverse of writing one.

A reader inside a template comes from the pieces of a tree to the elements that the tree stands
for, whatever was read before, as long as there is room for its brackets. This is shown along
the tree; at a bracket every alternative is read with one more frame open.
-/

namespace Wordloom.Generator

variable {φ : Type} {depth : Nat} {generator : Generator φ}

/-- The elements of the sequence that a tree stands for. -/
def elements : Generator φ → List (Generator φ)
  | .constant (.string text) => if text = "" then [] else [.constant (.string text)]
  | .concatenate parts => parts
  | other => [other]

theorem elements_of_isElement (single : generator.IsElement) :
    generator.elements = [generator] := by
  cases generator with
  | constant value =>
      cases value with
      | string text =>
          have present : text ≠ "" := single
          simp [elements, present]
      | _ => rfl
  | concatenate parts => exact single.elim
  | _ => rfl

theorem IsTemplate.sequence_elements (template : generator.IsTemplate depth) :
    Document.sequence generator.elements = generator := by
  cases template with
  | @text _ text plain =>
      by_cases empty : text = ""
      · simp [Generator.text, elements, empty, Document.sequence]
      · simp [Generator.text, elements, empty, Document.sequence]
  | reference named => rfl
  | brackets present templates => rfl
  | @several _ parts several templates elements apart =>
      rcases parts with _ | ⟨first, _ | ⟨second, rest⟩⟩
      · simp at several
      · simp at several
      · rfl

end Wordloom.Generator

namespace Wordloom.Document

variable {φ : Type} {depth : Nat} {generator : Generator φ}

/-- Whether a reader comes from the pieces of a tree to its elements, wherever there is room for
brackets of some depth. -/
def Readable (depth : Nat) (generator : Generator φ) : Prop :=
  ∀ (declarations : List (Declaration φ)) (name : String) (frames : List (Frame φ))
    (elements : List (Generator φ)) (tokens : List Token),
    frames.length + depth ≤ maxDepth → List.Forall₂ Piece.Reads generator.pieces tokens →
      Run sequence ⟨declarations, .template ⟨name, frames, elements⟩⟩ tokens
        ⟨declarations, .template ⟨name, frames, generator.elements.reverse ++ elements⟩⟩

section Reads

variable {pieces : List Piece} {tokens : List Token}

theorem exists_eq_cons_of_reads_mark {mark : Mark}
    (read : List.Forall₂ Piece.Reads (.mark mark :: pieces) tokens) :
    ∃ position rest, tokens = ⟨.mark mark, position⟩ :: rest ∧
      List.Forall₂ Piece.Reads pieces rest := by
  rcases List.forall₂_cons_left_iff.mp read with ⟨⟨lexeme, position⟩, rest, reads, later, rfl⟩
  simp only [Piece.Reads] at reads
  subst reads
  exact ⟨position, rest, rfl, later⟩

theorem exists_eq_cons_of_reads_text {run : List Char}
    (read : List.Forall₂ Piece.Reads (.text run :: pieces) tokens) :
    ∃ position rest, tokens = ⟨.text run, position⟩ :: rest ∧
      List.Forall₂ Piece.Reads pieces rest := by
  rcases List.forall₂_cons_left_iff.mp read with ⟨⟨lexeme, position⟩, rest, reads, later, rfl⟩
  simp only [Piece.Reads] at reads
  subst reads
  exact ⟨position, rest, rfl, later⟩

theorem exists_eq_cons_of_reads_name {name : String}
    (read : List.Forall₂ Piece.Reads (.name name.toList :: pieces) tokens) :
    ∃ run position rest, tokens = ⟨.text run, position⟩ :: rest ∧
      Text.allBlank run = false ∧ String.ofList (Text.trim run) = name ∧
      List.Forall₂ Piece.Reads pieces rest := by
  rcases List.forall₂_cons_left_iff.mp read with ⟨⟨lexeme, position⟩, rest, reads, later, rfl⟩
  rcases reads with ⟨run, shape, present, trimmed⟩
  simp only at shape
  subst shape
  exact ⟨run, position, rest, rfl, present, by rw [trimmed, String.ofList_toList], later⟩

end Reads

theorem readable_text (text : String) : Readable depth (.text text : Generator φ) := by
  intro declarations name frames elements tokens _ read
  rw [Generator.pieces_text] at read
  by_cases empty : text = ""
  · subst empty
    rw [List.forall₂_nil_left_iff.mp read]
    exact .nil
  · have present : text.toList ≠ [] := by simpa using empty
    rw [literal_of_ne_nil present] at read
    rcases exists_eq_cons_of_reads_text read with ⟨position, rest, rfl, none⟩
    rw [List.forall₂_nil_left_iff.mp none]
    have isElement : (Generator.text text : Generator φ).IsElement := empty
    rw [Generator.elements_of_isElement isElement]
    apply Run.single
    have move : Move sequence ⟨declarations, .template ⟨name, frames, elements⟩⟩
        ⟨.text text.toList, position⟩
        ⟨declarations, .template ⟨name, frames, .text (String.ofList text.toList) :: elements⟩⟩ :=
      .text
    rwa [String.ofList_toList] at move

theorem readable_reference (id : String) :
    Readable depth (.parameter id (.string id) .string : Generator φ) := by
  intro declarations name frames elements tokens _ read
  rw [Generator.pieces_parameter] at read
  rcases exists_eq_cons_of_reads_mark read with ⟨opening, named, rfl, idRead⟩
  rcases exists_eq_cons_of_reads_name idRead with
    ⟨run, place, closed, rfl, present, trimmed, closedRead⟩
  rcases exists_eq_cons_of_reads_mark closedRead with ⟨closing, rest, rfl, none⟩
  rw [List.forall₂_nil_left_iff.mp none]
  apply Run.cons .less
  apply Run.cons (.id present)
  rw [trimmed]
  exact Run.single .greater

theorem readable_several {parts : List (Generator φ)}
    (elements : ∀ part ∈ parts, part.IsElement)
    (readable : ∀ part ∈ parts, Readable depth part) :
    Readable depth (.concatenate parts) := by
  intro declarations name frames elementsBefore tokens room read
  rw [Generator.pieces_concatenate] at read
  simp only [Generator.elements]
  induction parts generalizing elementsBefore tokens with
  | nil =>
      rw [List.forall₂_nil_left_iff.mp read]
      exact .nil
  | cons part rest ih =>
      simp only [List.forall_mem_cons] at elements readable
      rw [List.flatMap_cons] at read
      rcases exists_append_of_forall₂ read with ⟨first, later, rfl, partReads, restReads⟩
      have run := readable.1 declarations name frames elementsBefore first room partReads
      rw [Generator.elements_of_isElement elements.1] at run
      have more := ih elements.2 readable.2 (part :: elementsBefore) later restReads
      simpa using run.append more

/-- A reader comes from the alternatives of an open bracket to its table. -/
theorem run_alternatives {options done before : List (Generator φ)} {outer : List (Frame φ)}
    {declarations : List (Declaration φ)} {name : String} {tokens : List Token}
    (present : options ≠ []) (whole : ∀ option ∈ options, sequence option.elements = option)
    (readable : ∀ option ∈ options, Readable depth option)
    (room : outer.length + 1 + depth ≤ maxDepth)
    (read : List.Forall₂ Piece.Reads
      ([.mark .slash].intercalate (options.map Generator.pieces) ++ [.mark .closeBracket]) tokens) :
    Run sequence ⟨declarations, .template ⟨name, ⟨before, done⟩ :: outer, []⟩⟩ tokens
      ⟨declarations, .template
        ⟨name, outer, .select .string (done.reverse ++ options) :: before⟩⟩ := by
  induction options generalizing done tokens with
  | nil => exact absurd rfl present
  | cons option rest ih =>
      simp only [List.forall_mem_cons] at whole readable
      -- The last alternative is ended by the bracket, all others by a slash.
      have optionRun := readable.1 declarations name (⟨before, done⟩ :: outer) []
      rcases rest with _ | ⟨next, others⟩
      · simp only [List.map_cons, List.map_nil, List.intercalate_singleton] at read
        rcases exists_append_of_forall₂ read with ⟨first, ending, rfl, optionReads, last⟩
        rcases exists_eq_cons_of_reads_mark last with ⟨place, after, rfl, none⟩
        rw [List.forall₂_nil_left_iff.mp none]
        apply (optionRun first room optionReads).append
        apply Run.single
        have move : Move sequence
            ⟨declarations, .template ⟨name, ⟨before, done⟩ :: outer, option.elements.reverse⟩⟩
            ⟨.mark .closeBracket, place⟩
            ⟨declarations, .template ⟨name, outer,
              .select .string (sequence option.elements.reverse.reverse :: done).reverse
                :: before⟩⟩ :=
          .closeBracket
        simpa [whole.1] using move
      · simp only [List.map_cons, List.intercalate_cons_cons, List.append_assoc,
          List.singleton_append] at read
        rcases exists_append_of_forall₂ read with ⟨first, later, rfl, optionReads, laterReads⟩
        rw [List.cons_append] at laterReads
        rcases exists_eq_cons_of_reads_mark laterReads with ⟨place, remaining, rfl, restReads⟩
        have more : Run sequence
            ⟨declarations, .template ⟨name, ⟨before, option :: done⟩ :: outer, []⟩⟩ remaining
            ⟨declarations, .template ⟨name, outer,
              .select .string ((option :: done).reverse ++ next :: others) :: before⟩⟩ :=
          ih (by simp) whole.2 readable.2 (by simpa using restReads)
        apply (optionRun first room optionReads).append
        have move : Move sequence
            ⟨declarations, .template ⟨name, ⟨before, done⟩ :: outer, option.elements.reverse⟩⟩
            ⟨.mark .slash, place⟩
            ⟨declarations, .template ⟨name,
              ⟨before, sequence option.elements.reverse.reverse :: done⟩ :: outer, []⟩⟩ :=
          .slash
        rw [List.reverse_reverse, whole.1] at move
        rw [List.append_nil]
        refine .cons move ?_
        simpa using more

theorem readable_brackets {options : List (Generator φ)} (present : options ≠ [])
    (templates : ∀ option ∈ options, option.IsTemplate depth)
    (readable : ∀ option ∈ options, Readable depth option) :
    Readable (depth + 1) (.select .string options) := by
  intro declarations name frames elements tokens room read
  rw [Generator.pieces_select, List.cons_append] at read
  rcases exists_eq_cons_of_reads_mark read with ⟨place, others, rfl, optionsRead⟩
  have whole : ∀ option ∈ options, sequence option.elements = option :=
    fun option member => (templates option member).sequence_elements
  have run : Run sequence ⟨declarations, .template ⟨name, ⟨elements, []⟩ :: frames, []⟩⟩ others
      ⟨declarations, .template ⟨name, frames, .select .string options :: elements⟩⟩ :=
    run_alternatives present whole readable (by omega) optionsRead
  exact .cons (.openBracket (by omega)) run

theorem readable_of_isTemplate (template : generator.IsTemplate depth) :
    Readable depth generator := by
  induction template with
  | text plain => exact readable_text _
  | reference named => exact readable_reference _
  | brackets present templates ih => exact readable_brackets present templates ih
  | several several templates elements apart ih => exact readable_several elements ih

theorem run_declaration {declaration : Declaration φ} {declarations : List (Declaration φ)}
    {tokens : List Token} (template : declaration.generator.IsTemplate maxDepth)
    (read : List.Forall₂ Piece.Reads declaration.pieces tokens) :
    Run sequence ⟨declarations, .between⟩ tokens ⟨declaration :: declarations, .between⟩ := by
  rw [Declaration.pieces, List.cons_append, List.cons_append] at read
  rcases exists_eq_cons_of_reads_name read with
    ⟨run, named, others, rfl, present, trimmed, othersRead⟩
  rcases exists_eq_cons_of_reads_mark othersRead with ⟨assign, inner, rfl, innerRead⟩
  rcases exists_append_of_forall₂ innerRead with ⟨body, ending, rfl, bodyReads, last⟩
  rcases exists_eq_cons_of_reads_mark last with ⟨endPlace, after, rfl, none⟩
  rw [List.forall₂_nil_left_iff.mp none]
  have bodyRun := readable_of_isTemplate template declarations declaration.name [] [] body
    (by simp) bodyReads
  apply Run.cons (.name present)
  rw [trimmed]
  apply Run.cons .assign
  apply bodyRun.append
  apply Run.single
  have move : Move sequence
      ⟨declarations, .template ⟨declaration.name, [], declaration.generator.elements.reverse⟩⟩
      ⟨.mark .semicolon, endPlace⟩
      ⟨⟨declaration.name, sequence declaration.generator.elements.reverse.reverse⟩
        :: declarations, .between⟩ :=
    .semicolon
  simpa [template.sequence_elements] using move

theorem run_declarations {declarations finished : List (Declaration φ)} {tokens : List Token}
    (templates : ∀ declaration ∈ declarations, declaration.generator.IsTemplate maxDepth)
    (read : List.Forall₂ Piece.Reads (declarations.flatMap Declaration.pieces) tokens) :
    Run sequence ⟨finished, .between⟩ tokens
      ⟨declarations.reverse ++ finished, .between⟩ := by
  induction declarations generalizing finished tokens with
  | nil =>
      rw [List.forall₂_nil_left_iff.mp read]
      exact .nil
  | cons declaration rest ih =>
      simp only [List.forall_mem_cons] at templates
      rw [List.flatMap_cons] at read
      rcases exists_append_of_forall₂ read with ⟨first, later, rfl, reads, restReads⟩
      have run : Run sequence ⟨finished, .between⟩ first ⟨declaration :: finished, .between⟩ :=
        run_declaration templates.1 reads
      have more : Run sequence ⟨declaration :: finished, .between⟩ later
          ⟨rest.reverse ++ declaration :: finished, .between⟩ :=
        ih templates.2 restReads
      simpa using run.append more

theorem parse_of_areDeclarations_of_writes {text : String} {declarations : List (Declaration φ)}
    (areDeclarations : AreDeclarations declarations) (writes : Writes declarations text) :
    parse text = .ok declarations := by
  rcases areDeclarations with ⟨present, names, templates⟩
  rcases writes with ⟨written, after, writes, blank, whole⟩
  have spaced := spaced_flatMap_append_literal names templates (plain_of_allBlank blank)
  rw [parse, parseWith_eq_ok_iff, whole]
  -- Blanks at the end make one more token, after which nothing may follow.
  by_cases ends : after = []
  · subst ends
    rw [literal_nil, List.append_nil] at spaced
    have read := spaced.forall₂_reads_tokens writes
    have run : Run sequence ⟨[], .between⟩ (tokens written.flatten)
        ⟨declarations.reverse ++ [], .between⟩ :=
      run_declarations templates read
    exact ⟨_, by simpa [Progress.start] using run, .inl rfl, by simpa using present, by simp⟩
  · rw [literal_of_ne_nil ends] at spaced
    have all : List.Forall₂ Piece.Writes (declarations.flatMap Declaration.pieces ++ [.text after])
        (written ++ [after]) := List.rel_append writes (.cons rfl .nil)
    have read := spaced.forall₂_reads_tokens all
    rw [List.flatten_append, List.flatten_singleton] at read
    rcases exists_append_of_forall₂ read with ⟨body, ending, tokensEq, bodyReads, last⟩
    rcases exists_eq_cons_of_reads_text last with ⟨position, rest, rfl, none⟩
    rw [List.forall₂_nil_left_iff.mp none] at tokensEq
    have run : Run sequence ⟨[], .between⟩ body ⟨declarations.reverse ++ [], .between⟩ :=
      run_declarations templates bodyReads
    have move : Move sequence ⟨declarations.reverse ++ [], .between⟩ ⟨.text after, position⟩
        ⟨declarations.reverse ++ [], .ending ⟨.text after, position⟩⟩ :=
      .blank blank
    have ended := run.append (Run.single move)
    rw [tokensEq]
    exact ⟨_, ended, .inr ⟨_, rfl⟩, by simpa using present, by simp⟩

def Piece.bare : Piece → List Char
  | .mark found => [found.character]
  | .text run => run
  | .name letters => letters

theorem Piece.writes_bare (piece : Piece) : piece.Writes piece.bare := by
  cases piece with
  | mark found => rfl
  | text run => rfl
  | name letters => exact ⟨[], [], rfl, rfl, (List.append_nil letters).symm⟩

/-- Some declarations, written without any blanks around names. -/
def print (declarations : List (Declaration φ)) : String :=
  String.ofList ((declarations.flatMap Declaration.pieces).flatMap Piece.bare)

theorem writes_print (declarations : List (Declaration φ)) :
    Writes declarations (print declarations) := by
  refine ⟨(declarations.flatMap Declaration.pieces).map Piece.bare, [], ?_, rfl, ?_⟩
  · rw [List.forall₂_map_right_iff, List.forall₂_same]
    exact fun piece _ => piece.writes_bare
  · rw [print, String.toList_ofList, List.append_nil, List.flatMap_def]

theorem parse_print {declarations : List (Declaration φ)}
    (areDeclarations : AreDeclarations declarations) :
    parse (print declarations) = .ok declarations :=
  parse_of_areDeclarations_of_writes areDeclarations (writes_print declarations)

/--
Reading a document is the inverse of writing one: a text is accepted with some declarations
exactly when these can be declared and the text is a way to write them.
-/
theorem parse_eq_ok_iff_writes (text : String) (declarations : List (Declaration φ)) :
    parse text = .ok declarations ↔
      AreDeclarations declarations ∧ Writes declarations text := by
  constructor
  · intro accepted
    exact areDeclarations_and_writes_of_parse accepted
  · rintro ⟨areDeclarations, writes⟩
    exact parse_of_areDeclarations_of_writes areDeclarations writes

end Wordloom.Document
