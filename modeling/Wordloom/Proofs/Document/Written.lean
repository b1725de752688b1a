import Mathlib.Data.List.Chain
import Mathlib.Data.List.Forall2
import Wordloom.Document.Syntax
import Wordloom.Proofs.Document.Lexemes

/-!
# How documents are written

This file gives the trees that templates stand for and how documents are written.

The pieces of a tree are its texts, its names and the marks between them. Texts and marks are
written as they are, and any blanks may stand around a name, so a document can be written in
many ways. They differ in nothing but these blanks and those after the last declaration.
-/

namespace Wordloom

open Document

/-- A text that can name a declaration or a parameter. -/
structure IsName (name : String) : Prop where
  present : Text.allBlank name.toList = false
  plain : Plain name.toList
  trimmed : Text.trim name.toList = name.toList

namespace Generator

variable {φ : Type}

def isText : Generator φ → Bool
  | .constant (.string _) => true
  | _ => false

/-- Whether a tree stands for one element of a template: it is no empty text and does not join
several elements. -/
def IsElement : Generator φ → Prop
  | .constant (.string text) => text ≠ ""
  | .concatenate _ => False
  | _ => True

/-- The trees that sequences of elements stand for, with brackets that are nested up to a depth. -/
inductive IsTemplate : (depth : Nat) → Generator φ → Prop where
  | text {depth : Nat} {text : String} (plain : Plain text.toList) :
      IsTemplate depth (.text text)
  | reference {depth : Nat} {id : String} (named : IsName id) :
      IsTemplate depth (.parameter id (.string id) .string)
  | brackets {depth : Nat} {options : List (Generator φ)} (present : options ≠ [])
      (templates : ∀ option ∈ options, IsTemplate depth option) :
      IsTemplate (depth + 1) (.select .string options)
  | several {depth : Nat} {parts : List (Generator φ)} (several : 2 ≤ parts.length)
      (templates : ∀ part ∈ parts, IsTemplate depth part)
      (elements : ∀ part ∈ parts, part.IsElement)
      (apart : parts.IsChain fun left right => Apart left.isText right.isText) :
      IsTemplate depth (.concatenate parts)

end Generator

namespace Document

variable {φ : Type}

/-- The declarations that a document can make: at least one, each of a template. -/
structure AreDeclarations (declarations : List (Declaration φ)) : Prop where
  present : declarations ≠ []
  names : ∀ declaration ∈ declarations, IsName declaration.name
  templates : ∀ declaration ∈ declarations, declaration.generator.IsTemplate maxDepth

inductive Piece where
  | mark (mark : Mark)
  | text (run : List Char)
  | name (letters : List Char)

/-- Whether a text is a way to write a piece. Blanks may stand around a name. -/
def Piece.Writes : Piece → List Char → Prop
  | .mark found, written => written = [found.character]
  | .text run, written => written = run
  | .name letters, written =>
      ∃ before after, Text.allBlank before = true ∧ Text.allBlank after = true ∧
        written = before ++ letters ++ after

/-- The pieces of a fixed text. An empty one has none. -/
def literal : List Char → List Piece
  | [] => []
  | run => [.text run]

end Document

namespace Generator

open Document

variable {φ : Type}

mutual

/-- The pieces that a template is written of. Other trees have none. -/
def pieces : Generator φ → List Piece
  | .constant (.string text) => literal text.toList
  | .constant _ => []
  | .parameter id _ _ => [.mark .less, .name id.toList, .mark .greater]
  | .concatenate parts => (piecesOfParts parts).flatten
  | .combine _ _ _ _ _ _ => []
  | .table _ ⟨entries, _, _⟩ =>
    .mark .openBracket :: [.mark .slash].intercalate (piecesOfEntries entries)
      ++ [.mark .closeBracket]

def piecesOfParts : List (Generator φ) → List (List Piece)
  | [] => []
  | part :: rest => part.pieces :: piecesOfParts rest

def piecesOfEntries : List (Entry Float (Generator φ)) → List (List Piece)
  | [] => []
  | ⟨item, _⟩ :: rest => item.pieces :: piecesOfEntries rest

end

theorem piecesOfParts_eq_map (parts : List (Generator φ)) :
    piecesOfParts parts = parts.map pieces := by
  induction parts with
  | nil => rfl
  | cons part rest ih => simp [piecesOfParts, ih]

theorem piecesOfEntries_eq_map (entries : List (Entry Float (Generator φ))) :
    piecesOfEntries entries = entries.map fun entry => entry.item.pieces := by
  induction entries with
  | nil => rfl
  | cons entry rest ih => simp [piecesOfEntries, ih]

@[simp]
theorem pieces_text (text : String) : (Generator.text text : Generator φ).pieces
    = literal text.toList := by
  simp [Generator.text, pieces]

@[simp]
theorem pieces_parameter (id : String) (default : Value φ) (output : ValueType) :
    (Generator.parameter id default output).pieces
      = [.mark .less, .name id.toList, .mark .greater] := by
  simp [pieces]

@[simp]
theorem pieces_concatenate (parts : List (Generator φ)) :
    (Generator.concatenate parts).pieces = parts.flatMap pieces := by
  rw [pieces, piecesOfParts_eq_map, List.flatten_eq_flatMap, List.flatMap_map]
  rfl

@[simp]
theorem pieces_select (output : ValueType) (options : List (Generator φ)) :
    (Generator.select output options).pieces
      = .mark .openBracket :: [.mark .slash].intercalate (options.map pieces)
        ++ [.mark .closeBracket] := by
  rw [Generator.select, Table.ofItems, pieces, piecesOfEntries_eq_map, List.map_map]
  rfl

/-- Making a sequence into one tree does not change how it is written. -/
theorem pieces_sequence (elements : List (Generator φ)) :
    (Document.sequence elements).pieces = elements.flatMap pieces := by
  unfold Document.sequence
  split <;> simp [literal]

end Generator

namespace Document

variable {φ : Type}

/-- The pieces that a declaration is written of. -/
def Declaration.pieces (declaration : Declaration φ) : List Piece :=
  .name declaration.name.toList :: .mark .assign :: declaration.generator.pieces
    ++ [.mark .semicolon]

/-- Whether a text is a way to write some declarations, with blanks after the last of them. -/
def Writes (declarations : List (Declaration φ)) (text : String) : Prop :=
  ∃ (written : List (List Char)) (after : List Char),
    List.Forall₂ Piece.Writes (declarations.flatMap Declaration.pieces) written ∧
      Text.allBlank after = true ∧ text.toList = written.flatten ++ after

@[simp]
theorem literal_nil : literal [] = [] := rfl

theorem literal_of_ne_nil {run : List Char} (present : run ≠ []) : literal run = [.text run] := by
  rcases run with _ | ⟨character, rest⟩
  · exact absurd rfl present
  · rfl

/-- Whether a token is a way to read a piece. -/
def Piece.Reads : Piece → Token → Prop
  | .mark found, token => token.lexeme = .mark found
  | .text run, token => token.lexeme = .text run
  | .name letters, token =>
      ∃ run, token.lexeme = .text run ∧ Text.allBlank run = false ∧ Text.trim run = letters

theorem exists_append_of_forall₂ {α β : Type} {relation : α → β → Prop} {left right : List α}
    {whole : List β} (related : List.Forall₂ relation (left ++ right) whole) :
    ∃ first second, whole = first ++ second ∧ List.Forall₂ relation left first ∧
      List.Forall₂ relation right second := by
  induction left generalizing whole with
  | nil => exact ⟨[], whole, rfl, .nil, related⟩
  | cons item left ih =>
      rcases List.forall₂_cons_left_iff.mp related with ⟨other, rest, same, later, rfl⟩
      rcases ih later with ⟨first, second, rfl, leftRelated, rightRelated⟩
      exact ⟨other :: first, second, rfl, .cons same leftRelated, rightRelated⟩

theorem exists_eq_singleton_of_forall₂ {α β : Type} {relation : α → β → Prop} {item : α}
    {whole : List β} (related : List.Forall₂ relation [item] whole) :
    ∃ other, whole = [other] ∧ relation item other := by
  rcases List.forall₂_cons_left_iff.mp related with ⟨other, rest, same, later, rfl⟩
  rw [List.forall₂_nil_left_iff.mp later]
  exact ⟨other, rfl, same⟩

end Document

end Wordloom
