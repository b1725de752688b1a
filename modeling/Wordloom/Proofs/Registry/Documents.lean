import Wordloom.Proofs.Document.Soundness
import Wordloom.Proofs.Document.Spacing
import Wordloom.Registry

/-!
# Registries of documents

This file describes the registries that come from documents, which are read one by one and then
merged. Under each name stands what is declared last, so every tree in such a registry is declared
by one of the documents, and it is a template.

A template has no more pieces than its document has characters, because something is written
for each of them.
-/

namespace Wordloom

namespace Document

variable {φ : Type}

theorem Piece.Writes.length_pos {piece : Piece} {written : List Char}
    (writes : piece.Writes written) (proper : piece.Proper) : 0 < written.length := by
  cases piece with
  | mark found =>
      rw [writes]
      exact Nat.one_pos
  | text run =>
      rw [writes]
      exact List.length_pos_iff.mpr proper.1
  | name letters =>
      rcases writes with ⟨before, after, -, -, rfl⟩
      have present : letters ≠ [] := by
        rintro rfl
        exact Bool.noConfusion proper.1
      have := List.length_pos_iff.mpr present
      rw [List.length_append, List.length_append]
      omega

theorem length_le_length_flatten {pieces : List Piece} {written : List (List Char)}
    (proper : ∀ piece ∈ pieces, piece.Proper)
    (writes : List.Forall₂ Piece.Writes pieces written) :
    pieces.length ≤ written.flatten.length := by
  induction writes with
  | nil => exact Nat.le_refl 0
  | cons first rest ih =>
      simp only [List.forall_mem_cons] at proper
      have := first.length_pos proper.1
      have := ih proper.2
      rw [List.length_cons, List.flatten_cons, List.length_append]
      omega

theorem length_le_length_flatMap {α β : Type} (f : α → List β) {item : α} {items : List α}
    (member : item ∈ items) : (f item).length ≤ (items.flatMap f).length :=
  (List.sublist_flatten_of_mem (List.mem_map_of_mem member)).length_le

theorem length_le_length_intercalate {α : Type} (separator : α) {list : List α}
    {lists : List (List α)} (member : list ∈ lists) :
    list.length ≤ ([separator].intercalate lists).length := by
  induction lists with
  | nil => cases member
  | cons first rest ih =>
      rcases rest with _ | ⟨second, others⟩
      · rw [List.mem_singleton.mp member, List.intercalate_singleton]
      · rw [List.intercalate_cons_cons, List.length_append, List.length_append]
        rcases List.mem_cons.mp member with rfl | later
        · omega
        · have := ih later
          omega

theorem length_le_length_intercalate_add_one {α : Type} (separator : α)
    (lists : List (List α)) :
    lists.length ≤ ([separator].intercalate lists).length + 1 := by
  induction lists with
  | nil => exact Nat.zero_le _
  | cons first rest ih =>
      rcases rest with _ | ⟨second, others⟩
      · simp
      · rw [List.intercalate_cons_cons, List.length_append, List.length_append,
          List.length_singleton, List.length_cons]
        omega

end Document

namespace Generator

variable {φ : Type}

theorem length_options_le (output : ValueType) (options : List (Generator φ)) :
    options.length ≤ (select output options).pieces.length := by
  have all := Document.length_le_length_intercalate_add_one (.mark .slash)
    (options.map pieces)
  rw [List.length_map] at all
  rw [pieces_select, List.length_append, List.length_cons]
  omega

theorem length_pieces_option_le (output : ValueType) {options : List (Generator φ)}
    {option : Generator φ} (member : option ∈ options) :
    option.pieces.length ≤ (select output options).pieces.length := by
  have own := Document.length_le_length_intercalate (.mark .slash)
    (List.mem_map_of_mem (f := pieces) member)
  rw [pieces_select, List.length_append, List.length_cons]
  omega

theorem length_pieces_part_le {parts : List (Generator φ)} {part : Generator φ}
    (member : part ∈ parts) :
    part.pieces.length ≤ (concatenate parts).pieces.length := by
  rw [pieces_concatenate]
  exact Document.length_le_length_flatMap pieces member

end Generator

namespace Document

variable {φ : Type}

/-- The tree of a declaration has no more pieces than the document has characters. -/
theorem Writes.length_pieces_le {declarations : List (Declaration φ)} {text : String}
    (writes : Writes declarations text) (areDeclarations : AreDeclarations declarations)
    {declaration : Declaration φ} (member : declaration ∈ declarations) :
    declaration.generator.pieces.length ≤ text.length := by
  rcases writes with ⟨written, after, writes, blank, whole⟩
  have spaced := spaced_flatMap_append_literal areDeclarations.names areDeclarations.templates
    (plain_of_allBlank blank)
  have all : (declarations.flatMap Declaration.pieces).length ≤ written.flatten.length :=
    length_le_length_flatten
      (fun piece inside => spaced.proper piece (List.mem_append_left _ inside)) writes
  have own := length_le_length_flatMap Declaration.pieces member
  rw [Declaration.pieces, List.length_append, List.length_cons, List.length_cons] at own
  rw [← String.length_toList, whole, List.length_append]
  omega

/-- The generator that is declared last under a name. -/
def lastDeclared? (declarations : List (Declaration φ)) (name : String) :
    Option (Generator φ) :=
  (declarations.reverse.find? (·.name == name)).map Declaration.generator

theorem mem_of_lastDeclared?_eq_some {declarations : List (Declaration φ)} {name : String}
    {generator : Generator φ} (found : lastDeclared? declarations name = some generator) :
    ⟨name, generator⟩ ∈ declarations := by
  rcases Option.map_eq_some_iff.mp found with ⟨declaration, last, rfl⟩
  have member := List.mem_of_find?_eq_some last
  have named : declaration.name = name := by simpa using List.find?_some last
  subst named
  exact List.mem_reverse.mp member

theorem lastDeclared?_append (declarations others : List (Declaration φ)) (name : String) :
    lastDeclared? (declarations ++ others) name
      = (lastDeclared? others name).or (lastDeclared? declarations name) := by
  simp [lastDeclared?, Option.map_or]

end Document

namespace Registry

variable {φ : Type}

/-- The registries that come from documents, none of which is rejected, by merging. -/
inductive FromDocuments : (texts : List String) → Registry φ → Prop where
  | empty : FromDocuments [] empty
  | parse {text : String} {registry : Registry φ} (accepted : parse text = .ok registry) :
      FromDocuments [text] registry
  | merge {texts others : List String} {registry other : Registry φ}
      (first : FromDocuments texts registry) (second : FromDocuments others other) :
      FromDocuments (texts ++ others) (registry.merge other)

theorem find?_declare (registry : Registry φ) (declarations : List (Document.Declaration φ))
    (name : String) :
    (registry.declare declarations).find? name
      = (Document.lastDeclared? declarations name).or (registry.find? name) := by
  induction declarations generalizing registry with
  | nil => rfl
  | cons declaration rest ih =>
      have last := Document.lastDeclared?_append [declaration] rest name
      rw [List.singleton_append] at last
      change ((registry.set declaration.name declaration.generator).declare rest).find? name = _
      rw [ih, find?_set, last, Option.or_assoc]
      by_cases named : declaration.name = name
      · simp [Document.lastDeclared?, named]
      · simp [Document.lastDeclared?, named]

theorem find?_declare_eq_some {registry : Registry φ}
    {declarations : List (Document.Declaration φ)} {name : String} {generator : Generator φ}
    (found : (registry.declare declarations).find? name = some generator) :
    ⟨name, generator⟩ ∈ declarations ∨ registry.find? name = some generator := by
  rw [find?_declare, Option.or_eq_some_iff] at found
  rcases found with declared | ⟨-, earlier⟩
  · exact .inl (Document.mem_of_lastDeclared?_eq_some declared)
  · exact .inr earlier

theorem parse_eq_ok_iff {text : String} {registry : Registry φ} :
    parse text = .ok registry ↔
      ∃ declarations, Document.parse text = .ok declarations ∧
        registry = empty.declare declarations := by
  rw [parse]
  rcases Document.parse text with cause | declarations
  · simp [Except.map]
  · simp [Except.map, eq_comm]

namespace FromDocuments

variable {texts : List String} {registry : Registry φ} {name : String} {generator : Generator φ}

theorem declare {text : String} {declarations : List (Document.Declaration φ)}
    (parsed : Document.parse text = .ok declarations) :
    (Registry.empty.declare declarations).FromDocuments [text] := by
  apply FromDocuments.parse
  rw [Registry.parse, parsed]
  rfl

/-- What is registered under a name is declared under it by one of the documents. -/
theorem exists_declaration (built : registry.FromDocuments texts)
    (found : registry.find? name = some generator) :
    ∃ text ∈ texts, ∃ declarations, Document.parse text = .ok declarations ∧
      ⟨name, generator⟩ ∈ declarations := by
  induction built with
  | empty =>
      rw [find?_empty] at found
      cases found
  | @parse text registry accepted =>
      rcases parse_eq_ok_iff.mp accepted with ⟨declarations, parsed, rfl⟩
      rcases find?_declare_eq_some found with member | none
      · exact ⟨text, List.mem_singleton_self text, declarations, parsed, member⟩
      · rw [find?_empty] at none
        cases none
  | merge first second firstHas secondHas =>
      rw [find?_merge, Option.or_eq_some_iff] at found
      rcases found with found | ⟨-, found⟩
      · rcases secondHas found with ⟨text, member, declared⟩
        exact ⟨text, List.mem_append_right _ member, declared⟩
      · rcases firstHas found with ⟨text, member, declared⟩
        exact ⟨text, List.mem_append_left _ member, declared⟩

theorem isName (built : registry.FromDocuments texts)
    (found : registry.find? name = some generator) : IsName name := by
  rcases built.exists_declaration found with ⟨text, -, declarations, parsed, member⟩
  exact (Document.areDeclarations_and_writes_of_parse parsed).1.names _ member

theorem isTemplate (built : registry.FromDocuments texts)
    (found : registry.find? name = some generator) : generator.IsTemplate maxDepth := by
  rcases built.exists_declaration found with ⟨text, -, declarations, parsed, member⟩
  exact (Document.areDeclarations_and_writes_of_parse parsed).1.templates _ member

theorem exists_length_pieces_le (built : registry.FromDocuments texts)
    (found : registry.find? name = some generator) :
    ∃ text ∈ texts, generator.pieces.length ≤ text.length := by
  rcases built.exists_declaration found with ⟨text, inside, declarations, parsed, member⟩
  rcases Document.areDeclarations_and_writes_of_parse parsed with ⟨areDeclarations, writes⟩
  exact ⟨text, inside, writes.length_pieces_le areDeclarations member⟩

end FromDocuments

end Registry

end Wordloom
