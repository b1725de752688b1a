import Wordloom.Generator.Combiner
import Wordloom.Proofs.Document.Completeness
import Wordloom.Proofs.Registry.Limits

/-!
# Nested brackets and the levels they take

This file compares how deep brackets nest in a document with the levels that an evaluation has.
Both have the same limit, but they count different things. Brackets take one level of their own,
and where something stands beside them the sequence that they are in takes another. So a template
without references is at most twice as high as its brackets are nested, and half of the limit is
what can always be evaluated.

There are no parameters to read without references, so it does not matter which are given.

Brackets with a text beside each of them do take two levels each, so with some more than half of
the limit they are accepted and cannot be evaluated.
-/

namespace Wordloom

variable {φ : Type}

namespace Generator

theorem IsTemplate.isText_of_references_eq_nil {tree : Generator φ} (template : tree.IsTemplate 0)
    (closed : tree.references = []) (element : tree.IsElement) : tree.isText = true := by
  cases template with
  | text plain => rfl
  | reference named => simp [references] at closed
  | several several templates elements apart => exact element.elim

/-- Brackets stand in a sequence of several elements, but no sequence of several stands in another
one. So at least every second level of the tree is one of brackets. -/
theorem IsTemplate.height_le_and {depth : Nat} {tree : Generator φ}
    (template : tree.IsTemplate depth) (closed : tree.references = []) :
    tree.height ≤ 2 * depth ∧ (tree.IsElement → tree.height ≤ 2 * depth - 1) := by
  induction template with
  | text plain => simp [Generator.text, height]
  | reference named => simp [references] at closed
  | @brackets depth options present templates ih =>
      have bounded : (select .string options : Generator φ).height ≤ 2 * depth + 1 := by
        apply height_le_of_children
        intro option member
        have optionClosed := references_eq_nil_of_mem_children closed member
        rw [children_select] at member
        have := (ih option member optionClosed).1
        omega
      exact ⟨by omega, fun _ => by omega⟩
  | @several depth parts several templates elements apart ih =>
      have inside : ∀ part ∈ parts, part.references = [] :=
        fun part member => references_eq_nil_of_mem_children closed member
      refine ⟨?_, fun element => element.elim⟩
      rcases depth with _ | depth
      · -- Without brackets only texts are left, and no two of them stand next to each other.
        rcases parts with _ | ⟨first, _ | ⟨second, rest⟩⟩
        · simp at several
        · simp at several
        · simp only [List.forall_mem_cons] at templates elements inside
          have firstText := templates.1.isText_of_references_eq_nil inside.1 elements.1
          have secondText := templates.2.1.isText_of_references_eq_nil inside.2.1 elements.2.1
          have next := (List.isChain_cons_cons.mp apart).1
          rw [firstText, secondText] at next
          exact absurd next Document.apart_true_true
      · apply height_le_of_children
        intro part member
        have := (ih part member (inside part member)).2 (elements part member)
        omega

theorem IsTemplate.height_le {depth : Nat} {tree : Generator φ} (template : tree.IsTemplate depth)
    (closed : tree.references = []) : tree.height ≤ 2 * depth :=
  (template.height_le_and closed).1

/-- A text in brackets, with the same text beside each of the brackets but the outermost. -/
def nestedBrackets : (inner : Nat) → Generator φ
  | 0 => .select .string [.text "x"]
  | inner + 1 => .select .string [.concatenate [.text "x", nestedBrackets inner]]

theorem isElement_nestedBrackets (inner : Nat) :
    (nestedBrackets inner : Generator φ).IsElement := by
  cases inner with
  | zero => trivial
  | succ inner => trivial

theorem isText_nestedBrackets (inner : Nat) :
    (nestedBrackets inner : Generator φ).isText = false := by
  cases inner with
  | zero => rfl
  | succ inner => rfl

theorem isTemplate_nestedBrackets {inner depth : Nat} (room : inner < depth) :
    (nestedBrackets inner : Generator φ).IsTemplate depth := by
  have plain : Document.Plain "x".toList := by
    intro character member
    rw [List.mem_singleton.mp member]
    rfl
  have isElement : (text "x" : Generator φ).IsElement := by
    simp [Generator.text, IsElement]
  induction inner generalizing depth with
  | zero =>
      rcases depth with _ | depth
      · omega
      · exact .brackets (by simp) (by simpa using .text plain)
  | succ inner ih =>
      rcases depth with _ | depth
      · omega
      · have template := ih (by omega : inner < depth)
        have sequence : IsTemplate depth
            (.concatenate [.text "x", nestedBrackets inner] : Generator φ) := by
          apply IsTemplate.several
          · simp
          · simpa using ⟨.text plain, template⟩
          · simpa using ⟨isElement, isElement_nestedBrackets inner⟩
          · simp [isText_nestedBrackets]
        exact .brackets (by simp) (by simpa using sequence)

theorem references_nestedBrackets (inner : Nat) :
    (nestedBrackets inner : Generator φ).references = [] := by
  induction inner with
  | zero => rfl
  | succ inner ih =>
      simp [nestedBrackets, select, Table.ofItems, references, referencesOfEntries,
        referencesOfParts, Generator.text, ih]

theorem bare_pieces_nestedBrackets (inner : Nat) :
    (nestedBrackets inner : Generator φ).pieces.flatMap Document.Piece.bare
      = (List.replicate (inner + 1) ['[', 'x']).flatten ++ List.replicate (inner + 1) ']' := by
  induction inner with
  | zero =>
      rw [nestedBrackets, pieces_select]
      rfl
  | succ inner ih =>
      have closing : List.replicate (inner + 1) ']' ++ [']'] = List.replicate (inner + 2) ']' :=
        List.replicate_succ'.symm
      rw [nestedBrackets, pieces_select]
      simp only [List.map_cons, List.map_nil, List.intercalate_singleton, pieces_concatenate,
        pieces_text, List.flatMap_cons, List.flatMap_nil, List.flatMap_append, ih,
        Document.Piece.bare, List.append_nil, List.append_assoc, List.cons_append]
      rw [List.replicate_succ, List.flatten_cons, ← closing]
      rfl

end Generator

theorem Document.parse_nestedBrackets {inner : Nat} (room : inner < maxDepth) :
    parse (String.ofList (['a', '='] ++ (List.replicate (inner + 1) ['[', 'x']).flatten
      ++ List.replicate (inner + 1) ']' ++ [';']))
      = .ok [(⟨"a", .nestedBrackets inner⟩ : Declaration φ)] := by
  have areDeclarations : AreDeclarations [(⟨"a", .nestedBrackets inner⟩ : Declaration φ)] := by
    have named : IsName "a" := by
      constructor
      · rfl
      · intro character member
        rw [List.mem_singleton.mp member]
        rfl
      · rfl
    constructor
    · simp
    · simpa using named
    · simpa using Generator.isTemplate_nestedBrackets room
  have name : "a".toList = ['a'] := rfl
  have assign : Mark.assign.character = '=' := rfl
  have semicolon : Mark.semicolon.character = ';' := rfl
  rw [← parse_print areDeclarations, print, List.flatMap_singleton, Declaration.pieces,
    List.flatMap_append, List.flatMap_cons, List.flatMap_cons,
    Generator.bare_pieces_nestedBrackets]
  simp [Piece.bare, name, assign, semicolon]

namespace Registry

theorem derives_select_iff {registry : Registry φ} {parameters : Parameters φ} {levels : Nat}
    {options : List (Generator φ)} {text : String} :
    registry.Derives parameters levels (.select .string options) text ↔
      ∃ below, levels = below + 1 ∧
        ∃ option ∈ options, registry.Derives parameters below option text := by
  constructor
  · intro derives
    generalize shape : Generator.select .string options = tree at derives
    cases derives with
    | @alternative below others option _ member derives =>
        have same := congrArg Generator.children shape
        rw [Generator.children_select, Generator.children_select] at same
        exact ⟨below, rfl, option, same ▸ member, derives⟩
    | _ => cases shape
  · rintro ⟨below, rfl, option, member, derives⟩
    exact .alternative member derives

theorem not_derives_nestedBrackets {registry : Registry φ} {parameters : Parameters φ}
    {inner levels : Nat} (few : levels ≤ 2 * inner + 1) (text : String) :
    ¬registry.Derives parameters levels (.nestedBrackets inner) text := by
  induction inner generalizing levels text with
  | zero =>
      rw [Generator.nestedBrackets, derives_select_iff]
      rintro ⟨below, rfl, option, member, derives⟩
      have : below = 0 := by omega
      subst this
      cases derives
  | succ inner ih =>
      rw [Generator.nestedBrackets, derives_select_iff]
      rintro ⟨below, rfl, option, member, derives⟩
      rw [List.mem_singleton] at member
      subst member
      rcases below with _ | below
      · cases derives
      · cases derives with
        | sequence derive =>
            rcases deriveInOrder_iff.mp derive with ⟨texts, each, rfl⟩
            rcases List.forall₂_cons_left_iff.mp each with ⟨first, rest, -, later, rfl⟩
            rcases List.forall₂_cons_left_iff.mp later with ⟨second, _, derives, -, rfl⟩
            exact ih (by omega) second derives

theorem fits_of_references_eq_nil {registry : Registry φ} {levels : Nat} {tree : Generator φ}
    (closed : tree.references = []) (low : tree.height < levels) : registry.Fits levels tree where
  height_lt := low
  chain_lt id reads := by
    rw [closed] at reads
    cases reads

variable {σ : Type} [RandomSource σ] [Combining φ]

/-- Without references it makes no difference that nothing is registered. -/
theorem generate_eq_of_references_eq_nil {tree : Generator φ} (closed : tree.references = [])
    (parameters : Parameters φ) :
    (tree.generate parameters : Drawing σ GeneratorError (Value φ))
      = tree.evaluate (empty.combinedParameters ∅) (maxDepth + 1) :=
  Generator.evaluate_eq_of_references_eq_nil closed parameters _ _

theorem run_generate_of_references_eq_nil {depth : Nat} {tree : Generator φ}
    (template : tree.IsTemplate depth) (closed : tree.references = []) (parameters : Parameters φ)
    (source : σ) :
    (∃ text after, (tree.generate parameters).run source = (.ok (.string text), after)) ∨
    maxDepth < tree.height ∧
      ∃ after, (tree.generate parameters).run source
        = (.error (.recursionLimit maxDepth), after) := by
  rw [generate_eq_of_references_eq_nil closed]
  apply (run_evaluate .empty .empty template (maxDepth + 1) source).imp_right
  rintro ⟨few, limit⟩
  refine ⟨?_, limit⟩
  by_contra low
  exact few (fits_of_references_eq_nil closed (by omega))

theorem run_generate_nestedBrackets {inner : Nat} (deep : maxDepth ≤ 2 * inner)
    (parameters : Parameters φ) (source : σ) :
    ∃ after, ((Generator.nestedBrackets inner).generate parameters).run source
      = (.error (.recursionLimit maxDepth), after) := by
  have template := Generator.isTemplate_nestedBrackets (φ := φ) (Nat.lt_succ_self inner)
  have closed := Generator.references_nestedBrackets (φ := φ) inner
  rcases run_generate_of_references_eq_nil template closed parameters source with
    ⟨text, after, run⟩ | ⟨-, limit⟩
  · rw [generate_eq_of_references_eq_nil closed] at run
    rcases derives_of_run .empty .empty template run with ⟨text, -, derives⟩
    exact absurd derives (not_derives_nestedBrackets (by omega) text)
  · exact limit

end Registry

/--
A declaration without references is evaluated to a text, whatever parameters are given, if its
tree is not higher than there are levels, as it is with brackets that are nested half as deep. A
higher one may run out of levels and fails in no other way.
-/
theorem declaration_without_references_evaluates (φ : Type) [Combining φ] {document : String}
    {declarations : List (Document.Declaration φ)}
    (parsed : Document.parse document = .ok declarations) {declaration : Document.Declaration φ}
    (member : declaration ∈ declarations) (closed : declaration.generator.references = []) :
    (∀ (σ : Type) [RandomSource σ] (parameters : Parameters φ) (source : σ),
      let outcome := (declaration.generator.generate parameters).run source
      (declaration.generator.height ≤ maxDepth →
        ∃ text after, outcome = (.ok (.string text), after)) ∧
      ((∃ text after, outcome = (.ok (.string text), after)) ∨
        ∃ after, outcome = (.error (.recursionLimit maxDepth), after))) ∧
    (declaration.generator.IsTemplate (maxDepth / 2) →
      declaration.generator.height ≤ maxDepth) := by
  have template := (Document.areDeclarations_and_writes_of_parse parsed).1.templates _ member
  constructor
  · intro σ _ parameters source outcome
    have ends := Registry.run_generate_of_references_eq_nil template closed parameters source
    refine ⟨?_, ends.imp_right fun limit => limit.2⟩
    intro low
    apply ends.resolve_right
    rintro ⟨high, -⟩
    omega
  · intro half
    exact half.height_le closed

theorem declaration_without_references_evaluates_greeting :
    let document := "greeting=[Hello/[Good ]bye], you;"
    let tree : Generator Combiner :=
      .concatenate [.select .string [.text "Hello", .concatenate [.select .string [.text "Good "],
        .text "bye"]], .text ", you"]
    Document.parse document = .ok [⟨"greeting", tree⟩] ∧ tree.references = [] ∧
      ∃ text after, (tree.generate ∅).run (Stream.ofSeed 7) = (.ok (.string text), after) := by
  intro document tree
  have parsed : Document.parse document = .ok [⟨"greeting", tree⟩] := by cbv
  have closed : tree.references = [] := rfl
  have height : tree.height = 4 := rfl
  have evaluates := declaration_without_references_evaluates Combiner parsed
    List.mem_cons_self closed
  refine ⟨parsed, closed, (evaluates.1 Stream ∅ (Stream.ofSeed 7)).1 ?_⟩
  change tree.height ≤ maxDepth
  rw [height]
  decide

/-- Brackets that are nested about half as deep as is accepted can run out of levels. -/
theorem nested_brackets_run_out_of_levels :
    let document := String.ofList (['a', '='] ++ (List.replicate 129 ['[', 'x']).flatten
      ++ List.replicate 129 ']' ++ [';'])
    let tree : Generator Combiner := .nestedBrackets 128
    Document.parse document = .ok [⟨"a", tree⟩] ∧ tree.references = [] ∧
      ((tree.generate ∅).run (Stream.ofSeed 7)).1 = .error (.recursionLimit maxDepth) := by
  intro document tree
  refine ⟨Document.parse_nestedBrackets (by decide), Generator.references_nestedBrackets 128, ?_⟩
  have deep : maxDepth ≤ 2 * 128 := by decide
  rcases Registry.run_generate_nestedBrackets deep (∅ : Parameters Combiner) (Stream.ofSeed 7) with
    ⟨after, run⟩
  rw [run]

end Wordloom
