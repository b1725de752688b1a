import Mathlib
import Wordloom.Proofs.Generator.Typing
import Wordloom.Proofs.Registry.Documents
import Wordloom.Proofs.Registry.References
import Wordloom.Proofs.Stream.Drawing
import Wordloom.Proofs.Table.Flat

/-!
# Registries as grammars

This file reads a registry of documents as a context-free grammar. Its names are the
nonterminals and their trees the right sides: a sequence derives what its elements derive, one
after the other, brackets derive what one of their alternatives does, and a reference derives
what the tree of a registered name does. Other references are terminals.

What a name is evaluated to is derived from it, whatever is drawn. Conversely all that can be
derived on the levels that an evaluation may enter can be drawn: the draws that lead to it are
those of the parts, from left to right, after the one that picks the alternative. For that an
alternative must be within reach of a draw, which it is as long as halves are doubles.
-/

namespace Wordloom

variable {σ φ : Type}

mutual

/--
The texts that a tree derives on a number of levels. The tree itself is on the first level, what
it goes on to is on the next one. So no tree of the derivation is deeper than `depth` if it takes
`depth + 1` levels.
-/
inductive Registry.Derives (registry : Registry φ) (parameters : Parameters φ) :
    (levels : Nat) → Generator φ → String → Prop where
  | text {levels : Nat} {text : String} :
      Derives registry parameters (levels + 1) (.text text) text
  | sequence {levels : Nat} {parts : List (Generator φ)} {text : String}
      (derive : DeriveInOrder registry parameters levels parts text) :
      Derives registry parameters (levels + 1) (.concatenate parts) text
  | alternative {levels : Nat} {options : List (Generator φ)} {option : Generator φ}
      {text : String} (member : option ∈ options)
      (derives : Derives registry parameters levels option text) :
      Derives registry parameters (levels + 1) (.select .string options) text
  | registered {levels : Nat} {id text : String} {tree : Generator φ}
      (found : registry.find? id = some tree)
      (derives : Derives registry parameters levels tree text) :
      Derives registry parameters (levels + 1) (.parameter id (.string id) .string) text
  | given {levels : Nat} {id : String} {value : Value φ} (unregistered : registry.find? id = none)
      (found : parameters[id]? = some value) :
      Derives registry parameters (levels + 1) (.parameter id (.string id) .string) value.text
  | missing {levels : Nat} {id : String} (unregistered : registry.find? id = none)
      (absent : parameters[id]? = none) :
      Derives registry parameters (levels + 1) (.parameter id (.string id) .string) id

/-- The texts that some elements derive, one after the other. -/
inductive Registry.DeriveInOrder (registry : Registry φ) (parameters : Parameters φ) :
    (levels : Nat) → List (Generator φ) → String → Prop where
  | nil {levels : Nat} : DeriveInOrder registry parameters levels [] ""
  | cons {levels : Nat} {part : Generator φ} {rest : List (Generator φ)} {first text : String}
      (derives : Derives registry parameters levels part first)
      (derive : DeriveInOrder registry parameters levels rest text) :
      DeriveInOrder registry parameters levels (part :: rest) (first ++ text)

end

namespace Registry

variable {registry : Registry φ} {parameters : Parameters φ}

theorem derives_standIn {id : String} (unregistered : registry.find? id = none) (levels : Nat) :
    registry.Derives parameters (levels + 1) (.parameter id (.string id) .string)
      (standIn parameters id) := by
  rcases given : parameters[id]? with _ | value
  · rw [standIn, given]
    exact .missing unregistered given
  · rw [standIn, given]
    exact .given unregistered given

theorem deriveInOrder_iff {levels : Nat} {parts : List (Generator φ)} {text : String} :
    registry.DeriveInOrder parameters levels parts text ↔
      ∃ texts, List.Forall₂ (registry.Derives parameters levels) parts texts ∧
        text = String.join texts := by
  constructor
  · intro derive
    induction parts generalizing text with
    | nil =>
        cases derive
        exact ⟨[], .nil, String.join_nil.symm⟩
    | cons part rest ih =>
        cases derive with
        | cons first later =>
            rcases ih later with ⟨texts, each, rfl⟩
            exact ⟨_, .cons first each, String.join_cons.symm⟩
  · rintro ⟨texts, each, rfl⟩
    induction each with
    | nil =>
        rw [String.join_nil]
        exact .nil
    | cons first rest ih =>
        rw [String.join_cons]
        exact .cons first ih

section Soundness

variable [RandomSource σ] [Combining φ]

/-- What a template is evaluated to is a text that it derives, level by level. -/
theorem derives_of_run {texts : List String} (built : registry.FromDocuments texts)
    (plain : parameters.ArePlain) {levels depth : Nat} {tree : Generator φ}
    (template : tree.IsTemplate depth) {source after : σ} {value : Value φ}
    (success : (tree.evaluate (registry.combinedParameters parameters) levels).run source
      = (.ok value, after)) :
    ∃ text, value = .string text ∧ registry.Derives parameters levels tree text := by
  -- A registered tree is no part of the reference to it, so the induction is on the levels.
  induction levels generalizing tree depth source after value with
  | zero => cases success
  | succ levels ih =>
      cases template with
      | text isPlain =>
          cases success
          exact ⟨_, rfl, .text⟩
      | @reference _ id named =>
          rcases registered : registry.find? id with _ | tree
          · rw [evaluate_reference_of_unregistered plain registered] at success
            cases success
            exact ⟨_, rfl, derives_standIn registered levels⟩
          · rw [evaluate_reference_of_registered registered, Drawing.run_bind_eq_ok_iff] at success
            rcases success with ⟨found, between, run, success⟩
            rcases ih (built.isTemplate registered) run with ⟨text, rfl, derives⟩
            cases success
            exact ⟨text, rfl, .registered registered derives⟩
      | @brackets _ options present templates =>
          rw [Generator.select, Generator.evaluate, Drawing.run_bind_eq_ok_iff] at success
          rcases success with ⟨position, picked, -, success⟩
          rw [Drawing.run_bind_eq_ok_iff] at success
          rcases success with ⟨found, between, run, success⟩
          have member := Table.item_entryAt_mem options position
          rcases ih (templates _ member) run with ⟨text, rfl, derives⟩
          cases success
          exact ⟨text, rfl, .alternative member derives⟩
      | @several _ parts several templates elements apart =>
          rw [Generator.evaluate, Drawing.run_bind_eq_ok_iff] at success
          rcases success with ⟨values, between, run, success⟩
          cases success
          refine ⟨_, rfl, .sequence (deriveInOrder_iff.mpr ⟨_, ?_, rfl⟩)⟩
          rw [List.forall₂_map_right_iff]
          have each := (List.forall₂_and_left _ _).mpr
            ⟨templates, Drawing.forall₂_of_run_mapM run⟩
          apply each.imp
          rintro part value ⟨template, start, behind, partRun⟩
          rcases ih template partRun with ⟨text, rfl, derives⟩
          exact derives

end Soundness

section Completeness

theorem attains_coerced (text context : String) :
    Attains (Generator.coerced ((Value.string text : Value φ).coerce .string context))
      (.string text) :=
  .ofExcept rfl

variable [Combining φ]

theorem attains_unregistered (plain : parameters.ArePlain) {id : String}
    (unregistered : registry.find? id = none) (levels : Nat) :
    Attains ((Generator.parameter id (.string id) .string).evaluate
      (registry.combinedParameters parameters) (levels + 1))
      (.string (standIn parameters id)) := by
  rw [evaluate_reference_of_unregistered plain unregistered]
  exact Attains.pure _

/-- What a tree derives can be drawn from it, if no brackets have too many alternatives. -/
theorem attains_of_derives (plain : parameters.ArePlain)
    (short : ∀ id tree, registry.find? id = some tree →
      tree.pieces.length ≤ Table.halvesBound)
    {levels : Nat} {tree : Generator φ} {text : String}
    (narrow : tree.pieces.length ≤ Table.halvesBound)
    (derives : registry.Derives parameters levels tree text) :
    Attains (tree.evaluate (registry.combinedParameters parameters) levels) (.string text) := by
  induction levels generalizing tree text with
  | zero => cases derives
  | succ levels ih =>
      cases derives with
      | text => exact Attains.pure _
      | @sequence _ parts _ derive =>
          rcases deriveInOrder_iff.mp derive with ⟨texts, each, rfl⟩
          have narrowParts : ∀ part ∈ parts, part.pieces.length ≤ Table.halvesBound :=
            fun part member => Nat.le_trans (Generator.length_pieces_part_le member) narrow
          have attain : List.Forall₂ (fun part value =>
              Attains (part.evaluate (registry.combinedParameters parameters) levels) value)
              parts (texts.map Value.string) := by
            rw [List.forall₂_map_right_iff]
            apply ((List.forall₂_and_left _ _).mpr ⟨narrowParts, each⟩).imp
            rintro part text ⟨narrowPart, derives⟩
            exact ih narrowPart derives
          have texts_eq : (texts.map Value.string).map (Value.text (φ := φ)) = texts := by
            rw [List.map_map]
            exact List.map_id texts
          rw [Generator.evaluate]
          apply (Attains.mapM attain).bind
          rw [texts_eq]
          exact Attains.pure _
      | @alternative _ options option _ member derives =>
          have few := Nat.le_trans (Generator.length_options_le .string options) narrow
          have narrowOption := Nat.le_trans (Generator.length_pieces_option_le .string member)
            narrow
          -- The draw that picks the alternative comes before those of the alternative.
          rcases Table.exists_item_entryAt_eq member with ⟨position, rfl⟩
          rw [Generator.select, Generator.evaluate]
          apply ((Table.attains_pick few position).adapt _).bind
          apply (ih narrowOption derives).bind
          exact attains_coerced text "table entry"
      | @registered _ id _ tree found derives =>
          rw [evaluate_reference_of_registered found]
          exact (ih (short id tree found) derives).bind (attains_coerced text _)
      | @given _ id value unregistered found =>
          have attains := attains_unregistered plain unregistered levels
          rwa [standIn, found] at attains
      | @missing _ id unregistered absent =>
          have attains := attains_unregistered plain unregistered levels
          rwa [standIn, absent] at attains

end Completeness

section Get

variable [Combining φ] {name : String} {tree : Generator φ}

theorem derives_of_run_get [RandomSource σ] {texts : List String}
    (built : registry.FromDocuments texts) (plain : parameters.ArePlain)
    (declared : registry.find? name = some tree) {source after : σ} {text : String}
    (success : (registry.get String name parameters).run source = (.ok text, after)) :
    registry.Derives parameters (maxDepth + 1) tree text := by
  rw [get_of_find?_eq_some declared, Drawing.run_bind_eq_ok_iff] at success
  rcases success with ⟨value, later, run, success⟩
  rcases derives_of_run built plain (built.isTemplate declared) run with ⟨result, rfl, derives⟩
  cases success
  exact derives

theorem attains_get (plain : parameters.ArePlain)
    (short : ∀ id tree, registry.find? id = some tree →
      tree.pieces.length ≤ Table.halvesBound)
    (declared : registry.find? name = some tree) {text : String}
    (derives : registry.Derives parameters (maxDepth + 1) tree text) :
    Attains (registry.get String name parameters) text := by
  rw [get_of_find?_eq_some declared]
  have generated := attains_of_derives plain short (short name tree declared) derives
  apply generated.bind
  exact Attains.ofExcept rfl

end Get

end Registry

/--
Evaluation in a registry of documents is derivation in its grammar. A text that is got under a
name is derived from the tree there. Conversely every text that is derived with no tree deeper
than the limit can be got, for some draws that each are from zero on and below their bound.

The bound on the documents is where doubles stop to tell the last two alternatives of brackets
apart (`Table.select_add_one_lt`). A document that exceeds it has more than four petabytes.
-/
theorem template_semantics (φ : Type) [Combining φ] {texts : List String} {registry : Registry φ}
    (built : registry.FromDocuments texts) {parameters : Parameters φ}
    (plain : parameters.ArePlain) {name : String} {tree : Generator φ}
    (declared : registry.find? name = some tree) :
    (∀ (σ : Type) [RandomSource σ] (source after : σ) (text : String),
      (registry.get String name parameters).run source = (.ok text, after) →
        registry.Derives parameters (maxDepth + 1) tree text) ∧
    ((∀ document ∈ texts, document.length ≤ Table.halvesBound) →
      ∀ text, registry.Derives parameters (maxDepth + 1) tree text →
        ∃ draws, ((registry.get String name parameters).run (Script.mk draws)).1 = .ok text) := by
  constructor
  · intro σ _ source after text success
    exact Registry.derives_of_run_get built plain declared success
  · intro fits text derives
    have short : ∀ id tree, registry.find? id = some tree →
        tree.pieces.length ≤ Table.halvesBound := by
      intro id tree found
      rcases built.exists_length_pieces_le found with ⟨document, member, few⟩
      exact Nat.le_trans few (fits document member)
    rcases Registry.attains_get plain short declared derives with ⟨draws, run⟩
    refine ⟨draws, ?_⟩
    have got := run []
    rw [List.append_nil] at got
    rw [got]

theorem template_semantics_greeting :
    let document := "greeting=[Hello/Bye], <name>!;"
    let declarations : List (Document.Declaration Combiner) :=
      [⟨"greeting", .concatenate [.select .string [.text "Hello", .text "Bye"], .text ", ",
        .parameter "name" (.string "name") .string, .text "!"]⟩]
    let registry : Registry Combiner := Registry.empty.declare declarations
    registry.FromDocuments [document] ∧
      ∃ draws, ((registry.get String "greeting" ∅).run (Script.mk draws)).1
        = .ok "Bye, name!" := by
  intro document declarations registry
  have parsed : Document.parse document = .ok declarations := by cbv
  have built : registry.FromDocuments [document] := by
    apply Registry.FromDocuments.parse
    rw [Registry.parse, parsed]
    rfl
  have plain : (∅ : Parameters Combiner).ArePlain := by
    intro id value given
    rw [Std.ExtTreeMap.getElem?_empty] at given
    cases given
  have declared : registry.find? "greeting" = some (.concatenate
      [.select .string [.text "Hello", .text "Bye"], .text ", ",
        .parameter "name" (.string "name") .string, .text "!"]) := rfl
  have unregistered : registry.find? "name" = none := rfl
  have absent : (∅ : Parameters Combiner)["name"]? = none := Std.ExtTreeMap.getElem?_empty
  have chosen : registry.Derives ∅ 256 (.select .string [.text "Hello", .text "Bye"]) "Bye" :=
    .alternative (by simp) .text
  have texts : "Bye, name!" = String.join ["Bye", ", ", "name", "!"] := by decide
  have derives : registry.Derives ∅ 257 (.concatenate [.select .string [.text "Hello",
      .text "Bye"], .text ", ", .parameter "name" (.string "name") .string, .text "!"])
        "Bye, name!" := by
    apply Registry.Derives.sequence
    rw [Registry.deriveInOrder_iff]
    exact ⟨_, .cons chosen (.cons .text (.cons (.missing unregistered absent)
      (.cons .text .nil))), texts⟩
  refine ⟨built, ?_⟩
  exact (template_semantics Combiner built plain declared).2 (by decide) _ derives

end Wordloom
