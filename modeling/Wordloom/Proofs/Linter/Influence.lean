import Mathlib
import Wordloom.Generator.Combiner
import Wordloom.Linter.Checks
import Wordloom.Proofs.Generator.Agreement
import Wordloom.Proofs.Registry.Documents
import Wordloom.Proofs.Registry.References

/-!
# What callers can influence

This file shows that the linter's warnings about undeclared names say which parameters of a
caller matter. A tree of a registry reads registered names, which hide parameters, and names that
the linter warns about. A reference to a registered name leads to another tree of the registry,
so an evaluation never reads anything else, however long it goes on.

Parameters agree when they hold the very same value. Numbers that compare equal may still have
different texts, as the two zeros do.
-/

namespace Wordloom

variable {σ φ α : Type}

/-- Whether the linter warns about a name as one that is read but not declared. -/
def Linter.WarnsOf (registry : Registry φ) (id : String) : Prop :=
  ∃ name, Finding.undeclaredReference name id ∈ warnings (check registry)

namespace Registry

variable {registry : Registry φ}

theorem contains_or_warnsOf {name id : String} {tree : Generator φ}
    (found : registry.find? name = some tree) (reads : id ∈ tree.references) :
    registry.contains id = true ∨ Linter.WarnsOf registry id := by
  by_cases registered : registry.contains id = true
  · exact .inl registered
  · right
    have undeclared : id ∈ Linter.undeclared registry tree := by
      simp [Linter.undeclared, reads, registered]
    have made : .undeclaredReference name id ∈ Linter.checkDeclaration registry name tree := by
      simp [Linter.checkDeclaration, undeclared]
    refine ⟨name, List.mem_filter.mpr ⟨?_, rfl⟩⟩
    exact Linter.mem_check_iff.mpr ⟨name, tree, found, made⟩

/-- The templates that read nothing but registered names and names that the linter warns about. -/
structure InScope (registry : Registry φ) (tree : Generator φ) : Prop where
  isTemplate : ∃ depth, tree.IsTemplate depth
  reads : ∀ id ∈ tree.references, registry.contains id = true ∨ Linter.WarnsOf registry id

theorem inScope_of_find? {texts : List String} (built : registry.FromDocuments texts)
    {name : String} {tree : Generator φ} (found : registry.find? name = some tree) :
    registry.InScope tree where
  isTemplate := ⟨_, built.isTemplate found⟩
  reads _ reads := contains_or_warnsOf found reads

end Registry

theorem Generator.IsTemplate.of_mem_children {depth : Nat} {tree child : Generator φ}
    (template : tree.IsTemplate depth) (member : child ∈ tree.children) :
    ∃ inner, child.IsTemplate inner := by
  cases template with
  | text plain => simp [Generator.text, children] at member
  | reference named => simp [children] at member
  | @brackets _ options present templates =>
      have inside : child ∈ options := by
        simpa [select, Table.ofItems, children] using member
      exact ⟨_, templates child inside⟩
  | several several templates elements apart => exact ⟨_, templates child member⟩

namespace Registry

variable {registry : Registry φ} {first second : Parameters φ}

/-- Trees of a registry read the same in parameters that agree on what the linter warns about. -/
theorem readAlike_combinedParameters {texts : List String}
    (built : registry.FromDocuments texts)
    (agree : Parameters.AgreeOn (Linter.WarnsOf registry) first second) :
    ReadAlike (registry.combinedParameters first) (registry.combinedParameters second)
      registry.InScope where
  children tree inside child member := by
    rcases inside.isTemplate with ⟨depth, template⟩
    refine ⟨template.of_mem_children member, ?_⟩
    intro id reads
    exact inside.reads id (Generator.references_subset_of_mem_children member reads)
  same id default output inside := by
    rw [getElem?_combinedParameters, getElem?_combinedParameters]
    rcases registered : registry.find? id with _ | tree
    · have warns := inside.reads id (by simp [Generator.references])
      rw [contains_eq_isSome_find?, registered] at warns
      rw [agree.same id (warns.resolve_left (by simp))]
    · rfl
  held id default output origin tree inside _ found := by
    rw [getElem?_combinedParameters] at found
    rcases registered : registry.find? id with _ | declared
    · -- A reference that is not registered holds a text or what the caller gave.
      have warns := inside.reads id (by simp [Generator.references])
      rw [contains_eq_isSome_find?, registered] at warns
      rcases inside.isTemplate with ⟨depth, template⟩
      cases template
      rcases given : first[id]? with _ | value
      · simp [registered, given] at found
      · have plain := agree.plain id value (warns.resolve_left (by simp)) given
        simp only [registered, given, Option.map_none, Option.none_or, Option.getD_some] at found
        simp [found, Value.isGenerator] at plain
    · simp only [registered, Option.map_some, Option.some_or, Option.getD_some,
        Value.generator.injEq] at found
      rw [← found.2]
      exact inScope_of_find? built registered

variable [RandomSource σ] [Combining φ]

theorem generate_eq_of_agreeOn {texts : List String} (built : registry.FromDocuments texts)
    (agree : Parameters.AgreeOn (Linter.WarnsOf registry) first second) {name : String}
    {tree : Generator φ} (found : registry.find? name = some tree) :
    (tree.generate (registry.combinedParameters first) : Drawing σ GeneratorError (Value φ))
      = tree.generate (registry.combinedParameters second) :=
  Generator.evaluate_eq_of_readAlike (readAlike_combinedParameters built agree)
    (inScope_of_find? built found) (maxDepth + 1)

variable [FromValue φ α]

theorem get_eq_of_agreeOn {texts : List String} (built : registry.FromDocuments texts)
    (agree : Parameters.AgreeOn (Linter.WarnsOf registry) first second) (name : String) :
    (registry.get α name first : Drawing σ GeneratorError α) = registry.get α name second := by
  rcases found : registry.find? name with _ | tree
  · rw [get_of_find?_eq_none found, get_of_find?_eq_none found]
  · rw [get_of_find?_eq_some found, get_of_find?_eq_some found,
      generate_eq_of_agreeOn built agree found]

theorem getBatch_eq_of_agreeOn {texts : List String} (built : registry.FromDocuments texts)
    (agree : Parameters.AgreeOn (Linter.WarnsOf registry) first second) (name : String)
    (count : Nat) :
    (registry.getBatch α name first count : Drawing σ GeneratorError (List α))
      = registry.getBatch α name second count := by
  rcases found : registry.find? name with _ | tree
  · rw [getBatch_of_find?_eq_none found, getBatch_of_find?_eq_none found]
  · have same := generate_eq_of_agreeOn (σ := σ) built agree found
    rw [getBatch_of_find?_eq_some found, getBatch_of_find?_eq_some found]
    simp only [Generator.generateBatch, Generator.generateItem, same]

end Registry

/-- Whether it makes no difference which of two maps of parameters is given to a registry. -/
def Registry.SameResults [Combining φ] (registry : Registry φ) (first second : Parameters φ) :
    Prop :=
  ∀ (σ : Type) [RandomSource σ] (α : Type) [FromValue φ α] (name : String) (source : σ),
    (registry.get α name first).run source = (registry.get α name second).run source ∧
      ∀ count, (registry.getBatch α name first count).run source
        = (registry.getBatch α name second count).run source

/--
The linter's warnings about undeclared names bound what callers can influence. Parameters that
agree on these names and hold no generators there make no difference to what is got under any
name, nor to what is drawn for it. Without such warnings no parameters make a difference.
-/
theorem warnings_bound_influence (φ : Type) [Combining φ] {texts : List String}
    {registry : Registry φ} (built : registry.FromDocuments texts) :
    (∀ first second, Parameters.AgreeOn (Linter.WarnsOf registry) first second →
      registry.SameResults first second) ∧
    ((∀ id, ¬Linter.WarnsOf registry id) →
      ∀ first second, registry.SameResults first second) := by
  have bounded : ∀ first second, Parameters.AgreeOn (Linter.WarnsOf registry) first second →
      registry.SameResults first second := by
    intro first second agree σ _ α _ name source
    constructor
    · rw [Registry.get_eq_of_agreeOn built agree]
    · intro count
      rw [Registry.getBatch_eq_of_agreeOn built agree]
  refine ⟨bounded, ?_⟩
  intro silent first second
  apply bounded
  constructor
  · intro id warns
    exact absurd warns (silent id)
  · intro id value warns
    exact absurd warns (silent id)

theorem warnings_bound_influence_title :
    let document := "greeting=<title> <name>;title=Sir;"
    let declarations : List (Document.Declaration Combiner) :=
      [⟨"greeting", .concatenate [.parameter "title" (.string "title") .string, .text " ",
        .parameter "name" (.string "name") .string]⟩, ⟨"title", .text "Sir"⟩]
    let registry : Registry Combiner := Registry.empty.declare declarations
    let given (title : String) : Parameters Combiner :=
      ((∅ : Parameters Combiner).insert "title" (.string title)).insert "name" (.string "Ann")
    registry.FromDocuments [document] ∧ registry.SameResults (given "Dr") (given "Prof") := by
  intro document declarations registry given
  have parsed : Document.parse document = .ok declarations := by cbv
  have built : registry.FromDocuments [document] := by
    apply Registry.FromDocuments.parse
    rw [Registry.parse, parsed]
    rfl
  have found : Linter.check registry = [.undeclaredReference "greeting" "name"] := by
    cbv
  have warned : ∀ id, Linter.WarnsOf registry id → id = "name" := by
    intro id warns
    rcases warns with ⟨name, listed⟩
    rw [found] at listed
    have same : name = "greeting" ∧ id = "name" := by
      simpa [Linter.warnings, Linter.Finding.isError] using listed
    exact same.2
  have agree : Parameters.AgreeOn (Linter.WarnsOf registry) (given "Dr") (given "Prof") := by
    constructor
    · intro id warns
      simp [given, warned id warns]
    · intro id value warns present
      have same : Value.string "Ann" = value := by
        simpa [given, warned id warns] using present
      subst same
      rfl
  exact ⟨built, (warnings_bound_influence Combiner built).1 _ _ agree⟩

end Wordloom
