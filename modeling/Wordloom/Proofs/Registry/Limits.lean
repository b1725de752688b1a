import Wordloom.Generator.Combiner
import Wordloom.Proofs.Generator.Agreement
import Wordloom.Proofs.Registry.Grammar

/-!
# How an evaluation can fail

This file shows that evaluating the trees of a registry of documents fails in one way only, which
is to run out of levels. Brackets always have an alternative to pick, and what they and
references go on to is a text, so it needs no adapting that could go wrong.

How many levels it takes is read off the trees. An evaluation goes down one of them to a reference
and on with the tree of that name, so it never gets deeper than the trees along a chain of
references are high, with one more level for each reference.

This is so for parameters that are no generators. One that is may hold a tree that no document
declares.
-/

namespace Wordloom

variable {σ φ : Type}

namespace Registry

/--
The registered names that references lead along, each of them read by the tree of the one before,
and the levels below the first that it takes to go along them: the heights of their trees and one
for each reference.
-/
inductive Chain (registry : Registry φ) : (names : List String) → (levels : Nat) → Prop where
  | single {name : String} {tree : Generator φ} (found : registry.find? name = some tree) :
      Chain registry [name] tree.height
  | follow {name next : String} {names : List String} {levels : Nat} {tree : Generator φ}
      (found : registry.find? name = some tree) (reads : next ∈ tree.references)
      (chain : Chain registry (next :: names) levels) :
      Chain registry (name :: next :: names) (tree.height + 1 + levels)

/-- The names from which no chain comes back to a name or needs more levels than there are. -/
structure Shallow (registry : Registry φ) (name : String) : Prop where
  acyclic : ∀ names levels, registry.Chain (name :: names) levels → (name :: names).Nodup
  low : ∀ names levels, registry.Chain (name :: names) levels → (name :: names).Nodup →
    levels ≤ maxDepth

/-- The trees for which a number of levels is enough, along every chain that they lead to. -/
structure Fits (registry : Registry φ) (levels : Nat) (tree : Generator φ) : Prop where
  height_lt : tree.height < levels
  chain_lt : ∀ id ∈ tree.references, ∀ names below, registry.Chain (id :: names) below →
    tree.height + 1 + below < levels

variable {registry : Registry φ}

theorem Shallow.fits {name : String} {tree : Generator φ} (shallow : registry.Shallow name)
    (found : registry.find? name = some tree) : registry.Fits (maxDepth + 1) tree where
  height_lt := by
    have chain := Chain.single found
    have := shallow.low [] tree.height chain (shallow.acyclic [] _ chain)
    omega
  chain_lt id reads names below chain := by
    have longer := chain.follow found reads
    have := shallow.low _ _ longer (shallow.acyclic _ _ longer)
    omega

namespace Fits

variable {levels : Nat} {tree : Generator φ}

theorem of_mem_children (fits : registry.Fits (levels + 1) tree) {child : Generator φ}
    (member : child ∈ tree.children) : registry.Fits levels child where
  height_lt := by
    have := Generator.height_lt_of_mem_children member
    have := fits.height_lt
    omega
  chain_lt id reads names below chain := by
    have := Generator.height_lt_of_mem_children member
    have := fits.chain_lt id (Generator.references_subset_of_mem_children member reads) _ _ chain
    omega

theorem of_find? {id : String} {default : Value φ} {output : ValueType}
    (fits : registry.Fits (levels + 1) (.parameter id default output))
    (found : registry.find? id = some tree) : registry.Fits levels tree := by
  have reads : id ∈ (Generator.parameter id default output).references := by
    simp [Generator.references]
  constructor
  · have := fits.chain_lt id reads [] _ (.single found)
    omega
  · intro next readsNext names below chain
    have := fits.chain_lt id reads _ _ (chain.follow found readsNext)
    omega

end Fits

variable [RandomSource σ] [Combining φ] {parameters : Parameters φ}

/-- An evaluation fails only where the levels run out, and not if they were enough. -/
theorem eq_recursionLimit_and_not_fits_of_run {texts : List String}
    (built : registry.FromDocuments texts) (plain : parameters.ArePlain) {levels depth : Nat}
    {tree : Generator φ} (template : tree.IsTemplate depth) {source after : σ}
    {cause : GeneratorError}
    (failure : (tree.evaluate (registry.combinedParameters parameters) levels).run source
      = (.error cause, after)) :
    cause = .recursionLimit maxDepth ∧ ¬registry.Fits levels tree := by
  induction levels generalizing tree depth source after with
  | zero =>
      cases failure
      exact ⟨rfl, fun fits => absurd fits.height_lt (Nat.not_lt_zero _)⟩
  | succ levels ih =>
      cases template with
      | text isPlain => cases failure
      | @reference _ id named =>
          rcases registered : registry.find? id with _ | tree
          · rw [evaluate_reference_of_unregistered plain registered] at failure
            cases failure
          · rw [evaluate_reference_of_registered registered, Drawing.run_bind_eq_error_iff]
              at failure
            have template := built.isTemplate registered
            rcases failure with failed | ⟨value, between, run, ended⟩
            · rcases ih template failed with ⟨limit, few⟩
              exact ⟨limit, fun fits => few (fits.of_find? registered)⟩
            · rcases derives_of_run built plain template run with ⟨text, rfl, -⟩
              cases ended
      | @brackets _ options present templates =>
          rw [Generator.select, Generator.evaluate, Drawing.run_bind_eq_error_iff] at failure
          rcases failure with failed | ⟨position, picked, -, failure⟩
          · rw [Table.pick_ofItems present] at failed
            cases failed
          · rw [Drawing.run_bind_eq_error_iff] at failure
            have template := templates _ (Table.item_entryAt_mem options position)
            rcases failure with failed | ⟨value, between, run, ended⟩
            · rcases ih template failed with ⟨limit, few⟩
              refine ⟨limit, fun fits => few (fits.of_mem_children ?_)⟩
              exact Generator.item_entryAt_mem_children .string _ position
            · rcases derives_of_run built plain template run with ⟨text, rfl, -⟩
              cases ended
      | @several _ parts several templates elements apart =>
          rw [Generator.evaluate, Drawing.run_bind_eq_error_iff] at failure
          rcases failure with failed | ⟨values, between, run, ended⟩
          · rcases Drawing.exists_of_run_mapM_eq_error failed with ⟨part, member, before, run⟩
            rcases ih (templates part member) run with ⟨limit, few⟩
            exact ⟨limit, fun fits => few (fits.of_mem_children member)⟩
          · cases ended

theorem eq_recursionLimit_of_run {texts : List String} (built : registry.FromDocuments texts)
    (plain : parameters.ArePlain) {levels depth : Nat} {tree : Generator φ}
    (template : tree.IsTemplate depth) {source after : σ} {cause : GeneratorError}
    (failure : (tree.evaluate (registry.combinedParameters parameters) levels).run source
      = (.error cause, after)) :
    cause = .recursionLimit maxDepth :=
  (eq_recursionLimit_and_not_fits_of_run built plain template failure).1

/-- What becomes of an evaluation: a text, or the levels ran out as they were not enough. -/
theorem run_evaluate {texts : List String} (built : registry.FromDocuments texts)
    (plain : parameters.ArePlain) {depth : Nat} {tree : Generator φ}
    (template : tree.IsTemplate depth) (levels : Nat) (source : σ) :
    (∃ text after, (tree.evaluate (registry.combinedParameters parameters) levels).run source
      = (.ok (.string text), after)) ∨
    ¬registry.Fits levels tree ∧
      ∃ after, (tree.evaluate (registry.combinedParameters parameters) levels).run source
        = (.error (.recursionLimit maxDepth), after) := by
  rcases run : (tree.evaluate (registry.combinedParameters parameters) levels).run source
    with ⟨cause | value, after⟩
  · rcases eq_recursionLimit_and_not_fits_of_run built plain template run with ⟨rfl, few⟩
    exact .inr ⟨few, after, rfl⟩
  · rcases derives_of_run built plain template run with ⟨text, rfl, -⟩
    exact .inl ⟨text, after, rfl⟩

theorem run_get {texts : List String} (built : registry.FromDocuments texts)
    (plain : parameters.ArePlain) {name : String} {tree : Generator φ}
    (found : registry.find? name = some tree) (source : σ) :
    (∃ text after, (registry.get String name parameters).run source = (.ok text, after)) ∨
    ¬registry.Fits (maxDepth + 1) tree ∧
      ∃ after, (registry.get String name parameters).run source
        = (.error (.recursionLimit maxDepth), after) := by
  rw [get_of_find?_eq_some found, Drawing.run_bind, Generator.generate]
  rcases run_evaluate built plain (built.isTemplate found) (maxDepth + 1) source with
    ⟨text, after, run⟩ | ⟨few, after, run⟩
  · rw [run]
    exact .inl ⟨text, after, rfl⟩
  · rw [run]
    exact .inr ⟨few, after, rfl⟩

end Registry

/--
A registry of documents fails in two ways only. A name that is not registered is unknown, and then
nothing is drawn. Getting any other name yields a text or runs out of levels, and if no chain of
references from it comes back to a name or needs more levels than there are, it yields a text.
-/
theorem registry_fails_in_two_ways (φ : Type) [Combining φ] {texts : List String}
    {registry : Registry φ} (built : registry.FromDocuments texts) {parameters : Parameters φ}
    (plain : parameters.ArePlain) (name : String) :
    ∀ (σ : Type) [RandomSource σ] (source : σ),
      let outcome := (registry.get String name parameters).run source
      (registry.contains name = false ↔ outcome = (.error (.unknownGenerator name), source)) ∧
      (registry.contains name = true →
        (∃ text after, outcome = (.ok text, after)) ∨
          ∃ after, outcome = (.error (.recursionLimit maxDepth), after)) ∧
      (registry.contains name = true → registry.Shallow name →
        ∃ text after, outcome = (.ok text, after)) := by
  intro σ _ source outcome
  rw [Registry.contains_eq_isSome_find?]
  rcases found : registry.find? name with _ | tree
  · have unknown : outcome = (.error (.unknownGenerator name), source) := by
      simp only [outcome, Registry.get_of_find?_eq_none found]
      rfl
    simp [unknown]
  · have ends := Registry.run_get built plain found source
    refine ⟨?_, ?_, ?_⟩
    · constructor
      · intro absent
        cases absent
      · intro unknown
        rcases ends with ⟨text, after, run⟩ | ⟨-, after, run⟩
        · cases run.symm.trans unknown
        · cases run.symm.trans unknown
    · intro _
      exact ends.imp_right fun limit => limit.2
    · intro _ shallow
      exact ends.resolve_right fun limit => limit.1 (shallow.fits found)

theorem registry_fails_in_two_ways_greeting :
    let document := "greeting=[Hello/Bye], <name>!;name=[Ann/Bob];"
    let name : Generator Combiner := .select .string [.text "Ann", .text "Bob"]
    let greeting : Generator Combiner :=
      .concatenate [.select .string [.text "Hello", .text "Bye"], .text ", ",
        .parameter "name" (.string "name") .string, .text "!"]
    let registry : Registry Combiner :=
      Registry.empty.declare [⟨"greeting", greeting⟩, ⟨"name", name⟩]
    registry.FromDocuments [document] ∧ registry.Shallow "greeting" ∧
      ∃ text after, (registry.get String "greeting" ∅).run (Stream.ofSeed 7)
        = (.ok text, after) := by
  intro document name greeting registry
  have parsed : Document.parse document
      = .ok [⟨"greeting", greeting⟩, ⟨"name", name⟩] := by cbv
  have built : registry.FromDocuments [document] := .declare parsed
  have foundGreeting : registry.find? "greeting" = some greeting := by
    simp [registry, Registry.declare, Registry.find?_set]
  have foundName : registry.find? "name" = some name := by
    simp [registry, Registry.declare, Registry.find?_set]
  have greetingReads : greeting.references = ["name"] := rfl
  have nameReads : name.references = [] := rfl
  have greetingHeight : greeting.height = 2 := rfl
  have nameHeight : name.height = 1 := rfl
  -- The only chains are the name itself, and the name followed by the one that it refers to.
  have chains : ∀ names levels, registry.Chain ("greeting" :: names) levels →
      (names = [] ∨ names = ["name"]) ∧ levels ≤ 4 := by
    intro names levels chain
    cases chain with
    | single found =>
        rw [foundGreeting, Option.some.injEq] at found
        subst found
        exact ⟨.inl rfl, by omega⟩
    | follow found reads chain =>
        rw [foundGreeting, Option.some.injEq] at found
        subst found
        rw [greetingReads, List.mem_singleton] at reads
        subst reads
        cases chain with
        | single found =>
            rw [foundName, Option.some.injEq] at found
            subst found
            exact ⟨.inr rfl, by omega⟩
        | follow found reads chain =>
            rw [foundName, Option.some.injEq] at found
            subst found
            rw [nameReads] at reads
            cases reads
  have shallow : registry.Shallow "greeting" := by
    constructor
    · intro names levels chain
      rcases (chains names levels chain).1 with rfl | rfl
      · simp
      · simp
    · intro names levels chain _
      exact Nat.le_trans (chains names levels chain).2 (by decide)
  have present : registry.contains "greeting" = true := by
    rw [Registry.contains_eq_isSome_find?, foundGreeting]
    rfl
  have outcome := registry_fails_in_two_ways Combiner built .empty "greeting" Stream
    (Stream.ofSeed 7)
  exact ⟨built, shallow, outcome.2.2 present shallow⟩

end Wordloom
