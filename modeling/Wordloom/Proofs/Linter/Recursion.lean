import Wordloom.Generator.Combiner
import Wordloom.Linter.Checks
import Wordloom.Proofs.Registry.Limits

/-!
# Reported declarations never yield anything

This file shows that the linter reports no false errors about recursion. A tree that it reports
reads its own name whatever alternatives are picked, and evaluating it comes back to itself as
long as there are levels left.

The parts before the one that reads the name are evaluated first, and they may fail in their own
way, for example inside of a parameter that is a generator. So all that holds in general is that
nothing is yielded. How it ends is known where there is only one way to fail.
-/

namespace Wordloom

variable {σ φ : Type}

namespace Generator

theorem somePartReads_eq_any (name : String) (parts : List (Generator φ)) :
    somePartReads name parts = parts.any (alwaysReads name) := by
  induction parts with
  | nil => rfl
  | cons part rest ih => simp [somePartReads, ih]

theorem everyEntryReads_eq_all (name : String) (entries : List (Entry Float (Generator φ))) :
    everyEntryReads name entries = entries.all fun entry => entry.item.alwaysReads name := by
  induction entries with
  | nil => rfl
  | cons entry rest ih => simp [everyEntryReads, ih]

theorem alwaysReads_of_mem_options {name : String} {output : ValueType} {options : List (Generator φ)}
    (reads : (select output options).alwaysReads name = true) :
    ∀ option ∈ options, option.alwaysReads name = true := by
  intro option member
  simp only [select, Table.ofItems, alwaysReads, everyEntryReads_eq_all, Bool.and_eq_true,
    List.all_map, List.all_eq_true] at reads
  exact reads.2 option member

end Generator

namespace Registry

variable {registry : Registry φ}

theorem exists_alwaysReads_of_mem_errors {name : String}
    (reported : .alwaysRecurses name ∈ Linter.errors (Linter.check registry)) :
    ∃ tree, registry.find? name = some tree ∧ tree.alwaysReads name = true := by
  rcases Linter.mem_check_iff.mp (List.mem_filter.mp reported).1 with ⟨declared, tree, found, made⟩
  have recursive : tree.alwaysReads declared = true ∧ name = declared := by
    simpa [Linter.checkDeclaration] using made
  rcases recursive with ⟨recursive, rfl⟩
  exact ⟨tree, found, recursive⟩

variable [RandomSource σ] [Combining φ]

/-- Part of a tree that always comes back to its name yields nothing if it does so itself. -/
theorem run_ne_ok_of_alwaysReads {texts : List String} (built : registry.FromDocuments texts)
    {name : String} {tree : Generator φ} (found : registry.find? name = some tree)
    (recursive : tree.alwaysReads name = true) (parameters : Parameters φ)
    {levels depth : Nat} {part : Generator φ} (template : part.IsTemplate depth)
    (reads : part.alwaysReads name = true) (source after : σ) (value : Value φ) :
    (part.evaluate (registry.combinedParameters parameters) levels).run source
      ≠ (.ok value, after) := by
  intro success
  -- The tree that the name leads back to is no part of this one, but it has fewer levels left.
  induction levels generalizing part depth source after value with
  | zero => cases success
  | succ levels ih =>
      cases template with
      | text plain => simp [Generator.text, Generator.alwaysReads] at reads
      | @reference _ id named =>
          simp only [Generator.alwaysReads, beq_iff_eq] at reads
          subst reads
          rw [evaluate_reference_of_registered found, Drawing.run_bind_eq_ok_iff] at success
          rcases success with ⟨value, between, run, -⟩
          exact ih (built.isTemplate found) recursive _ _ _ run
      | @brackets _ options present templates =>
          rw [Generator.select, Generator.evaluate, Drawing.run_bind_eq_ok_iff] at success
          rcases success with ⟨position, picked, -, success⟩
          rw [Drawing.run_bind_eq_ok_iff] at success
          rcases success with ⟨value, between, run, -⟩
          have member := Table.item_entryAt_mem options position
          have optionReads := Generator.alwaysReads_of_mem_options reads _ member
          exact ih (templates _ member) optionReads _ _ _ run
      | @several _ parts several templates elements apart =>
          rw [Generator.alwaysReads, Generator.somePartReads_eq_any, List.any_eq_true] at reads
          rcases reads with ⟨part, member, reads⟩
          rw [Generator.evaluate, Drawing.run_bind_eq_ok_iff] at success
          rcases success with ⟨values, between, run, -⟩
          rcases Drawing.exists_of_run_mapM_eq_ok run member with ⟨before, value, behind, run⟩
          exact ih (templates part member) reads _ _ _ run

end Registry

/--
The linter reports no false errors about recursion. Getting a name that it reports never yields
anything, and with parameters that are no generators it always ends where the levels run out.
-/
theorem no_false_recursion_errors (φ : Type) [Combining φ] {texts : List String}
    {registry : Registry φ} (built : registry.FromDocuments texts) {name : String}
    (reported : .alwaysRecurses name ∈ Linter.errors (Linter.check registry)) :
    ∀ (σ : Type) [RandomSource σ] (α : Type) [FromValue φ α] (parameters : Parameters φ)
      (source : σ),
      (∀ result, ((registry.get α name parameters).run source).1 ≠ .ok result) ∧
        (parameters.ArePlain →
          ((registry.get α name parameters).run source).1 = .error (.recursionLimit maxDepth)) := by
  intro σ _ α _ parameters source
  rcases Registry.exists_alwaysReads_of_mem_errors reported with ⟨tree, found, recursive⟩
  have template := built.isTemplate found
  rw [Registry.get_of_find?_eq_some found, Drawing.run_bind, Generator.generate]
  rcases run : (tree.evaluate (registry.combinedParameters parameters) (maxDepth + 1)).run source
    with ⟨cause | value, after⟩
  · refine ⟨by simp, ?_⟩
    intro plain
    rw [Registry.eq_recursionLimit_of_run built plain template run]
  · exact absurd run (Registry.run_ne_ok_of_alwaysReads built found recursive parameters template
      recursive source after value)

theorem no_false_recursion_errors_echo :
    let document := "echo=[<echo>!/<call> and <echo>];"
    let declarations : List (Document.Declaration Combiner) :=
      [⟨"echo", .select .string [
        .concatenate [.parameter "echo" (.string "echo") .string, .text "!"],
        .concatenate [.parameter "call" (.string "call") .string, .text " and ",
          .parameter "echo" (.string "echo") .string]]⟩]
    let registry : Registry Combiner := Registry.empty.declare declarations
    registry.FromDocuments [document] ∧
      Linter.check registry = [.undeclaredReference "echo" "call", .alwaysRecurses "echo"] ∧
      ((registry.get String "echo" ∅).run (Stream.ofSeed 7)).1
        = .error (.recursionLimit maxDepth) := by
  intro document declarations registry
  have parsed : Document.parse document = .ok declarations := by cbv
  have built : registry.FromDocuments [document] := by
    apply Registry.FromDocuments.parse
    rw [Registry.parse, parsed]
    rfl
  have found : Linter.check registry
      = [.undeclaredReference "echo" "call", .alwaysRecurses "echo"] := by
    cbv
  have reported : .alwaysRecurses "echo" ∈ Linter.errors (Linter.check registry) := by
    simp [found, Linter.errors, Linter.Finding.isError]
  have plain : (∅ : Parameters Combiner).ArePlain := by
    intro id value given
    simp at given
  have fails := no_false_recursion_errors Combiner built reported Stream String ∅ (Stream.ofSeed 7)
  exact ⟨built, found, fails.2 plain⟩

end Wordloom
