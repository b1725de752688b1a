import Wordloom.Generator.Combiner
import Wordloom.Proofs.Document.Abridging
import Wordloom.Proofs.Generator.Depth
import Wordloom.Proofs.Generator.Typing
import Wordloom.Proofs.Table.Flat

/-!
# Sequences in full are evaluated alike

This file shows that it cannot be observed that a lone element is read without a concatenation
around it. What elements yield are strings already, and a concatenation of one string is that
string.

Both trees draw in the same places. The tree with its sequences in full is higher, so it has fewer
levels left for the same elements, which makes no difference as long as they do not run out.
-/

namespace Wordloom

variable {σ φ : Type}

/-- A value that is declared to be a string is its own text. -/
theorem bind_text_of_yields {ε : Type} {computation : Drawing σ ε (Value φ)}
    (yields : Yields computation .string) :
    (do let value ← computation; pure (.string value.text) : Drawing σ ε (Value φ))
      = computation := by
  apply ExceptT.ext
  funext source
  rw [Drawing.run_bind]
  rcases run : computation.run source with ⟨cause | value, after⟩
  · rfl
  · have typed := (yields source value after run).resolve_left (by decide)
    cases value with
    | string text => rfl
    | number _ => cases typed
    | boolean _ => cases typed
    | generator _ _ => cases typed

theorem evaluate_concatenate_singleton [RandomSource σ] [Combining φ]
    (parameters : Parameters φ) (levels : Nat) (part : Generator φ) :
    (Generator.concatenate [part]).evaluate parameters (levels + 1)
      = (do
        let value ← part.evaluate parameters levels
        pure (.string value.text) : Drawing σ GeneratorError (Value φ)) := by
  rw [Generator.evaluate]
  simp [String.join]

namespace Registry

variable [RandomSource σ] [Combining φ] {short full : Registry φ} {parameters : Parameters φ}

/-- With its sequences in full, a tree is evaluated as it is read, unless it runs out of levels. -/
theorem Abridges.cutsOff_evaluate (abridges : short.Abridges full) (plain : parameters.ArePlain)
    {tree fullTree : Generator φ} (treeAbridges : tree.Abridges fullTree) (levels : Nat) :
    CutsOff (σ := σ) (fullTree.evaluate (full.combinedParameters parameters) levels)
      (tree.evaluate (short.combinedParameters parameters) levels) := by
  induction levels generalizing tree fullTree with
  | zero => exact CutsOff.throw _ _
  | succ levels ih =>
      cases treeAbridges with
      | text text => exact CutsOff.refl _
      | reference id =>
          rcases registered : short.find? id with _ | declared
          · rw [evaluate_reference_of_unregistered plain registered,
              evaluate_reference_of_unregistered plain (abridges.find?_eq_none registered)]
            exact CutsOff.refl _
          · rcases abridges.exists_find?_eq_some registered with ⟨fullDeclared, found, related⟩
            rw [evaluate_reference_of_registered registered,
              evaluate_reference_of_registered found]
            apply (ih related).bind
            intro value
            exact CutsOff.refl _
      | @brackets options fullOptions present each =>
          intro source
          rcases Table.exists_run_pick_ofItems (Generator φ) (List.length_pos_iff.mpr present)
            source with ⟨index, after, picks⟩
          rcases picks options rfl with ⟨position, rfl, picked⟩
          rcases picks fullOptions each.length_eq.symm with ⟨fullPosition, same, fullPicked⟩
          rw [Generator.select, Generator.select, Generator.evaluate, Generator.evaluate,
            Drawing.run_bind, Drawing.run_bind, Drawing.run_adapt, Drawing.run_adapt, picked,
            fullPicked]
          have related : ((Table.ofItems options).entryAt position).item.Abridges
              ((Table.ofItems fullOptions).entryAt fullPosition).item := by
            rw [Table.item_entryAt_ofItems, Table.item_entryAt_ofItems]
            simp only [List.get_eq_getElem, Fin.val_cast, same]
            exact each.get _ _
          apply (ih related).bind
          intro value
          exact CutsOff.refl _
      | sequence each =>
          cases each with
          | nil => exact CutsOff.refl _
          | @cons element fullElement _ _ first rest =>
              cases rest with
              | nil =>
                  -- The element has one level more than in the concatenation and yields a string.
                  have yields := element.evaluate_yields (σ := σ)
                    (short.combinedParameters parameters) levels
                  rw [first.output_eq] at yields
                  have lone : CutsOff (σ := σ)
                      ((Generator.concatenate [fullElement]).evaluate
                        (full.combinedParameters parameters) (levels + 1))
                      (element.evaluate (short.combinedParameters parameters) levels) := by
                    rw [evaluate_concatenate_singleton, ← bind_text_of_yields yields]
                    apply (ih first).bind
                    intro value
                    exact CutsOff.refl _
                  exact lone.trans (Generator.cutsOff_evaluate _ (Nat.le_succ levels) element)
              | cons second rest =>
                  have elements := List.Forall₂.cons first (.cons second rest)
                  change CutsOff _ ((Generator.concatenate _).evaluate _ _)
                  rw [Generator.evaluate, Generator.evaluate]
                  apply (CutsOff.mapM (elements.flip.imp fun _ _ related => ih related)).bind
                  intro values
                  exact CutsOff.refl _

theorem Abridges.cutsOff_get (abridges : short.Abridges full) (plain : parameters.ArePlain)
    (α : Type) [FromValue φ α] (name : String) :
    CutsOff (σ := σ) (full.get α name parameters) (short.get α name parameters) := by
  rcases registered : short.find? name with _ | tree
  · rw [get_of_find?_eq_none registered, get_of_find?_eq_none (abridges.find?_eq_none registered)]
    exact CutsOff.refl _
  · rcases abridges.exists_find?_eq_some registered with ⟨fullTree, found, related⟩
    rw [get_of_find?_eq_some registered, get_of_find?_eq_some found]
    apply (abridges.cutsOff_evaluate plain related (maxDepth + 1)).bind
    intro value
    exact CutsOff.refl _

end Registry

/--
It cannot be observed that a sequence of one element is read as that element and an empty one as
an empty text. Where a document is accepted, the same names are declared with all sequences in
full. What is got under a name from these trees without running out of levels is got from those
that are read, and the source is left in the same state.
-/
theorem sequences_in_full_are_unobservable (φ : Type) [Combining φ] {text : String}
    {registry : Registry φ} (accepted : Registry.parse text = .ok registry) :
    ∃ full : Registry φ, Registry.parseInFull text = .ok full ∧
      (∀ name, full.contains name = registry.contains name) ∧
      ∀ (σ : Type) [RandomSource σ] (α : Type) [FromValue φ α] (name : String)
        (parameters : Parameters φ) (source : σ), parameters.ArePlain →
          ¬OutOfLevels ((full.get α name parameters).run source).1 →
            (registry.get α name parameters).run source
              = (full.get α name parameters).run source := by
  rcases Registry.exists_parseInFull_eq_ok accepted with ⟨full, parsed, abridges⟩
  refine ⟨full, parsed, abridges.contains_eq, ?_⟩
  intro σ _ α _ name parameters source plain within
  exact abridges.cutsOff_get plain α name source within

set_option maxRecDepth 1000 in
/-- The first alternative and the name are read without concatenations around them. -/
theorem sequences_in_full_are_unobservable_greeting :
    let document := "greeting=[<name>/Hello, <name>!];name=Ann;"
    let name : Generator Combiner := .parameter "name" (.string "name") .string
    let greeting : Generator Combiner := .concatenate [.text "Hello, ", name, .text "!"]
    let registry : Registry Combiner := Registry.empty.declare
      [⟨"greeting", .select .string [name, greeting]⟩, ⟨"name", .text "Ann"⟩]
    let full : Registry Combiner := Registry.empty.declare
      [⟨"greeting", .concatenate [.select .string [.concatenate [name], greeting]]⟩,
        ⟨"name", .concatenate [.text "Ann"]⟩]
    let script : Script := ⟨[0.5]⟩
    Registry.parse document = .ok registry ∧ Registry.parseInFull document = .ok full ∧
      (full.get String "greeting" ∅).run script = (.ok "Ann", ⟨[]⟩) ∧
      (registry.get String "greeting" ∅).run script = (.ok "Ann", ⟨[]⟩) := by
  intro document name greeting registry full script
  have parsed : Document.parse document
      = .ok [⟨"greeting", .select .string [name, greeting]⟩, ⟨"name", .text "Ann"⟩] := by cbv
  have parsedInFull : Document.parseInFull document
      = .ok [⟨"greeting", .concatenate [.select .string [.concatenate [name], greeting]]⟩,
        ⟨"name", .concatenate [.text "Ann"]⟩] := by cbv
  have accepted : Registry.parse document = .ok registry := by
    rw [Registry.parse, parsed]
    rfl
  have acceptedInFull : Registry.parseInFull document = .ok full := by
    rw [Registry.parseInFull, parsedInFull]
    rfl
  have run : (full.get String "greeting" ∅).run script = (.ok "Ann", ⟨[]⟩) := by
    subst name greeting registry full script
    rfl
  rcases sequences_in_full_are_unobservable Combiner accepted with ⟨found, foundParsed, -, same⟩
  rw [acceptedInFull, Except.ok.injEq] at foundParsed
  subst foundParsed
  have within : ¬OutOfLevels ((full.get String "greeting" ∅).run script).1 := by
    rw [run]
    exact not_outOfLevels_ok _
  refine ⟨accepted, acceptedInFull, run, ?_⟩
  exact (same Script String "greeting" ∅ script .empty within).trans run

end Wordloom
