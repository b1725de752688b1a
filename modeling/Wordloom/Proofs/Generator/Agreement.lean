import Wordloom.Generator.Evaluation

/-!
# Evaluations that read the same parameters

This file shows that a tree is evaluated alike with two maps of parameters when everything it can
come to reads alike in both.

An evaluation leaves the tree it starts from wherever a parameter holds a generator, so it is not
enough to look at that tree. What it can come to is described by a scope, a set of trees that
neither a step down nor a step into a parameter leads out of. The induction is on the levels of
the evaluation, as references may lead around in a circle inside of a scope.
-/

namespace Wordloom

variable {σ φ : Type}

namespace Generator

theorem referencesOfParts_eq_flatMap (parts : List (Generator φ)) :
    referencesOfParts parts = parts.flatMap references := by
  induction parts with
  | nil => rfl
  | cons part rest ih => simp [referencesOfParts, ih]

theorem referencesOfEntries_eq_flatMap (entries : List (Entry Float (Generator φ))) :
    referencesOfEntries entries = entries.flatMap fun entry => entry.item.references := by
  induction entries with
  | nil => rfl
  | cons entry rest ih => simp [referencesOfEntries, ih]

/-- A tree reads whatever a tree reads that it goes on to. -/
theorem references_subset_of_mem_children {tree child : Generator φ}
    (member : child ∈ tree.children) : child.references ⊆ tree.references := by
  intro id reads
  cases tree with
  | constant value => simp [children] at member
  | parameter id default output => simp [children] at member
  | concatenate parts =>
      rw [references, referencesOfParts_eq_flatMap]
      exact List.mem_flatMap.mpr ⟨child, member, reads⟩
  | combine left leftType right rightType output function =>
      simp only [children, List.mem_cons, List.not_mem_nil, or_false] at member
      rcases member with rfl | rfl
      · simp [references, reads]
      · simp [references, reads]
  | table output choices =>
      rcases List.mem_map.mp member with ⟨entry, inside, rfl⟩
      rw [references, referencesOfEntries_eq_flatMap]
      exact List.mem_flatMap.mpr ⟨entry, inside, reads⟩

theorem references_eq_nil_of_mem_children {tree child : Generator φ}
    (closed : tree.references = []) (member : child ∈ tree.children) : child.references = [] := by
  have fewer := references_subset_of_mem_children member
  rw [closed] at fewer
  exact List.subset_nil.mp fewer

theorem item_entryAt_mem_children (output : ValueType)
    (choices : Table Float (Generator φ)) (position : Fin choices.size) :
    (choices.entryAt position).item ∈ (table output choices).children := by
  apply List.mem_map_of_mem
  exact List.get_mem choices.entries position

end Generator

/-- Whether two maps of parameters hold the same under some names, and no generators there. -/
structure Parameters.AgreeOn (names : String → Prop) (first second : Parameters φ) : Prop where
  same : ∀ id, names id → first[id]? = second[id]?
  plain : ∀ id value, names id → first[id]? = some value → value.isGenerator = false

/-- A set of trees that two maps of parameters do not lead out of and that read alike in them. -/
structure ReadAlike (first second : Parameters φ) (scope : Generator φ → Prop) : Prop where
  children : ∀ tree, scope tree → ∀ child ∈ tree.children, scope child
  same : ∀ id default output, scope (.parameter id default output) →
    first[id]?.getD default = second[id]?.getD default
  held : ∀ id default output origin tree, scope (.parameter id default output) →
    output ≠ .generator → first[id]?.getD default = .generator origin tree → scope tree

namespace Generator

theorem mapM_congr_of_mem {α ε : Type} {parts : List (Generator φ)}
    {left right : Generator φ → Drawing σ ε α} (same : ∀ part ∈ parts, left part = right part) :
    parts.mapM left = parts.mapM right := by
  induction parts with
  | nil => rfl
  | cons part rest ih =>
      simp only [List.forall_mem_cons] at same
      simp [same.1, ih same.2]

variable [RandomSource σ] [Combining φ] {first second : Parameters φ}
  {scope : Generator φ → Prop}

theorem evaluate_eq_of_readAlike (alike : ReadAlike first second scope) {tree : Generator φ}
    (inside : scope tree) (budget : Nat) :
    (tree.evaluate first budget : Drawing σ GeneratorError (Value φ))
      = tree.evaluate second budget := by
  induction budget generalizing tree with
  | zero => rfl
  | succ budget ih =>
      have children := alike.children tree inside
      cases tree with
      | constant value => rfl
      | parameter id default output =>
          have entered : ∀ held, first[id]?.getD default = held →
              (dereference (evaluate first budget) output held :
                  Drawing σ GeneratorError (Value φ))
                = dereference (evaluate second budget) output held := by
            intro held found
            cases held with
            | generator origin tree =>
                rw [dereference, dereference]
                split
                · rfl
                · rename_i evaluated
                  exact ih (alike.held id default output origin tree inside evaluated found)
            | _ => rfl
          rw [evaluate, evaluate, ← alike.same id default output inside]
          rw [entered _ rfl]
      | concatenate parts =>
          rw [evaluate, evaluate]
          congr 1
          apply mapM_congr_of_mem
          intro part member
          exact ih (children part member)
      | combine left leftType right rightType output function =>
          have leftSame := ih (children left (by simp [Generator.children]))
          have rightSame := ih (children right (by simp [Generator.children]))
          rw [evaluate, evaluate, leftSame, rightSame]
      | table output choices =>
          rw [evaluate, evaluate]
          congr 1
          funext position
          rw [ih (children _ (item_entryAt_mem_children output choices position))]

/-- All parameters are the same to a tree without references. -/
theorem evaluate_eq_of_references_eq_nil {tree : Generator φ} (closed : tree.references = [])
    (first second : Parameters φ) (budget : Nat) :
    (tree.evaluate first budget : Drawing σ GeneratorError (Value φ))
      = tree.evaluate second budget := by
  have alike : ReadAlike first second fun tree => tree.references = [] := by
    constructor
    · intro tree closed child member
      exact references_eq_nil_of_mem_children closed member
    · intro id default output closed
      simp [references] at closed
    · intro id default output origin tree closed
      simp [references] at closed
  exact evaluate_eq_of_readAlike alike closed budget

end Generator

end Wordloom
