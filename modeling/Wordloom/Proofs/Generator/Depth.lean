import Wordloom.Generator.Combiner
import Wordloom.Proofs.Generator.Agreement
import Wordloom.Proofs.Registry.References
import Wordloom.Proofs.Stream.Script

/-!
# The limit on nested evaluations

This file shows that the limit on nested evaluations only ever cuts evaluations off. A tree that
is evaluated deeper down has fewer levels left. As long as they do not run out, its value or error
and its draws are those that it has further up.

Two evaluations of one tree with different numbers of levels go on to the same trees from the same
sources, up to where the levels of one of them run out. A parameter may hold a tree that leads back
to it, so the induction is on the levels and not on the tree.

What a tree goes on to without parameters that hold trees is part of it. Then it takes no more
levels than it is high.
-/

namespace Wordloom

variable {σ φ α β γ : Type}

/-- Whether an outcome is that the levels of nested evaluations ran out. -/
def OutOfLevels (outcome : Except GeneratorError α) : Prop :=
  ∃ levels, outcome = .error (.recursionLimit levels)

theorem not_outOfLevels_ok (value : α) : ¬OutOfLevels (.ok value) := by
  rintro ⟨levels, limit⟩
  cases limit

theorem outOfLevels_error_iff {cause : GeneratorError} :
    OutOfLevels (.error cause : Except GeneratorError α) ↔
      OutOfLevels (.error cause : Except GeneratorError β) := by
  simp [OutOfLevels]

/-- Whether a computation does the same as another one, unless it runs out of levels. -/
def CutsOff (cut whole : Drawing σ GeneratorError α) : Prop :=
  ∀ source, ¬OutOfLevels (cut.run source).1 → whole.run source = cut.run source

namespace CutsOff

theorem refl (computation : Drawing σ GeneratorError α) : CutsOff computation computation := by
  intro source _
  rfl

theorem trans {cut between whole : Drawing σ GeneratorError α} (first : CutsOff cut between)
    (second : CutsOff between whole) : CutsOff cut whole := by
  intro source within
  have same := first source within
  rw [← same] at within ⊢
  exact second source within

theorem throw (levels : Nat) (whole : Drawing σ GeneratorError α) :
    CutsOff (MonadExcept.throw (.recursionLimit levels)) whole := by
  intro source within
  exact absurd ⟨levels, rfl⟩ within

theorem bind {cut whole : Drawing σ GeneratorError α}
    {cutNext wholeNext : α → Drawing σ GeneratorError β} (first : CutsOff cut whole)
    (next : ∀ value, CutsOff (cutNext value) (wholeNext value)) :
    CutsOff (cut >>= cutNext) (whole >>= wholeNext) := by
  intro source within
  rw [Drawing.run_bind] at within
  rw [Drawing.run_bind, Drawing.run_bind]
  rcases run : cut.run source with ⟨cause | value, between⟩
  · rw [run] at within
    have same : whole.run source = (.error cause, between) := by
      rw [← run]
      apply first
      rw [run]
      exact mt outOfLevels_error_iff.mp within
    rw [same]
  · rw [run] at within
    have same : whole.run source = (.ok value, between) := by
      rw [← run]
      apply first
      rw [run]
      exact not_outOfLevels_ok value
    rw [same]
    exact next value between within

theorem mapM {cut : β → Drawing σ GeneratorError α} {whole : γ → Drawing σ GeneratorError α}
    {items : List β} {others : List γ}
    (each : List.Forall₂ (fun item other => CutsOff (cut item) (whole other)) items others) :
    CutsOff (items.mapM cut) (others.mapM whole) := by
  induction each with
  | nil => exact refl _
  | cons first rest ih =>
      rw [List.mapM_cons, List.mapM_cons]
      apply first.bind
      intro value
      apply ih.bind
      intro values
      exact refl _

theorem dereference {cut whole : Generator φ → Drawing σ GeneratorError (Value φ)}
    (each : ∀ tree, CutsOff (cut tree) (whole tree)) (output : ValueType) (held : Value φ) :
    CutsOff (Generator.dereference cut output held) (Generator.dereference whole output held) := by
  cases held with
  | generator origin tree =>
      rw [Generator.dereference, Generator.dereference]
      split
      · exact refl _
      · exact each tree
  | string text => exact refl _
  | number value => exact refl _
  | boolean truth => exact refl _

end CutsOff

/-- Whether a computation never runs out of levels. -/
def StaysWithin (computation : Drawing σ GeneratorError α) : Prop :=
  ∀ source, ¬OutOfLevels (computation.run source).1

namespace StaysWithin

theorem pure (value : α) : StaysWithin (Pure.pure value : Drawing σ GeneratorError α) := by
  intro source
  exact not_outOfLevels_ok value

theorem ofExcept {result : Except GeneratorError α} (within : ¬OutOfLevels result) :
    StaysWithin (Drawing.ofExcept id result : Drawing σ GeneratorError α) := by
  intro source
  rw [Drawing.run_ofExcept]
  cases result with
  | error cause => exact within
  | ok value => exact not_outOfLevels_ok value

theorem coerced (result : Except CoercionError α) :
    StaysWithin (Generator.coerced result : Drawing σ GeneratorError α) := by
  intro source
  rw [Generator.coerced, Drawing.run_ofExcept]
  cases result with
  | error cause =>
      rintro ⟨levels, limit⟩
      cases limit
  | ok value => exact not_outOfLevels_ok value

theorem pick (computation : Drawing σ PickError α) :
    StaysWithin (ExceptT.adapt .pick computation : Drawing σ GeneratorError α) := by
  intro source
  rw [Drawing.run_adapt]
  cases (computation.run source).1 with
  | error cause =>
      rintro ⟨levels, limit⟩
      cases limit
  | ok value => exact not_outOfLevels_ok value

theorem bind {first : Drawing σ GeneratorError α} {next : α → Drawing σ GeneratorError β}
    (within : StaysWithin first) (nextWithin : ∀ value, StaysWithin (next value)) :
    StaysWithin (first >>= next) := by
  intro source
  have start := within source
  rw [Drawing.run_bind]
  rcases run : first.run source with ⟨cause | value, between⟩
  · rw [run] at start
    exact mt outOfLevels_error_iff.mp start
  · exact nextWithin value between

theorem mapM {f : β → Drawing σ GeneratorError α} {items : List β}
    (each : ∀ item ∈ items, StaysWithin (f item)) : StaysWithin (items.mapM f) := by
  induction items with
  | nil => exact pure []
  | cons item items ih =>
      simp only [List.forall_mem_cons] at each
      rw [List.mapM_cons]
      apply each.1.bind
      intro value
      apply (ih each.2).bind
      intro values
      exact pure (value :: values)

end StaysWithin

namespace Generator

/-- The trees that a tree consists of, the tree itself among them. -/
inductive Contains : Generator φ → Generator φ → Prop where
  | whole {tree : Generator φ} : Contains tree tree
  | part {tree child node : Generator φ} (member : child ∈ tree.children)
      (inside : Contains child node) : Contains tree node

variable [Combining φ]

/-- The trees without defaults that are trees, and without functions that report that levels ran
out. -/
structure SelfContained (tree : Generator φ) : Prop where
  defaults : ∀ id default output, tree.Contains (.parameter id default output) →
    default.isGenerator = false
  functions : ∀ left leftType right rightType output function,
    tree.Contains (.combine left leftType right rightType output function) →
      ∀ first second, ¬OutOfLevels (Combining.apply function first second)

theorem SelfContained.of_mem_children {tree child : Generator φ}
    (selfContained : tree.SelfContained) (member : child ∈ tree.children) : child.SelfContained where
  defaults id default output inside :=
    selfContained.defaults id default output (.part member inside)
  functions left leftType right rightType output function inside :=
    selfContained.functions left leftType right rightType output function (.part member inside)

variable [RandomSource σ]

/-- The value of a tree that is evaluated at a depth. The depth of `generate` is zero, and what a
tree goes on to is one deeper. -/
def evaluateAt (parameters : Parameters φ) (depth : Nat) (tree : Generator φ) :
    Drawing σ GeneratorError (Value φ) :=
  tree.evaluate parameters (maxDepth + 1 - depth)

theorem cutsOff_evaluate (parameters : Parameters φ) {fewer more : Nat} (least : fewer ≤ more)
    (tree : Generator φ) :
    CutsOff (σ := σ) (tree.evaluate parameters fewer) (tree.evaluate parameters more) := by
  induction fewer generalizing more tree with
  | zero => exact CutsOff.throw _ _
  | succ fewer ih =>
      obtain ⟨more, rfl⟩ := Nat.exists_eq_add_of_le' (Nat.le_trans (Nat.le_add_left 1 fewer) least)
      have below : ∀ tree : Generator φ,
          CutsOff (σ := σ) (tree.evaluate parameters fewer) (tree.evaluate parameters more) :=
        ih (Nat.le_of_succ_le_succ least)
      cases tree with
      | constant value => exact CutsOff.refl _
      | parameter id default output =>
          rw [evaluate, evaluate]
          apply (CutsOff.dereference below output _).bind
          intro value
          exact CutsOff.refl _
      | concatenate parts =>
          rw [evaluate, evaluate]
          apply (CutsOff.mapM (List.forall₂_same.mpr fun part _ => below part)).bind
          intro values
          exact CutsOff.refl _
      | combine left leftType right rightType output function =>
          rw [evaluate, evaluate]
          apply (below left).bind
          intro leftValue
          apply (CutsOff.refl _).bind
          intro first
          apply (below right).bind
          intro rightValue
          exact CutsOff.refl _
      | table output choices =>
          rw [evaluate, evaluate]
          apply (CutsOff.refl _).bind
          intro position
          apply (below _).bind
          intro value
          exact CutsOff.refl _

/-- A tree that goes on to nothing but its parts takes one level more than it is high. -/
theorem SelfContained.staysWithin {parameters : Parameters φ} (plain : parameters.ArePlain)
    {tree : Generator φ} (selfContained : tree.SelfContained) {levels : Nat}
    (enough : tree.height < levels) :
    StaysWithin (σ := σ) (tree.evaluate parameters levels) := by
  induction levels generalizing tree with
  | zero => exact absurd enough (Nat.not_lt_zero _)
  | succ levels ih =>
      have below : ∀ child ∈ tree.children,
          StaysWithin (σ := σ) (child.evaluate parameters levels) := by
        intro child member
        have := height_lt_of_mem_children member
        exact ih (selfContained.of_mem_children member) (by omega)
      cases tree with
      | constant value => exact StaysWithin.pure value
      | parameter id default output =>
          have held : (parameters[id]?.getD default).isGenerator = false := by
            rcases given : parameters[id]? with _ | value
            · exact selfContained.defaults id default output .whole
            · exact plain id value given
          rw [evaluate, dereference_of_isGenerator_eq_false held, pure_bind]
          exact StaysWithin.coerced _
      | concatenate parts =>
          rw [evaluate]
          apply (StaysWithin.mapM below).bind
          intro values
          exact StaysWithin.pure _
      | combine left leftType right rightType output function =>
          have within :=
            selfContained.functions left leftType right rightType output function .whole
          rw [evaluate]
          apply (below left (by simp [children])).bind
          intro leftValue
          apply (StaysWithin.coerced _).bind
          intro first
          apply (below right (by simp [children])).bind
          intro rightValue
          apply (StaysWithin.coerced _).bind
          intro second
          apply (StaysWithin.ofExcept (within first second)).bind
          intro combined
          exact StaysWithin.coerced _
      | table output choices =>
          rw [evaluate]
          apply (StaysWithin.pick _).bind
          intro position
          apply (below _ (item_entryAt_mem_children output choices position)).bind
          intro value
          exact StaysWithin.coerced _

end Generator

/--
The limit on nested evaluations cuts off and does nothing else. A tree whose evaluation at some
depth does not run out of levels has the same outcome at every depth above, and leaves the source
in the same state. A tree that goes on to nothing but its parts does not run out of levels at a
depth that leaves as many as it is high.
-/
theorem depth_limit_only_cuts_off (φ : Type) [Combining φ] (σ : Type) [RandomSource σ]
    (tree : Generator φ) (parameters : Parameters φ) :
    (∀ (source : σ) (depth deeper : Nat), depth ≤ deeper →
      ¬OutOfLevels ((tree.evaluateAt parameters deeper).run source).1 →
        (tree.evaluateAt parameters depth).run source
          = (tree.evaluateAt parameters deeper).run source) ∧
    (parameters.ArePlain → tree.SelfContained →
      ∀ (source : σ) (depth : Nat), depth + tree.height ≤ maxDepth →
        ¬OutOfLevels ((tree.evaluateAt parameters depth).run source).1) := by
  constructor
  · intro source depth deeper above within
    have fewer : maxDepth + 1 - deeper ≤ maxDepth + 1 - depth := by omega
    exact tree.cutsOff_evaluate parameters fewer source within
  · intro plain selfContained source depth room
    have enough : tree.height < maxDepth + 1 - depth := by omega
    exact selfContained.staysWithin plain enough source

set_option maxRecDepth 1000 in
/-- A tree that leads back to itself, on just as many levels as its draws take, and a greeting on
the last two levels. -/
theorem depth_limit_only_cuts_off_echo :
    let echo : Generator Combiner := .parameter "echo" (.string "echo") .string
    let parameters : Parameters Combiner := (∅ : Parameters Combiner).insert "echo"
      (.generator (.supplied 0) (.select .string [.text "a", .concatenate [echo, .text "!"]]))
    let greeting : Generator Combiner :=
      .concatenate [.text "Hello, ", .parameter "name" (.string "Ann") .string]
    let script : Script := ⟨[1.5, 0.5]⟩
    (echo.evaluateAt parameters 251).run script = (.ok (.string "a!"), ⟨[]⟩) ∧
      (echo.evaluateAt parameters 0).run script = (.ok (.string "a!"), ⟨[]⟩) ∧
      greeting.SelfContained ∧
      ¬OutOfLevels ((greeting.evaluateAt ∅ 255).run script).1 := by
  intro echo parameters greeting script
  have run : (echo.evaluateAt parameters 251).run script = (.ok (.string "a!"), ⟨[]⟩) := by
    subst echo parameters script
    rfl
  have within : ¬OutOfLevels ((echo.evaluateAt parameters 251).run script).1 := by
    rw [run]
    exact not_outOfLevels_ok _
  have above := (depth_limit_only_cuts_off Combiner Script echo parameters).1 script 0 251
    (Nat.zero_le _) within
  have selfContained : greeting.SelfContained := by
    subst greeting
    constructor
    · intro id default output inside
      rcases inside with _ | ⟨member, inside⟩
      simp only [Generator.children, List.mem_cons, List.not_mem_nil, or_false] at member
      rcases member with rfl | rfl
      · rcases inside with _ | ⟨member, inside⟩
        cases member
      · rcases inside with _ | ⟨member, inside⟩
        · rfl
        · cases member
    · intro left leftType right rightType output function inside
      rcases inside with _ | ⟨member, inside⟩
      simp only [Generator.children, List.mem_cons, List.not_mem_nil, or_false] at member
      rcases member with rfl | rfl
      · rcases inside with _ | ⟨member, inside⟩
        cases member
      · rcases inside with _ | ⟨member, inside⟩
        cases member
  have room : 255 + greeting.height ≤ maxDepth := by decide
  have shallow := (depth_limit_only_cuts_off Combiner Script greeting ∅).2 .empty selfContained
    script 255 room
  exact ⟨run, above.trans run, selfContained, shallow⟩

end Wordloom
