import Wordloom.Generator.Combiner
import Wordloom.Proofs.Generator.Depth
import Wordloom.Stream.Basic

/-!
# What an evaluation reads

This file shows which parameters the outcome of an evaluation depends on. The references of a tree
are the names that stand in the tree itself. The default of a missing parameter may be a tree, too,
and is then evaluated with references of its own. So an evaluation reads what is referred to by the
tree and by the defaults that it comes to, and this is all that matters, as long as no parameter
that is read holds a tree.

Where no default is evaluated, the references of the tree are all of it. A tree whose default is
evaluated is shown to depend on a parameter that is not among its references.
-/

namespace Wordloom

variable {σ φ : Type}

namespace Generator

variable {parameters first second : Parameters φ} {tree : Generator φ} {id : String}

/-- The trees that an evaluation may come to when the parameters that it reads hold no trees: the
tree itself, its parts, and trees that are the defaults of missing parameters. -/
inductive Reaches (parameters : Parameters φ) : Generator φ → Generator φ → Prop where
  | whole {tree : Generator φ} : Reaches parameters tree tree
  | part {tree child node : Generator φ} (member : child ∈ tree.children)
      (inside : Reaches parameters child node) : Reaches parameters tree node
  | default {id : String} {origin : Origin} {tree node : Generator φ} {output : ValueType}
      (missing : parameters[id]? = none) (evaluated : output ≠ .generator)
      (inside : Reaches parameters tree node) :
      Reaches parameters (.parameter id (.generator origin tree) output) node

/-- Whether an evaluation may read a parameter, when those that it reads hold no trees. -/
def Reads (parameters : Parameters φ) (tree : Generator φ) (id : String) : Prop :=
  ∃ default output, tree.Reaches parameters (.parameter id default output)

/-- Whether all parameters of a tree are there whose default is a tree to be evaluated. -/
def EvaluatesNoDefault (parameters : Parameters φ) (tree : Generator φ) : Prop :=
  ∀ id origin inner output, tree.Contains (.parameter id (.generator origin inner) output) →
    output = .generator ∨ ∃ value, parameters[id]? = some value

theorem EvaluatesNoDefault.of_mem_children {child : Generator φ}
    (none : tree.EvaluatesNoDefault parameters) (member : child ∈ tree.children) :
    child.EvaluatesNoDefault parameters := by
  intro id origin inner output inside
  exact none id origin inner output (.part member inside)

/-- A name that a tree refers to is that of the tree or stands further down. -/
theorem mem_references_cases (refers : id ∈ tree.references) :
    (∃ default output, tree = .parameter id default output) ∨
      ∃ child ∈ tree.children, id ∈ child.references := by
  cases tree with
  | constant value => cases refers
  | parameter other default output =>
      rw [references, List.mem_singleton] at refers
      exact .inl ⟨default, output, by rw [refers]⟩
  | concatenate parts =>
      rw [references, referencesOfParts_eq_flatMap] at refers
      exact .inr (List.mem_flatMap.mp refers)
  | combine left leftType right rightType output function =>
      right
      rw [references, List.mem_append] at refers
      rcases refers with refers | refers
      · exact ⟨left, by simp [children], refers⟩
      · exact ⟨right, by simp [children], refers⟩
  | table output choices =>
      rw [references, referencesOfEntries_eq_flatMap] at refers
      rcases List.mem_flatMap.mp refers with ⟨entry, inside, refers⟩
      exact .inr ⟨entry.item, List.mem_map_of_mem inside, refers⟩

/-- What a tree refers to are the parameters that it consists of, among other trees. -/
theorem mem_references_iff :
    id ∈ tree.references ↔ ∃ default output, tree.Contains (.parameter id default output) := by
  constructor
  · intro refers
    induction size : tree.height using Nat.strongRecOn generalizing tree with
    | ind height ih =>
        rcases mem_references_cases refers with ⟨default, output, rfl⟩ | ⟨child, member, refers⟩
        · exact ⟨default, output, .whole⟩
        · have lower := height_lt_of_mem_children member
          rcases ih child.height (size ▸ lower) refers rfl with ⟨default, output, inside⟩
          exact ⟨default, output, .part member inside⟩
  · rintro ⟨default, output, inside⟩
    generalize shape : Generator.parameter id default output = node at inside
    induction inside with
    | whole => simp [← shape, references]
    | part member _ ih => exact references_subset_of_mem_children member (ih shape)

theorem Contains.reaches {node : Generator φ} (inside : tree.Contains node) :
    tree.Reaches parameters node := by
  induction inside with
  | whole => exact .whole
  | part member _ ih => exact .part member ih

/-- Without a default to evaluate, nothing is reached but the tree itself. -/
theorem Reaches.contains {node : Generator φ} (reached : tree.Reaches parameters node)
    (none : tree.EvaluatesNoDefault parameters) : tree.Contains node := by
  induction reached with
  | whole => exact .whole
  | part member _ ih => exact .part member (ih (none.of_mem_children member))
  | default missing evaluated _ _ =>
      rcases none _ _ _ _ .whole with kept | ⟨value, given⟩
      · exact absurd kept evaluated
      · rw [missing] at given
        cases given

theorem reads_of_mem_references (refers : id ∈ tree.references) : tree.Reads parameters id := by
  rcases mem_references_iff.mp refers with ⟨default, output, inside⟩
  exact ⟨default, output, inside.reaches⟩

theorem EvaluatesNoDefault.mem_references_of_reads (none : tree.EvaluatesNoDefault parameters)
    (reads : tree.Reads parameters id) : id ∈ tree.references := by
  rcases reads with ⟨default, output, reached⟩
  exact mem_references_iff.mpr ⟨default, output, reached.contains none⟩

/-- The trees that read only what two maps of parameters agree on read alike in them. -/
theorem readAlike_of_agreeOn {names : String → Prop}
    (agree : Parameters.AgreeOn names first second) :
    ReadAlike first second fun tree => ∀ id, tree.Reads first id → names id where
  children tree within child member id reads := by
    rcases reads with ⟨default, output, reached⟩
    exact within id ⟨default, output, .part member reached⟩
  same id default output within := by
    rw [agree.same id (within id ⟨default, output, .whole⟩)]
  held id default output origin tree within evaluated found := by
    rcases given : first[id]? with _ | value
    · rw [given, Option.getD_none] at found
      subst found
      rintro other ⟨default, output, reached⟩
      exact within other ⟨default, output, .default given evaluated reached⟩
    · have plain := agree.plain id value (within id ⟨default, output, .whole⟩) given
      rw [given, Option.getD_some] at found
      simp [found, Value.isGenerator] at plain

end Generator

variable [RandomSource σ] [Combining φ]

theorem Generator.generate_eq_of_agreeOn_reads {tree : Generator φ} {first second : Parameters φ}
    (agree : Parameters.AgreeOn (tree.Reads first) first second) :
    (tree.generate first : Drawing σ GeneratorError (Value φ)) = tree.generate second :=
  evaluate_eq_of_readAlike (readAlike_of_agreeOn agree) (fun _ reads => reads) (maxDepth + 1)

/-- What a tree yields, and what it leaves of the source, depends on the parameters that it reads.
These are its references and, besides them, what is read by defaults that are evaluated. -/
theorem outcome_depends_on_what_is_read (tree : Generator φ) (first second : Parameters φ) :
    (∀ id ∈ tree.references, tree.Reads first id) ∧
    (Parameters.AgreeOn (tree.Reads first) first second →
      ∀ source : σ, (tree.generate first).run source = (tree.generate second).run source) ∧
    (tree.EvaluatesNoDefault first →
      (∀ id, tree.Reads first id → id ∈ tree.references) ∧
      (Parameters.AgreeOn (· ∈ tree.references) first second →
        ∀ source : σ, (tree.generate first).run source = (tree.generate second).run source)) := by
  refine ⟨fun id refers => Generator.reads_of_mem_references refers, fun agree source => ?_,
    fun none => ⟨fun id reads => none.mem_references_of_reads reads, fun agree source => ?_⟩⟩
  · rw [Generator.generate_eq_of_agreeOn_reads agree]
  · have onReads : Parameters.AgreeOn (tree.Reads first) first second := by
      constructor
      · intro id reads
        exact agree.same id (none.mem_references_of_reads reads)
      · intro id value reads
        exact agree.plain id value (none.mem_references_of_reads reads)
    rw [Generator.generate_eq_of_agreeOn_reads onReads]

/-- A default that is a tree does not matter where its parameter is there. -/
theorem outcome_depends_on_what_is_read_greeting :
    let name : Generator Combiner := .parameter "name" (.string "name") .string
    let tree : Generator Combiner := .parameter "greeting" (.generator (.supplied 0) name) .string
    let first : Parameters Combiner := (∅ : Parameters Combiner).insert "greeting" (.string "Hi")
    let second := first.insert "name" (.string "Ann")
    tree.EvaluatesNoDefault first ∧ Parameters.AgreeOn (· ∈ tree.references) first second ∧
      ∀ stream : Stream, (tree.generate first).run stream = (tree.generate second).run stream := by
  intro name tree first second
  have given : first["greeting"]? = some (.string "Hi") := Std.ExtTreeMap.getElem?_insert_self
  have none : tree.EvaluatesNoDefault first := by
    intro id origin inner output inside
    subst tree
    rcases inside with _ | ⟨member, inside⟩
    · exact .inr ⟨_, given⟩
    · cases member
  have kept : second["greeting"]? = first["greeting"]? := by
    rw [Std.ExtTreeMap.getElem?_insert, if_neg (by decide)]
  have agree : Parameters.AgreeOn (· ∈ tree.references) first second := by
    constructor
    · intro id refers
      obtain rfl := List.mem_singleton.mp refers
      exact kept.symm
    · intro id value refers held
      obtain rfl := List.mem_singleton.mp refers
      obtain rfl := Option.some.inj (given.symm.trans held)
      rfl
  exact ⟨none, agree, ((outcome_depends_on_what_is_read tree first second).2.2 none).2 agree⟩

/-- A reference without its parameter goes on with the tree that is its default, and reads what
that tree refers to. -/
theorem evaluated_default_is_read :
    let name : Generator Combiner := .parameter "name" (.string "name") .string
    let tree : Generator Combiner := .parameter "greeting" (.generator (.supplied 0) name) .string
    let given : Parameters Combiner := (∅ : Parameters Combiner).insert "name" (.string "Ann")
    let stream := Stream.ofSeed 0
    tree.references = ["greeting"] ∧ Parameters.AgreeOn (· ∈ tree.references) ∅ given ∧
      (tree.generate ∅).run stream = (.ok (.string "name"), stream) ∧
      (tree.generate given).run stream = (.ok (.string "Ann"), stream) := by
  intro name tree given stream
  refine ⟨rfl, ?_, rfl, rfl⟩
  constructor
  · intro id refers
    obtain rfl := List.mem_singleton.mp refers
    rw [Std.ExtTreeMap.getElem?_insert, if_neg (by decide)]
  · intro id value refers held
    rw [Std.ExtTreeMap.getElem?_empty] at held
    cases held

end Wordloom
