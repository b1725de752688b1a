import Mathlib.Data.List.Forall2
import Wordloom.Proofs.Document.Reading
import Wordloom.Registry

/-!
# Documents with their sequences in full

This file compares the trees that are read from a document with those in which every sequence is a
concatenation, also one without elements or with a lone one. The reader is the same, only what it
makes of a sequence differs. It never looks at the trees that it has made, so for the tokens of a
document both readers make the same moves, and what they hold differs in the trees alone.
-/

namespace Wordloom

variable {φ : Type}

/-- A tree as it is read, and the same tree with its sequences in full. -/
inductive Generator.Abridges : (short full : Generator φ) → Prop where
  | text (text : String) : Abridges (.text text) (.text text)
  | reference (id : String) :
      Abridges (.parameter id (.string id) .string) (.parameter id (.string id) .string)
  | brackets {options full : List (Generator φ)} (present : options ≠ [])
      (each : List.Forall₂ Abridges options full) :
      Abridges (.select .string options) (.select .string full)
  | sequence {elements full : List (Generator φ)} (each : List.Forall₂ Abridges elements full) :
      Abridges (Document.sequence elements) (.concatenate full)

/-- A lone element is the tree of its sequence, and every element declares a string. -/
theorem Generator.Abridges.output_eq {short full : Generator φ} (abridges : short.Abridges full) :
    short.output = .string := by
  cases abridges with
  | text text => rfl
  | reference id => rfl
  | brackets present each => rfl
  | sequence each =>
      cases each with
      | nil => rfl
      | cons first rest =>
          cases rest with
          | nil => exact first.output_eq
          | cons second rest => rfl

namespace Document

/-- The declarations of a document with their sequences in full. -/
def parseInFull (text : String) : Except SyntaxError (List (Declaration φ)) :=
  parseWith .concatenate text.toList

structure Declaration.Abridges (short full : Declaration φ) : Prop where
  name_eq : short.name = full.name
  generator : short.generator.Abridges full.generator

inductive Frame.Abridges : (short full : Frame φ) → Prop where
  | mk {before options fullBefore fullOptions : List (Generator φ)}
      (eachBefore : List.Forall₂ Generator.Abridges before fullBefore)
      (eachOption : List.Forall₂ Generator.Abridges options fullOptions) :
      Abridges ⟨before, options⟩ ⟨fullBefore, fullOptions⟩

inductive Draft.Abridges : (short full : Draft φ) → Prop where
  | mk {name : String} {frames fullFrames : List (Frame φ)}
      {elements fullElements : List (Generator φ)}
      (eachFrame : List.Forall₂ Frame.Abridges frames fullFrames)
      (eachElement : List.Forall₂ Generator.Abridges elements fullElements) :
      Abridges ⟨name, frames, elements⟩ ⟨name, fullFrames, fullElements⟩

inductive Stage.Abridges : (short full : Stage φ) → Prop where
  | between : Abridges .between .between
  | ending (blank : Token) : Abridges (.ending blank) (.ending blank)
  | named (name : String) : Abridges (.named name) (.named name)
  | template {draft full : Draft φ} (abridges : draft.Abridges full) :
      Abridges (.template draft) (.template full)
  | reference {draft full : Draft φ} (abridges : draft.Abridges full) :
      Abridges (.reference draft) (.reference full)
  | closing {draft full : Draft φ} (abridges : draft.Abridges full) (id : String) :
      Abridges (.closing draft id) (.closing full id)

inductive Progress.Abridges : (short full : Progress φ) → Prop where
  | mk {declarations fullDeclarations : List (Declaration φ)} {stage fullStage : Stage φ}
      (declared : List.Forall₂ Declaration.Abridges declarations fullDeclarations)
      (abridges : stage.Abridges fullStage) :
      Abridges ⟨declarations, stage⟩ ⟨fullDeclarations, fullStage⟩

theorem abridges_sequence_reverse {elements full : List (Generator φ)}
    (each : List.Forall₂ Generator.Abridges elements full) :
    (sequence elements.reverse).Abridges (.concatenate full.reverse) :=
  .sequence (List.rel_reverse each)

/-- A token that the one reader accepts moves the other one in the same way. -/
theorem Move.abridges {progress after full : Progress φ} {token : Token}
    (move : Move sequence progress token after) (abridges : progress.Abridges full) :
    ∃ fullAfter, Move .concatenate full token fullAfter ∧ after.Abridges fullAfter := by
  rcases abridges with ⟨declared, stage⟩
  cases move with
  | blank blank =>
      cases stage
      exact ⟨_, .blank blank, .mk declared (.ending _)⟩
  | name present =>
      cases stage
      exact ⟨_, .name present, .mk declared (.named _)⟩
  | assign =>
      cases stage
      exact ⟨_, .assign, .mk declared (.template (.mk .nil .nil))⟩
  | text =>
      cases stage with
      | template draft =>
          rcases draft with ⟨frames, elements⟩
          exact ⟨_, .text, .mk declared (.template (.mk frames (.cons (.text _) elements)))⟩
  | less =>
      cases stage with
      | template draft => exact ⟨_, .less, .mk declared (.reference draft)⟩
  | id present =>
      cases stage with
      | reference draft => exact ⟨_, .id present, .mk declared (.closing draft _)⟩
  | greater =>
      cases stage with
      | closing draft =>
          rcases draft with ⟨frames, elements⟩
          exact ⟨_, .greater,
            .mk declared (.template (.mk frames (.cons (.reference _) elements)))⟩
  | openBracket room =>
      cases stage with
      | template draft =>
          rcases draft with ⟨frames, elements⟩
          rw [frames.length_eq] at room
          exact ⟨_, .openBracket room,
            .mk declared (.template (.mk (.cons (.mk elements .nil) frames) .nil))⟩
  | slash =>
      cases stage with
      | template draft =>
          rcases draft with ⟨_ | ⟨⟨before, options⟩, frames⟩, elements⟩
          have option := abridges_sequence_reverse elements
          exact ⟨_, .slash,
            .mk declared (.template (.mk (.cons (.mk before (.cons option options)) frames) .nil))⟩
  | closeBracket =>
      cases stage with
      | template draft =>
          rcases draft with ⟨_ | ⟨⟨before, options⟩, frames⟩, elements⟩
          have all := List.rel_reverse (.cons (abridges_sequence_reverse elements) options)
          have brackets := Generator.Abridges.brackets (by simp) all
          exact ⟨_, .closeBracket,
            .mk declared (.template (.mk frames (.cons brackets before)))⟩
  | semicolon =>
      cases stage with
      | template draft =>
          rcases draft with ⟨⟨⟩, elements⟩
          have generator := abridges_sequence_reverse elements
          exact ⟨_, .semicolon, .mk (.cons ⟨rfl, generator⟩ declared) .between⟩

theorem Run.abridges {progress after full : Progress φ} {tokens : List Token}
    (run : Run sequence progress tokens after) (abridges : progress.Abridges full) :
    ∃ fullAfter, Run .concatenate full tokens fullAfter ∧ after.Abridges fullAfter := by
  induction run generalizing full with
  | nil => exact ⟨full, .nil, abridges⟩
  | cons move run ih =>
      rcases move.abridges abridges with ⟨between, fullMove, betweenAbridges⟩
      rcases ih betweenAbridges with ⟨fullAfter, fullRun, afterAbridges⟩
      exact ⟨fullAfter, .cons fullMove fullRun, afterAbridges⟩

/-- A document that is accepted is accepted with its sequences in full, declaration by
declaration. -/
theorem exists_parseInFull_eq_ok {text : String} {declarations : List (Declaration φ)}
    (parsed : parse text = .ok declarations) :
    ∃ full, parseInFull text = .ok full ∧
      List.Forall₂ Declaration.Abridges declarations full := by
  rcases parseWith_eq_ok_iff.mp parsed with ⟨progress, run, stops, present, rfl⟩
  rcases run.abridges (.mk .nil .between) with ⟨fullProgress, fullRun, declared, stage⟩
  refine ⟨_, parseWith_eq_ok_iff.mpr ⟨_, fullRun, ?_, ?_, rfl⟩, List.rel_reverse declared⟩
  · rcases stops with rfl | ⟨blank, rfl⟩
    · cases stage
      exact .inl rfl
    · cases stage
      exact .inr ⟨blank, rfl⟩
  · rintro rfl
    cases declared
    exact present rfl

end Document

namespace Registry

/-- A registry as it is read, and the same registry with all sequences in full. -/
def Abridges (short full : Registry φ) : Prop :=
  ∀ name, Option.Rel Generator.Abridges (short.find? name) (full.find? name)

/-- The registry of a document with its sequences in full. -/
def parseInFull (text : String) : Except Document.SyntaxError (Registry φ) :=
  (Document.parseInFull text).map empty.declare

theorem Abridges.find?_eq_none {short full : Registry φ} (abridges : short.Abridges full)
    {name : String} (absent : short.find? name = none) : full.find? name = none := by
  have related := abridges name
  rw [absent] at related
  generalize full.find? name = found at related ⊢
  cases related
  rfl

theorem Abridges.exists_find?_eq_some {short full : Registry φ} (abridges : short.Abridges full)
    {name : String} {tree : Generator φ} (found : short.find? name = some tree) :
    ∃ fullTree, full.find? name = some fullTree ∧ tree.Abridges fullTree := by
  have related := abridges name
  rw [found] at related
  generalize full.find? name = fullFound at related ⊢
  cases related with
  | some treeAbridges => exact ⟨_, rfl, treeAbridges⟩

theorem Abridges.contains_eq {short full : Registry φ} (abridges : short.Abridges full)
    (name : String) : full.contains name = short.contains name := by
  rw [contains_eq_isSome_find?, contains_eq_isSome_find?]
  rcases registered : short.find? name with _ | tree
  · rw [abridges.find?_eq_none registered]
  · rcases abridges.exists_find?_eq_some registered with ⟨fullTree, found, -⟩
    rw [found]
    rfl

theorem Abridges.declare {short full : Registry φ} (abridges : short.Abridges full)
    {declarations fullDeclarations : List (Document.Declaration φ)}
    (declared : List.Forall₂ Document.Declaration.Abridges declarations fullDeclarations) :
    (short.declare declarations).Abridges (full.declare fullDeclarations) := by
  induction declared generalizing short full with
  | nil => exact abridges
  | @cons declaration fullDeclaration _ _ first rest ih =>
      apply ih
      intro name
      rw [find?_set, find?_set, ← first.name_eq]
      split
      · exact .some first.generator
      · exact abridges name

theorem abridges_empty : (empty : Registry φ).Abridges empty := by
  intro name
  rw [find?_empty]
  exact .none

theorem exists_parseInFull_eq_ok {text : String} {registry : Registry φ}
    (accepted : parse text = .ok registry) :
    ∃ full, parseInFull text = .ok full ∧ registry.Abridges full := by
  rw [parse] at accepted
  rcases parsed : (Document.parse text : Except _ (List (Document.Declaration φ))) with
    fault | declarations
  · rw [parsed] at accepted
    cases accepted
  · rw [parsed] at accepted
    cases accepted
    rcases Document.exists_parseInFull_eq_ok parsed with ⟨full, parsedInFull, declared⟩
    refine ⟨empty.declare full, ?_, abridges_empty.declare declared⟩
    rw [parseInFull, parsedInFull]
    rfl

end Registry

end Wordloom
