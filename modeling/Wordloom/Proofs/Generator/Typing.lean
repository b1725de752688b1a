import Wordloom.Generator.Combiner
import Wordloom.Proofs.Stream.Drawing
import Wordloom.Stream.Basic

/-!
# Evaluation keeps declared types

This file shows that what a tree yields is of the type that the tree declares, and that the
functions that trees name are never called with operands of other types than those declared
for them.

For the calls there is an evaluation that keeps a list of them. It draws from a source beside
which the list stands, and notes every call just before it is made. Without the list it is the
evaluation itself, so the list says which calls an evaluation makes.
-/

namespace Wordloom

variable {σ ε φ α β : Type}

def Value.Fits (value : Value φ) (declared : ValueType) : Prop :=
  declared = .any ∨ value.type = declared

/-- Whether all values that a computation ends with are of a declared type. -/
def Yields (computation : Drawing σ ε (Value φ)) (declared : ValueType) : Prop :=
  ∀ source value after, computation.run source = (.ok value, after) → value.Fits declared

namespace Yields

theorem pure (value : Value φ) :
    Yields (Pure.pure value : Drawing σ ε (Value φ)) value.type := by
  intro source result after success
  cases success
  exact .inr rfl

theorem throw (cause : ε) (declared : ValueType) :
    Yields (MonadExcept.throw cause : Drawing σ ε (Value φ)) declared := by
  intro source result after success
  cases success

theorem bind {first : Drawing σ ε α} {next : α → Drawing σ ε (Value φ)} {declared : ValueType}
    (yields : ∀ value, Yields (next value) declared) : Yields (first >>= next) declared := by
  intro source result after success
  rcases Drawing.run_bind_eq_ok_iff.mp success with ⟨value, between, -, success⟩
  exact yields value between result after success

theorem coerced (value : Value φ) (declared : ValueType) (context : String) :
    Yields (σ := σ) (Generator.coerced (value.coerce declared context)) declared := by
  intro source result after success
  rw [Generator.coerced, Drawing.run_ofExcept] at success
  rcases adapted : value.coerce declared context with cause | adaptedValue
  · rw [adapted] at success
    cases success
  · rw [adapted] at success
    cases success
    exact type_of_coerce adapted

end Yields

/-- A call of a function, with the types that are declared for its operands. -/
structure Call (φ : Type) where
  function : φ
  leftType : ValueType
  left : Value φ
  rightType : ValueType
  right : Value φ

structure Call.WellTyped (call : Call φ) : Prop where
  left : call.left.Fits call.leftType
  right : call.right.Fits call.rightType

/-- A source of random draws, beside which the calls made so far stand. -/
structure Logged (σ φ : Type) where
  source : σ
  calls : List (Call φ)

instance [RandomSource σ] : RandomSource (Logged σ φ) where
  next64 logged :=
    let (word, after) := RandomSource.next64 logged.source
    (word, { logged with source := after })
  fork logged :=
    let (child, after) := RandomSource.fork logged.source
    (⟨child, []⟩, { logged with source := after })
  reseed logged seed index :=
    { logged with source := RandomSource.reseed logged.source seed index }
  nextDouble bound logged :=
    let (number, after) := RandomSource.nextDouble bound logged.source
    (number, { logged with source := after })

/-- Notes a call and makes it. -/
def Call.make [Combining φ] (call : Call φ) : Drawing (Logged σ φ) GeneratorError (Value φ) := do
  modify fun logged => { logged with calls := logged.calls ++ [call] }
  Drawing.ofExcept id (Combining.apply call.function call.left call.right)

namespace Generator

variable [RandomSource σ] [Combining φ]

/-- The value of a tree, with all calls noted beside the source. -/
def evaluateLogged (parameters : Parameters φ) : (budget : Nat) → Generator φ →
    Drawing (Logged σ φ) GeneratorError (Value φ)
  | 0, _ => throw (.recursionLimit maxDepth)
  | _ + 1, .constant value => pure value
  | budget + 1, .parameter id default output => do
    let held := parameters[id]?.getD default
    let value ← dereference (evaluateLogged parameters budget) output held
    coerced (value.coerce output (parameterContext id))
  | budget + 1, .concatenate parts => do
    let values ← parts.mapM (evaluateLogged parameters budget)
    pure (.string (String.join (values.map Value.text)))
  | budget + 1, .combine left leftType right rightType output function => do
    let first ← evaluateLogged parameters budget left
    let first ← coerced (first.coerce leftType "first combine operand")
    let second ← evaluateLogged parameters budget right
    let second ← coerced (second.coerce rightType "second combine operand")
    let combined ← Call.make ⟨function, leftType, first, rightType, second⟩
    coerced (combined.coerce output "combine result")
  | budget + 1, .table output choices => do
    let position ← ExceptT.adapt .pick choices.pick
    let value ← evaluateLogged parameters budget (choices.entryAt position).item
    coerced (value.coerce output "table entry")

end Generator

/-- Whether a computation does the same as another, apart from noting calls, and all calls that
it notes are of their declared types. -/
def Logs (logged : Drawing (Logged σ φ) ε α) (plain : Drawing σ ε α) : Prop :=
  ∀ source calls, ∃ added : List (Call φ), (∀ call ∈ added, call.WellTyped) ∧
    logged.run ⟨source, calls⟩
      = ((plain.run source).1, ⟨(plain.run source).2, calls ++ added⟩)

namespace Logs

theorem pure (value : α) : Logs (φ := φ) (Pure.pure value : Drawing (Logged σ φ) ε α)
    (Pure.pure value) := by
  intro source calls
  exact ⟨[], by simp, by simp [Drawing.run_pure]⟩

theorem throw (cause : ε) :
    Logs (throw cause : Drawing (Logged σ φ) ε α) (MonadExcept.throw cause) := by
  intro source calls
  exact ⟨[], by simp, by simp [Drawing.run_throw]⟩

theorem ofExcept {δ : Type} (explain : δ → ε) (result : Except δ α) :
    Logs (φ := φ) (Drawing.ofExcept explain result : Drawing (Logged σ φ) ε α)
      (Drawing.ofExcept explain result) := by
  intro source calls
  exact ⟨[], by simp, by simp [Drawing.run_ofExcept]⟩

theorem adapt {δ : Type} (explain : δ → ε) {logged : Drawing (Logged σ φ) δ α}
    {plain : Drawing σ δ α} (logs : Logs logged plain) :
    Logs (ExceptT.adapt explain logged) (ExceptT.adapt explain plain) := by
  intro source calls
  rcases logs source calls with ⟨added, typed, run⟩
  exact ⟨added, typed, by rw [Drawing.run_adapt, Drawing.run_adapt, run]⟩

/-- What comes second only has to log after values that the first computation can yield. -/
theorem bind {logged : Drawing (Logged σ φ) ε α} {plain : Drawing σ ε α}
    {loggedNext : α → Drawing (Logged σ φ) ε β} {plainNext : α → Drawing σ ε β}
    (first : Logs logged plain)
    (next : ∀ value source after, plain.run source = (.ok value, after) →
      Logs (loggedNext value) (plainNext value)) :
    Logs (logged >>= loggedNext) (plain >>= plainNext) := by
  intro source calls
  rcases first source calls with ⟨added, typed, run⟩
  rw [Drawing.run_bind, Drawing.run_bind, run]
  rcases plainRun : plain.run source with ⟨cause | value, after⟩
  · exact ⟨added, typed, rfl⟩
  · rcases next value source after plainRun after (calls ++ added) with ⟨more, moreTyped, nextRun⟩
    refine ⟨added ++ more, List.forall_mem_append.mpr ⟨typed, moreTyped⟩, ?_⟩
    simp only [nextRun, List.append_assoc]

theorem mapM {logged : β → Drawing (Logged σ φ) ε α} {plain : β → Drawing σ ε α}
    {items : List β} (logs : ∀ item ∈ items, Logs (logged item) (plain item)) :
    Logs (items.mapM logged) (items.mapM plain) := by
  induction items with
  | nil => exact Logs.pure []
  | cons item items ih =>
      simp only [List.forall_mem_cons] at logs
      rw [List.mapM_cons, List.mapM_cons]
      apply logs.1.bind
      intro value _ _ _
      apply (ih logs.2).bind
      intro values _ _ _
      exact Logs.pure (value :: values)

theorem pick {ι : Type} [RandomSource σ] (choices : Table Float ι) :
    Logs (φ := φ) (choices.pick : Drawing (Logged σ φ) PickError (Fin choices.size))
      choices.pick := by
  unfold Table.pick
  split
  · dsimp only
    split
    · intro source calls
      exact ⟨[], by simp, by rw [List.append_nil]; rfl⟩
    · exact Logs.throw _
  · exact Logs.throw _

theorem make [Combining φ] {call : Call φ} (typed : call.WellTyped) :
    Logs (call.make : Drawing (Logged σ φ) GeneratorError (Value φ))
      (Drawing.ofExcept id (Combining.apply call.function call.left call.right)) := by
  intro source calls
  exact ⟨[call], by simpa using typed, rfl⟩

end Logs

namespace Generator

theorem logs_dereference {logged : Generator φ → Drawing (Logged σ φ) GeneratorError (Value φ)}
    {plain : Generator φ → Drawing σ GeneratorError (Value φ)}
    (logs : ∀ tree, Logs (logged tree) (plain tree)) (output : ValueType) (held : Value φ) :
    Logs (dereference logged output held) (dereference plain output held) := by
  cases held with
  | generator origin tree =>
      rw [dereference, dereference]
      split
      · exact Logs.pure _
      · exact logs tree
  | string text => exact Logs.pure _
  | number value => exact Logs.pure _
  | boolean truth => exact Logs.pure _

variable [RandomSource σ] [Combining φ]

/-- What a tree yields is of the type that its root declares. Only a constant and a concatenation
are not adapted to it at the end, and these two declare what they are. -/
theorem evaluate_yields (parameters : Parameters φ) (budget : Nat) (generator : Generator φ) :
    Yields (σ := σ) (generator.evaluate parameters budget) generator.output := by
  rcases budget with _ | budget
  · exact Yields.throw _ _
  · cases generator with
    | constant value =>
        exact Yields.pure value
    | parameter id default output =>
        apply Yields.bind
        intro value
        exact Yields.coerced value output _
    | concatenate parts =>
        apply Yields.bind
        intro values
        exact Yields.pure (.string _)
    | combine left leftType right rightType output function =>
        apply Yields.bind
        intro _
        apply Yields.bind
        intro _
        apply Yields.bind
        intro _
        apply Yields.bind
        intro _
        apply Yields.bind
        intro combined
        exact Yields.coerced combined output _
    | table output choices =>
        apply Yields.bind
        intro position
        apply Yields.bind
        intro value
        exact Yields.coerced value output _

/-- Noting the calls does not change an evaluation. An operand is adapted to its declared type
right before the call, so every call is noted with operands of the declared types. -/
theorem logs_evaluate (parameters : Parameters φ) (budget : Nat) (generator : Generator φ) :
    Logs (σ := σ) (generator.evaluateLogged parameters budget)
      (generator.evaluate parameters budget) := by
  induction budget generalizing generator with
  | zero => exact Logs.throw _
  | succ budget ih =>
      cases generator with
      | constant value =>
          exact Logs.pure value
      | parameter id default output =>
          apply (logs_dereference ih output (parameters[id]?.getD default)).bind
          intro value _ _ _
          exact Logs.ofExcept _ _
      | concatenate parts =>
          apply (Logs.mapM fun part _ => ih part).bind
          intro values _ _ _
          exact Logs.pure _
      | combine left leftType right rightType output function =>
          apply (ih left).bind
          intro leftValue _ _ _
          apply (Logs.ofExcept _ _).bind
          intro first _ _ firstRun
          apply (ih right).bind
          intro rightValue _ _ _
          apply (Logs.ofExcept _ _).bind
          intro second _ _ secondRun
          -- What the operands are coerced to is known from their runs alone.
          have typed : Call.WellTyped ⟨function, leftType, first, rightType, second⟩ :=
            ⟨Yields.coerced _ _ _ _ _ _ firstRun, Yields.coerced _ _ _ _ _ _ secondRun⟩
          apply (Logs.make typed).bind
          intro combined _ _ _
          exact Logs.ofExcept _ _
      | table output choices =>
          apply (Logs.adapt _ (Logs.pick choices)).bind
          intro position _ _ _
          apply (ih _).bind
          intro value _ _ _
          exact Logs.ofExcept _ _

end Generator

namespace Value

theorem exists_string?_eq (value : Value φ) (typed : value.type = .string) :
    ∃ text, value.string? = some text := by
  cases value with
  | string text => exact ⟨text, rfl⟩
  | number _ => cases typed
  | boolean _ => cases typed
  | generator _ _ => cases typed

theorem exists_boolean?_eq (value : Value φ) (typed : value.type = .boolean) :
    ∃ truth, value.boolean? = some truth := by
  cases value with
  | boolean truth => exact ⟨truth, rfl⟩
  | string _ => cases typed
  | number _ => cases typed
  | generator _ _ => cases typed

/-- A number of a kind is a word or float of that kind, so each kind has one constructor. -/
theorem exists_number_of_type {value : Value φ} {kind : NumberKind}
    (typed : value.type = .number kind) :
    ∃ number : Number, value = .number number ∧ number.kind = kind := by
  cases value with
  | number number => exact ⟨number, rfl, ValueType.number.inj typed⟩
  | string _ => cases typed
  | boolean _ => cases typed
  | generator _ _ => cases typed

theorem exists_int?_eq (value : Value φ) (typed : value.type = .number .int) :
    ∃ word, value.int? = some word := by
  rcases exists_number_of_type typed with ⟨number, rfl, kind⟩
  cases number <;> first | exact ⟨_, rfl⟩ | cases kind

theorem exists_long?_eq (value : Value φ) (typed : value.type = .number .long) :
    ∃ word, value.long? = some word := by
  rcases exists_number_of_type typed with ⟨number, rfl, kind⟩
  cases number <;> first | exact ⟨_, rfl⟩ | cases kind

theorem exists_double?_eq (value : Value φ) (typed : value.type = .number .double) :
    ∃ float, value.double? = some float := by
  rcases exists_number_of_type typed with ⟨number, rfl, kind⟩
  cases number <;> first | exact ⟨_, rfl⟩ | cases kind

end Value

/-- A value of a declared type can be taken out when its shape can be read off that type, so
only the coercion can fail. -/
theorem Value.expect_eq_error_iff {declared : ValueType} {shape : Value φ → Option α}
    (shaped : ∀ value : Value φ, value.type = declared → ∃ found, shape value = some found)
    (known : declared ≠ .any) {value : Value φ} {context : String} {cause : CoercionError} :
    value.expect declared shape context = .error cause ↔
      value.coerce declared context = .error cause := by
  rw [Value.expect]
  rcases adapted : value.coerce declared context with reason | adaptedValue
  · simp [bind, Except.bind]
  · rcases shaped adaptedValue ((type_of_coerce adapted).resolve_left known) with ⟨found, some⟩
    simp [bind, Except.bind, some]

/--
What a tree yields is of the type that it declares, unless any type will do. The functions that
it names are only called with operands of the types declared for them. And taking a value out
as a string, a truth value, a word or a float fails just as the coercion to its type does.
-/
theorem evaluation_type_sound (φ : Type) [Combining φ] :
    (∀ (σ : Type) [RandomSource σ] (generator : Generator φ) (parameters : Parameters φ)
        (source after : σ) (value : Value φ),
      (generator.generate parameters).run source = (.ok value, after) →
        generator.output = .any ∨ value.type = generator.output) ∧
    (∀ (σ : Type) [RandomSource σ] (generator : Generator φ) (parameters : Parameters φ)
        (source : σ),
      ∃ calls : List (Call φ), (∀ call ∈ calls, call.WellTyped) ∧
        (generator.evaluateLogged parameters (maxDepth + 1)).run ⟨source, []⟩
          = (((generator.generate parameters).run source).1,
            ⟨((generator.generate parameters).run source).2, calls⟩)) ∧
    ∀ (value : Value φ) (context : String) (cause : CoercionError),
      ((fromValue value context : Except CoercionError String) = .error cause ↔
        value.coerce .string context = .error cause) ∧
      ((fromValue value context : Except CoercionError Bool) = .error cause ↔
        value.coerce .boolean context = .error cause) ∧
      ((fromValue value context : Except CoercionError Int32) = .error cause ↔
        value.coerce (.number .int) context = .error cause) ∧
      ((fromValue value context : Except CoercionError Int64) = .error cause ↔
        value.coerce (.number .long) context = .error cause) ∧
      ((fromValue value context : Except CoercionError Float) = .error cause ↔
        value.coerce (.number .double) context = .error cause) := by
  refine ⟨?_, ?_, ?_⟩
  · intro σ _ generator parameters source after value success
    exact generator.evaluate_yields parameters (maxDepth + 1) source value after success
  · intro σ _ generator parameters source
    exact generator.logs_evaluate parameters (maxDepth + 1) source []
  · intro value context cause
    exact ⟨Value.expect_eq_error_iff Value.exists_string?_eq (by decide),
      Value.expect_eq_error_iff Value.exists_boolean?_eq (by decide),
      Value.expect_eq_error_iff Value.exists_int?_eq (by decide),
      Value.expect_eq_error_iff Value.exists_long?_eq (by decide),
      Value.expect_eq_error_iff Value.exists_double?_eq (by decide)⟩

/-- A sum of texts' lengths, one of which is read from a parameter that is itself a tree. -/
theorem evaluation_type_sound_lengths :
    let tree : Generator Combiner :=
      .combine (.parameter "name" (.string "name") .string) .string (.text "12") (.number .int)
        (.number .long) .chars
    let parameters : Parameters Combiner :=
      (∅ : Parameters Combiner).insert "name" (.generator (.supplied 0) (.text "Ann"))
    let stream := Stream.ofSeed 7
    (tree.generate parameters).run stream = (.ok (.number (.long 5)), stream) ∧
      (Value.number (.long 5) : Value Combiner).type = .number .long := by
  intro tree parameters stream
  have run : (tree.generate parameters).run stream = (.ok (.number (.long 5)), stream) := rfl
  refine ⟨run, ?_⟩
  have typed := (evaluation_type_sound Combiner).1 Stream tree parameters stream stream _ run
  exact typed.resolve_left (by decide)

end Wordloom
