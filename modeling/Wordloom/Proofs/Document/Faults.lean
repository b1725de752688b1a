import Mathlib
import Wordloom.Proofs.Document.Places
import Wordloom.Proofs.Document.Reading

/-!
# Where documents are rejected

This file shows that a syntax error points at the first lexeme that no document can go on with.

A reader that stops has read some tokens, and refuses what is left. A stage that can be gone on
from has a completion, so the tokens before the fault begin an accepted document. What other
documents do after the same lexemes is known as well, because a reader comes to one progress
only: they cannot move where this one is stuck.

Only blank text between declarations is judged late. It ends a document, so it is at fault once
something follows it, or when there is no declaration before it.
-/

namespace Wordloom.Document

variable {φ : Type} {assemble : List (Generator φ) → Generator φ}

def Lexeme.isBlank : Lexeme → Bool
  | .mark _ => false
  | .text run => Text.allBlank run

def Accepted (φ : Type) (text : String) : Prop :=
  ∃ declarations : List (Declaration φ), parse text = .ok declarations

/-! ### What a stage comes after and how it can be gone on from -/

namespace Stage

def IsOpen : Stage φ → Prop
  | .ending _ => False
  | _ => True

/-- Whether a reader can come to a stage by a lexeme. -/
def Follows : Stage φ → Lexeme → Prop
  | .between, lexeme => lexeme = .mark .semicolon
  | .ending _, lexeme => lexeme.isBlank = true
  | .named _, lexeme => lexeme.isText = true
  | .template _, _ => True
  | .reference _, lexeme => lexeme = .mark .less
  | .closing _ _, lexeme => lexeme.isText = true

end Stage

def closings (frames : List (Frame φ)) : List Lexeme :=
  (frames.map fun _ => Lexeme.mark .closeBracket) ++ [.mark .semicolon]

/-- Lexemes that end a document with a declaration. -/
def Stage.completion : Stage φ → List Lexeme
  | .between => [.text ['x'], .mark .assign, .mark .semicolon]
  | .ending _ => []
  | .named _ => [.mark .assign, .mark .semicolon]
  | .template draft => closings draft.frames
  | .reference draft => .text ['x'] :: .mark .greater :: closings draft.frames
  | .closing draft _ => .mark .greater :: closings draft.frames

theorem Move.follows {progress after : Progress φ} {token : Token}
    (move : Move assemble progress token after) : after.stage.Follows token.lexeme := by
  cases move with
  | blank blank => exact blank
  | _ => first | rfl | trivial

namespace Run

variable {progress after other : Progress φ} {earlier later tokens : List Token}

theorem exists_of_append (run : Run assemble progress (earlier ++ later) after) :
    ∃ between, Run assemble progress earlier between ∧ Run assemble between later after := by
  induction earlier generalizing progress with
  | nil => exact ⟨progress, .nil, run⟩
  | cons token earlier ih =>
      cases run with
      | cons move run =>
          rcases ih run with ⟨between, first, second⟩
          exact ⟨between, .cons move first, second⟩

theorem eq_of_run (run : Run assemble progress tokens after)
    (otherRun : Run assemble progress tokens other) : after = other := by
  have read := foldlM_step_eq_ok_iff.mpr run
  rw [foldlM_step_eq_ok_iff.mpr otherRun] at read
  exact (Except.ok.inj read).symm

theorem follows_getLast? (run : Run assemble progress tokens after) :
    ∀ token ∈ tokens.getLast?, after.stage.Follows token.lexeme := by
  intro token last
  rcases List.getLast?_eq_some_iff.mp last with ⟨before, rfl⟩
  rcases run.exists_of_append with ⟨between, -, lastRun⟩
  cases lastRun with
  | cons move rest =>
      cases rest
      exact move.follows

theorem eq_or_exists_follows (run : Run assemble progress tokens after) :
    after = progress ∨ ∃ token, tokens.getLast? = some token ∧ after.stage.Follows token.lexeme := by
  rcases last : tokens.getLast? with _ | token
  · rw [List.getLast?_eq_none_iff] at last
    subst last
    cases run
    exact .inl rfl
  · exact .inr ⟨token, rfl, run.follows_getLast? token last⟩

theorem eq_nil_of_ending {declarations : List (Declaration φ)} {blank : Token}
    (run : Run assemble ⟨declarations, .ending blank⟩ tokens after) :
    tokens = [] ∧ after = ⟨declarations, .ending blank⟩ := by
  cases run with
  | nil => exact ⟨rfl, rfl⟩
  | cons move rest => cases move

end Run

/-! ### What a reader refuses -/

/-- Tokens up to an end that a reader refuses, with the error that points at the first of them. -/
inductive Refuses (assemble : List (Generator φ) → Generator φ) (ending : Position) :
    Progress φ → List Token → SyntaxError → Prop where
  | atEnd {progress : Progress φ} {fault : Fault} (isOpen : progress.stage.IsOpen) :
      Refuses assemble ending progress [] ⟨fault, ending, none⟩
  | atToken {progress : Progress φ} {fault : Fault} {token : Token} {later : List Token}
      (isOpen : progress.stage.IsOpen) (stuck : ∀ after, ¬Move assemble progress token after) :
      Refuses assemble ending progress (token :: later)
        ⟨fault, token.position, some token.lexeme⟩
  | atBlank {declarations : List (Declaration φ)} {fault : Fault} {run : List Char}
      {position : Position} {later : List Token} (blank : Text.allBlank run = true) :
      Refuses assemble ending ⟨declarations, .between⟩ (⟨.text run, position⟩ :: later)
        ⟨fault, position, some (.text run)⟩

theorem readElement_eq_error {progress : Progress φ} {draft : Draft φ} {token : Token}
    {error : SyntaxError}
    (failed : Progress.readElement assemble progress draft token = .error error) :
    ∃ fault, error = ⟨fault, token.position, some token.lexeme⟩ := by
  unfold Progress.readElement at failed
  simp only at failed
  split at failed
  · cases failed
  · cases failed
  · split at failed
    · cases failed
    · cases failed
      exact ⟨_, rfl⟩
  · cases failed
  · cases failed
  · cases failed
  · cases failed
    exact ⟨_, rfl⟩

theorem step_eq_error {progress : Progress φ} {token : Token} {error : SyntaxError}
    (isOpen : progress.stage.IsOpen) (failed : progress.step assemble token = .error error) :
    ∃ fault, error = ⟨fault, token.position, some token.lexeme⟩ := by
  unfold Progress.step at failed
  split at failed
  · split at failed <;> cases failed
  · cases failed
    exact ⟨_, rfl⟩
  · rename_i ending
    simp [ending, Stage.IsOpen] at isOpen
  · cases failed
  · cases failed
    exact ⟨_, rfl⟩
  · exact readElement_eq_error failed
  · split at failed
    · cases failed
      exact ⟨_, rfl⟩
    · cases failed
  · cases failed
    exact ⟨_, rfl⟩
  · cases failed
  · cases failed
    exact ⟨_, rfl⟩

theorem finish_eq_error {progress : Progress φ} {position : Position} {error : SyntaxError}
    (isOpen : progress.stage.IsOpen) (failed : progress.finish position = .error error) :
    ∃ fault, error = ⟨fault, position, none⟩ := by
  rcases progress with ⟨declarations, stage⟩
  cases stage with
  | ending blank => exact isOpen.elim
  | between =>
      simp only [Progress.finish] at failed
      split at failed
      · cases failed
        exact ⟨_, rfl⟩
      · cases failed
  | _ =>
      cases failed
      exact ⟨_, rfl⟩

/-- After a blank text between declarations, that text is at fault whatever comes. -/
theorem found_of_ending {declarations : List (Declaration φ)} {blank : Token}
    {tokens : List Token} {position : Position} {error : SyntaxError}
    (failed : tokens.foldlM (Progress.step assemble) ⟨declarations, .ending blank⟩ >>=
      (·.finish position) = .error error) :
    ∃ fault, error = ⟨fault, blank.position, some blank.lexeme⟩ := by
  rcases tokens with _ | ⟨token, later⟩
  · simp only [List.foldlM_nil, pure_bind, Progress.finish] at failed
    split at failed
    · cases failed
      exact ⟨_, rfl⟩
    · cases failed
  · cases failed
    exact ⟨_, rfl⟩

theorem exists_refuses_of_failed {progress : Progress φ} {tokens : List Token}
    {position : Position} {error : SyntaxError} (isOpen : progress.stage.IsOpen)
    (failed : tokens.foldlM (Progress.step assemble) progress >>= (·.finish position)
      = .error error) :
    ∃ earlier later between, tokens = earlier ++ later ∧
      Run assemble progress earlier between ∧ Refuses assemble position between later error := by
  induction tokens generalizing progress with
  | nil =>
      rcases finish_eq_error isOpen failed with ⟨fault, rfl⟩
      exact ⟨[], [], progress, rfl, .nil, .atEnd isOpen⟩
  | cons token tokens ih =>
      rw [List.foldlM_cons] at failed
      rcases stepped : progress.step assemble token with cause | between
      · rw [stepped] at failed
        cases failed
        rcases step_eq_error isOpen stepped with ⟨fault, rfl⟩
        refine ⟨[], token :: tokens, progress, rfl, .nil, .atToken isOpen ?_⟩
        intro after move
        rw [move.step_eq_ok] at stepped
        cases stepped
      · rw [stepped] at failed
        have move := move_of_step stepped
        by_cases stillOpen : between.stage.IsOpen
        · rcases ih stillOpen failed with ⟨earlier, later, last, rfl, run, refuses⟩
          exact ⟨token :: earlier, later, last, rfl, .cons move run, refuses⟩
        · cases move with
          | blank blank =>
              rcases found_of_ending failed with ⟨fault, rfl⟩
              exact ⟨[], _, _, rfl, .nil, .atBlank blank⟩
          | _ => exact absurd trivial stillOpen

theorem Refuses.isOpen {ending : Position} {progress : Progress φ} {later : List Token}
    {error : SyntaxError} (refuses : Refuses assemble ending progress later error) :
    progress.stage.IsOpen := by
  cases refuses with
  | atEnd isOpen => exact isOpen
  | atToken isOpen stuck => exact isOpen
  | atBlank blank => trivial

theorem Refuses.position_eq {ending : Position} {progress : Progress φ} {later : List Token}
    {error : SyntaxError} (refuses : Refuses assemble ending progress later error) :
    error.position = (later.head?.map Token.position).getD ending := by
  cases refuses <;> rfl

theorem Refuses.found_eq {ending : Position} {progress : Progress φ} {later : List Token}
    {error : SyntaxError} (refuses : Refuses assemble ending progress later error) :
    error.found = later.head?.map Token.lexeme := by
  cases refuses <;> rfl

/-! ### Completions -/

theorem exists_eq_cons_of_map_lexeme {lexeme : Lexeme} {rest : List Lexeme} {tokens : List Token}
    (same : tokens.map Token.lexeme = lexeme :: rest) :
    ∃ position later, tokens = ⟨lexeme, position⟩ :: later ∧ later.map Token.lexeme = rest := by
  rcases List.map_eq_cons_iff.mp same with ⟨⟨found, position⟩, later, rfl, rfl, others⟩
  exact ⟨position, later, rfl, others⟩

theorem exists_run_closings {declarations : List (Declaration φ)} {name : String}
    {tokens : List Token} (frames : List (Frame φ))
    (same : tokens.map Token.lexeme = closings frames) (elements : List (Generator φ)) :
    ∃ declaration, Run assemble ⟨declarations, .template ⟨name, frames, elements⟩⟩ tokens
      ⟨declaration :: declarations, .between⟩ := by
  induction frames generalizing elements tokens with
  | nil =>
      rcases exists_eq_cons_of_map_lexeme same with ⟨position, later, rfl, none⟩
      rw [List.map_eq_nil_iff] at none
      subst none
      exact ⟨_, .single .semicolon⟩
  | cons frame frames ih =>
      rcases exists_eq_cons_of_map_lexeme same with ⟨position, later, rfl, others⟩
      rcases ih others _ with ⟨declaration, run⟩
      exact ⟨declaration, .cons .closeBracket run⟩

/-- A completion is read to the end of a declaration, wherever its lexemes stand. -/
theorem exists_run_completion {progress : Progress φ} {tokens : List Token}
    (isOpen : progress.stage.IsOpen)
    (same : tokens.map Token.lexeme = progress.stage.completion) :
    ∃ declaration, Run assemble progress tokens
      ⟨declaration :: progress.declarations, .between⟩ := by
  have visible : Text.allBlank ['x'] = false := by decide
  rcases progress with ⟨declarations, stage⟩
  cases stage with
  | between =>
      rcases exists_eq_cons_of_map_lexeme same with ⟨_, _, rfl, assigned⟩
      rcases exists_eq_cons_of_map_lexeme assigned with ⟨_, _, rfl, rest⟩
      rcases exists_run_closings [] rest [] with ⟨declaration, run⟩
      exact ⟨declaration, .cons (.name visible) (.cons .assign run)⟩
  | ending blank => exact isOpen.elim
  | named name =>
      rcases exists_eq_cons_of_map_lexeme same with ⟨_, _, rfl, rest⟩
      rcases exists_run_closings [] rest [] with ⟨declaration, run⟩
      exact ⟨declaration, .cons .assign run⟩
  | template draft => exact exists_run_closings draft.frames same draft.elements
  | reference draft =>
      rcases exists_eq_cons_of_map_lexeme same with ⟨_, _, rfl, closed⟩
      rcases exists_eq_cons_of_map_lexeme closed with ⟨_, _, rfl, rest⟩
      rcases exists_run_closings draft.frames rest _ with ⟨declaration, run⟩
      exact ⟨declaration, .cons (.id visible) (.cons .greater run)⟩
  | closing draft id =>
      rcases exists_eq_cons_of_map_lexeme same with ⟨_, _, rfl, rest⟩
      rcases exists_run_closings draft.frames rest _ with ⟨declaration, run⟩
      exact ⟨declaration, .cons .greater run⟩

theorem maximal_closings (frames : List (Frame φ)) : Maximal (closings frames) := by
  induction frames with
  | nil => exact .cons_mark .semicolon .nil
  | cons frame frames ih => exact .cons_mark .closeBracket ih

theorem isText_head?_closings (frames : List (Frame φ)) :
    ∀ first ∈ (closings frames).head?, first.isText = false := by
  cases frames <;> simp [closings]

theorem Stage.maximal_completion (stage : Stage φ) : Maximal stage.completion := by
  have visible : Plain ['x'] := by simp [Plain, Mark.ofCharacter?]
  have letter : ['x'] ≠ [] := by simp
  cases stage with
  | between =>
      exact .cons_text letter visible (by simp) (.cons_mark _ (.cons_mark _ .nil))
  | ending blank => exact .nil
  | named name => exact .cons_mark _ (.cons_mark _ .nil)
  | template draft => exact maximal_closings draft.frames
  | reference draft =>
      exact .cons_text letter visible (by simp) (.cons_mark _ (maximal_closings draft.frames))
  | closing draft id => exact .cons_mark _ (maximal_closings draft.frames)

theorem Stage.apart_completion {stage : Stage φ} {lexeme : Lexeme}
    (follows : stage.Follows lexeme) :
    ∀ first ∈ stage.completion.head?, Apart lexeme.isText first.isText := by
  intro first member
  -- Only two completions start with a text, and these stages come after a mark.
  cases stage with
  | between =>
      rw [show lexeme = .mark .semicolon from follows]
      exact apart_false_left _
  | reference draft =>
      rw [show lexeme = .mark .less from follows]
      exact apart_false_left _
  | ending blank => simp [completion] at member
  | named name =>
      simp only [completion, List.head?_cons, Option.mem_some_iff] at member
      simp [← member]
  | template draft =>
      rw [isText_head?_closings draft.frames first member]
      exact apart_false_right _
  | closing draft id =>
      simp only [completion, List.head?_cons, Option.mem_some_iff] at member
      simp [← member]

/-- Tokens that a reader accepted begin an accepted document, if they can be gone on from. -/
theorem exists_accepted_of_run {text : List Char} {earlier later : List Token}
    {progress : Progress φ} (split : tokens text = earlier ++ later)
    (run : Run sequence .start earlier progress) (isOpen : progress.stage.IsOpen) :
    ∃ other, Accepted φ other ∧ earlier.map Token.lexeme <+: lexemes other.toList := by
  have maximal := maximal_lexemes text
  rw [lexemes, split, List.map_append] at maximal
  have apart : ∀ last ∈ (earlier.map Token.lexeme).getLast?,
      ∀ first ∈ progress.stage.completion.head?, Apart last.isText first.isText := by
    intro last lastMember
    rw [List.getLast?_map, Option.mem_def, Option.map_eq_some_iff] at lastMember
    rcases lastMember with ⟨token, member, rfl⟩
    exact Stage.apart_completion (run.follows_getLast? token member)
  have whole := maximal.left_of_append.append progress.stage.maximal_completion apart
  have cut := lexemes_eq_of_flatMap_raw whole rfl
  rcases exists_tokens_eq_append split cut with ⟨rest, all, completion⟩
  rcases exists_run_completion isOpen completion with ⟨declaration, ended⟩
  have read := run.append ended
  rw [← all] at read
  refine ⟨String.ofList ((earlier.map Token.lexeme ++ progress.stage.completion).flatMap
    Lexeme.raw), ⟨(declaration :: progress.declarations).reverse, ?_⟩, ?_⟩
  · rw [parse, String.toList_ofList, parseWith_eq_ok_iff]
    exact ⟨_, read, .inl rfl, by simp, rfl⟩
  · rw [String.toList_ofList, cut]
    exact List.prefix_append _ _

/-! ### The lexeme at fault -/

/-- A document that begins with the same tokens is read to the same progress after them. -/
theorem exists_move_of_accepted {text : List Char} {earlier later : List Token} {token : Token}
    {progress : Progress φ} {other : String} (split : tokens text = earlier ++ token :: later)
    (run : Run sequence .start earlier progress) (accepted : Accepted φ other)
    (begins : earlier.map Token.lexeme ++ [token.lexeme] <+: lexemes other.toList) :
    ∃ after rest final, Move sequence progress token after ∧ Run sequence after rest final ∧
      final.declarations ≠ [] ∧
      lexemes other.toList
        = earlier.map Token.lexeme ++ [token.lexeme] ++ rest.map Token.lexeme := by
  rcases accepted with ⟨declarations, accepted⟩
  rcases parseWith_eq_ok_iff.mp accepted with ⟨final, whole, -, present, -⟩
  rcases begins with ⟨following, begins⟩
  have reached : tokens text = (earlier ++ [token]) ++ later := by simpa using split
  have alike : lexemes other.toList = (earlier ++ [token]).map Token.lexeme ++ following := by
    simpa using begins.symm
  rcases exists_tokens_eq_append reached alike with ⟨rest, all, rfl⟩
  rw [all] at whole
  rcases whole.exists_of_append with ⟨after, first, last⟩
  rcases first.exists_of_append with ⟨same, before, single⟩
  obtain rfl := before.eq_of_run run
  cases single with
  | cons move none =>
      cases none
      exact ⟨_, rest, final, move, last, present, begins.symm⟩

/--
What a syntax error says of the lexemes of a rejected text: it points at the first of the later
ones, or at the end if there are none.
-/
structure PointsAt (φ : Type) (text : String) (error : SyntaxError)
    (earlier later : List Lexeme) : Prop where
  cut : lexemes text.toList = earlier ++ later
  line_eq : error.position.line = (earlier.flatMap Lexeme.raw).count '\n' + 1
  column_eq : error.position.column
    = ((earlier.flatMap Lexeme.raw).reverse.takeWhile (· != '\n')).length + 1
  /-- What stands before the error can be gone on with. -/
  completable : ∃ other, Accepted φ other ∧ earlier <+: lexemes other.toList
  /-- What the error points at can not, but for a blank text that ends a document. -/
  offends : ∀ offender ∈ later.head?, ∀ other, Accepted φ other →
    earlier ++ [offender] <+: lexemes other.toList →
      lexemes other.toList = earlier ++ [offender] ∧ offender.isBlank = true ∧
        earlier.getLast? = some (.mark .semicolon)
  /-- The error shows a mark as it is, and neither text nor the end. -/
  token_eq : error.token = match later.head? with
    | some (.mark found) => String.singleton found.character
    | some (.text _) => ""
    | none => ""
  isBlank : ∀ run, later.head? = some (.text run) → Text.allBlank run = true

theorem Refuses.offends {text : List Char} {earlier later : List Token} {ending : Position}
    {progress : Progress φ} {error : SyntaxError} (split : tokens text = earlier ++ later)
    (run : Run sequence .start earlier progress)
    (refuses : Refuses sequence ending progress later error) {offender : Lexeme}
    (first : offender ∈ (later.map Token.lexeme).head?) {other : String}
    (accepted : Accepted φ other)
    (begins : earlier.map Token.lexeme ++ [offender] <+: lexemes other.toList) :
    lexemes other.toList = earlier.map Token.lexeme ++ [offender] ∧ offender.isBlank = true ∧
      (earlier.map Token.lexeme).getLast? = some (.mark .semicolon) := by
  cases refuses with
  | atEnd isOpen => simp at first
  | atToken isOpen stuck =>
      simp only [List.map_cons, List.head?_cons, Option.mem_some_iff] at first
      subst first
      rcases exists_move_of_accepted split run accepted begins with ⟨after, -, -, move, -⟩
      exact absurd move (stuck after)
  | @atBlank declarations _ blankRun _ later blank =>
      simp only [List.map_cons, List.head?_cons, Option.mem_some_iff] at first
      subst first
      rcases exists_move_of_accepted split run accepted begins with
        ⟨after, rest, final, move, ended, present, whole⟩
      cases move with
      | name notBlank => simp [blank] at notBlank
      | blank _ =>
          rcases ended.eq_nil_of_ending with ⟨rfl, rfl⟩
          refine ⟨by simpa using whole, blank, ?_⟩
          rcases run.eq_or_exists_follows with start | ⟨token, last, semicolon⟩
          · exact absurd (congrArg Progress.declarations start) present
          · rw [List.getLast?_map, last]
            exact congrArg some semicolon

/-- A text that is refused does not stand after another one, so only where a name should be. -/
theorem Refuses.isBlank {text : List Char} {earlier later : List Token} {ending : Position}
    {progress : Progress φ} {error : SyntaxError} (split : tokens text = earlier ++ later)
    (run : Run assemble .start earlier progress)
    (refuses : Refuses assemble ending progress later error) {letters : List Char}
    (first : (later.map Token.lexeme).head? = some (.text letters)) :
    Text.allBlank letters = true := by
  have maximal := maximal_lexemes text
  rw [lexemes, split, List.map_append] at maximal
  have noText : ∀ token ∈ earlier.getLast?, token.lexeme.isText = false := by
    intro token last
    have apart := (List.isChain_append.mp maximal.apart).2.2 token.lexeme
      (by simp [show earlier.getLast? = some token from last]) _ first
    simpa [Apart] using apart
  cases refuses with
  | atEnd isOpen => simp at first
  | atBlank blank =>
      simp only [List.map_cons, List.head?_cons, Option.some.injEq, Lexeme.text.injEq] at first
      rwa [← first]
  | @atToken _ _ token _ isOpen stuck =>
      rcases token with ⟨lexeme, position⟩
      simp only [List.map_cons, List.head?_cons, Option.some.injEq] at first
      subst first
      by_contra notBlank
      rw [Bool.not_eq_true] at notBlank
      have comes := run.eq_or_exists_follows
      rcases progress with ⟨declarations, stage⟩
      cases stage with
      | between => exact stuck _ (.name notBlank)
      | ending blank => exact isOpen
      | template draft => exact stuck _ .text
      | reference draft => exact stuck _ (.id notBlank)
      | named name =>
          rcases comes with start | ⟨token, last, isText⟩
          · cases start
          · exact Bool.false_ne_true ((noText token last).symm.trans isText)
      | closing draft id =>
          rcases comes with start | ⟨token, last, isText⟩
          · cases start
          · exact Bool.false_ne_true ((noText token last).symm.trans isText)

/--
A syntax error points at the first lexeme that cannot be accepted, or at the end. All that stands
before it begins some accepted document, and with it no accepted document begins, unless it is
a blank text after a semicolon. Only a document that ends there has such a text.
-/
theorem syntax_error_at_first_offender (φ : Type) {text : String} {error : SyntaxError}
    (rejected : (parse text : Except SyntaxError (List (Declaration φ))) = .error error) :
    ∃ earlier later, PointsAt φ text error earlier later := by
  have isOpen : (Progress.start : Progress φ).stage.IsOpen := trivial
  rcases exists_refuses_of_failed isOpen rejected with
    ⟨earlier, later, progress, split, run, refuses⟩
  have place : error.position
      = Position.start.afterText ((earlier.map Token.lexeme).flatMap Lexeme.raw) := by
    rw [refuses.position_eq, position_head?_getD split]
  have blank : ∀ letters, (later.map Token.lexeme).head? = some (.text letters) →
      Text.allBlank letters = true := fun _ first => refuses.isBlank split run first
  refine ⟨earlier.map Token.lexeme, later.map Token.lexeme, ?_⟩
  constructor
  · rw [lexemes, split, List.map_append]
  · rw [place, Position.line_afterText_start]
  · rw [place, Position.column_afterText_start]
  · exact exists_accepted_of_run split run refuses.isOpen
  · intro offender first other accepted begins
    exact refuses.offends split run first accepted begins
  · rw [SyntaxError.token, refuses.found_eq, List.head?_map]
    rcases later with _ | ⟨⟨mark | letters, position⟩, later⟩
    · rfl
    · rfl
    · have empty := Text.trim_eq_nil.mpr (blank letters rfl)
      simp [Lexeme.trimmed, empty]
  · exact blank

theorem syntax_error_at_first_offender_bracket :
    let text := "a=x;\n b=[y/<z>;"
    ∃ error, (parse text : Except SyntaxError (List (Declaration Empty))) = .error error ∧
      error.position = ⟨2, 10⟩ ∧ error.token = ";" ∧
      ∃ earlier later, PointsAt Empty text error earlier later := by
  intro text
  have rejected : (parse text : Except SyntaxError (List (Declaration Empty)))
      = .error ⟨.markExpected .closeBracket, ⟨2, 10⟩, some (.mark .semicolon)⟩ := by cbv
  exact ⟨_, rejected, rfl, by decide, syntax_error_at_first_offender Empty rejected⟩

end Wordloom.Document
