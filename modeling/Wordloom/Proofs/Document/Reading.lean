import Wordloom.Document.Syntax

/-!
# Moves of the reader of documents

This file says once what a token can do to a reader that does not reject it. A `Move` is such a
token with the progress before and after it, and a `Run` is a list of moves. Both are what
`Progress.step` and its iteration compute when they do not fail, so facts about accepted
documents are proved by cases on moves and by induction on runs.
-/

namespace Wordloom.Document

variable {φ : Type} {assemble : List (Generator φ) → Generator φ}

/-- A token that is accepted, with the progress before and after it. -/
inductive Move (assemble : List (Generator φ) → Generator φ) :
    Progress φ → Token → Progress φ → Prop where
  | blank {declarations : List (Declaration φ)} {run : List Char} {position : Position}
      (blank : Text.allBlank run = true) :
      Move assemble ⟨declarations, .between⟩ ⟨.text run, position⟩
        ⟨declarations, .ending ⟨.text run, position⟩⟩
  | name {declarations : List (Declaration φ)} {run : List Char} {position : Position}
      (present : Text.allBlank run = false) :
      Move assemble ⟨declarations, .between⟩ ⟨.text run, position⟩
        ⟨declarations, .named (String.ofList (Text.trim run))⟩
  | assign {declarations : List (Declaration φ)} {name : String} {position : Position} :
      Move assemble ⟨declarations, .named name⟩ ⟨.mark .assign, position⟩
        ⟨declarations, .template ⟨name, [], []⟩⟩
  | text {declarations : List (Declaration φ)} {name : String} {frames : List (Frame φ)}
      {elements : List (Generator φ)} {run : List Char} {position : Position} :
      Move assemble ⟨declarations, .template ⟨name, frames, elements⟩⟩ ⟨.text run, position⟩
        ⟨declarations, .template ⟨name, frames, .text (String.ofList run) :: elements⟩⟩
  | less {declarations : List (Declaration φ)} {draft : Draft φ} {position : Position} :
      Move assemble ⟨declarations, .template draft⟩ ⟨.mark .less, position⟩
        ⟨declarations, .reference draft⟩
  | id {declarations : List (Declaration φ)} {draft : Draft φ} {run : List Char}
      {position : Position} (present : Text.allBlank run = false) :
      Move assemble ⟨declarations, .reference draft⟩ ⟨.text run, position⟩
        ⟨declarations, .closing draft (String.ofList (Text.trim run))⟩
  | greater {declarations : List (Declaration φ)} {name id : String} {frames : List (Frame φ)}
      {elements : List (Generator φ)} {position : Position} :
      Move assemble ⟨declarations, .closing ⟨name, frames, elements⟩ id⟩
        ⟨.mark .greater, position⟩
        ⟨declarations, .template
          ⟨name, frames, .parameter id (.string id) .string :: elements⟩⟩
  | openBracket {declarations : List (Declaration φ)} {name : String} {frames : List (Frame φ)}
      {elements : List (Generator φ)} {position : Position} (room : frames.length < maxDepth) :
      Move assemble ⟨declarations, .template ⟨name, frames, elements⟩⟩
        ⟨.mark .openBracket, position⟩
        ⟨declarations, .template ⟨name, ⟨elements, []⟩ :: frames, []⟩⟩
  | slash {declarations : List (Declaration φ)} {name : String} {frames : List (Frame φ)}
      {before options elements : List (Generator φ)} {position : Position} :
      Move assemble ⟨declarations, .template ⟨name, ⟨before, options⟩ :: frames, elements⟩⟩
        ⟨.mark .slash, position⟩
        ⟨declarations, .template
          ⟨name, ⟨before, assemble elements.reverse :: options⟩ :: frames, []⟩⟩
  | closeBracket {declarations : List (Declaration φ)} {name : String}
      {frames : List (Frame φ)} {before options elements : List (Generator φ)}
      {position : Position} :
      Move assemble ⟨declarations, .template ⟨name, ⟨before, options⟩ :: frames, elements⟩⟩
        ⟨.mark .closeBracket, position⟩
        ⟨declarations, .template
          ⟨name, frames,
            .select .string (assemble elements.reverse :: options).reverse :: before⟩⟩
  | semicolon {declarations : List (Declaration φ)} {name : String}
      {elements : List (Generator φ)} {position : Position} :
      Move assemble ⟨declarations, .template ⟨name, [], elements⟩⟩ ⟨.mark .semicolon, position⟩
        ⟨⟨name, assemble elements.reverse⟩ :: declarations, .between⟩

theorem Move.step_eq_ok {progress after : Progress φ} {token : Token}
    (move : Move assemble progress token after) :
    progress.step assemble token = .ok after := by
  cases move with
  | blank blank => simp [Progress.step, blank]
  | name present => simp [Progress.step, present]
  | id present => simp [Progress.step, present]
  | openBracket room => simp [Progress.step, Progress.readElement, room]
  | _ => rfl

theorem move_of_readElement {declarations : List (Declaration φ)} {draft : Draft φ}
    {after : Progress φ} {token : Token}
    (accepted : Progress.readElement assemble ⟨declarations, .template draft⟩ draft token
      = .ok after) : Move assemble ⟨declarations, .template draft⟩ token after := by
  rcases draft with ⟨name, frames, elements⟩
  rcases token with ⟨lexeme, position⟩
  unfold Progress.readElement at accepted
  simp only at accepted
  split at accepted
  · cases accepted
    exact .text
  · cases accepted
    exact .less
  · split at accepted
    · cases accepted
      exact .openBracket ‹_›
    · cases accepted
  · cases accepted
    exact .slash
  · cases accepted
    exact .closeBracket
  · cases accepted
    exact .semicolon
  · cases accepted

theorem move_of_step {progress after : Progress φ} {token : Token}
    (accepted : progress.step assemble token = .ok after) :
    Move assemble progress token after := by
  rcases progress with ⟨declarations, stage⟩
  rcases token with ⟨lexeme, position⟩
  unfold Progress.step at accepted
  simp only at accepted
  split at accepted
  · split at accepted
    · cases accepted
      exact .blank ‹_›
    · cases accepted
      exact .name (Bool.eq_false_iff.mpr ‹_›)
  · cases accepted
  · cases accepted
  · cases accepted
    exact .assign
  · cases accepted
  · exact move_of_readElement accepted
  · split at accepted
    · cases accepted
    · cases accepted
      exact .id (Bool.eq_false_iff.mpr ‹_›)
  · cases accepted
  · cases accepted
    exact .greater
  · cases accepted

theorem step_eq_ok_iff {progress after : Progress φ} {token : Token} :
    progress.step assemble token = .ok after ↔ Move assemble progress token after :=
  ⟨move_of_step, Move.step_eq_ok⟩

/-- Tokens that are accepted one after the other, with the progress before and after them. -/
inductive Run (assemble : List (Generator φ) → Generator φ) :
    Progress φ → List Token → Progress φ → Prop where
  | nil {progress : Progress φ} : Run assemble progress [] progress
  | cons {progress between after : Progress φ} {token : Token} {tokens : List Token}
      (move : Move assemble progress token between) (run : Run assemble between tokens after) :
      Run assemble progress (token :: tokens) after

namespace Run

variable {progress between after : Progress φ} {token : Token} {tokens later : List Token}

theorem single (move : Move assemble progress token after) :
    Run assemble progress [token] after :=
  .cons move .nil

theorem append (first : Run assemble progress tokens between)
    (second : Run assemble between later after) :
    Run assemble progress (tokens ++ later) after := by
  induction first with
  | nil => exact second
  | cons move run ih => exact .cons move (ih second)

end Run

theorem foldlM_step_eq_ok_iff {progress after : Progress φ} {tokens : List Token} :
    tokens.foldlM (Progress.step assemble) progress = .ok after ↔
      Run assemble progress tokens after := by
  induction tokens generalizing progress with
  | nil =>
      constructor
      · intro accepted
        cases accepted
        exact .nil
      · rintro ⟨⟩
        rfl
  | cons token tokens ih =>
      rw [List.foldlM_cons]
      constructor
      · intro accepted
        rcases stepped : progress.step assemble token with _ | between
        · simp [stepped, bind, Except.bind] at accepted
        · simp only [stepped, bind, Except.bind] at accepted
          exact .cons (step_eq_ok_iff.mp stepped) (ih.mp accepted)
      · intro run
        cases run with
        | cons move run =>
            rw [step_eq_ok_iff.mpr move]
            exact ih.mpr run

/-- A reader can stop between declarations or after a blank text, once there is a declaration. -/
theorem finish_eq_ok_iff {progress : Progress φ} {position : Position}
    {declarations : List (Declaration φ)} :
    progress.finish position = .ok declarations ↔
      (progress.stage = .between ∨ ∃ blank, progress.stage = .ending blank) ∧
        progress.declarations ≠ [] ∧ declarations = progress.declarations.reverse := by
  rcases progress with ⟨finished, stage⟩
  cases stage with
  | between =>
      rcases finished with _ | ⟨first, others⟩
      · simp [Progress.finish]
      · simp [Progress.finish, eq_comm]
  | ending blank =>
      rcases finished with _ | ⟨first, others⟩
      · simp [Progress.finish, Progress.fail]
      · simp [Progress.finish, eq_comm]
  | named name => simp [Progress.finish]
  | template draft => simp [Progress.finish]
  | reference draft => simp [Progress.finish]
  | closing draft id => simp [Progress.finish]

/-- A document is accepted exactly when a run over its tokens ends where the reader can stop. -/
theorem parseWith_eq_ok_iff {text : List Char} {declarations : List (Declaration φ)} :
    parseWith assemble text = .ok declarations ↔
      ∃ progress, Run assemble .start (tokens text) progress ∧
        (progress.stage = .between ∨ ∃ blank, progress.stage = .ending blank) ∧
          progress.declarations ≠ [] ∧ declarations = progress.declarations.reverse := by
  rw [parseWith]
  constructor
  · intro accepted
    rcases read : (tokens text).foldlM (Progress.step assemble) .start with _ | progress
    · simp [read, bind, Except.bind] at accepted
    · simp only [read, bind, Except.bind] at accepted
      exact ⟨progress, foldlM_step_eq_ok_iff.mp read, finish_eq_ok_iff.mp accepted⟩
  · rintro ⟨progress, run, stops⟩
    simp only [foldlM_step_eq_ok_iff.mpr run, bind, Except.bind]
    exact finish_eq_ok_iff.mpr stops

end Wordloom.Document
