import Wordloom.Preview.Start
import Wordloom.Proofs.Generator.Batch

/-!
# Sessions of the preview shell

This file gives the state that a session has come to before each of its prompts. A command makes
one of four changes to the shell or none, and which one it is can be told from the command and the
registered names. What a request comes to makes no difference, and neither does its count.

So the changes that some lines make are enough to know the shell after them. Its stream has made
two draws for every request since it was started, which was by the last of the seeds.
-/

namespace Wordloom.Preview

/-- The name that a request with a valid count asks for. -/
def Command.requested? : Command → Option String
  | .generate [name] => some name
  | .generate (name :: word :: _) => (readCount word).map fun _ => name
  | .bulk (name :: word :: _) => ((readCount word).filter (0 < ·)).map fun _ => name
  | _ => none

/-- Something that a command changes in a shell. -/
inductive Change where
  | draws
  | seeds (seed : UInt64)
  | sets (name value : String)
  | unsets (name : String)
deriving DecidableEq

/-- The change of a request, which draws nothing for a name that is not registered. -/
def Change.ofRequest? (registry : Registry Combiner) (requested : Option String) :
    Option Change :=
  if requested.any registry.contains then some .draws else none

/-- What a command changes in a shell with a registry. -/
def Command.change? (registry : Registry Combiner) : Command → Option Change
  | .generate arguments => Change.ofRequest? registry (Command.generate arguments).requested?
  | .bulk arguments => Change.ofRequest? registry (Command.bulk arguments).requested?
  | .set (name :: first :: rest) => some (.sets name (" ".intercalate (first :: rest)))
  | .unset (name :: _) => some (.unsets name)
  | .seed (word :: _) => (readCount word).map fun number => .seeds (UInt64.ofNat number)
  | _ => none

namespace Change

def seed? : Change → Option UInt64
  | .seeds seed => some seed
  | _ => none

/-- The parameters after a change. -/
def edit (parameters : Parameters Combiner) : Change → Parameters Combiner
  | .sets name value => parameters.insert name (.string value)
  | .unsets name => parameters.erase name
  | .draws => parameters
  | .seeds _ => parameters

/-- The last seed that some changes start a stream from. -/
def lastSeed? (changes : List Change) : Option UInt64 :=
  changes.reverse.findSome? seed?

/-- The number of requests that draw after the last seed. -/
def drawsSinceSeed (changes : List Change) : Nat :=
  (changes.reverse.takeWhile fun change => change.seed?.isNone).count .draws

@[simp]
theorem lastSeed?_append_singleton (changes : List Change) (change : Change) :
    lastSeed? (changes ++ [change]) = change.seed?.or (lastSeed? changes) := by
  rw [lastSeed?, List.reverse_append, List.reverse_singleton, List.singleton_append]
  rcases seeded : change.seed? with _ | seed
  · simp [lastSeed?, seeded]
  · simp [seeded]

@[simp]
theorem drawsSinceSeed_append_singleton (changes : List Change) (change : Change) :
    drawsSinceSeed (changes ++ [change])
      = if change.seed?.isSome then 0
        else drawsSinceSeed changes + if change = .draws then 1 else 0 := by
  rw [drawsSinceSeed, List.reverse_append, List.reverse_singleton, List.singleton_append]
  rcases seeded : change.seed? with _ | seed
  · simp [drawsSinceSeed, seeded, List.count_cons]
  · simp [seeded]

end Change

/-- The changes that some lines make in a shell with a registry. -/
def changes (registry : Registry Combiner) (lines : List String) : List Change :=
  (lines.map Command.ofLine).filterMap (Command.change? registry)

namespace Shell

/-- The shell after a change. -/
def apply (shell : Shell) : Change → Shell
  | .draws => { shell with stream := RandomSource.advance 2 shell.stream }
  | .seeds seed => { shell with seed, stream := .ofSeed seed }
  | change => { shell with parameters := change.edit shell.parameters }

/-- The shell before the prompt that follows some lines, unless one of them quits. -/
def after (shell : Shell) : List String → Option Shell
  | [] => some shell
  | line :: rest => (shell.run (.ofLine line)).2.bind fun next => next.after rest

/-- What is printed for some lines of input, up to the next prompt. -/
def printed (shell : Shell) : List String → String
  | [] => ""
  | line :: rest =>
    let (text, next) := shell.run (.ofLine line)
    prompt ++ text ++ (next.map fun next => next.printed rest).getD ""

/-- A session goes on from the shell after the lines that it had so far. -/
theorem session_append (shell : Shell) (lines rest : List String) :
    shell.session (lines ++ rest)
      = shell.printed lines ++ ((shell.after lines).map fun next => next.session rest).getD "" := by
  induction lines generalizing shell with
  | nil => simp [printed, after]
  | cons line lines ih =>
      rw [List.cons_append, session, printed, after]
      rcases shell.run (.ofLine line) with ⟨text, _ | next⟩
      · simp
      · simp [ih, String.append_assoc]

section Step

variable (shell : Shell)

/-- A request draws the same whatever its count is, and also when it fails. -/
theorem snd_respond (name : String) (count : Nat) (print : List String → String) :
    (shell.respond name count print).2
      = (Change.ofRequest? shell.registry (some name)).elim shell shell.apply := by
  have requests : (shell.respond name count print).2 = (shell.request name count).2 := by
    rw [respond]
    rcases shell.request name count with ⟨cause | values, next⟩
    · rfl
    · rfl
  rw [requests, request, Change.ofRequest?, Option.any_some, Registry.contains_eq_isSome_find?]
  rcases found : shell.registry.find? name with _ | tree
  · rw [Registry.run_getBatch_of_find?_eq_none found]
    rfl
  · rw [Registry.run_getBatch_of_find?_eq_some found]
    rfl

theorem snd_generate (arguments : List String) :
    (shell.generate arguments).2
      = ((Command.generate arguments).change? shell.registry).elim shell shell.apply := by
  rcases arguments with _ | ⟨name, _ | ⟨word, rest⟩⟩
  · rfl
  · rw [generate, snd_respond]
    rfl
  · rw [generate, Command.change?, Command.requested?]
    rcases readCount word with _ | count
    · rfl
    · exact shell.snd_respond name count _

theorem snd_bulk (arguments : List String) :
    (shell.bulk arguments).2
      = ((Command.bulk arguments).change? shell.registry).elim shell shell.apply := by
  rcases arguments with _ | ⟨name, _ | ⟨word, rest⟩⟩
  · rfl
  · rfl
  · rw [bulk, Command.change?, Command.requested?]
    rcases (readCount word).filter fun count => decide (0 < count) with _ | count
    · rfl
    · exact shell.snd_respond name count _

theorem snd_set (arguments : List String) :
    (shell.set arguments).2
      = ((Command.set arguments).change? shell.registry).elim shell shell.apply := by
  rcases arguments with _ | ⟨name, _ | ⟨first, rest⟩⟩
  · rfl
  · rfl
  · rfl

theorem snd_unset (arguments : List String) :
    (shell.unset arguments).2
      = ((Command.unset arguments).change? shell.registry).elim shell shell.apply := by
  rcases arguments with _ | ⟨name, rest⟩
  · rfl
  · rw [unset]
    by_cases given : shell.parameters.contains name
    · rw [if_pos given]
      rfl
    · -- There is nothing to take away.
      have same : shell.parameters.erase name = shell.parameters := by
        apply Std.ExtTreeMap.ext_getElem?
        intro other
        rw [Std.ExtTreeMap.getElem?_erase]
        split
        case isTrue found =>
          rw [Std.LawfulEqOrd.compare_eq_iff_eq] at found
          subst found
          simpa using given
        case isFalse => rfl
      rw [if_neg given]
      simp [Command.change?, apply, Change.edit, same]

theorem snd_reseed (arguments : List String) :
    (shell.reseed arguments).2
      = ((Command.seed arguments).change? shell.registry).elim shell shell.apply := by
  rcases arguments with _ | ⟨word, rest⟩
  · rfl
  · rw [reseed, Command.change?]
    rcases readCount word with _ | number
    · rfl
    · rfl

theorem snd_run (command : Command) :
    (shell.run command).2 = if command = .quit then none
      else some ((command.change? shell.registry).elim shell shell.apply) := by
  cases command with
  | generate arguments => simp [run, snd_generate]
  | bulk arguments => simp [run, snd_bulk]
  | set arguments => simp [run, snd_set]
  | unset arguments => simp [run, snd_unset]
  | seed arguments => simp [run, snd_reseed]
  | quit => rfl
  | nothing => rfl
  | help => rfl
  | parameters => rfl
  | list => rfl
  | unknown name => rfl

end Step

@[simp]
theorem registry_apply (shell : Shell) (change : Change) :
    (shell.apply change).registry = shell.registry := by
  cases change <;> rfl

/-- A session quits or makes the changes of its lines, one after the other. -/
theorem after_eq_foldl (shell : Shell) (lines : List String) :
    shell.after lines = if .quit ∈ lines.map Command.ofLine then none
      else some ((changes shell.registry lines).foldl apply shell) := by
  induction lines generalizing shell with
  | nil => simp [after, changes]
  | cons line rest ih =>
      rw [after, snd_run]
      by_cases quits : Command.ofLine line = .quit
      · simp [quits]
      · -- No change is one of the registry, so the rest is read for the same one.
        rw [if_neg quits, Option.bind_some, ih]
        rcases change : (Command.ofLine line).change? shell.registry with _ | change
        · simp [changes, change, Ne.symm quits]
        · simp [changes, change, Ne.symm quits]

/-- The shell that is opened for some settings. -/
def ofSettings (registry : Registry Combiner) (settings : Settings) : Shell :=
  ⟨registry, settings.count, settings.values, settings.seed, settings.stream⟩

/-- Whether a shell is what some changes make of one that was opened for some settings. -/
structure HasMade (settings : Settings) (changes : List Change) (shell : Shell) : Prop where
  stream : shell.stream
    = RandomSource.advance (2 * Change.drawsSinceSeed changes) (Stream.ofSeed shell.seed)
  seed : shell.seed = (Change.lastSeed? changes).getD settings.seed
  parameters : shell.parameters = changes.foldl Change.edit settings.values

namespace HasMade

variable {settings : Settings} {made : List Change} {shell : Shell}

theorem apply (hasMade : shell.HasMade settings made) (change : Change) :
    (shell.apply change).HasMade settings (made ++ [change]) := by
  rcases hasMade with ⟨stream, seed, parameters⟩
  cases change with
  | draws =>
      constructor
      · simp only [Shell.apply, stream, Stream.advance_eq, Change.drawsSinceSeed_append_singleton,
          Change.seed?, Option.isSome_none, Bool.false_eq_true, if_false, if_true, Stream.mk.injEq,
          true_and]
        omega
      · simpa [Shell.apply, Change.seed?] using seed
      · simpa [Shell.apply, Change.edit] using parameters
  | seeds seed =>
      constructor
      · simp [Shell.apply, Change.seed?, RandomSource.advance]
      · simp [Shell.apply, Change.seed?]
      · simpa [Shell.apply, Change.edit] using parameters
  | sets name value =>
      constructor
      · simpa [Shell.apply, Change.seed?] using stream
      · simpa [Shell.apply, Change.seed?] using seed
      · simp [Shell.apply, Change.edit, parameters]
  | unsets name =>
      constructor
      · simpa [Shell.apply, Change.seed?] using stream
      · simpa [Shell.apply, Change.seed?] using seed
      · simp [Shell.apply, Change.edit, parameters]

theorem foldl (hasMade : shell.HasMade settings made) (changes : List Change) :
    (changes.foldl Shell.apply shell).HasMade settings (made ++ changes) := by
  induction changes generalizing shell made with
  | nil => simpa using hasMade
  | cons change rest ih =>
      have later := ih (hasMade.apply change)
      rwa [List.append_assoc] at later

end HasMade

theorem hasMade_ofSettings (registry : Registry Combiner) (settings : Settings) :
    (ofSettings registry settings).HasMade settings [] := by
  constructor
  · rfl
  · rfl
  · rfl

theorem hasMade_of_after {registry : Registry Combiner} {settings : Settings}
    {lines : List String} {now : Shell}
    (reached : (ofSettings registry settings).after lines = some now) :
    now.HasMade settings (changes registry lines) := by
  rw [after_eq_foldl] at reached
  split at reached
  · cases reached
  · cases reached
    exact (hasMade_ofSettings registry settings).foldl (changes registry lines)

end Shell

/-- Whether two commands are the same, or valid requests for one name whatever their counts are. -/
def Command.SameButCount (left right : Command) : Prop :=
  left = right ∨ ∃ name, left.requested? = some name ∧ right.requested? = some name

namespace Shell

theorem snd_run_of_requested? {command : Command} {name : String}
    (requests : command.requested? = some name) (shell : Shell) :
    (shell.run command).2
      = some ((Change.ofRequest? shell.registry (some name)).elim shell shell.apply) := by
  rw [snd_run]
  cases command with
  | generate arguments => simp [Command.change?, requests]
  | bulk arguments => simp [Command.change?, requests]
  | _ => cases requests

theorem after_congr {left right : List String}
    (same : List.Forall₂ (fun one other =>
      (Command.ofLine one).SameButCount (Command.ofLine other)) left right) (shell : Shell) :
    shell.after left = shell.after right := by
  induction same generalizing shell with
  | nil => rfl
  | @cons one other left right commands rest ih =>
      have next : (shell.run (.ofLine one)).2 = (shell.run (.ofLine other)).2 := by
        rcases commands with equal | ⟨name, oneRequests, otherRequests⟩
        · rw [equal]
        · rw [snd_run_of_requested? oneRequests, snd_run_of_requested? otherRequests]
      rw [after, after, next]
      congr 1
      funext shell
      exact ih shell

end Shell

theorem shell_of_openShell {reader : FileReader Id} {settings : Settings}
    {documents : List String} {shell : Shell} {printed : String}
    (opened : (openShell reader settings documents).run = .ok (shell, printed)) :
    shell = .ofSettings shell.registry settings := by
  rw [openShell, Id.run_bind] at opened
  split at opened
  case h_1 => cases opened
  case h_2 =>
    rw [Id.run_bind] at opened
    split at opened
    case h_1 => cases opened
    case h_2 =>
      cases opened
      rfl

/--
The state of a session before each of its prompts. Its stream is the one of the current seed after
two draws for every valid request of a registered name since that seed, and its parameters are
those of the settings with every setting and unsetting since. All other lines leave the shell as
it is. What counts requests had makes no difference to anything that is printed later.
-/
theorem session_keeps_place (settings : Settings) :
    (∀ (reader : FileReader Id) documents shell printed,
      (openShell reader settings documents).run = .ok (shell, printed) →
        shell = .ofSettings shell.registry settings) ∧
    (∀ (shell : Shell) (command : Command), command.change? shell.registry = none →
      command ≠ .quit → (shell.run command).2 = some shell) ∧
    ∀ registry : Registry Combiner,
      let shell := Shell.ofSettings registry settings
      (∀ lines now, shell.after lines = some now →
        now.HasMade settings (changes registry lines)) ∧
      ∀ left right, List.Forall₂ (fun one other =>
          (Command.ofLine one).SameButCount (Command.ofLine other)) left right →
        ∀ rest, ∃ later, shell.session (left ++ rest) = shell.printed left ++ later ∧
          shell.session (right ++ rest) = shell.printed right ++ later := by
  refine ⟨fun reader documents shell printed opened => shell_of_openShell opened, ?_, ?_⟩
  · intro shell command nothing goesOn
    rw [Shell.snd_run, if_neg goesOn, nothing]
    rfl
  · intro registry shell
    constructor
    · intro lines now reached
      exact Shell.hasMade_of_after reached
    · intro left right same rest
      refine ⟨_, shell.session_append left rest, ?_⟩
      rw [shell.session_append right rest, Shell.after_congr same]

theorem session_keeps_place_greeting :
    let tree : Generator Combiner := .select .string [.text "Hello", .text "Bye"]
    let registry : Registry Combiner := Registry.empty.declare [⟨"greeting", tree⟩]
    let shell := Shell.ofSettings registry .default
    let lines := ["gen greeting", "seed 7", "set name Ann", "gen nobody", "bulk greeting 2"]
    (∃ now, shell.after lines = some now ∧ now.seed = 7 ∧
      now.stream = RandomSource.advance 2 (Stream.ofSeed 7) ∧
      now.parameters = (∅ : Parameters Combiner).insert "name" (.string "Ann")) ∧
    ∃ later, shell.session ["gen greeting 3", "gen greeting 2"]
        = shell.printed ["gen greeting 3"] ++ later ∧
      shell.session ["bulk greeting 1000", "gen greeting 2"]
        = shell.printed ["bulk greeting 1000"] ++ later := by
  intro tree registry shell lines
  have keeps := (session_keeps_place .default).2.2 registry
  constructor
  · have commands : lines.map Command.ofLine = [.generate ["greeting"], .seed ["7"],
        .set ["name", "Ann"], .generate ["nobody"], .bulk ["greeting", "2"]] := by decide
    have known : registry.contains "greeting" = true := by
      simp [registry, Registry.contains_eq_isSome_find?, Registry.declare, Registry.find?_set]
    have unknown : registry.contains "nobody" = false := by
      simp [registry, Registry.contains_eq_isSome_find?, Registry.declare, Registry.find?_set]
    have two : readCount "2" = some 2 := by decide
    have seven : readCount "7" = some 7 := by decide
    have made : changes registry lines = [.draws, .seeds 7, .sets "name" "Ann", .draws] := by
      rw [changes, commands]
      simp [Option.filter_some, Command.change?, Command.requested?, Change.ofRequest?, known,
        unknown, two, seven]
    have goesOn : .quit ∉ lines.map Command.ofLine := by
      rw [commands]
      decide
    have reached : ∃ now, shell.after lines = some now := by
      rw [Shell.after_eq_foldl, if_neg goesOn]
      exact ⟨_, rfl⟩
    rcases reached with ⟨now, reached⟩
    rcases keeps.1 lines now reached with ⟨stream, seed, parameters⟩
    rw [made] at stream seed parameters
    rw [seed] at stream
    exact ⟨now, reached, seed, stream, parameters⟩
  · apply keeps.2 ["gen greeting 3"] ["bulk greeting 1000"]
    refine .cons (.inr ⟨"greeting", ?_, ?_⟩) .nil
    · decide
    · decide

end Wordloom.Preview
