import Wordloom.Preview.Shell
import Wordloom.Settings.Notation

/-!
# Starting the preview shell

This file gives how the preview shell understands its arguments, what it loads before the first
prompt, and what it prints until then.
-/

namespace Wordloom.Preview

/-- What the arguments ask for. Later settings and seeds replace earlier ones. -/
structure Options where
  documents : List String
  settings : Option String
  seed : Option Nat

/-- Why arguments are refused. -/
inductive ArgumentError where
  | invalidSeed (word : String)
  | unknown (word : String)
deriving DecidableEq, Repr

/-- Arguments that follow some that are understood already. -/
def Options.read (options : Options) : List String → Except ArgumentError Options
  | [] => .ok { options with documents := options.documents.reverse }
  | "--settings" :: path :: rest => Options.read { options with settings := some path } rest
  | "--seed" :: word :: rest =>
    match readCount word with
    | some seed => Options.read { options with seed := some seed } rest
    | none => .error (.invalidSeed word)
  | word :: rest =>
    if word.startsWith "--" then .error (.unknown word)
    else Options.read { options with documents := word :: options.documents } rest

/-- How the shell is called. -/
def usage : String :=
  String.join <| List.map asLine
    [ "Usage: preview [<document>...] [--settings <ron>] [--seed <n>]",
      "",
      "Loads template documents and opens an interactive generation shell." ]

/-- What the shell says when it is ready. -/
def greeting (shell : Shell) : String :=
  String.join <| List.map asLine
    [ "Loaded " ++ numberText shell.registry.size ++ " generators",
      "Seed: " ++ numberText shell.seed.toNat,
      "Type 'help' for commands.",
      "" ]

/-- What was printed before the first prompt, and the shell if there is one to go on with. -/
structure Start where
  output : Output
  shell : Option Shell

variable {m : Type → Type} [Monad m]

/-- The registry with the documents that were named as arguments, each put over what was there. -/
def loadDocuments (reader : FileReader m) (registry : Registry Combiner) (printed : String) :
    List String → m (Except Output (Registry Combiner × String))
  | [] => pure (.ok (registry, printed))
  | path :: rest => do
    match ← (Registry.load reader path).run with
    | .ok loaded =>
      loadDocuments reader (registry.merge loaded) (printed ++ asLine ("Loaded: " ++ path)) rest
    | .error cause =>
      let error := asLine ("ERROR loading " ++ path ++ ": " ++ cause.message)
      pure (.error ⟨1, printed, error⟩)

/-- The settings of a run: those of the file that is named, with the seed that is named. -/
def loadSettings (reader : FileReader m) (options : Options) : m (Except Output Settings) := do
  let chosen (settings : Settings) : Settings :=
    { settings with seed := (options.seed.map UInt64.ofNat).getD settings.seed }
  match options.settings with
  | none => pure (.ok (chosen .default))
  | some path =>
    match ← (Settings.load reader path).run with
    | .ok settings => pure (.ok (chosen settings))
    | .error cause =>
      let error := asLine ("ERROR: Failed to load settings " ++ path ++ ": " ++ cause.message)
      pure (.error ⟨1, "", error⟩)

/-- The shell of some settings, with the documents of those and the arguments. -/
def openShell (reader : FileReader m) (settings : Settings) (documents : List String) :
    m (Except Output (Shell × String)) := do
  match ← (Registry.ofSettings reader settings).run with
  | .error cause => pure (.error ⟨1, "", asLine ("ERROR: " ++ cause.message)⟩)
  | .ok registry =>
    match ← loadDocuments reader registry "" documents with
    | .error output => pure (.error output)
    | .ok (registry, printed) =>
      let shell : Shell :=
        ⟨registry, settings.count, settings.values, settings.seed, settings.stream⟩
      pure (.ok (shell, printed))

/-- Everything before the first prompt. -/
def start (reader : FileReader m) (arguments : List String) : m Start := do
  match arguments with
  | [] => pure ⟨⟨0, usage, ""⟩, none⟩
  | "--help" :: _ => pure ⟨⟨0, usage, ""⟩, none⟩
  | "-h" :: _ => pure ⟨⟨0, usage, ""⟩, none⟩
  | _ =>
    match (⟨[], none, none⟩ : Options).read arguments with
    | .error (.invalidSeed word) => pure ⟨⟨1, "", asLine ("Invalid seed: " ++ word)⟩, none⟩
    | .error (.unknown word) => pure ⟨⟨1, usage, asLine ("Unknown argument: " ++ word)⟩, none⟩
    | .ok options =>
      match ← loadSettings reader options with
      | .error output => pure ⟨output, none⟩
      | .ok settings =>
        match ← openShell reader settings options.documents with
        | .error output => pure ⟨output, none⟩
        | .ok (shell, printed) => pure ⟨⟨0, printed ++ greeting shell, ""⟩, some shell⟩

/-- The lines of an input. What follows the last line feed is a line if it is not empty. -/
def inputLines (input : String) : List String :=
  let pieces := input.splitOn "\n"
  if pieces.getLast? = some "" then pieces.dropLast else pieces

/-- The whole run of the shell on an input. -/
def run (reader : FileReader Id) (arguments : List String) (input : String) : Output :=
  let started : Start := (start reader arguments).run
  match started.shell with
  | none => started.output
  | some shell =>
    { started.output with out := started.output.out ++ shell.session (inputLines input) }

end Wordloom.Preview
