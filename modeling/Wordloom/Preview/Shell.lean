import Std.Data.ExtTreeSet
import Wordloom.Generator.Combiner
import Wordloom.Output
import Wordloom.Settings.Basic
import Wordloom.Text.Lowercase

/-!
# The preview shell

This file gives the commands of the preview shell and what each of them prints and changes. A
line is split into words; the first, in lower case, says what to do.

The shell holds a registry that no command changes, the parameters that `set` and `unset`
change, and a stream that only a seed or a batch moves on. Every request for values is one
batch, so it takes the same draws from the stream whatever its count is.
-/

namespace Wordloom.Preview

/-- What the shell works on. -/
structure Shell where
  registry : Registry Combiner
  /-- The count of a request that names none. -/
  count : Nat
  parameters : Parameters Combiner
  seed : UInt64
  stream : Stream

/-- A line as it is understood. -/
inductive Command where
  | nothing
  | quit
  | help
  | generate (arguments : List String)
  | bulk (arguments : List String)
  | set (arguments : List String)
  | unset (arguments : List String)
  | parameters
  | seed (arguments : List String)
  | list
  | unknown (name : String)
deriving DecidableEq, Repr

/-- The command that a line says. -/
def Command.ofLine (line : String) : Command :=
  match Text.wordsOf line with
  | [] => .nothing
  | first :: arguments =>
    match Text.lowercased first with
    | "quit" | "exit" | "q" => .quit
    | "help" | "h" | "?" => .help
    | "gen" | "g" => .generate arguments
    | "bulk" => .bulk arguments
    | "set" => .set arguments
    | "unset" => .unset arguments
    | "params" => .parameters
    | "seed" => .seed arguments
    | "list" | "ls" => .list
    | name => .unknown name

/-- A 64-bit count or seed in a word. -/
def readCount (word : String) : Option Nat :=
  readBelow UInt64.size word.toList

/-- The commands and what they do. -/
def helpText : String :=
  String.join <| List.map asLine
    [ "Commands:",
      "  gen <name> [n]              Generate n values as one batch",
      "  bulk <name> <n>             Generate n values with variety statistics",
      "  set <param> <value>         Set a text parameter",
      "  unset <param>               Remove a parameter",
      "  params                      List parameters",
      "  seed <n>                    Reset the stream with a new seed",
      "  list                        List declared generators",
      "  help                        Show this help",
      "  quit                        Exit" ]

/-- A report on how various some values are. Their average length has one place. -/
def varietyReport (values : List String) : String :=
  let count := values.length
  let distinct := (Std.ExtTreeSet.ofList values).size
  let characters := values.foldl (fun total value => total + value.length) 0
  let average := Float.ofNat characters / Float.ofNat count
  String.join <| List.map asLine <|
    [ "",
      "=== Bulk Generation Report ===",
      "Values: " ++ numberText count,
      "Unique: " ++ numberText distinct ++ " / " ++ numberText count,
      "Average length: " ++ String.ofList (Binary.fixedText 1 (Binary.ofFloat average))
        ++ " characters",
      "Samples:" ]
    ++ (values.take 5).map (fun value => "  " ++ value)
    ++ [""]

namespace Shell

/-- A batch of values as texts, and the shell after the draws that it took. -/
def request (shell : Shell) (name : String) (count : Nat) :
    Except GeneratorError (List String) × Shell :=
  let batch : Drawing Stream GeneratorError (List String) :=
    shell.registry.getBatch String name shell.parameters count
  let (result, stream) := batch.run shell.stream
  (result, { shell with stream })

/-- A request that is printed in some way. -/
def respond (shell : Shell) (name : String) (count : Nat) (print : List String → String) :
    String × Shell :=
  let (result, after) := shell.request name count
  match result with
  | .ok values => (print values, after)
  | .error cause => (asLine ("ERROR: " ++ cause.message), after)

/-- Values of a generator, one on a line. -/
def generate (shell : Shell) : List String → String × Shell
  | [] => (asLine "Usage: gen <name> [n]", shell)
  | name :: rest =>
    let print (values : List String) : String := String.join (values.map asLine)
    match rest with
    | [] => shell.respond name shell.count print
    | word :: _ =>
      match readCount word with
      | some count => shell.respond name count print
      | none => (asLine ("Invalid count: " ++ word), shell)

/-- A report on many values of a generator. -/
def bulk (shell : Shell) : List String → String × Shell
  | name :: word :: _ =>
    match (readCount word).filter (0 < ·) with
    | some count => shell.respond name count varietyReport
    | none => (asLine ("Invalid count: " ++ word), shell)
  | _ => (asLine "Usage: bulk <name> <n>", shell)

/-- A parameter set to the words after its name. -/
def set (shell : Shell) : List String → String × Shell
  | name :: first :: rest =>
    let value := " ".intercalate (first :: rest)
    (asLine (name ++ " = " ++ value),
      { shell with parameters := shell.parameters.insert name (.string value) })
  | _ => (asLine "Usage: set <param> <value>", shell)

/-- A parameter taken away. -/
def unset (shell : Shell) : List String → String × Shell
  | [] => (asLine "Usage: unset <param>", shell)
  | name :: _ =>
    if shell.parameters.contains name then
      ("", { shell with parameters := shell.parameters.erase name })
    else (asLine ("Parameter '" ++ name ++ "' is not set"), shell)

/-- The parameters, in the order of their names. -/
def listParameters (shell : Shell) : String :=
  let line (entry : String × Value Combiner) : String :=
    asLine ("  " ++ entry.1 ++ " = " ++ entry.2.text)
  if shell.parameters.isEmpty then asLine "No parameters set."
  else String.join (shell.parameters.toList.map line)

/-- The seed, or the shell with its stream started from another. -/
def reseed (shell : Shell) : List String → String × Shell
  | [] => (asLine ("Current seed: " ++ numberText shell.seed.toNat), shell)
  | word :: _ =>
    match readCount word with
    | some number =>
      let seed := UInt64.ofNat number
      (asLine ("Seed set to " ++ numberText number), { shell with seed, stream := .ofSeed seed })
    | none => (asLine ("Invalid seed: " ++ word), shell)

/-- What a command prints, and the shell after it. Quitting leaves no shell. -/
def run (shell : Shell) : Command → String × Option Shell
  | .quit => (asLine "Goodbye.", none)
  | .nothing => ("", some shell)
  | .help => (helpText, some shell)
  | .generate arguments => (shell.generate arguments).map id some
  | .bulk arguments => (shell.bulk arguments).map id some
  | .set arguments => (shell.set arguments).map id some
  | .unset arguments => (shell.unset arguments).map id some
  | .parameters => (shell.listParameters, some shell)
  | .seed arguments => (shell.reseed arguments).map id some
  | .list => (String.join (shell.registry.names.map fun name => asLine ("  " ++ name)), some shell)
  | .unknown name =>
    (asLine ("Unknown command: " ++ name ++ ". Type 'help' for commands."), some shell)

/-- What stands before every line that is read. -/
def prompt : String := "preview> "

/-- What a session prints for some lines of input, from the first prompt to the end of input. -/
def session (shell : Shell) : List String → String
  | [] => prompt
  | line :: rest =>
    match shell.run (.ofLine line) with
    | (text, some after) => prompt ++ text ++ after.session rest
    | (text, none) => prompt ++ text

end Shell

end Wordloom.Preview
