import Wordloom.Linter.Checks
import Wordloom.Output
import Wordloom.Settings.Basic
import Wordloom.Generator.Combiner

/-!
# The template linter

This file gives what the linter prints for a document, or for all documents in a directory and
the directories in it. The documents of a directory are the files whose names end in `.gen`;
they are merged in the order they are listed.
-/

namespace Wordloom

namespace Linter

/-- A document with the path that leads to it. -/
structure DocumentFile where
  path : String
  contents : Contents

mutual

/-- The documents in a directory, as it and the directories in it list them. -/
def documentsIn (path : String) : FileTree → List DocumentFile
  | .file _ => []
  | .directory entries => documentsAmong path entries

/-- The documents among the entries of a directory. -/
def documentsAmong (path : String) : List (String × FileTree) → List DocumentFile
  | [] => []
  | (name, .file contents) :: rest =>
    let others := documentsAmong path rest
    if extension? name = some "gen" then ⟨joinPath path name, contents⟩ :: others else others
  | (name, .directory entries) :: rest =>
    documentsIn (joinPath path name) (.directory entries) ++ documentsAmong path rest

end

/-- What became of loading the documents of a directory. -/
structure Loaded (φ : Type) where
  registry : Registry φ
  /-- The count of documents that were not loaded. -/
  failures : Nat
  /-- What was printed on standard output. -/
  out : String
  /-- What was printed on standard error. -/
  err : String

variable {φ : Type}

/-- A document, read as a registry. -/
def DocumentFile.load (document : DocumentFile) : Except LoadError (Registry φ) :=
  let reader : FileReader Id := fun _ => document.contents
  (Registry.load reader document.path).run

namespace Loaded

/-- A registry by itself, with nothing printed. -/
def ofRegistry (registry : Registry φ) : Loaded φ :=
  ⟨registry, 0, "", ""⟩

/-- The documents that are loaded so far, and one more. -/
def add (loaded : Loaded φ) (document : DocumentFile) : Loaded φ :=
  match document.load with
  | .ok registry =>
    { loaded with
      registry := loaded.registry.merge registry
      out := loaded.out ++ asLine ("  Loaded: " ++ document.path) }
  | .error cause =>
    { loaded with
      failures := loaded.failures + 1
      err := loaded.err ++ asLine ("  ERROR loading " ++ document.path ++ ": " ++ cause.message) }

/-- All documents of a directory. -/
def ofDirectory (path : String) (tree : FileTree) : Loaded φ :=
  (documentsIn path tree).foldl add (ofRegistry .empty)

end Loaded

/-- The findings in a report, with the lines that stand before and after them. -/
def report (declarations : Nat) (findings : List Finding) : String :=
  let lines (kind : String) (found : List Finding) : List String :=
    found.map fun finding => kind ++ finding.message
  String.join <| List.map asLine <|
    [ "Loaded " ++ numberText declarations ++ " declarations",
      "",
      "=== Template Lint Report ===",
      "" ]
    ++ (if findings.isEmpty then ["All checks passed!"] else [])
    ++ lines "WARNING: " (warnings findings)
    ++ lines "ERROR: " (errors findings)
    ++ [ "",
      "Summary: " ++ numberText (errors findings).length ++ " errors, "
        ++ numberText (warnings findings).length ++ " warnings" ]

namespace Loaded

/-- All that there is to say about the documents that were loaded. -/
def findings (loaded : Loaded φ) : List Finding :=
  check loaded.registry
    ++ if loaded.failures > 0 then [.unloadedDocuments loaded.failures] else []

/-- What the linter prints after some documents are loaded. -/
def conclude (loaded : Loaded φ) : Output where
  code := if (errors loaded.findings).isEmpty then 0 else 1
  out := loaded.out ++ report loaded.registry.size loaded.findings
  err := loaded.err

end Loaded

/-- How the linter is called. -/
def usage : String :=
  asLine "Usage: template_linter <file_or_dir>"

/-- What the linter does with its arguments, in files that paths lead to. -/
def run (arguments : List String) (resolve : String → Except FileError FileTree) : Output :=
  match arguments with
  | [] => ⟨0, usage, ""⟩
  | "--help" :: _ => ⟨0, usage, ""⟩
  | "-h" :: _ => ⟨0, usage, ""⟩
  | target :: _ =>
    match resolve target with
    | .error _ => ⟨1, "", asLine ("ERROR: Path '" ++ target ++ "' does not exist")⟩
    | .ok (.file contents) =>
      match ((DocumentFile.mk target contents).load : Except LoadError (Registry Combiner)) with
      | .ok registry => (Loaded.ofRegistry registry).conclude
      | .error cause =>
        ⟨1, "", asLine ("ERROR: Failed to load template file: " ++ cause.message)⟩
    | .ok tree => (Loaded.ofDirectory target tree : Loaded Combiner).conclude

end Linter

end Wordloom
