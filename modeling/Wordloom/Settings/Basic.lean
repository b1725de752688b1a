import Wordloom.Files
import Wordloom.Stream.Basic

/-!
# Settings

This file gives the settings of a generation run, and how documents and settings are loaded
from files.

Settings list the documents to load, the seed of the stream, how many values a request asks
for, and parameters as texts. Documents named by a settings file are looked for beside it.
Reading is left to a function from paths to bytes in any monad.
-/

namespace Wordloom

/-- What to generate from. -/
structure Settings where
  /-- The paths of template documents, merged in order. -/
  documents : List String
  /-- The seed of the stream. -/
  seed : UInt64
  /-- The values generated for a request that names no count. -/
  count : Nat
  /-- The parameters of every request. -/
  parameters : Std.ExtTreeMap String String

namespace Settings

/-- The settings of a run that says nothing. -/
def default : Settings :=
  ⟨[], 0, 1, ∅⟩

/-- The parameters as values. -/
def values {φ : Type} (settings : Settings) : Parameters φ :=
  settings.parameters.map fun _ text => .string text

/-- The stream that the settings start. -/
def stream (settings : Settings) : Stream :=
  .ofSeed settings.seed

end Settings

/-- Why a document or a settings file was not loaded. -/
inductive LoadError where
  /-- The file could not be read. -/
  | io (cause : FileError)
  /-- The file is no settings file. -/
  | settings
  /-- The file is no template document. -/
  | document (path : String) (cause : Document.SyntaxError)
deriving DecidableEq, Repr

/-- The wording of an error. -/
def LoadError.message : LoadError → String
  | .io cause => "IO error: " ++ cause.message
  | .settings => "RON deserialization error: malformed settings"
  | .document path cause => "template parse error in " ++ path ++ ": " ++ cause.message

/-- A way to get at the bytes of files. -/
abbrev FileReader (m : Type → Type) : Type :=
  String → m Contents

variable {m : Type → Type} [Monad m] {φ : Type}

/-- The text of a file. -/
def FileReader.text (reader : FileReader m) (path : String) : ExceptT LoadError m String := do
  let contents ← ExceptT.mk (Except.mapError LoadError.io <$> reader path)
  MonadExcept.ofExcept ((decodeText contents).mapError .io)

namespace Registry

/-- The registry of the document in a file. -/
def load (reader : FileReader m) (path : String) : ExceptT LoadError m (Registry φ) := do
  let text ← reader.text path
  MonadExcept.ofExcept ((Registry.parse text).mapError (.document path))

/-- The registry of all documents that the settings list, later ones put over earlier ones. -/
def ofSettings (reader : FileReader m) (settings : Settings) :
    ExceptT LoadError m (Registry φ) :=
  settings.documents.foldlM
    (fun registry path => do return registry.merge (← load reader path)) .empty

end Registry

end Wordloom
