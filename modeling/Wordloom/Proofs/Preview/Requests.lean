import Mathlib
import Wordloom.Proofs.Preview.Session
import Wordloom.Proofs.Registry.Documents
import Wordloom.Proofs.Text.Words

/-!
# Requests by name

This file shows which declarations can be requested in the preview shell. A document takes any text
for a name that is its own trim, so there may be blanks inside of names. The shell takes single
words of a line, and there is no way to write that several of them are one name.

So a line requests a declaration by its name exactly if there are no blanks in the name. If there
are, the line is understood as if the name ended at the first of them.
-/

namespace Wordloom

theorem Registry.exists_find?_of_mem_names {φ : Type} {registry : Registry φ} {name : String}
    (listed : name ∈ registry.names) : ∃ generator, registry.find? name = some generator := by
  rw [names, Std.ExtTreeMap.mem_keys] at listed
  exact ⟨_, Std.ExtTreeMap.getElem?_eq_some_getElem listed⟩

namespace Preview

open Text (Solid)

/-- The line that asks for values of a name, as many as a word says. -/
def requestLine (name word : String) : String :=
  "gen " ++ name ++ " " ++ word

theorem ofLine_requestLine (name word : String) :
    Command.ofLine (requestLine name word)
      = .generate ((Text.words (name.toList ++ ' ' :: word.toList)).map String.ofList) := by
  have line : (requestLine name word).toList
      = "gen".toList ++ ' ' :: (name.toList ++ ' ' :: word.toList) := by
    simp [requestLine]
  have words : Text.wordsOf (requestLine name word)
      = "gen" :: (Text.words (name.toList ++ ' ' :: word.toList)).map String.ofList := by
    rw [Text.wordsOf, line, Text.words_append_blank (by decide) (by decide) (by decide)]
    simp
  have command : Text.lowercased "gen" = "gen" := by decide
  simp [Command.ofLine, words, command]

variable {name word : String} {count : Nat}

/-- A name without blanks is taken for the name that it is. -/
theorem ofLine_requestLine_of_solid (solid : Solid name.toList) (present : name.toList ≠ [])
    (valid : readCount word = some count) :
    Command.ofLine (requestLine name word) = .generate [name, word] := by
  rcases solid_of_readBelow valid with ⟨wordSolid, wordPresent⟩
  rw [ofLine_requestLine, Text.words_append_blank solid present (by decide),
    Text.words_of_solid wordSolid wordPresent]
  simp

/-- Of a name with blanks only the start is taken for a name. -/
theorem requested?_requestLine_ne (named : IsName name) (blanks : ¬Solid name.toList)
    (word : String) : (Command.ofLine (requestLine name word)).requested? ≠ some name := by
  rcases Text.exists_append_blank blanks with ⟨first, blank, rest, whole, solid, separates⟩
  have present : first ≠ [] := by
    rintro rfl
    have kept := Text.trimStart_eq_self_of_trim named.trimmed
    rw [whole, List.nil_append, Text.trimStart_cons_eq_self, separates] at kept
    cases kept
  have shorter : String.ofList first ≠ name := by
    rintro rfl
    simpa using congrArg List.length whole
  rw [ofLine_requestLine, whole, List.append_assoc, List.cons_append,
    Text.words_append_blank solid present separates]
  rcases Text.words (rest ++ ' ' :: word.toList) with _ | ⟨second, others⟩
  · simpa [Command.requested?] using shorter
  · simp [Command.requested?, shorter]

/-- What is printed for a batch, its texts one on a line or the error of it. -/
def batchText : Except GeneratorError (List String) → String
  | .ok values => String.join (values.map asLine)
  | .error cause => asLine ("ERROR: " ++ cause.message)

theorem run_generate (shell : Shell) (valid : readCount word = some count) :
    shell.run (.generate [name, word])
      = (batchText (shell.request name count).1, some (shell.request name count).2) := by
  simp only [Shell.run, Shell.generate, valid, Shell.respond]
  rcases shell.request name count with ⟨cause | values, next⟩
  · rfl
  · rfl

/--
In a shell with a registry that comes from documents, a line requests a listed name if there are no
blanks in it, and only then. What is printed is the batch of the declaration under this name with
the parameters and from the stream of the shell, which goes on after the draws of the batch.
-/
theorem line_requests_listed_name {shell : Shell} {texts : List String}
    (built : shell.registry.FromDocuments texts) {name word : String} {count : Nat}
    (listed : name ∈ shell.registry.names) (valid : readCount word = some count) :
    ((Command.ofLine (requestLine name word)).requested? = some name ↔ Solid name.toList) ∧
    ∃ generator, shell.registry.find? name = some generator ∧
      (∃ text ∈ texts, ∃ declarations, Document.parse text = .ok declarations ∧
        ⟨name, generator⟩ ∈ declarations) ∧
      let batch : Drawing Stream GeneratorError (List String) := do
        let values ← generator.generateBatch
          (shell.registry.combinedParameters shell.parameters) count
        Generator.coerced (values.mapM fun value => fromValue value (Registry.context name))
      Solid name.toList →
        shell.run (.ofLine (requestLine name word))
          = (batchText (batch.run shell.stream).1,
              some { shell with stream := (batch.run shell.stream).2 }) := by
  rcases Registry.exists_find?_of_mem_names listed with ⟨generator, found⟩
  have named := built.isName found
  have present : name.toList ≠ [] := by
    intro empty
    have graphic := named.present
    rw [empty] at graphic
    cases graphic
  refine ⟨?_, generator, found, built.exists_declaration found, ?_⟩
  · constructor
    · intro requests
      by_contra blanks
      exact requested?_requestLine_ne named blanks word requests
    · intro solid
      simp [ofLine_requestLine_of_solid solid present valid, Command.requested?, valid]
  · intro batch solid
    rw [ofLine_requestLine_of_solid solid present valid, run_generate shell valid, Shell.request,
      Registry.getBatch_of_find?_eq_some found]
    rfl

theorem line_requests_listed_name_greeting :
    let document := "greeting=Hi;"
    let registry : Registry Combiner := Registry.empty.declare [⟨"greeting", .text "Hi"⟩]
    let shell := Shell.ofSettings registry .default
    registry.FromDocuments [document] ∧ "greeting" ∈ registry.names ∧ readCount "2" = some 2 ∧
      (Command.ofLine "gen greeting 2").requested? = some "greeting" ∧
      shell.run (.ofLine "gen greeting 2")
        = ("Hi\nHi\n", some { shell with stream := RandomSource.advance 2 shell.stream }) := by
  intro document registry shell
  have parsed : Document.parse document
      = .ok [(⟨"greeting", .text "Hi"⟩ : Document.Declaration Combiner)] := by cbv
  have built : shell.registry.FromDocuments [document] := .declare parsed
  have listed : "greeting" ∈ shell.registry.names := by decide
  have valid : readCount "2" = some 2 := by decide
  have solid : Solid "greeting".toList := by decide
  rcases line_requests_listed_name built listed valid with ⟨requests, generator, found, -, run⟩
  have declared : shell.registry.find? "greeting" = some (.text "Hi") := rfl
  rw [declared, Option.some.injEq] at found
  subst found
  exact ⟨built, listed, valid, requests.mpr solid, run solid⟩

/-- A listed name with a blank in it, whose line is refused for its second word. -/
theorem line_of_listed_name_with_blank :
    let document := "full name=Ann;"
    let registry : Registry Combiner := Registry.empty.declare [⟨"full name", .text "Ann"⟩]
    let shell := Shell.ofSettings registry .default
    registry.FromDocuments [document] ∧ "full name" ∈ registry.names ∧ readCount "2" = some 2 ∧
      (Command.ofLine (requestLine "full name" "2")).requested? = none ∧
      shell.run (.ofLine (requestLine "full name" "2"))
        = ("Invalid count: name\n", some shell) := by
  intro document registry shell
  have parsed : Document.parse document
      = .ok [(⟨"full name", .text "Ann"⟩ : Document.Declaration Combiner)] := by cbv
  have command : Command.ofLine (requestLine "full name" "2")
      = .generate ["full", "name", "2"] := by decide
  refine ⟨.declare parsed, ?_, ?_, ?_, ?_⟩
  · decide
  · decide
  · rw [command]
    decide
  · rw [command]
    rfl

end Preview

end Wordloom
