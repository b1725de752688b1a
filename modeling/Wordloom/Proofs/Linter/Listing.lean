import Mathlib
import Wordloom.Generator.Combiner
import Wordloom.Linter.Report
import Wordloom.Proofs.Registry.Documents

/-!
# Listing orders

This file shows what the linter takes from the order in which directories list their entries. The
documents that it loads and those that it fails to load are the same for any order, and only the
order in which they are merged is another one.

Merging registries that have no name in common can be done in any order. So if no name is declared
by two documents, all that the linter finds is the same, and it depends on the registry alone, which
keeps its names in their own order.
-/

namespace Wordloom

/-- Whether a directory lists the same entries as another, both in any order, and so does every
directory inside. -/
inductive Relisted : List (String × FileTree) → List (String × FileTree) → Prop where
  | nil : Relisted [] []
  | keep {entries others : List (String × FileTree)} (entry : String × FileTree)
      (rest : Relisted entries others) : Relisted (entry :: entries) (entry :: others)
  | inside {entries others inner relisted : List (String × FileTree)} (name : String)
      (below : Relisted inner relisted) (rest : Relisted entries others) :
      Relisted ((name, .directory inner) :: entries) ((name, .directory relisted) :: others)
  | swap (first second : String × FileTree) (entries : List (String × FileTree)) :
      Relisted (first :: second :: entries) (second :: first :: entries)
  | trans {entries between others : List (String × FileTree)} (first : Relisted entries between)
      (second : Relisted between others) : Relisted entries others

/-- Entries in another order are relisted, with the same order in all directories inside. -/
theorem Relisted.of_perm {entries others : List (String × FileTree)} (perm : entries.Perm others) :
    Relisted entries others := by
  induction perm with
  | nil => exact .nil
  | cons entry _ ih => exact .keep entry ih
  | swap first second entries => exact .swap second first entries
  | trans _ _ first second => exact .trans first second

namespace Registry

variable {φ : Type}

/-- Whether two registries have no name in common. -/
def Apart (registry other : Registry φ) : Prop :=
  ∀ name, registry.find? name = none ∨ other.find? name = none

/-- Registries without common names can be merged in either order. -/
theorem Apart.merge_right_comm {first second : Registry φ} (apart : first.Apart second)
    (registry : Registry φ) :
    (registry.merge first).merge second = (registry.merge second).merge first := by
  ext1 name
  simp only [find?_merge]
  rcases apart name with absent | absent
  · simp [absent]
  · simp [absent]

end Registry

namespace Linter

variable {φ : Type}

/-- The documents that an entry of a directory leads to. -/
def documentsOf (path : String) : String × FileTree → List DocumentFile
  | (name, .file contents) =>
    if extension? name = some "gen" then [⟨joinPath path name, contents⟩] else []
  | (name, .directory entries) => documentsAmong (joinPath path name) entries

theorem documentsAmong_eq_flatMap (path : String) (entries : List (String × FileTree)) :
    documentsAmong path entries = entries.flatMap (documentsOf path) := by
  induction entries with
  | nil => rw [documentsAmong, List.flatMap_nil]
  | cons entry entries ih =>
      rcases entry with ⟨name, contents | inner⟩
      · rw [documentsAmong, ih, List.flatMap_cons, documentsOf]
        split <;> rfl
      · rw [documentsAmong, documentsIn, ih, List.flatMap_cons, documentsOf]

/-- Directories that are relisted hold the same documents. -/
theorem documentsAmong_perm {entries others : List (String × FileTree)}
    (relisted : Relisted entries others) (path : String) :
    (documentsAmong path entries).Perm (documentsAmong path others) := by
  simp only [documentsAmong_eq_flatMap]
  induction relisted generalizing path with
  | nil => exact .refl _
  | keep entry _ ih => exact (ih path).append_left _
  | inside name _ _ below rest =>
      simp only [List.flatMap_cons, documentsOf, documentsAmong_eq_flatMap]
      exact (below (joinPath path name)).append (rest path)
  | swap first second entries => exact (List.Perm.swap second first entries).flatMap_right _
  | trans _ _ first second => exact (first path).trans (second path)

namespace DocumentFile

/-- What a document declares, if it is loaded. -/
def registry? (φ : Type) (document : DocumentFile) : Option (Registry φ) :=
  (document.load : Except LoadError (Registry φ)).toOption

/-- The registry with what a document declares merged over it, if the document is loaded. -/
def mergedOver (registry : Registry φ) (document : DocumentFile) : Registry φ :=
  ((document.registry? φ).map registry.merge).getD registry

/-- Whether two documents declare no name in common. One that is not loaded declares none. -/
def Apart (φ : Type) (document other : DocumentFile) : Prop :=
  ∀ registry ∈ document.registry? φ, ∀ another ∈ other.registry? φ, registry.Apart another

instance : Std.Symm (Apart φ) where
  symm _ _ apart registry loaded another otherLoaded name :=
    (apart another otherLoaded registry loaded name).symm

theorem Apart.mergedOver_right_comm {document other : DocumentFile}
    (apart : document.Apart φ other) (registry : Registry φ) :
    mergedOver (mergedOver registry document) other
      = mergedOver (mergedOver registry other) document := by
  unfold mergedOver
  rcases loaded : document.registry? φ with _ | first
  · rfl
  rcases otherLoaded : other.registry? φ with _ | second
  · rfl
  · exact (apart first loaded second otherLoaded).merge_right_comm registry

/-- Documents that have no name in common two by two can be merged in any order. -/
theorem foldl_mergedOver_perm {documents others : List DocumentFile}
    (once : documents.Pairwise (Apart φ)) (perm : documents.Perm others)
    (registry : Registry φ) :
    documents.foldl mergedOver registry = others.foldl mergedOver registry := by
  apply perm.foldl_eq'
  intro document inside other otherInside between
  by_cases same : document = other
  · rw [same]
  · exact (once.forall inside otherInside same).mergedOver_right_comm between

end DocumentFile

/-- The documents of a directory that are loaded, in the order in which they are. -/
def loadedAmong (φ : Type) (path : String) (entries : List (String × FileTree)) :
    List DocumentFile :=
  (documentsAmong path entries).filter fun document => (document.registry? φ).isSome

/-- What is printed for the documents that are loaded. -/
def loadedText (documents : List DocumentFile) : String :=
  String.join (documents.map fun document => asLine ("  Loaded: " ++ document.path))

namespace Loaded

/-- A document is merged over the registry and its path is printed, or it is counted. -/
theorem add_cases (loaded : Loaded φ) (document : DocumentFile) :
    (∃ registry, document.registry? φ = some registry ∧
        loaded.add document = { loaded with
          registry := loaded.registry.merge registry
          out := loaded.out ++ asLine ("  Loaded: " ++ document.path) }) ∨
      (document.registry? φ = none ∧
        ∃ err, loaded.add document = { loaded with failures := loaded.failures + 1, err }) := by
  unfold add DocumentFile.registry?
  rcases (document.load : Except LoadError (Registry φ)) with cause | registry
  · exact .inr ⟨rfl, _, rfl⟩
  · exact .inl ⟨registry, rfl, rfl⟩

theorem registry_foldl_add (loaded : Loaded φ) (documents : List DocumentFile) :
    (documents.foldl add loaded).registry
      = (documents.filter fun document => (document.registry? φ).isSome).foldl
          DocumentFile.mergedOver loaded.registry := by
  induction documents generalizing loaded with
  | nil => rfl
  | cons document documents ih =>
      rw [List.foldl_cons, ih]
      rcases loaded.add_cases document with ⟨registry, found, added⟩ | ⟨missing, err, added⟩
      · simp [added, found, DocumentFile.mergedOver]
      · simp [added, missing]

theorem failures_foldl_add (loaded : Loaded φ) (documents : List DocumentFile) :
    (documents.foldl add loaded).failures
      = loaded.failures + documents.countP fun document => (document.registry? φ).isNone := by
  induction documents generalizing loaded with
  | nil => rfl
  | cons document documents ih =>
      rw [List.foldl_cons, ih, List.countP_cons]
      rcases loaded.add_cases document with ⟨registry, found, added⟩ | ⟨missing, err, added⟩
      · simp [added, found]
      · simp [added, missing]
        omega

theorem out_foldl_add (loaded : Loaded φ) (documents : List DocumentFile) :
    (documents.foldl add loaded).out
      = loaded.out ++ loadedText (documents.filter fun document =>
          (document.registry? φ).isSome) := by
  induction documents generalizing loaded with
  | nil => simp [loadedText]
  | cons document documents ih =>
      rw [List.foldl_cons, ih]
      rcases loaded.add_cases document with ⟨registry, found, added⟩ | ⟨missing, err, added⟩
      · simp [added, found, loadedText, String.append_assoc]
      · simp [added, missing]

variable (path : String) (entries : List (String × FileTree))

theorem registry_ofDirectory :
    (ofDirectory path (.directory entries) : Loaded φ).registry
      = (loadedAmong φ path entries).foldl DocumentFile.mergedOver .empty := by
  rw [ofDirectory, documentsIn, registry_foldl_add, loadedAmong]
  rfl

theorem failures_ofDirectory :
    (ofDirectory path (.directory entries) : Loaded φ).failures
      = (documentsAmong path entries).countP fun document => (document.registry? φ).isNone := by
  rw [ofDirectory, documentsIn, failures_foldl_add]
  exact Nat.zero_add _

theorem out_ofDirectory :
    (ofDirectory path (.directory entries) : Loaded φ).out
      = loadedText (loadedAmong φ path entries) := by
  rw [ofDirectory, documentsIn, out_foldl_add, loadedAmong]
  exact String.empty_append

end Loaded

/--
What the linter reports does not depend on the order in which directories list their entries. The
documents that are loaded are the same, as is printed for them, and so is the count of those that
are not. If no name is declared by two documents, then the registry is the same, and so are the
errors and the warnings with their order, the report and the exit code.
-/
theorem report_ignores_listing_order (φ : Type) (path : String)
    {entries others : List (String × FileTree)} (relisted : Relisted entries others) :
    let loaded : Loaded φ := .ofDirectory path (.directory entries)
    let other : Loaded φ := .ofDirectory path (.directory others)
    (loadedAmong φ path entries).Perm (loadedAmong φ path others) ∧
      loaded.out = loadedText (loadedAmong φ path entries) ∧
      other.out = loadedText (loadedAmong φ path others) ∧
      loaded.failures = other.failures ∧
      ((loadedAmong φ path entries).Pairwise (DocumentFile.Apart φ) →
        loaded.registry = other.registry ∧
          errors loaded.findings = errors other.findings ∧
          warnings loaded.findings = warnings other.findings ∧
          report loaded.registry.size loaded.findings
            = report other.registry.size other.findings ∧
          loaded.conclude.code = other.conclude.code) := by
  intro loaded other
  have perm := documentsAmong_perm relisted path
  have loadedPerm : (loadedAmong φ path entries).Perm (loadedAmong φ path others) :=
    perm.filter _
  have failures : loaded.failures = other.failures := by
    rw [Loaded.failures_ofDirectory, Loaded.failures_ofDirectory, perm.countP_eq]
  refine ⟨loadedPerm, Loaded.out_ofDirectory path entries, Loaded.out_ofDirectory path others,
    failures, ?_⟩
  intro once
  have registries : loaded.registry = other.registry := by
    rw [Loaded.registry_ofDirectory, Loaded.registry_ofDirectory]
    exact DocumentFile.foldl_mergedOver_perm once loadedPerm .empty
  have findings : loaded.findings = other.findings := by
    rw [Loaded.findings, Loaded.findings, registries, failures]
  rw [Loaded.conclude, Loaded.conclude, findings, registries]
  exact ⟨rfl, rfl, rfl, rfl, rfl⟩

theorem report_ignores_listing_order_names :
    let names : String × FileTree := ("names.gen", .file (.ok "name=Ann;".toUTF8))
    let echo : String × FileTree := ("echo.gen", .file (.ok "echo=<echo>;".toUTF8))
    let broken : String × FileTree := ("broken.gen", .file (.ok "name=[Bob;".toUTF8))
    let entries := [names, ("more", .directory [echo, broken])]
    let others := [("more", .directory [broken, echo]), names]
    let loaded : Loaded Combiner := .ofDirectory "texts" (.directory entries)
    let other : Loaded Combiner := .ofDirectory "texts" (.directory others)
    Relisted entries others ∧
      (loadedAmong Combiner "texts" entries).Pairwise (DocumentFile.Apart Combiner) ∧
      loaded.failures = other.failures ∧ loaded.registry = other.registry ∧
      errors loaded.findings = errors other.findings ∧
      loaded.conclude.code = other.conclude.code := by
  intro names echo broken entries others loaded other
  have inside : Relisted entries [names, ("more", .directory [broken, echo])] :=
    .keep names (.inside "more" (.of_perm (.swap broken echo [])) .nil)
  have relisted : Relisted entries others := inside.trans (.of_perm (.swap _ names []))
  let first : DocumentFile := ⟨"texts/names.gen", .ok "name=Ann;".toUTF8⟩
  let second : DocumentFile := ⟨"texts/more/echo.gen", .ok "echo=<echo>;".toUTF8⟩
  have files : loadedAmong Combiner "texts" entries = [first, second] := by cbv
  have declared : first.registry? Combiner
      = some (Registry.empty.declare [⟨"name", .text "Ann"⟩]) := by
    cbv
  have otherDeclared : second.registry? Combiner
      = some (Registry.empty.declare
          [⟨"echo", .parameter "echo" (.string "echo") .string⟩]) := by
    cbv
  have once : (loadedAmong Combiner "texts" entries).Pairwise (DocumentFile.Apart Combiner) := by
    rw [files, List.pairwise_pair, DocumentFile.Apart, declared, otherDeclared]
    simp only [Option.mem_some_iff, forall_eq']
    intro name
    by_cases named : name = "name"
    · right
      simp [Registry.declare, Registry.find?_set, named]
    · left
      simp [Registry.declare, Registry.find?_set, Ne.symm named]
  have same := report_ignores_listing_order Combiner "texts" relisted
  have reported := same.2.2.2.2 once
  exact ⟨relisted, once, same.2.2.2.1, reported.1, reported.2.1, reported.2.2.2.2⟩

end Linter

end Wordloom
