import Mathlib
import Wordloom.Proofs.Document.Completeness
import Wordloom.Proofs.Outcomes
import Wordloom.Proofs.Registry.Documents
import Wordloom.Settings.Basic

/-!
# Documents one after the other

This file shows that reading documents one after the other is reading them as one document.

Where two documents meet, the blanks after the first are written before the first name of the
second, and blanks may stand there. So a way to write some declarations followed by a way to
write others is a way to write all of them. A registry knows the last declaration of each name. Merging
looks a name up in the later documents first, which comes to the same.
-/

namespace Wordloom

variable {φ : Type}

namespace Document

theorem AreDeclarations.append {declarations others : List (Declaration φ)}
    (first : AreDeclarations declarations) (second : AreDeclarations others) :
    AreDeclarations (declarations ++ others) where
  present := by simp [first.present]
  names := List.forall_mem_append.mpr ⟨first.names, second.names⟩
  templates := List.forall_mem_append.mpr ⟨first.templates, second.templates⟩

theorem Piece.Writes.cons_blank {letters before written : List Char}
    (blank : Text.allBlank before = true) (writes : (Piece.name letters).Writes written) :
    (Piece.name letters).Writes (before ++ written) := by
  rcases writes with ⟨start, after, startBlank, afterBlank, rfl⟩
  refine ⟨before ++ start, after, ?_, afterBlank, ?_⟩
  · exact Text.allBlank_append.mpr ⟨blank, startBlank⟩
  · simp

/-- The blanks after some declarations come to stand before the name of the next one. -/
theorem Writes.append {declarations others : List (Declaration φ)} {first second : String}
    (writes : Writes declarations first) (othersWrites : Writes others second)
    (present : others ≠ []) : Writes (declarations ++ others) (first ++ second) := by
  rcases writes with ⟨written, after, writes, blank, whole⟩
  rcases othersWrites with ⟨more, last, moreWrites, lastBlank, moreWhole⟩
  rcases others with _ | ⟨other, others⟩
  · exact absurd rfl present
  · rw [List.flatMap_cons, Declaration.pieces, List.cons_append, List.cons_append] at moreWrites
    rcases List.forall₂_cons_left_iff.mp moreWrites with ⟨name, rest, named, restWrites, rfl⟩
    refine ⟨written ++ (after ++ name) :: rest, last, ?_, lastBlank, ?_⟩
    · rw [List.flatMap_append, List.flatMap_cons, Declaration.pieces, List.cons_append,
        List.cons_append]
      exact List.rel_append writes (.cons (named.cons_blank blank) restWrites)
    · simp [String.toList_append, whole, moreWhole]

theorem parse_append {first second : String} {declarations others : List (Declaration φ)}
    (parsed : parse first = .ok declarations) (othersParsed : parse second = .ok others) :
    parse (first ++ second) = .ok (declarations ++ others) := by
  rcases areDeclarations_and_writes_of_parse parsed with ⟨can, writes⟩
  rcases areDeclarations_and_writes_of_parse othersParsed with ⟨othersCan, othersWrites⟩
  apply parse_of_areDeclarations_of_writes
  · exact can.append othersCan
  · exact writes.append othersWrites othersCan.present

/-- Documents that are all accepted are accepted as one document. -/
theorem parse_join {texts : List String} {declarations : List (List (Declaration φ))}
    (present : texts ≠ [])
    (parsed : List.Forall₂ (fun text declared => parse text = .ok declared) texts declarations) :
    parse (String.join texts) = .ok declarations.flatten := by
  induction parsed with
  | nil => exact absurd rfl present
  | @cons text declared texts declarations first rest ih =>
      rw [String.join_cons, List.flatten_cons]
      rcases texts with _ | ⟨next, texts⟩
      · cases rest
        simpa using first
      · exact parse_append first (ih (by simp))

end Document

/-- A computation that reads from a fixed state of the files, as its outcome. -/
def outcomeOf {ε α : Type} (reading : ExceptT ε Id α) : Except ε α :=
  reading.run

theorem outcomeOf_bind {ε α β : Type} (first : ExceptT ε Id α) (next : α → ExceptT ε Id β) :
    outcomeOf (first >>= next) = outcomeOf first >>= fun value => outcomeOf (next value) := by
  rw [outcomeOf, ExceptT.run_bind]
  change (match outcomeOf first with | .ok value => _ | .error cause => _) = _
  rcases outcomeOf first with cause | value
  · rfl
  · rfl

namespace Registry

open Document

theorem declare_append (declarations others : List (Declaration φ)) :
    (empty : Registry φ).declare (declarations ++ others)
      = (empty.declare declarations).merge (empty.declare others) := by
  ext1 name
  simp [find?_merge, find?_declare, lastDeclared?_append]

theorem parse_append {first second : String} {registry other : Registry φ}
    (parsed : parse first = .ok registry) (otherParsed : parse second = .ok other) :
    parse (first ++ second) = .ok (registry.merge other) := by
  rcases parse_eq_ok_iff.mp parsed with ⟨declarations, read, rfl⟩
  rcases parse_eq_ok_iff.mp otherParsed with ⟨others, otherRead, rfl⟩
  apply parse_eq_ok_iff.mpr
  exact ⟨_, Document.parse_append read otherRead, (declare_append declarations others).symm⟩

/-! ### The documents of settings -/

theorem outcomeOf_load {reader : FileReader Id} {path text : String}
    (readable : outcomeOf (reader.text path) = .ok text) :
    outcomeOf (load reader path : ExceptT LoadError Id (Registry φ))
      = (parse text).mapError (.document path) := by
  rw [load, outcomeOf_bind, readable]
  change outcomeOf (MonadExcept.ofExcept ((parse text).mapError _)) = _
  rcases parse text with cause | registry
  · rfl
  · rfl

/-- Documents are merged as they are loaded, and could as well be merged in the end. -/
theorem outcomeOf_foldlM_load (reader : FileReader Id) (paths : List String)
    (registry : Registry φ) :
    outcomeOf (paths.foldlM (fun registry path => do return registry.merge (← load reader path))
        registry)
      = (paths.mapM fun path => outcomeOf (load reader path)).map (List.foldl merge registry) := by
  induction paths generalizing registry with
  | nil => rfl
  | cons path paths ih =>
      simp only [List.foldlM_cons, List.mapM_cons, outcomeOf_bind, ih]
      rcases outcomeOf (load reader path) with cause | other
      · rfl
      · change Except.map _ (paths.mapM _) = Except.map _ (Except.bind (paths.mapM _) _)
        rcases paths.mapM fun path => outcomeOf (load reader path) with cause | others
        · rfl
        · rfl

theorem outcomeOf_ofSettings (reader : FileReader Id) (settings : Settings) :
    outcomeOf (ofSettings reader settings : ExceptT LoadError Id (Registry φ))
      = (settings.documents.mapM fun path => outcomeOf (load reader path)).map
        (List.foldl merge empty) :=
  outcomeOf_foldlM_load reader settings.documents empty

theorem foldl_merge_declare (registry : Registry φ)
    (declarations : List (List (Declaration φ))) :
    (declarations.map empty.declare).foldl merge registry
      = registry.declare declarations.flatten := by
  induction declarations generalizing registry with
  | nil => rfl
  | cons declared rest ih =>
      rw [List.map_cons, List.foldl_cons, ih]
      ext1 name
      simp [find?_declare, find?_merge, lastDeclared?_append, Option.or_assoc]

/-- Settings that list documents which are all accepted make a registry of their declarations. -/
theorem outcomeOf_ofSettings_eq_ok {reader : FileReader Id} {settings : Settings}
    {texts : List String} {declarations : List (List (Declaration φ))}
    (readable : List.Forall₂ (fun path text => outcomeOf (reader.text path) = .ok text)
      settings.documents texts)
    (accepted : List.Forall₂ (fun text declared => Document.parse text = .ok declared)
      texts declarations) :
    outcomeOf (ofSettings reader settings)
      = .ok ((empty : Registry φ).declare declarations.flatten) := by
  have loaded : List.Forall₂ (fun path registry => outcomeOf (load reader path) = .ok registry)
      settings.documents (declarations.map (empty : Registry φ).declare) := by
    rw [List.forall₂_map_right_iff]
    generalize settings.documents = paths at readable
    induction readable generalizing declarations with
    | nil =>
        cases accepted
        exact .nil
    | cons readable rest ih =>
        cases accepted with
        | cons parsed others =>
            refine .cons ?_ (ih others)
            rw [outcomeOf_load readable, parse, parsed]
            rfl
  rw [outcomeOf_ofSettings, mapM_eq_ok_iff.mpr loaded]
  change Except.ok _ = _
  rw [foldl_merge_declare]

theorem outcomeOf_ofSettings_eq_error_iff {reader : FileReader Id} {settings : Settings}
    {cause : LoadError} :
    outcomeOf (ofSettings reader settings : ExceptT LoadError Id (Registry φ)) = .error cause ↔
      ∃ before path after, settings.documents = before ++ path :: after ∧
        outcomeOf (load reader path : ExceptT LoadError Id (Registry φ)) = .error cause ∧
        ∀ earlier ∈ before, ∃ registry : Registry φ,
          outcomeOf (load reader earlier) = .ok registry := by
  rw [outcomeOf_ofSettings, ← mapM_eq_error_iff]
  rcases settings.documents.mapM fun path => outcomeOf (load reader path) with reason | registries
  · simp [Except.map]
  · simp [Except.map]

end Registry

/--
Reading commutes with putting documents together. One document after another is read as the
declarations of the one and then those of the other, and its registry is that of the one with
that of the other merged over it. So settings whose documents can be read and are accepted make
the registry of the last declarations in all documents together. Otherwise they fail as the first
of their documents does that fails.
-/
theorem reading_commutes_with_append (φ : Type) :
    (∀ (first second : String) (declarations others : List (Document.Declaration φ)),
      Document.parse first = .ok declarations → Document.parse second = .ok others →
        Document.parse (first ++ second) = .ok (declarations ++ others)) ∧
    (∀ (first second : String) (registry other : Registry φ),
      Registry.parse first = .ok registry → Registry.parse second = .ok other →
        Registry.parse (first ++ second) = .ok (registry.merge other)) ∧
    (∀ (reader : FileReader Id) (settings : Settings) (texts : List String)
        (declarations : List (List (Document.Declaration φ))),
      List.Forall₂ (fun path text => outcomeOf (reader.text path) = .ok text)
        settings.documents texts →
      List.Forall₂ (fun text declared => Document.parse text = .ok declared)
        texts declarations →
        ∃ registry : Registry φ, outcomeOf (Registry.ofSettings reader settings) = .ok registry ∧
          (∀ name, registry.find? name = Document.lastDeclared? declarations.flatten name) ∧
          (texts ≠ [] → Document.parse (String.join texts) = .ok declarations.flatten ∧
            Registry.parse (String.join texts) = .ok registry)) ∧
    ∀ (reader : FileReader Id) (settings : Settings) (cause : LoadError),
      outcomeOf (Registry.ofSettings reader settings : ExceptT LoadError Id (Registry φ))
          = .error cause ↔
        ∃ before path after, settings.documents = before ++ path :: after ∧
          outcomeOf (Registry.load reader path : ExceptT LoadError Id (Registry φ))
            = .error cause ∧
          ∀ earlier ∈ before, ∃ registry : Registry φ,
            outcomeOf (Registry.load reader earlier) = .ok registry := by
  refine ⟨?_, ?_, ?_, ?_⟩
  · intro first second declarations others parsed othersParsed
    exact Document.parse_append parsed othersParsed
  · intro first second registry other parsed otherParsed
    exact Registry.parse_append parsed otherParsed
  · intro reader settings texts declarations readable accepted
    refine ⟨Registry.empty.declare declarations.flatten,
      Registry.outcomeOf_ofSettings_eq_ok readable accepted, ?_, ?_⟩
    · intro name
      simp [Registry.find?_declare]
    · intro present
      have joined := Document.parse_join present accepted
      exact ⟨joined, Registry.parse_eq_ok_iff.mpr ⟨_, joined, rfl⟩⟩
  · intro reader settings cause
    exact Registry.outcomeOf_ofSettings_eq_error_iff

theorem reading_commutes_with_append_names :
    let reader : FileReader Id := fun path =>
      if path = "names.gen" then .ok "name=Ann; \n".toUTF8 else .ok "name=Bob;greeting=Hi;".toUTF8
    let settings : Settings := ⟨["names.gen", "greetings.gen"], 7, 1, ∅⟩
    let declarations : List (List (Document.Declaration Empty)) :=
      [[⟨"name", .text "Ann"⟩], [⟨"name", .text "Bob"⟩, ⟨"greeting", .text "Hi"⟩]]
    ∃ registry : Registry Empty, outcomeOf (Registry.ofSettings reader settings) = .ok registry ∧
      Document.parse "name=Ann; \nname=Bob;greeting=Hi;" = .ok declarations.flatten ∧
      Registry.parse "name=Ann; \nname=Bob;greeting=Hi;" = .ok registry := by
  intro reader settings declarations
  have first : Document.parse "name=Ann; \n" = .ok [⟨"name", (.text "Ann" : Generator Empty)⟩] := by
    cbv
  have second : Document.parse "name=Bob;greeting=Hi;"
      = .ok [⟨"name", (.text "Bob" : Generator Empty)⟩, ⟨"greeting", .text "Hi"⟩] := by
    cbv
  have readable : List.Forall₂ (fun path text => outcomeOf (reader.text path) = .ok text)
      settings.documents ["name=Ann; \n", "name=Bob;greeting=Hi;"] := by
    refine .cons ?_ (.cons ?_ .nil)
    · cbv
    · cbv
  rcases (reading_commutes_with_append Empty).2.2.1 reader settings _ declarations readable
    (.cons first (.cons second .nil)) with ⟨registry, made, -, joined⟩
  exact ⟨registry, made, joined (by simp)⟩

end Wordloom
