import Wordloom.Document.Token
import Wordloom.Generator.Evaluation

/-!
# Template documents

This file reads template documents. A document is a list of declarations, each of them a name,
an equals sign, a template and a semicolon. A template mixes literal text, brackets with
alternatives between slashes, and references to parameters between angle brackets.

    document    := declaration+
    declaration := NAME "=" element* ";"
    element     := TEXT | "[" element* ("/" element*)* "]" | "<" NAME ">"

The reader takes one token at a time. What it has read so far is a `Progress`: the finished
declarations, and how far the open one has come, with a frame for every bracket that is still
open. So a document is rejected at the first token that does not fit, and the depth of brackets
is the number of frames.

Brackets become tables of equally likely options. A reference reads the parameter of its name,
and without one yields the name itself.
-/

namespace Wordloom.Document

/-- What a name is for. -/
inductive Role where
  | declaration
  | parameter
deriving DecidableEq, Repr

/-- How a role is named in messages. -/
def Role.name : Role → String
  | .declaration => "declaration"
  | .parameter => "parameter"

/-- Why a document is rejected at a token or at its end. -/
inductive Fault where
  /-- A name should stand there. -/
  | nameExpected (role : Role)
  /-- A name should stand there, and the text there is blank. -/
  | nameEmpty (role : Role)
  /-- A mark should stand there. -/
  | markExpected (mark : Mark)
  /-- One bracket too many is opened there. -/
  | bracketsTooDeep
  /-- The document ends there without any declaration. -/
  | declarationExpected
deriving DecidableEq, Repr

/-- A fault with its place and with what stands there, which is nothing at the end. -/
structure SyntaxError where
  fault : Fault
  position : Position
  found : Option Lexeme
deriving DecidableEq, Repr

namespace SyntaxError

/-- How the lexeme at the fault is named. -/
def foundDescription (error : SyntaxError) : String :=
  match error.found with
  | some lexeme => lexeme.description
  | none => "end of input"

/-- The text of the lexeme at the fault. -/
def token (error : SyntaxError) : String :=
  match error.found with
  | some lexeme => lexeme.trimmed
  | none => ""

/-- The wording of the fault. -/
def detail (error : SyntaxError) : String :=
  match error.fault with
  | .nameExpected role =>
    "expected " ++ role.name ++ " identifier but found " ++ error.foundDescription
  | .nameEmpty role => "empty " ++ role.name ++ " identifier"
  | .markExpected mark =>
    "expected " ++ (Lexeme.mark mark).description ++ " but found " ++ error.foundDescription
  | .bracketsTooDeep =>
    "brackets nested deeper than " ++ numberText maxDepth ++ " levels"
  | .declarationExpected => "expected at least one declaration"

/-- The wording of the fault with its place. -/
def message (error : SyntaxError) : String :=
  "syntax error at line " ++ numberText error.position.line ++ ", column "
    ++ numberText error.position.column ++ ": " ++ error.detail

end SyntaxError

/-- A generator with the name that it is declared under. -/
structure Declaration (φ : Type) where
  name : String
  generator : Generator φ

/-- A bracket that is still open. Both lists are in reverse. -/
structure Frame (φ : Type) where
  /-- The elements before the bracket, in the sequence that it belongs to. -/
  before : List (Generator φ)
  /-- The alternatives of the bracket that are finished. -/
  options : List (Generator φ)

/-- A declaration that has come as far as its template. -/
structure Draft (φ : Type) where
  name : String
  /-- The open brackets, the innermost one first. -/
  frames : List (Frame φ)
  /-- The elements of the innermost open sequence, in reverse. -/
  elements : List (Generator φ)

/-- What a reader of tokens waits for. -/
inductive Stage (φ : Type) where
  /-- The name of a declaration, or the end. -/
  | between
  /-- Only the end, since there was a blank text where a name should be. -/
  | ending (blank : Token)
  /-- The equals sign after a name. -/
  | named (name : String)
  /-- An element of a template, or what ends a sequence. -/
  | template (draft : Draft φ)
  /-- The name of a parameter. -/
  | reference (draft : Draft φ)
  /-- The end of a reference to a parameter. -/
  | closing (draft : Draft φ) (id : String)

/-- How far a document is read. -/
structure Progress (φ : Type) where
  /-- The finished declarations, in reverse. -/
  declarations : List (Declaration φ)
  stage : Stage φ

namespace Progress

variable {φ : Type}

/-- Nothing is read yet. -/
def start : Progress φ :=
  ⟨[], .between⟩

/-- A fault at a token. -/
def fail {α : Type} (fault : Fault) (token : Token) : Except SyntaxError α :=
  .error ⟨fault, token.position, some token.lexeme⟩

/-- The mark that is missing where a sequence can neither go on nor end. -/
def sequenceEnd (frames : List (Frame φ)) : Mark :=
  if frames.isEmpty then .semicolon else .closeBracket

/--
One token of a template. Sequences are made into generators by `assemble`, which is given the
elements in order.
-/
def readElement (assemble : List (Generator φ) → Generator φ) (progress : Progress φ)
    (draft : Draft φ) (token : Token) : Except SyntaxError (Progress φ) :=
  let continueWith (draft : Draft φ) : Except SyntaxError (Progress φ) :=
    .ok { progress with stage := .template draft }
  let sequence := assemble draft.elements.reverse
  match token.lexeme, draft.frames with
  | .text run, _ =>
    continueWith { draft with elements := .text (String.ofList run) :: draft.elements }
  | .mark .less, _ => .ok { progress with stage := .reference draft }
  | .mark .openBracket, frames =>
    if frames.length < maxDepth then
      continueWith { draft with frames := ⟨draft.elements, []⟩ :: frames, elements := [] }
    else fail .bracketsTooDeep token
  | .mark .slash, frame :: outer =>
    continueWith
      { draft with
        frames := { frame with options := sequence :: frame.options } :: outer
        elements := [] }
  | .mark .closeBracket, frame :: outer =>
    let table := Generator.select .string (sequence :: frame.options).reverse
    continueWith { draft with frames := outer, elements := table :: frame.before }
  | .mark .semicolon, [] =>
    .ok ⟨⟨draft.name, sequence⟩ :: progress.declarations, .between⟩
  | _, frames => fail (.markExpected (sequenceEnd frames)) token

/-- One token. -/
def step (assemble : List (Generator φ) → Generator φ) (progress : Progress φ) (token : Token) :
    Except SyntaxError (Progress φ) :=
  match progress.stage, token.lexeme with
  | .between, .text run =>
    if Text.allBlank run then .ok { progress with stage := .ending token }
    else .ok { progress with stage := .named (String.ofList (Text.trim run)) }
  | .between, _ => fail (.nameExpected .declaration) token
  | .ending blank, _ => fail (.nameEmpty .declaration) blank
  | .named name, .mark .assign => .ok { progress with stage := .template ⟨name, [], []⟩ }
  | .named _, _ => fail (.markExpected .assign) token
  | .template draft, _ => readElement assemble progress draft token
  | .reference draft, .text run =>
    if Text.allBlank run then fail (.nameEmpty .parameter) token
    else .ok { progress with stage := .closing draft (String.ofList (Text.trim run)) }
  | .reference _, _ => fail (.nameExpected .parameter) token
  | .closing draft id, .mark .greater =>
    let reference := Generator.parameter id (.string id) .string
    .ok { progress with stage := .template { draft with elements := reference :: draft.elements } }
  | .closing _ _, _ => fail (.markExpected .greater) token

/-- The declarations at the end of a document. -/
def finish (progress : Progress φ) (position : Position) :
    Except SyntaxError (List (Declaration φ)) :=
  let missing (fault : Fault) : Except SyntaxError (List (Declaration φ)) :=
    .error ⟨fault, position, none⟩
  match progress.stage with
  | .between =>
    if progress.declarations.isEmpty then missing .declarationExpected
    else .ok progress.declarations.reverse
  | .ending blank =>
    if progress.declarations.isEmpty then fail .declarationExpected blank
    else .ok progress.declarations.reverse
  | .named _ => missing (.markExpected .assign)
  | .template draft => missing (.markExpected (sequenceEnd draft.frames))
  | .reference _ => missing (.nameExpected .parameter)
  | .closing _ _ => missing (.markExpected .greater)

end Progress

variable {φ : Type}

/-- The generator of a sequence of elements. No element yields nothing and a lone one is itself,
as every element yields a string already. -/
def sequence : List (Generator φ) → Generator φ
  | [] => .text ""
  | [element] => element
  | elements => .concatenate elements

/-- The declarations of a document, its sequences being made into generators by `assemble`. -/
def parseWith (assemble : List (Generator φ) → Generator φ) (text : List Char) :
    Except SyntaxError (List (Declaration φ)) := do
  let progress ← (tokens text).foldlM (Progress.step assemble) .start
  progress.finish (Position.start.afterText text)

/-- The declarations of a document, in order. -/
def parse (text : String) : Except SyntaxError (List (Declaration φ)) :=
  parseWith sequence text.toList

end Wordloom.Document
