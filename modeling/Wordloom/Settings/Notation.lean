import Wordloom.Settings.Basic
import Wordloom.Digits

/-!
# Reading settings

This file reads settings written in RON, a notation for values that are built from structs,
lists, maps, strings and numbers. Settings are one struct with their fields in any order, each
at most once. Fields that are missing keep their defaults. Fields that are not known are read
over, whatever value of the notation they have.

The reader works from left to right on the characters that are left. It gives up at the first
thing that does not fit. Values may be nested to a fixed depth, which is what the reader of
unknown values recurses on; what is read one after the other is bounded by the length of the
text.
-/

namespace Wordloom.Notation

/-- A reader of a text from the left, which may refuse it. -/
abbrev Reader (α : Type) : Type :=
  StateT (List Char) Option α

/-- Where a reader of blanks and comments stands. -/
inductive Region where
  | code
  | lineComment
  /-- Inside some comments, one more of which are open than the number says. -/
  | blockComment (outer : Nat)

/-- Whether a character is blank in the notation. -/
def isSpace (character : Char) : Bool :=
  character == ' ' || character == '\t' || character == '\r' || character == '\n'

/-- The text after the blanks and comments at its start. An unclosed comment is refused. -/
def skipSpaceFrom : Region → List Char → Option (List Char)
  | .blockComment _, [] => none
  | _, [] => some []
  | .lineComment, character :: rest =>
    skipSpaceFrom (if character = '\n' then .code else .lineComment) rest
  | .blockComment outer, '/' :: '*' :: rest => skipSpaceFrom (.blockComment (outer + 1)) rest
  | .blockComment 0, '*' :: '/' :: rest => skipSpaceFrom .code rest
  | .blockComment (outer + 1), '*' :: '/' :: rest => skipSpaceFrom (.blockComment outer) rest
  | .blockComment outer, _ :: rest => skipSpaceFrom (.blockComment outer) rest
  | .code, '/' :: '/' :: rest => skipSpaceFrom .lineComment rest
  | .code, '/' :: '*' :: rest => skipSpaceFrom (.blockComment 0) rest
  | .code, '/' :: _ => none
  | .code, character :: rest =>
    if isSpace character then skipSpaceFrom .code rest else some (character :: rest)

/-- Goes over blanks and comments. -/
def skipSpace : Reader Unit := do
  set (← liftM (skipSpaceFrom .code (← get)))

/-- The next character, which stays. -/
def peek : Reader (Option Char) := do
  return (← get).head?

/-- The next character. -/
def next : Reader Char := do
  match ← get with
  | [] => failure
  | character :: rest => set rest; return character

/-- Takes a text if it comes next. -/
def take? (expected : String) : Reader Bool := do
  let left ← get
  if expected.toList.isPrefixOf left then
    set (left.drop expected.length)
    return true
  else return false

/-- Takes a text that has to come next. -/
def expect (expected : String) : Reader Unit := do
  unless ← take? expected do failure

/-- Whether a character may start a name. -/
def startsName (character : Char) : Bool :=
  character.isAlpha || character == '_'

/-- Whether a character may go on with a name. -/
def continuesName (character : Char) : Bool :=
  character.isAlphanum || character == '_'

/-- Whether a character may stand in a raw name. -/
def continuesRawName (character : Char) : Bool :=
  continuesName character || character == '.' || character == '+' || character == '-'

/-- The longest run of some characters. -/
def takeWhile (accepted : Char → Bool) : Reader (List Char) := do
  let left ← get
  set (left.dropWhile accepted)
  return left.takeWhile accepted

/-- A name. A raw name may hold more characters, and only a raw one may. -/
def name : Reader String := do
  match ← get with
  | 'r' :: '#' :: rest =>
    guard (rest.head?.any continuesRawName)
    set rest
    return String.ofList (← takeWhile continuesRawName)
  | 'r' :: '"' :: _ => failure
  | ['r'] => failure
  | left =>
    guard (left.head?.any startsName)
    let found ← takeWhile continuesName
    guard (!(← peek).any continuesRawName)
    return String.ofList found

/-- Takes a name if it comes next as a whole. -/
def takeName? (expected : String) : Reader Bool := do
  let left ← get
  let rest := left.drop expected.length
  if expected.toList.isPrefixOf left && !rest.head?.any continuesName then
    set rest
    return true
  else return false

/-- The value of a hexadecimal digit. -/
def hexDigit? (character : Char) : Option Nat :=
  if character.isDigit then some (character.toNat - '0'.toNat)
  else if 'a' ≤ character ∧ character ≤ 'f' then some (character.toNat - 'a'.toNat + 10)
  else if 'A' ≤ character ∧ character ≤ 'F' then some (character.toNat - 'A'.toNat + 10)
  else none

/-- The character with a code, if there is one. -/
def characterOf? (code : Nat) : Option Char :=
  if code.isValidChar then some (Char.ofNat code) else none

/-- The hexadecimal digits of an escape up to its closing brace, six at most. -/
def bracedCode : (digitsLeft : Nat) → (code : Option Nat) → Reader Nat
  | 0, code => do
    expect "\x7d"
    liftM code
  | digitsLeft + 1, code => do
    if (← peek) = some '\x7d' then
      expect "\x7d"
      liftM code
    else
      let digit ← liftM (hexDigit? (← next))
      bracedCode digitsLeft (some (code.getD 0 * 16 + digit))

/-- The character that an escape stands for, after its backslash. -/
def escaped : Reader Char := do
  match ← next with
  | '\'' => return '\''
  | '"' => return '"'
  | '\\' => return '\\'
  | 'n' => return '\n'
  | 'r' => return '\r'
  | 't' => return '\t'
  | '0' => return '\x00'
  | 'x' =>
    let high ← liftM (hexDigit? (← next))
    let low ← liftM (hexDigit? (← next))
    return Char.ofNat (high * 16 + low)
  | 'u' =>
    expect "\x7b"
    liftM (characterOf? (← bracedCode 6 none))
  | _ => failure

/-- The characters of a string up to its closing quote. -/
def quoted : (fuel : Nat) → (found : List Char) → Reader String
  | 0, _ => failure
  | fuel + 1, found => do
    match ← next with
    | '"' => return String.ofList found.reverse
    | '\\' => quoted fuel ((← escaped) :: found)
    | character => quoted fuel (character :: found)

/-- The characters of a raw string up to its closing quote and hashes. -/
def rawQuoted (closing : List Char) : (fuel : Nat) → (found : List Char) → Reader String
  | 0, _ => failure
  | fuel + 1, found => do
    let left ← get
    if closing.isPrefixOf left then
      set (left.drop closing.length)
      return String.ofList found.reverse
    else rawQuoted closing fuel ((← next) :: found)

/-- A string, in quotes or raw. -/
def string : Reader String := do
  let fuel := (← get).length + 1
  if ← take? "\"" then quoted fuel []
  else
    expect "r"
    let hashes ← takeWhile (· == '#')
    expect "\""
    rawQuoted ('"' :: hashes) fuel []

/-- A character between single quotes. -/
def character : Reader Char := do
  expect "'"
  let found ←
    match ← next with
    | '\\' => escaped
    | '\'' => failure
    | plain => pure plain
  expect "'"
  return found

/-- A whole number without a sign, in one of four bases. Underscores may follow a digit. -/
def natural : Reader Nat := do
  let base ←
    if ← take? "0x" then pure 16
    else if ← take? "0b" then pure 2
    else if ← take? "0o" then pure 8
    else pure 10
  let found ← takeWhile fun digit => (hexDigit? digit).isSome || digit == '_'
  guard (found.head?.any (· ≠ '_'))
  let digitValues ← liftM ((found.filter (· ≠ '_')).mapM hexDigit?)
  guard (digitValues.all (· < base))
  return digitValues.foldl (fun sum digit => sum * base + digit) 0

/-- A whole number below a bound. -/
def naturalBelow (bound : Nat) : Reader Nat := do
  let number ← natural
  guard (number < bound)
  return number

/-- Goes over blanks, a comma if there is one, and blanks. -/
def comma : Reader Bool := do
  skipSpace
  if ← take? "," then
    skipSpace
    return true
  else return false

/-- Reads elements with commas between them up to a closing mark, which is taken too. -/
def elements {α : Type} (closing : String) (element : α → Reader α) :
    (fuel : Nat) → (state : α) → Reader α
  | 0, _ => failure
  | fuel + 1, state => do
    skipSpace
    if ← take? closing then return state
    else
      let state ← element state
      if ← comma then elements closing element fuel state
      else
        expect closing
        return state

/-- What follows an opening mark: elements and a closing mark. -/
def sequence {α : Type} (closing : String) (state : α) (element : α → Reader α) : Reader α := do
  elements closing element ((← get).length + 1) state

/-- Takes the colon between a key and its value. -/
def colon : Reader Unit := do
  skipSpace
  expect ":"
  skipSpace

/-- Whether a character may stand in a float. -/
def continuesFloat (character : Char) : Bool :=
  character.isDigit || "eE.+-_".toList.contains character

/-- Goes over a whole number that may have a sign. Only with a sign is it a signed word. -/
def skipWhole : Reader Unit := do
  if ← take? "-" then discard (naturalBelow (UInt64.size / 2 + 1))
  else if ← take? "+" then discard (naturalBelow (UInt64.size / 2))
  else discard (naturalBelow UInt64.size)

/-- The floats that are written as names, with a sign if they have one. -/
def namedFloats : List String :=
  ["inf", "+inf", "-inf", "NaN", "+NaN", "-NaN"]

/-- Takes one of some names if it comes next as a whole. -/
def takeOneOf? : List String → Reader Bool
  | [] => return false
  | expected :: rest => do
    if ← takeName? expected then return true
    takeOneOf? rest

/-- Goes over a float. -/
def skipFloat : Reader Unit := do
  if ← takeOneOf? namedFloats then return
  let found ← takeWhile continuesFloat
  guard (Binary.readFloat found).isSome

/-- Goes over a number. It is a float when more characters fit one than fit a whole number, or
when it is no whole number of 64 bits. -/
def skipNumber : Reader Unit := do
  let left ← get
  let unsigned :=
    match left with
    | '+' :: rest => rest
    | '-' :: rest => rest
    | rest => rest
  let floatLength := (unsigned.takeWhile continuesFloat).length
  let wholeLength :=
    (unsigned.takeWhile fun digit => (hexDigit? digit).isSome || digit == '_').length
  if floatLength > wholeLength then skipFloat
  else
    match skipWhole.run left with
    | some (_, rest) => set rest
    | none => skipFloat

/-- Whether what follows an opening parenthesis is a field with a name. -/
def hasFieldName : Reader Bool := do
  let saved ← get
  let found : Reader Bool := do
    discard name
    skipSpace
    return (← next) = ':'
  match found.run saved with
  | some (isField, _) => return isField
  | none => return false

/-- Goes over the fields of a struct or the elements of a tuple, with their parentheses. -/
def skipStruct (skipInner : Reader Unit) : Reader Unit := do
  expect "("
  skipSpace
  if ← hasFieldName then
    sequence ")" () fun _ => do
      discard name
      colon
      skipInner
  else sequence ")" () fun _ => skipInner

/-- Goes over a struct, a tuple, a list or a map, with its marks. -/
def skipCollection (skipInner : Reader Unit) : Reader Unit := do
  match ← peek with
  | some '(' => skipStruct skipInner
  | some '[' =>
    expect "["
    sequence "]" () fun _ => skipInner
  | some '\x7b' =>
    expect "\x7b"
    sequence "\x7d" () fun _ => do
      skipInner
      colon
      skipInner
  | _ => failure

/-- Extensions of the notation that a text may enable. -/
inductive Extension where
  | unwrapNewtypes
  /-- The parentheses after `Some` may be left out. -/
  | implicitSome
  | unwrapVariantNewtypes
deriving DecidableEq

/-- The extension with a name. -/
def Extension.ofName? : String → Option Extension
  | "unwrap_newtypes" => some .unwrapNewtypes
  | "implicit_some" => some .implicitSome
  | "unwrap_variant_newtypes" => some .unwrapVariantNewtypes
  | _ => none

/-- Goes over a value of any kind. What is inside an optional value takes one level of nesting.
A collection takes one level, and what is inside it takes another. -/
def skipValue (enabled : List Extension) (levels : Nat) : Reader Unit := do
  if ← takeOneOf? ["true", "false", "None", "inf", "-inf", "NaN"] then return
  if ← takeName? "Some" then
    skipSpace
    let wrapped ← take? "("
    guard (wrapped || enabled.contains .implicitSome)
    if wrapped then skipSpace
    match levels with
    | 0 => failure
    | levels + 1 => skipValue enabled levels
    if wrapped then
      discard comma
      expect ")"
    return
  if ← take? "()" then return
  if let some (_, rest) := name.run (← get) then
    set rest
    skipSpace
    unless (← peek) = some '(' do return
  match ← peek with
  | some '(' | some '[' | some '\x7b' =>
    match levels with
    | 0 => failure
    | 1 => skipCollection failure
    | levels + 2 => skipCollection (skipValue enabled levels)
  | some '"' => discard string
  | some 'r' => discard string
  | some '\'' => discard character
  | some _ => skipNumber
  | none => failure

/-- The levels of nesting that a text may have. -/
def nestingLimit : Nat := 128

/-- Settings that are read in part, with the fields that were there. -/
structure Draft where
  settings : Settings
  seen : List String

/-- Puts a field into the settings that are read so far. A value that is read over stands two
levels deep, for the settings are a collection. -/
def readField (enabled : List Extension) (draft : Draft) : Reader Draft := do
  let field ← name
  let known := ["documents", "seed", "count", "parameters"].contains field
  guard (!(known && draft.seen.contains field))
  colon
  let settings := draft.settings
  let settings ←
    match field with
    | "documents" => do
      expect "["
      let documents ← sequence "]" [] fun found => do return (← string) :: found
      pure { settings with documents := documents.reverse }
    | "seed" => do
      pure { settings with seed := UInt64.ofNat (← naturalBelow UInt64.size) }
    | "count" => do
      pure { settings with count := ← naturalBelow UInt64.size }
    | "parameters" => do
      expect "\x7b"
      let parameters ← sequence "\x7d" ∅ fun found => do
        let key ← string
        colon
        return found.insert key (← string)
      pure { settings with parameters }
    | _ => do
      skipValue enabled (nestingLimit - 2)
      pure settings
  return ⟨settings, field :: draft.seen⟩

/-- The extensions that the attributes in front of the settings enable. -/
def attributes : (fuel : Nat) → (enabled : List Extension) → Reader (List Extension)
  | 0, _ => failure
  | fuel + 1, enabled => do
    if (← peek) = some '#' then
      for part in ["#", "!", "[", "enable", "("] do
        expect part
        skipSpace
      let enabled ← names ((← get).length + 1) enabled
      skipSpace
      for part in [")", "]"] do
        expect part
        skipSpace
      attributes fuel enabled
    else return enabled
where
  /-- The names of extensions with commas between them. -/
  names : (fuel : Nat) → (enabled : List Extension) → Reader (List Extension)
    | 0, _ => failure
    | fuel + 1, enabled => do
      let extension ← liftM (Extension.ofName? (← name))
      let more ← comma
      let named := (← peek).any continuesName
      guard (more || !named)
      if more && named then names fuel (extension :: enabled)
      else return extension :: enabled

/-- Settings in a text. -/
def settings : Reader Settings := do
  skipSpace
  let enabled ← attributes ((← get).length + 1) []
  skipSpace
  if (← peek).any continuesName then guard ((← name) = "GenerationSettings")
  skipSpace
  expect "("
  let draft ← sequence ")" ⟨Settings.default, []⟩ (readField enabled)
  skipSpace
  guard (← get).isEmpty
  return draft.settings

end Wordloom.Notation

namespace Wordloom.Settings

/-- The settings that a text says. -/
def parse (text : String) : Except LoadError Settings :=
  match Notation.settings.run text.toList with
  | some (settings, _) => .ok settings
  | none => .error .settings

/-- The settings of a file. Documents with relative paths are looked for beside it. -/
def load {m : Type → Type} [Monad m] (reader : FileReader m) (path : String) :
    ExceptT LoadError m Settings := do
  let settings ← MonadExcept.ofExcept (parse (← reader.text path))
  match parentPath? path with
  | some directory =>
    return { settings with documents := settings.documents.map (joinPath directory) }
  | none => return settings

end Wordloom.Settings
