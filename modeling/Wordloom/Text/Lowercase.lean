import Wordloom.Text.CaseData

/-!
# Lower case

This file gives the lower case of a text by the rules of Unicode that hold in every language.

Characters are lowered one by one, with two exceptions. The capital I with a dot becomes two
characters. The capital sigma becomes the final sigma at the end of a word: after a cased
character and not before one, where characters that are ignored may stand between.
-/

namespace Wordloom.Text

/-- Whether one of some ranges holds a character. -/
def inRanges (ranges : List (Nat × Nat)) (character : Char) : Bool :=
  ranges.any fun (first, last) =>
    decide (first ≤ character.toNat) && decide (character.toNat ≤ last)

/-- The lower case of one character, wherever it stands. -/
def lowerCharacter (character : Char) : List Char :=
  if character = 'İ' then ['i', Char.ofNat 0x307]
  else
    match lowerRanges.find? (·.contains character.toNat) with
    | some range => [Char.ofNat ((character.toNat : Int) + range.offset).toNat]
    | none => [character]

/-- Whether the first character that is not ignored is there and is cased. -/
def meetsCased (text : List Char) : Bool :=
  match text.dropWhile (inRanges ignoredRanges) with
  | character :: _ => inRanges casedRanges character
  | [] => false

/-- The lower case of a text that follows some characters, given in reverse. -/
def lowerAfter : (before text : List Char) → List Char
  | _, [] => []
  | before, character :: rest =>
    let lowered :=
      if character = 'Σ' then
        if meetsCased before && !meetsCased rest then ['ς'] else ['σ']
      else lowerCharacter character
    lowered ++ lowerAfter (character :: before) rest

/-- The lower case of a string. -/
def lowercased (text : String) : String :=
  String.ofList (lowerAfter [] text.toList)

end Wordloom.Text
