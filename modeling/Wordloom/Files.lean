import Wordloom.Registry

/-!
# Files

This file gives file trees, how a path leads through one, and what can go wrong when a file is
read as text. Programs read through a function from paths to contents, so that they are the
same whether the files are in memory or on a disk.

A path is a list of names between slashes. Empty names and single dots stay where they are, two
dots lead one directory up, and all of them need a directory to stand on. What lies outside of
a tree is an empty directory.
-/

namespace Wordloom

/-- Why a file cannot be read as text. -/
inductive FileError where
  | notFound
  | notDirectory
  | isDirectory
  | invalidText
  /-- The system has another reason. -/
  | refused (explanation : String)
deriving DecidableEq, Repr

/-- The wording of an error. -/
def FileError.message : FileError → String
  | .notFound => "No such file or directory (os error 2)"
  | .notDirectory => "Not a directory (os error 20)"
  | .isDirectory => "Is a directory (os error 21)"
  | .invalidText => "stream did not contain valid UTF-8"
  | .refused explanation => explanation

/-- The bytes of a file, or why they cannot be read. -/
abbrev Contents : Type :=
  Except FileError ByteArray

/-- Files and directories, by name. A file may be there and still refuse to be read. -/
inductive FileTree where
  | file (contents : Contents)
  | directory (entries : List (String × FileTree))

namespace FileTree

/-- What a directory holds under a name. -/
def lookup (entries : List (String × FileTree)) (name : String) : Option FileTree :=
  (entries.find? (·.1 == name)).map (·.2)

/-- The entries with one more, or with one replaced. -/
def putEntry (entries : List (String × FileTree)) (name : String) (tree : FileTree) :
    List (String × FileTree) :=
  (entries.filter (·.1 != name)) ++ [(name, tree)]

/-- The tree with another put at a list of names. Directories on the way are made. -/
def put (tree : FileTree) (addition : FileTree) : List String → FileTree
  | [] => addition
  | name :: rest =>
    let entries :=
      match tree with
      | .directory entries => entries
      | .file _ => []
    let inner := (lookup entries name).getD (.directory [])
    .directory (putEntry entries name (inner.put addition rest))

/-- The tree at the end of a list of names. The directories above it are given, innermost first. -/
def walk (tree : FileTree) (above : List FileTree) : List String → Except FileError FileTree
  | [] => .ok tree
  | name :: rest =>
    match tree with
    | .file _ => .error .notDirectory
    | .directory entries =>
      if name = "" || name = "." then tree.walk above rest
      else if name = ".." then
        match above with
        | [] => (directory []).walk [] rest
        | parent :: higher => parent.walk higher rest
      else
        match lookup entries name with
        | none => .error .notFound
        | some inner => inner.walk (tree :: above) rest

/-- What a path leads to from the directory that relative paths start in. -/
def resolve (tree : FileTree) (path : String) : Except FileError FileTree :=
  if path = "" then .error .notFound
  else if path.startsWith "/" then (directory []).walk [] (path.splitOn "/")
  else tree.walk [] (path.splitOn "/")

/-- The bytes of a file. -/
def contents : FileTree → Contents
  | .file contents => contents
  | .directory _ => .error .isDirectory

/-- The bytes of the file at a path. -/
def read (tree : FileTree) (path : String) : Contents := do
  (← tree.resolve path).contents

end FileTree

/-- The text that bytes encode. -/
def decodeText (contents : ByteArray) : Except FileError String :=
  match String.fromUTF8? contents with
  | some text => .ok text
  | none => .error .invalidText

/-- A path inside a directory. An absolute path stays what it is. -/
def joinPath (directory path : String) : String :=
  if path.startsWith "/" then path
  else if directory = "" || directory.endsWith "/" then directory ++ path
  else directory ++ "/" ++ path

/-- Whether a name in a path stays where it is. -/
def staysInPlace (name : String) : Bool :=
  name == "" || name == "."

/-- The path of the directory that holds what a path leads to. What is left at its end does not
stay in place, unless it is all that is left. -/
def parentPath? (path : String) : Option String :=
  let (root, body) :=
    if path.startsWith "/" then ("/", (path.drop 1).toString.splitOn "/")
    else ("", path.splitOn "/")
  match body.reverse.dropWhile staysInPlace with
  | [] => none
  | _ :: above =>
    let kept :=
      match (above.reverse, root) with
      | ("." :: rest, "") => "." :: (rest.reverse.dropWhile staysInPlace).reverse
      | (names, _) => (names.reverse.dropWhile staysInPlace).reverse
    some (root ++ "/".intercalate kept)

/-- What follows the last dot of a file name, unless the dot is at its start. -/
def extension? (name : String) : Option String :=
  match name.toList.reverse.span (· ≠ '.') with
  | (_, []) => none
  | (_, [_]) => none
  | (reversed, _) => some (String.ofList reversed.reverse)

end Wordloom
