import Wordloom.Linter.Report
import Wordloom.Preview.Start

/-!
# The command line

This file runs the two programs on the files of the system: the preview shell and the template
linter. The first argument names the program, the others are its own.

Files are looked at only here. The linter is given what its target leads to, with everything in
it; the shell is given a function that reads files. What becomes of that is decided elsewhere.
-/

namespace Wordloom

/-- The cause of a failure to read a file. -/
def FileError.ofFailure : IO.Error → FileError
  | .noFileOrDirectory .. => .notFound
  | .inappropriateType _ code _ => if code = 21 then .isDirectory else .notDirectory
  | failure => .refused (toString failure)

/-- The bytes of a file. -/
def readFile : FileReader IO := fun path => do
  try return .ok (← IO.FS.readBinFile path)
  catch failure => return .error (.ofFailure failure)

/-- What a path leads to, with everything in it. -/
partial def snapshot (path : String) : IO (Except FileError FileTree) := do
  try
    let place ← IO.FS.realPath path
    if ← place.isDir then
      let entries ← (← place.readDir).toList.filterMapM fun found => do
        match ← snapshot (joinPath path found.fileName) with
        | .ok tree => return some (found.fileName, tree)
        | .error _ => return none
      return .ok (.directory entries)
    else if ← place.pathExists then return .ok (.file (← readFile path))
    else return .error .notFound
  catch failure => return .error (.ofFailure failure)

/-- Prints what a program leaves behind, and gives its exit code. -/
def Output.print (output : Output) : IO UInt32 := do
  IO.print output.out
  IO.eprint output.err
  return UInt32.ofNat output.code

/-- Runs the shell until it is quit or the input ends. -/
partial def Preview.Shell.converse (shell : Shell) : IO Unit := do
  let output ← IO.getStdout
  output.putStr prompt
  output.flush
  let line ← (← IO.getStdin).getLine
  unless line.isEmpty do
    let (text, after) := shell.run (.ofLine line)
    output.putStr text
    if let some after := after then after.converse

/-- Runs the preview shell. -/
def Preview.main (arguments : List String) : IO UInt32 := do
  let started ← Preview.start readFile arguments
  let code ← started.output.print
  if let some shell := started.shell then shell.converse
  return code

/-- Runs the linter. -/
def Linter.main (arguments : List String) : IO UInt32 := do
  let found ← snapshot (arguments.head?.getD "")
  (Linter.run arguments fun _ => found).print

end Wordloom

/-- Runs the program that the first argument names. -/
def main (arguments : List String) : IO UInt32 := do
  match arguments with
  | "preview" :: rest => Wordloom.Preview.main rest
  | "template_linter" :: rest => Wordloom.Linter.main rest
  | _ =>
    IO.print (Wordloom.Preview.usage ++ Wordloom.Linter.usage)
    return 1
