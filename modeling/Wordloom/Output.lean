/-!
# What programs leave behind

This file gives the result of a program that has ended: its exit code and what it printed on
the two streams that it writes to.
-/

namespace Wordloom

/-- What a program leaves behind. -/
structure Output where
  /-- The exit code. -/
  code : Nat
  /-- What it printed on standard output. -/
  out : String
  /-- What it printed on standard error. -/
  err : String
deriving DecidableEq, Repr

/-- A text on a line of its own. -/
def asLine (text : String) : String :=
  text ++ "\n"

end Wordloom
