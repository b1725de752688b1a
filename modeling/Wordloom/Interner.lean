import Std.Data.ExtTreeSet

/-!
# Interned names

This file gives the set of names that have been handed out. A name is equal to itself wherever
it was made, so handing it out again changes nothing.
-/

namespace Wordloom

/-- The names that were handed out. -/
structure Interner where
  names : Std.ExtTreeSet String

namespace Interner

/-- No names yet. -/
def empty : Interner :=
  ⟨∅⟩

/-- A name, and the interner that has handed it out. -/
def intern (interner : Interner) (name : String) : String × Interner :=
  (name, ⟨interner.names.insert name⟩)

/-- How many different names were handed out. -/
def size (interner : Interner) : Nat :=
  interner.names.size

/-- Whether no name was handed out. -/
def isEmpty (interner : Interner) : Bool :=
  interner.names.isEmpty

end Interner

end Wordloom
