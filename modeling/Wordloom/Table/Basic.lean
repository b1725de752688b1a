import Wordloom.Table.Strategy
import Wordloom.Stream.Drawing

/-!
# Weighted tables

This file gives tables of items, their edits, the weights of their entries, and picking an
entry with a probability in proportion to its weight.

An entry weighs what it says itself, or else what the table's strategy says of its position.
A weight that is not above zero counts as zero, and such an entry is never picked. Picking
draws one number below the total and takes the first selectable entry at which the weights up
to it reach that number. Rounding can leave the last of these sums below the number; then the
last selectable entry is taken.
-/

namespace Wordloom

/-- An item of a table, with a weight of its own or none. -/
structure Entry (α ι : Type) where
  item : ι
  weight : Option α

/-- Items in order, with the strategy that weights those without a weight of their own. -/
structure Table (α ι : Type) where
  entries : List (Entry α ι)
  strategy : Strategy
  parameter : Option α

/-- Why nothing can be picked from a table. -/
inductive PickError where
  /-- There are no entries. -/
  | emptyTable
  /-- The total weight is not positive, or is no finite number. -/
  | noSelectableEntries
deriving DecidableEq, Repr

namespace PickError

/-- The wording of an error. -/
def message : PickError → String
  | .emptyTable => "no entries available in table"
  | .noSelectableEntries => "no selectable entries: every table weight is zero"

end PickError

namespace Table

variable {α ι : Type}

/-- The table of some items that are weighted alike. -/
def ofItems (items : List ι) : Table α ι :=
  ⟨items.map fun item => ⟨item, none⟩, .flat, none⟩

/-- The table with no entries. -/
def empty : Table α ι :=
  ofItems []

/-- The number of entries. -/
def size (table : Table α ι) : Nat :=
  table.entries.length

/-- Whether there are no entries. -/
def isEmpty (table : Table α ι) : Bool :=
  table.entries.isEmpty

/-- The entry at a position. -/
def get? (table : Table α ι) (index : Nat) : Option (Entry α ι) :=
  table.entries[index]?

/-- The table with an entry after the last. -/
def push (table : Table α ι) (entry : Entry α ι) : Table α ι :=
  { table with entries := table.entries ++ [entry] }

/-- The table with an entry put before the one at a position, unless that is past the end. -/
def insert? (table : Table α ι) (index : Nat) (entry : Entry α ι) : Option (Table α ι) :=
  if index ≤ table.size then some { table with entries := table.entries.insertIdx index entry }
  else none

/-- The entry at a position, and the table with another in its place. -/
def replace? (table : Table α ι) (index : Nat) (entry : Entry α ι) :
    Option (Entry α ι × Table α ι) :=
  (table.get? index).map fun old => (old, { table with entries := table.entries.set index entry })

/-- The entry at a position, and the table without it. -/
def erase? (table : Table α ι) (index : Nat) : Option (Entry α ι × Table α ι) :=
  (table.get? index).map fun old => (old, { table with entries := table.entries.eraseIdx index })

/-- The table with the weight of one entry set or taken away. -/
def setWeight? (table : Table α ι) (index : Nat) (weight : Option α) : Option (Table α ι) :=
  (table.get? index).map fun old =>
    { table with entries := table.entries.set index { old with weight } }

variable [Weighing α]

open Weighing

/-- The weight of the entry at a position. -/
def weight? (table : Table α ι) (index : Nat) : Option α :=
  (table.get? index).map fun entry =>
    floor (entry.weight.getD (table.strategy.weight index table.size table.parameter))

/-- The weights of all entries. The strategy is asked only if an entry has no weight. -/
def weights (table : Table α ι) : List α :=
  let computed :=
    if table.entries.any (·.weight.isNone) then
      (table.strategy.weights table.size table.parameter).toArray
    else #[]
  table.entries.mapIdx fun index entry =>
    floor (entry.weight.getD (computed[index]?.getD (ofCount 0)))

/-- The sum of all weights. -/
def total (table : Table α ι) : α :=
  sum table.weights

/--
The first position at which the positive weights up to it reach a selection, or the last
position with a positive weight if none does. `index` is the position of the first weight
given, `reached` the sum of the positive weights before it and `last` the position of the
last of them.
-/
def scan (selection : α) : (weights : List α) → (index : Nat) → (reached : α) → (last : Nat) → Nat
  | [], _, _, last => last
  | weight :: rest, index, reached, last =>
    if positive weight then
      let reached := reached + weight
      if atMost selection reached then index else scan selection rest (index + 1) reached index
    else scan selection rest (index + 1) reached last

/-- The position that a selection falls on. -/
def select (weights : List α) (selection : α) : Nat :=
  scan selection weights 0 (ofCount 0) 0

theorem scan_lt (selection : α) (weights : List α) (index last : Nat) (reached : α)
    (lastBefore : last < index + weights.length) :
    scan selection weights index reached last < index + weights.length := by
  induction weights generalizing index reached last with
  | nil => simpa [scan] using lastBefore
  | cons weight rest ih =>
    simp only [List.length_cons] at lastBefore ⊢
    have step (reached : α) (last : Nat) (before : last < index + 1 + rest.length) :=
      ih (index + 1) last reached before
    rw [scan]
    dsimp only
    split
    · split
      · omega
      · have := step (reached + weight) index (by omega)
        omega
    · have := step reached last (by omega)
      omega

/-- The position that a selection falls on is one of the table's. -/
theorem select_lt {weights : List α} (nonempty : weights ≠ []) (selection : α) :
    select weights selection < weights.length := by
  have present := List.length_pos_iff.2 nonempty
  simpa [select] using scan_lt selection weights 0 0 (ofCount 0) (by omega)

@[simp]
theorem length_weights (table : Table α ι) : table.weights.length = table.size := by
  simp [weights, size]

/-- The position that a selection falls on, in a table that has entries. -/
def positionOf (table : Table α ι) (nonempty : table.entries ≠ []) (selection : α) :
    Fin table.size :=
  ⟨select table.weights selection, by
    rw [← length_weights table]
    refine select_lt (fun none => nonempty ?_) selection
    have := congrArg List.length none
    simpa [size] using this⟩

/-- The entry at one of a table's positions. -/
def entryAt (table : Table α ι) (position : Fin table.size) : Entry α ι :=
  table.entries.get position

end Table

namespace Table

variable {σ ι : Type} [RandomSource σ]

/-- A position, picked in proportion to its weight. A failure draws nothing. -/
def pick (table : Table Float ι) : Drawing σ PickError (Fin table.size) :=
  if nonempty : table.entries ≠ [] then
    let total := table.total
    if Weighing.positive total && Weighing.finite total then do
      let selection ← Drawing.ofDraw (RandomSource.nextDouble total)
      return table.positionOf nonempty selection
    else throw .noSelectableEntries
  else throw .emptyTable

/-- The item of an entry that is picked in proportion to its weight. -/
def pickItem (table : Table Float ι) : Drawing σ PickError ι := do
  let position ← table.pick
  return (table.entryAt position).item

end Table

end Wordloom
