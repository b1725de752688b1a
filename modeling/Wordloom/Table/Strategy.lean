/-!
# Weighting strategies

This file gives the weight that a place in a table has by its position alone. A strategy is
flat, or runs down a line from the first place to the last, or follows a bell curve that peaks
at the first place. An optional parameter tunes it.

Weights are computed in any arithmetic that has what the strategies ask for. Running programs
use doubles; the same definitions can be read over exact numbers, where the profiles that the
strategies promise hold without rounding.
-/

namespace Wordloom

/-- The arithmetic in which weights are computed. -/
class Weighing (α : Type) extends Add α, Sub α, Mul α, Div α where
  /-- The weight that counts a number of things. -/
  ofCount : Nat → α
  /-- The sum of no weights, which changes nothing when a weight is added to it. -/
  none : α
  /-- Whether a weight is above zero. -/
  positive : α → Bool
  /-- Whether a weight is a finite number. -/
  finite : α → Bool
  /-- Whether one weight is at most another. -/
  atMost : α → α → Bool
  /-- The height of a bell curve at a distance from its middle. -/
  bell : α → α

/-- Weights in doubles. The sum of nothing is the negative zero, the one neutral element. -/
instance : Weighing Float where
  ofCount := Float.ofNat
  none := -0.0
  positive weight := weight > 0.0
  finite := Float.isFinite
  atMost left right := left ≤ right
  bell distance := Float.exp (-0.5 * distance * distance)

namespace Weighing

variable {α : Type} [Weighing α]

/-- The sum of weights, added up from the left. -/
def sum (weights : List α) : α :=
  weights.foldl (· + ·) none

/-- A weight, or zero if it is not above zero. What is no number becomes zero as well. -/
def floor (weight : α) : α :=
  if positive weight then weight else ofCount 0

end Weighing

/-- How the places of a table are weighted. -/
inductive Strategy where
  /-- Every place weighs the parameter, or one. -/
  | flat
  /-- A line from one plus the count times the parameter, which is one by default, to one. -/
  | sloping
  /-- A bell curve over as many deviations as the parameter says, three by default. -/
  | normal
deriving DecidableEq, Repr

namespace Strategy

/-- The name of a strategy. -/
def name : Strategy → String
  | .flat => "Flat"
  | .sloping => "Sloping"
  | .normal => "Normal"

variable {α : Type} [Weighing α]

open Weighing

/-- How far along a table with more than one place a position is, from zero to one. -/
def progress (position count : Nat) : α :=
  ofCount position / ofCount (count - 1)

/-- The weight of a position under the sloping strategy. -/
def slope (position count : Nat) (factor : α) : α :=
  let start := ofCount 1 + ofCount count * factor
  if count ≤ 1 then start else start + (ofCount 1 - start) * progress position count

/-- The height of the bell curve at a position, when the last place is at a given extent. -/
def density (position count : Nat) (extent : α) : α :=
  bell (progress position count * extent)

/-- The heights of the bell curve at every position. -/
def densities (count : Nat) (extent : α) : List α :=
  (List.range count).map fun position => density position count extent

/-- The weight of one position in a table with a count of places. -/
def weight (strategy : Strategy) (position count : Nat) (parameter : Option α) : α :=
  match strategy with
  | .flat => parameter.getD (ofCount 1)
  | .sloping => slope position count (parameter.getD (ofCount 1))
  | .normal =>
    if count ≤ 1 then ofCount 1
    else
      let extent := parameter.getD (ofCount 3)
      density position count extent * ofCount count / sum (densities count extent)

/-- The weights of every position. The bell curve is scaled once, so that they average to one. -/
def weights (strategy : Strategy) (count : Nat) (parameter : Option α) : List α :=
  match strategy with
  | .flat | .sloping =>
    (List.range count).map fun position => strategy.weight position count parameter
  | .normal =>
    if count ≤ 1 then List.replicate count (ofCount 1)
    else
      let heights := densities count (parameter.getD (ofCount 3))
      let scale := ofCount count / sum heights
      heights.map (· * scale)

theorem length_weights (strategy : Strategy) (count : Nat) (parameter : Option α) :
    (strategy.weights count parameter).length = count := by
  cases strategy with
  | flat => simp [weights]
  | sloping => simp [weights]
  | normal =>
    by_cases small : count ≤ 1 <;> simp [weights, densities, small]

end Strategy

end Wordloom
