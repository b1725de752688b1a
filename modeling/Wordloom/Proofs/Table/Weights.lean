import Wordloom.Proofs.Table.Exact

/-!
# Weights one by one and all at once

This file shows that the weight of one entry is its weight among those of all entries. The two are
computed apart. The bell curve is scaled once for all positions, where a single position is divided
by the sum, and this is the one place where the arithmetic matters: the results are the same
number, but need not round alike. The flat and the sloping strategy go through the positions one by
one, so their results are the same in any arithmetic.

All weights at once come with two shortcuts. The strategy is not asked when no entry needs it, and a
weight that it leaves out would be zero. Neither can be seen in the result.
-/

namespace Wordloom

open Weighing

namespace Strategy

section Arithmetic

variable {α : Type} [Weighing α] {strategy : Strategy} {position count : ℕ}

/-- Without scaling, the weights of all positions are computed one by one. -/
theorem getElem?_weights_of_unscaled (unscaled : strategy ≠ .normal ∨ count ≤ 1)
    (inside : position < count) (parameter : Option α) :
    (strategy.weights count parameter)[position]?
      = some (strategy.weight position count parameter) := by
  cases strategy with
  | flat => simp [weights, inside]
  | sloping => simp [weights, inside]
  | normal =>
      have few : count ≤ 1 := unscaled.resolve_left (absurd rfl)
      rw [weights, weight, if_pos few, if_pos few, List.getElem?_replicate, if_pos inside]

end Arithmetic

variable {α : Type} [Field α] [LinearOrder α] (bell : α → α) {position count : ℕ}

/-- Exactly, scaling once is dividing each time. -/
theorem getElem?_weights_exact (strategy : Strategy) (inside : position < count)
    (parameter : Option α) :
    (@weights α (.exact bell) strategy count parameter)[position]?
      = some (@weight α (.exact bell) strategy position count parameter) := by
  let _ := exact bell
  by_cases unscaled : strategy ≠ .normal ∨ count ≤ 1
  · exact getElem?_weights_of_unscaled unscaled inside parameter
  · rw [not_or, not_not] at unscaled
    rcases unscaled with ⟨rfl, several⟩
    rw [weights, weight, if_neg several, if_neg several, List.getElem?_map, densities,
      List.getElem?_map, List.getElem?_range inside]
    exact congrArg some (mul_div_assoc _ _ _).symm

end Strategy

namespace Table

section Arithmetic

variable {α ι : Type} [Weighing α] {table : Table α ι}

/-- The weights of all entries, given those that the strategy computed and one for entries that it
left out. -/
def weightsFrom (computed : List α) (fallback : α) (table : Table α ι) : List α :=
  table.entries.mapIdx fun index entry =>
    floor (entry.weight.getD (computed[index]?.getD fallback))

/-- What the strategy computed for a table: nothing if every entry has a weight of its own. -/
def computedWeights (table : Table α ι) : List α :=
  if table.entries.any (·.weight.isNone) then
    table.strategy.weights table.size table.parameter
  else []

theorem weights_eq_weightsFrom (table : Table α ι) :
    table.weights = table.weightsFrom table.computedWeights (ofCount 0) := by
  rw [weights, weightsFrom, computedWeights]
  congr 1
  funext index entry
  split <;> simp

/-- Only what an entry without a weight of its own is given makes a difference. -/
theorem weightsFrom_congr {computed others : List α} {fallback otherFallback : α}
    (same : ∀ (index : ℕ) (inside : index < table.size), table.entries[index].weight = none →
      computed[index]?.getD fallback = others[index]?.getD otherFallback) :
    table.weightsFrom computed fallback = table.weightsFrom others otherFallback := by
  rw [weightsFrom, weightsFrom]
  refine List.ext_getElem (by simp) fun index inside _ => ?_
  rw [List.length_mapIdx] at inside
  rw [List.getElem_mapIdx, List.getElem_mapIdx]
  rcases own : table.entries[index].weight with _ | weight
  · rw [Option.getD_none, Option.getD_none, same index inside own]
  · rfl

theorem computedWeights_of_weight_eq_none {index : ℕ} {inside : index < table.size}
    (missing : table.entries[index].weight = none) :
    table.computedWeights = table.strategy.weights table.size table.parameter := by
  refine if_pos (List.any_eq_true.mpr ⟨table.entries[index], List.getElem_mem inside, ?_⟩)
  rw [missing]
  rfl

/-- The strategy leaves out no entry, so it does not matter what would be put in. -/
theorem weights_eq_weightsFrom_of_fallback (table : Table α ι) (fallback : α) :
    table.weights
      = table.weightsFrom (table.strategy.weights table.size table.parameter) fallback := by
  rw [weights_eq_weightsFrom]
  refine weightsFrom_congr fun index inside missing => ?_
  have given : index < (table.strategy.weights table.size table.parameter).length := by
    rwa [Strategy.length_weights]
  rw [computedWeights_of_weight_eq_none missing, List.getElem?_eq_getElem given,
    Option.getD_some, Option.getD_some]

/-- The weight of an entry is its weight among all if so are the weights that the strategy gives. -/
theorem weight?_eq_getElem?_weights
    (positions : ∀ index < table.size,
      (table.strategy.weights table.size table.parameter)[index]?
        = some (table.strategy.weight index table.size table.parameter)) (index : ℕ) :
    table.weight? index = table.weights[index]? := by
  rw [weights_eq_weightsFrom_of_fallback table (ofCount 0), weightsFrom, List.getElem?_mapIdx,
    weight?, get?]
  rcases Nat.lt_or_ge index table.size with inside | outside
  · rw [positions index inside, Option.getD_some]
  · rw [List.getElem?_eq_none outside, Option.map_none, Option.map_none]

theorem weight?_eq_none_iff (table : Table α ι) (index : ℕ) :
    table.weight? index = none ↔ table.size ≤ index := by
  rw [weight?, Option.map_eq_none_iff, get?, List.getElem?_eq_none_iff, size]

end Arithmetic

theorem weight?_exact {α ι : Type} [Field α] [LinearOrder α] (bell : α → α) (table : Table α ι)
    (index : ℕ) :
    @weight? α ι (.exact bell) table index = (@weights α ι (.exact bell) table)[index]? := by
  let _ := exact bell
  exact weight?_eq_getElem?_weights (fun position inside =>
    Strategy.getElem?_weights_exact bell table.strategy inside table.parameter) index

/-- The weight of one entry is its weight among those of all entries, wherever there is such an
entry: in any arithmetic if nothing is scaled, and exactly for all strategies. There are as many
weights as entries. What would stand in for a weight that the strategy leaves out makes no
difference, and neither does whether the strategy is asked when all entries have weights. -/
theorem weights_one_by_one_are_those_of_all (ι : Type) :
    (∀ (α : Type) [Weighing α] (table : Table α ι),
      (table.strategy ≠ .normal ∨ table.size ≤ 1 →
        ∀ index, table.weight? index = table.weights[index]?) ∧
      (∀ index, table.weight? index = none ↔ table.size ≤ index) ∧
      table.weights.length = table.size ∧
      ∀ fallback, table.weights = table.weightsFrom table.computedWeights fallback ∧
        table.weights
          = table.weightsFrom (table.strategy.weights table.size table.parameter) fallback) ∧
    ∀ (α : Type) [Field α] [LinearOrder α] (bell : α → α) (table : Table α ι) (index : ℕ),
      @weight? α ι (.exact bell) table index = (@weights α ι (.exact bell) table)[index]? := by
  refine ⟨fun α _ table => ⟨fun unscaled => ?_, table.weight?_eq_none_iff, table.length_weights,
    fun fallback => ⟨?_, table.weights_eq_weightsFrom_of_fallback fallback⟩⟩,
    fun α _ _ bell table index => weight?_exact bell table index⟩
  · exact weight?_eq_getElem?_weights fun index inside =>
      Strategy.getElem?_weights_of_unscaled unscaled inside table.parameter
  · rw [table.weights_eq_weightsFrom_of_fallback fallback]
    exact weightsFrom_congr fun index _ missing => by
      rw [computedWeights_of_weight_eq_none missing]

/-- A slope with an entry on it that has a weight of its own. -/
theorem weights_one_by_one_are_those_of_all_slope :
    let table : Table Float String :=
      ⟨[⟨"lake", none⟩, ⟨"wood", some 2.5⟩, ⟨"hill", none⟩], .sloping, some 2.0⟩
    table.strategy ≠ .normal ∧ table.weights = [7.0, 2.5, 1.0] ∧
      ∀ index, table.weight? index = ([7.0, 2.5, 1.0] : List Float)[index]? := by
  intro table
  have unscaled : table.strategy ≠ .normal := by decide
  have all : table.weights = [7.0, 2.5, 1.0] := by decide +kernel
  refine ⟨unscaled, all, fun index => ?_⟩
  rw [← all]
  exact ((weights_one_by_one_are_those_of_all String).1 Float table).1 (.inl unscaled) index

end Table

end Wordloom
