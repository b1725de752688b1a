import Mathlib
import Wordloom.Table.Basic

/-!
# Weights in exact arithmetic

This file reads tables over the numbers of an ordered field, where nothing is rounded and every
number is finite. The bell curve of the normal strategy may be any function.
-/

namespace Wordloom

variable {α : Type} [Field α] [LinearOrder α]

/-- Exact arithmetic with a bell curve. -/
@[reducible]
def Weighing.exact (bell : α → α) : Weighing α where
  ofCount count := count
  none := 0
  positive weight := 0 < weight
  finite _ := true
  atMost left right := left ≤ right
  bell := bell

namespace Weighing

variable (bell : α → α)

theorem ofCount_exact (count : ℕ) : (exact bell).ofCount count = count :=
  rfl

theorem positive_exact (weight : α) : (exact bell).positive weight = decide (0 < weight) :=
  rfl

theorem atMost_exact (left right : α) : (exact bell).atMost left right = decide (left ≤ right) :=
  rfl

theorem sum_exact (weights : List α) : @sum α (exact bell) weights = weights.sum :=
  List.sum_eq_foldl.symm

theorem floor_exact (weight : α) : @floor α (exact bell) weight = max weight 0 := by
  unfold floor
  rw [positive_exact, ofCount_exact, Nat.cast_zero]
  rcases lt_or_ge 0 weight with positive | notPositive
  · rw [if_pos (decide_eq_true positive), max_eq_left positive.le]
  · rw [if_neg (by simpa using notPositive), max_eq_right notPositive]

end Weighing

end Wordloom
