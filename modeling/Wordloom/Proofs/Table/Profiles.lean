import Wordloom.Proofs.Table.Weights

/-!
# Profiles of the weighting strategies

This file shows what the weights of a table look like along its positions, when they are computed
exactly. The sloping strategy follows a line to one at the last position, down or up as the
parameter has it. So whatever the parameter is, the last entry can be picked. The normal strategy
follows a bell curve, and the weights average to one.

Of the bell curve nothing is used but that it is positive, for the average, and that it falls with
the distance from the middle, for the order of the weights.
-/

namespace Wordloom

open Weighing

variable {α ι : Type} [Field α] [LinearOrder α] (bell : α → α) {position count : ℕ}

namespace Strategy

/-- Exactly, the weights of all positions are computed one by one. -/
theorem weights_exact_eq_map (strategy : Strategy) (count : ℕ) (parameter : Option α) :
    @weights α (.exact bell) strategy count parameter
      = (List.range count).map fun position =>
          @weight α (.exact bell) strategy position count parameter := by
  refine List.ext_getElem? fun position => ?_
  rcases Nat.lt_or_ge position count with inside | outside
  · rw [getElem?_weights_exact bell strategy inside, List.getElem?_map,
      List.getElem?_range inside, Option.map_some]
  · rw [List.getElem?_eq_none (by rwa [@length_weights α (.exact bell)]),
      List.getElem?_eq_none (by rwa [List.length_map, List.length_range])]

variable [IsStrictOrderedRing α]

theorem steps_pos (several : 2 ≤ count) : (0 : α) < (count - 1 : ℕ) := by
  exact_mod_cast Nat.sub_pos_of_lt several

section Slope

variable (factor : α)

omit [IsStrictOrderedRing α] in
theorem slope_exact (several : 2 ≤ count) (position : ℕ) :
    @slope α (.exact bell) position count factor
      = 1 + count * factor * (1 - position / (count - 1 : ℕ)) := by
  have one : ((1 : ℕ) : α) = 1 := Nat.cast_one
  unfold slope progress
  rw [if_neg (by omega), ofCount_exact, ofCount_exact, ofCount_exact, ofCount_exact, one]
  ring

theorem slope_last (several : 2 ≤ count) :
    @slope α (.exact bell) (count - 1) count factor = 1 := by
  rw [slope_exact bell factor several, div_self (steps_pos several).ne', sub_self, mul_zero,
    add_zero]

/-- From one position to the next, a slope goes down by the same amount. -/
theorem slope_succ (several : 2 ≤ count) (position : ℕ) :
    @slope α (.exact bell) (position + 1) count factor
      = @slope α (.exact bell) position count factor - count * factor / (count - 1 : ℕ) := by
  rw [slope_exact bell factor several, slope_exact bell factor several]
  push_cast
  ring

theorem slope_strictAnti (several : 2 ≤ count) (positive : 0 < factor) :
    StrictAnti fun position => @slope α (.exact bell) position count factor := by
  refine strictAnti_nat_of_succ_lt fun position => ?_
  have size : (0 : α) < count := by exact_mod_cast Nat.lt_of_lt_of_le Nat.two_pos several
  rw [slope_succ bell factor several, sub_lt_self_iff]
  exact div_pos (mul_pos size positive) (steps_pos several)

theorem slope_strictMono (several : 2 ≤ count) (negative : factor < 0) :
    StrictMono fun position => @slope α (.exact bell) position count factor := by
  refine strictMono_nat_of_lt_succ fun position => ?_
  have size : (0 : α) < count := by exact_mod_cast Nat.lt_of_lt_of_le Nat.two_pos several
  rw [slope_succ bell factor several, lt_sub_iff_add_lt, add_lt_iff_neg_left]
  exact div_neg_of_neg_of_pos (mul_neg_of_pos_of_neg size negative) (steps_pos several)

end Slope

section Bell

variable {bell} (extent : α)

theorem sum_densities_pos (positive : ∀ distance, 0 < bell distance) (some : 0 < count) :
    0 < (@densities α (.exact bell) count extent).sum := by
  refine List.sum_pos _ (fun height member => ?_) ?_
  · rcases List.mem_map.mp member with ⟨position, -, rfl⟩
    exact positive _
  · unfold densities
    rw [ne_eq, List.map_eq_nil_iff, List.range_eq_nil]
    exact some.ne'

/-- The weights of the normal strategy average to one. -/
theorem sum_weights_normal (positive : ∀ distance, 0 < bell distance) (count : ℕ)
    (parameter : Option α) : (@weights α (.exact bell) .normal count parameter).sum = count := by
  unfold weights
  dsimp only
  split
  · rw [List.sum_replicate, ofCount_exact, Nat.cast_one, nsmul_one]
  · rename_i several
    have total := sum_densities_pos (parameter.getD ((3 : ℕ) : α)) positive
      (by omega : 0 < count)
    rw [List.sum_map_mul_right, List.map_id', sum_exact, ofCount_exact]
    exact mul_div_cancel₀ _ total.ne'

/-- The distance from the middle of the bell curve grows with the position. -/
theorem density_strictAnti (several : 2 ≤ count) (wide : extent ≠ 0)
    (falling : ∀ near far : α, |near| < |far| → bell far < bell near) :
    StrictAnti fun position => @density α (.exact bell) position count extent := by
  intro near far less
  refine falling _ _ ?_
  have further : (near : α) / (count - 1 : ℕ) < far / (count - 1 : ℕ) :=
    div_lt_div_of_pos_right (Nat.cast_lt.mpr less) (steps_pos several)
  have start : (0 : α) ≤ near / (count - 1 : ℕ) :=
    div_nonneg (Nat.cast_nonneg _) (steps_pos several).le
  change |(near : α) / (count - 1 : ℕ) * extent| < |(far : α) / (count - 1 : ℕ) * extent|
  rw [abs_mul, abs_mul, abs_of_nonneg start, abs_of_nonneg (start.trans further.le)]
  exact mul_lt_mul_of_pos_right further (abs_pos.mpr wide)

theorem weight_normal_strictAnti (several : 2 ≤ count) (positive : ∀ distance, 0 < bell distance)
    (falling : ∀ near far : α, |near| < |far| → bell far < bell near) {parameter : Option α}
    (wide : parameter.getD 3 ≠ 0) :
    StrictAnti fun position => @weight α (.exact bell) .normal position count parameter := by
  have present := Nat.lt_of_lt_of_le Nat.two_pos several
  have size : (0 : α) < count := Nat.cast_pos.mpr present
  have total := sum_densities_pos (parameter.getD 3) positive present
  intro near far less
  have lower := density_strictAnti (parameter.getD 3) several wide falling less
  have several : ¬count ≤ 1 := by omega
  simp only [weight, if_neg several, ofCount_exact, sum_exact, Nat.cast_ofNat]
  exact div_lt_div_of_pos_right (mul_lt_mul_of_pos_right lower size) total

end Bell

end Strategy

namespace Table

variable [IsStrictOrderedRing α] {table : Table α ι}

omit [IsStrictOrderedRing α] in
theorem nonneg_of_mem_weights {weight : α} (member : weight ∈ @weights α ι (.exact bell) table) :
    0 ≤ weight := by
  rcases List.mem_mapIdx.mp member with ⟨index, inside, rfl⟩
  rw [floor_exact]
  exact le_max_right _ _

/-- The last entry on a slope weighs one, if it has no weight of its own. -/
theorem weight?_last_of_sloping (isSlope : table.strategy = .sloping) (several : 2 ≤ table.size)
    (unweighted : ∀ entry ∈ table.entries, entry.weight = none) :
    @weight? α ι (.exact bell) table (table.size - 1) = some 1 := by
  have inside : table.size - 1 < table.entries.length := by
    change _ < table.size
    omega
  have last := Strategy.slope_last bell (table.parameter.getD ((1 : ℕ) : α)) several
  unfold weight? get?
  rw [List.getElem?_eq_getElem inside, Option.map_some,
    unweighted _ (List.getElem_mem inside), Option.getD_none, isSlope]
  unfold Strategy.weight
  dsimp only
  rw [ofCount_exact, last, floor_exact, max_eq_left zero_le_one]

theorem total_pos_of_sloping (isSlope : table.strategy = .sloping) (several : 2 ≤ table.size)
    (unweighted : ∀ entry ∈ table.entries, entry.weight = none) :
    0 < @total α ι (.exact bell) table := by
  have last := weight?_last_of_sloping bell isSlope several unweighted
  rw [weight?_exact] at last
  have member := List.mem_of_getElem? last
  unfold total
  rw [sum_exact]
  exact one_pos.trans_le
    (List.single_le_sum (fun weight inside => nonneg_of_mem_weights bell inside) 1 member)

end Table

/-- The profiles of the strategies, computed exactly. On a slope the weights go in equal steps from
the first position to one at the last, and a table of entries on a slope has a positive weight
whatever the parameter is. Under a bell curve the weights add up to their count, and they fall with
the position if the curve falls with the distance. -/
theorem strategies_have_their_profiles [IsStrictOrderedRing α] (several : 2 ≤ count)
    (parameter : Option α) :
    let slope (position : ℕ) : α :=
      @Strategy.weight α (.exact bell) .sloping position count parameter
    let normal (position : ℕ) : α :=
      @Strategy.weight α (.exact bell) .normal position count parameter
    let factor := parameter.getD 1
    (@Strategy.weights α (.exact bell) .sloping count parameter = (List.range count).map slope ∧
      slope 0 = 1 + count * factor ∧ slope (count - 1) = 1 ∧
      (∀ position, slope (position + 1) = slope position - count * factor / (count - 1 : ℕ)) ∧
      (0 < factor → StrictAnti slope) ∧ (factor = 0 → ∀ position, slope position = 1) ∧
      (factor < 0 → StrictMono slope)) ∧
    (∀ {ι : Type} (table : Table α ι), table.strategy = .sloping → table.size = count →
      (∀ entry ∈ table.entries, entry.weight = none) →
      @Table.weight? α ι (.exact bell) table (count - 1) = some 1 ∧
        0 < @Table.total α ι (.exact bell) table) ∧
    ((∀ distance, 0 < bell distance) →
      @Strategy.weights α (.exact bell) .normal count parameter = (List.range count).map normal ∧
      ((List.range count).map normal).sum = count ∧
      ((∀ near far : α, |near| < |far| → bell far < bell near) → parameter.getD 3 ≠ 0 →
        StrictAnti normal)) := by
  intro slope normal factor
  have isSlope : ∀ position,
      slope position = @Strategy.slope α (.exact bell) position count factor := by
    intro position
    change @Strategy.slope α (.exact bell) position count (parameter.getD ((1 : ℕ) : α)) = _
    rw [Nat.cast_one]
  refine ⟨⟨Strategy.weights_exact_eq_map bell .sloping count parameter, ?_, ?_, ?_, ?_, ?_, ?_⟩,
    ?_, fun positive => ⟨Strategy.weights_exact_eq_map bell .normal count parameter, ?_, ?_⟩⟩
  · rw [isSlope, Strategy.slope_exact bell factor several, Nat.cast_zero, zero_div, sub_zero,
      mul_one]
  · rw [isSlope, Strategy.slope_last bell factor several]
  · intro position
    rw [isSlope, isSlope, Strategy.slope_succ bell factor several]
  · intro positive
    rw [funext isSlope]
    exact Strategy.slope_strictAnti bell factor several positive
  · intro zero position
    rw [isSlope, Strategy.slope_exact bell factor several, zero, mul_zero, zero_mul, add_zero]
  · intro negative
    rw [funext isSlope]
    exact Strategy.slope_strictMono bell factor several negative
  · rintro ι table sloping rfl unweighted
    exact ⟨Table.weight?_last_of_sloping bell sloping several unweighted,
      Table.total_pos_of_sloping bell sloping several unweighted⟩
  · rw [← Strategy.weights_exact_eq_map bell .normal, Strategy.sum_weights_normal positive]
  · intro falling wide
    exact Strategy.weight_normal_strictAnti several positive falling wide

/-- A slope that starts below zero, so that its first weights count as zero, and the bell curve of
the normal distribution, which is as wide on either side. -/
theorem strategies_have_their_profiles_negative :
    let bell : ℝ → ℝ := fun distance => Real.exp (-0.5 * distance * distance)
    let table : Table ℝ String := ⟨List.replicate 5 ⟨"lake", none⟩, .sloping, some (-1)⟩
    (∀ distance, 0 < bell distance) ∧ (∀ near far : ℝ, |near| < |far| → bell far < bell near) ∧
      @Strategy.weight ℝ (.exact bell) .sloping 0 5 (some (-1)) = -4 ∧
      (StrictMono fun position =>
        @Strategy.weight ℝ (.exact bell) .sloping position 5 (some (-1))) ∧
      0 < @Table.total ℝ String (.exact bell) table ∧
      (@Strategy.weights ℝ (.exact bell) .normal 5 (some (-1))).sum = 5 ∧
      (StrictAnti fun position =>
        @Strategy.weight ℝ (.exact bell) .normal position 5 (some (-1))) := by
  intro bell table
  have positive : ∀ distance, 0 < bell distance := fun distance => Real.exp_pos _
  have falling : ∀ near far : ℝ, |near| < |far| → bell far < bell near := by
    intro near far further
    have squares : near * near < far * far := by
      rw [← abs_mul_abs_self near, ← abs_mul_abs_self far]
      exact mul_self_lt_mul_self (abs_nonneg near) further
    refine Real.exp_lt_exp.mpr ?_
    rw [mul_assoc, mul_assoc]
    linarith
  have all := strategies_have_their_profiles bell (by decide : 2 ≤ 5) (some (-1))
  rcases all with ⟨⟨-, start, -, -, -, -, rising⟩, selectable, normal⟩
  rcases normal positive with ⟨list, average, falls⟩
  refine ⟨positive, falling, ?_, rising (by norm_num), ?_, ?_, falls falling (by norm_num)⟩
  · exact start.trans (by norm_num)
  · have unweighted : ∀ entry ∈ table.entries, entry.weight = .none := by
      intro entry member
      obtain rfl := List.eq_of_mem_replicate member
      rfl
    exact (selectable table rfl rfl unweighted).2
  · rw [list, average]
    norm_num

end Wordloom
