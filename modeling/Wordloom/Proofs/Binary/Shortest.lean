import Mathlib
import Wordloom.Binary.Shortest
import Wordloom.Proofs.Binary.Nearest

/-!
# What the shortest decimal keeps

This file shows how near the decimal with the fewest digits is to the binary number that it is
for. It rounds to this number, so no other number of the format lies between the two. A number
below `2 ^ (fractionBits + 2)` thus has the same whole part as its decimal. One that is not whole
lies between two whole numbers of the format. For one that is whole, decimals with as many places
as the expansion has come up only after all that drop more digits; these are even, and below the
bound all even numbers belong to the format.

Above the bound the decimal may differ from the number in its whole part.
-/

namespace Wordloom.Binary

-- Powers are those of the core library, whatever else is imported.
attribute [local instance (2000)] instPowNat

namespace Scientific

variable {number candidate : Scientific} {passes : Scientific → Bool}

/-- The value of a decimal. -/
def value (number : Scientific) : ℚ :=
  number.coefficient * (10 : ℚ) ^ number.exponent

theorem value_nonneg (number : Scientific) : 0 ≤ number.value :=
  mul_nonneg (Nat.cast_nonneg _) (by positivity)

theorem value_ofBinary (significand : ℕ) (exponent : ℤ) :
    (ofBinary significand exponent).value = scaled significand exponent := by
  rw [ofBinary, scaled]
  split
  · rename_i zero
    rw [value, zero, Nat.cast_zero, zero_mul, zero_mul]
  · split
    · rename_i nonneg
      obtain ⟨power, rfl⟩ := Int.eq_ofNat_of_zero_le nonneg
      rw [value, zpow_zero, mul_one, Int.toNat_natCast, zpow_natCast]
      push_cast
      rfl
    · rename_i negative
      obtain ⟨places, rfl⟩ : ∃ places : ℕ, exponent = -(places : ℤ) :=
        ⟨(-exponent).toNat, by omega⟩
      have halves : (10 : ℚ) ^ places = 5 ^ places * 2 ^ places := by
        rw [← mul_pow]
        norm_num
      rw [value, neg_neg, Int.toNat_natCast, zpow_neg, zpow_neg, zpow_natCast, zpow_natCast, halves]
      push_cast
      field_simp

/-- Only the expansion of a number above zero has places. -/
theorem exponent_ofBinary (significand : ℕ) (exponent : ℤ) :
    (ofBinary significand exponent).exponent = 0 ∨
      (ofBinary significand exponent).exponent < 0 ∧
        0 < (ofBinary significand exponent).coefficient := by
  rw [ofBinary]
  split
  · exact Or.inl rfl
  · rename_i positive
    split
    · exact Or.inl rfl
    · rename_i negative
      exact Or.inr ⟨not_le.mp negative,
        Nat.mul_pos (Nat.pos_of_ne_zero positive) (Nat.pow_pos (by decide))⟩

theorem value_carry (digitCount coefficient : ℕ) (exponent : ℤ) :
    (carry digitCount coefficient exponent).value = coefficient * (10 : ℚ) ^ exponent := by
  rw [carry]
  split
  · rename_i full
    rw [value, full, zpow_add₀ (by norm_num), zpow_natCast]
    push_cast
    ring
  · rfl

theorem eq_or_eq_of_mem_neighbours {dropped : ℕ} (member : candidate ∈ number.neighbours dropped) :
    candidate = ⟨number.coefficient / 10 ^ dropped, number.exponent + dropped⟩ ∨
      candidate = carry (number.length - dropped) (number.coefficient / 10 ^ dropped + 1)
        (number.exponent + dropped) := by
  rw [neighbours] at member
  split at member
  · simpa using member
  · simpa [or_comm] using member

/-- What is left after some digits are dropped is a multiple of the power of ten above them. -/
theorem exists_value_of_mem_neighbours {dropped : ℕ}
    (member : candidate ∈ number.neighbours dropped) :
    ∃ multiple : ℕ, candidate.value = multiple * (10 : ℚ) ^ (number.exponent + dropped) := by
  rcases eq_or_eq_of_mem_neighbours member with rfl | rfl
  · exact ⟨_, rfl⟩
  · exact ⟨_, value_carry _ _ _⟩

/-- Dropping digits does not add places. -/
theorem exponent_le_of_mem_neighbours {dropped : ℕ}
    (member : candidate ∈ number.neighbours dropped) : number.exponent ≤ candidate.exponent := by
  have higher : number.exponent ≤ number.exponent + dropped := by omega
  rcases eq_or_eq_of_mem_neighbours member with rfl | rfl
  · exact higher
  · rw [carry]
    split
    · exact higher.trans (by dsimp only; omega)
    · exact higher

/-- What holds of the answer after fewer digits are dropped, and of all candidates before that
which pass, holds of the answer. -/
theorem search_induction (property : Scientific → Prop) (stop : ℕ) {start : ℕ} (atLeast : stop ≤ start)
    (base : property (number.search passes stop))
    (step : ∀ dropped, stop < dropped → ∀ candidate ∈ number.neighbours dropped,
      passes candidate = true → property candidate) :
    property (number.search passes start) := by
  induction start, atLeast using Nat.le_induction with
  | base => exact base
  | succ start atLeast ih =>
    rw [search]
    split
    · rename_i candidate found
      exact step _ (Nat.lt_succ_of_le atLeast) candidate (List.mem_of_find?_eq_some found)
        (List.find?_some found)
    · exact ih

theorem exponent_le_search (start : ℕ) :
    number.exponent ≤ (number.search passes start).exponent :=
  search_induction (fun candidate => number.exponent ≤ candidate.exponent) 0 (Nat.zero_le start)
    (le_refl _) fun _ _ _ member _ => exponent_le_of_mem_neighbours member

/-- When only zeros are dropped, the number itself is the nearer neighbour. -/
theorem value_search_of_zeros {whole stop : ℕ} (zeros : number.coefficient = whole * 10 ^ stop)
    (passing : passes ⟨whole, number.exponent + stop⟩ = true) :
    (number.search passes stop).value = number.value := by
  cases stop with
  | zero => rw [search]
  | succ stop =>
    have positive : 0 < 10 ^ (stop + 1) := Nat.pow_pos (by decide)
    have found : (number.neighbours (stop + 1)).find? passes
        = some ⟨whole, number.exponent + (stop + 1 : ℕ)⟩ := by
      rw [neighbours, zeros, Nat.mul_mod_left, Nat.mul_div_cancel _ positive, Nat.mul_zero,
        if_pos positive, List.find?_cons_of_pos passing]
    rw [search, found, value, value, zeros, zpow_add₀ (by norm_num), zpow_natCast]
    push_cast
    ring

theorem lt_length_of_pow_le {stop : ℕ} (large : 10 ^ stop ≤ number.coefficient) :
    stop < number.length := by
  rcases Nat.eq_zero_or_pos stop with rfl | positive
  · exact Nat.length_toDigits_pos
  · by_contra short
    have small := (Nat.length_toDigits_le_iff (by decide : 1 < 10) positive).1 (not_lt.mp short)
    exact absurd large (not_le_of_gt small)

end Scientific

/-- The shortest decimal has no more places than the number has binary ones. -/
theorem Format.min_exponent_le_shortest (format : Format) (significand : ℕ) (exponent : ℤ) :
    min exponent 0 ≤ (format.shortest significand exponent).exponent := by
  refine le_trans ?_ (Scientific.exponent_le_search _)
  rw [Scientific.ofBinary]
  split
  · exact min_le_right exponent 0
  · split
    · exact min_le_right exponent 0
    · exact min_le_left exponent 0

namespace Format.Canonical

variable {format : Format} {significand other : ℕ} {exponent power : ℤ}

/-- The shortest decimal rounds to the number that it is for. -/
theorem ofDecimal_shortest (canonical : format.Canonical significand exponent)
    (regular : format.Regular) :
    format.ofDecimal (format.shortest significand exponent).coefficient
      (format.shortest significand exponent).exponent = format.pattern significand exponent := by
  refine Scientific.search_induction (fun decimal =>
    format.ofDecimal decimal.coefficient decimal.exponent = format.pattern significand exponent)
    0 (Nat.zero_le _) ?_ fun _ _ _ _ passing => eq_of_beq passing
  exact canonical.ofDecimal_eq regular (Scientific.value_ofBinary _ _)

/-- A number of the format that is above is above the decimal. -/
theorem shortest_lt (canonical : format.Canonical significand exponent)
    (otherCanonical : format.Canonical other power) (regular : format.Regular)
    (less : scaled significand exponent < scaled other power) :
    (format.shortest significand exponent).value < scaled other power := by
  by_contra reached
  have rounded := otherCanonical.le_ofDecimal regular (not_lt.mp reached)
  rw [canonical.ofDecimal_shortest regular] at rounded
  exact absurd (canonical.pattern_lt_pattern otherCanonical less) (not_lt_of_ge rounded)

/-- A number of the format that is below is below the decimal. -/
theorem lt_shortest (canonical : format.Canonical significand exponent)
    (otherCanonical : format.Canonical other power) (regular : format.Regular)
    (less : scaled other power < scaled significand exponent) :
    scaled other power < (format.shortest significand exponent).value := by
  by_contra reached
  have rounded := otherCanonical.ofDecimal_le regular (not_lt.mp reached)
  rw [canonical.ofDecimal_shortest regular] at rounded
  exact absurd (otherCanonical.pattern_lt_pattern canonical less) (not_lt_of_ge rounded)

/-- Of the even numbers only the number itself rounds to it, as long as they all belong to the
format. -/
theorem eq_of_even (canonical : format.Canonical significand exponent) (regular : format.Regular)
    {whole half : ℕ} (same : scaled significand exponent = whole)
    (small : whole < 2 ^ (format.fractionBits + 2)) {decimal : Scientific}
    (even : decimal.value = (2 * half : ℕ))
    (rounds : format.ofDecimal decimal.coefficient decimal.exponent
      = format.pattern significand exponent) : 2 * half = whole := by
  have double : 2 ^ (format.fractionBits + 2) = 2 * 2 ^ (format.fractionBits + 1) := by
    rw [Nat.pow_succ, Nat.mul_comm]
  -- The even number itself, or the bound if the number is beyond it.
  obtain ⟨held, power, near, isNear⟩ : ∃ held power, format.Canonical held power ∧
      scaled held power = (min (2 * half) (2 ^ (format.fractionBits + 2)) : ℕ) := by
    rcases Nat.lt_or_ge half (2 ^ (format.fractionBits + 1)) with inside | beyond
    · obtain ⟨held, power, near, isNear⟩ :=
        exists_canonical_of_le_two regular inside (by decide : 1 ≤ 2)
      refine ⟨held, power, near, isNear.trans ?_⟩
      rw [Nat.min_eq_left (by omega), Nat.pow_one, Nat.mul_comm]
    · have narrow : 2 ^ format.fractionBits < 2 ^ (format.fractionBits + 1) :=
        Nat.pow_lt_pow_succ (by decide)
      obtain ⟨held, power, near, isNear⟩ :=
        exists_canonical_of_le_two regular narrow (le_refl 2)
      refine ⟨held, power, near, isNear.trans ?_⟩
      rw [Nat.min_eq_right (by omega), Nat.pow_add]
  by_contra different
  rcases Nat.lt_or_gt_of_ne different with below | above
  · have less : scaled held power < scaled significand exponent := by
      rw [isNear, same, Nat.cast_lt]
      omega
    have atMost : decimal.value ≤ scaled held power := by
      rw [isNear, even, Nat.cast_le]
      omega
    have rounded := near.ofDecimal_le regular atMost
    exact absurd (near.pattern_lt_pattern canonical less) (not_lt_of_ge (rounds ▸ rounded))
  · have less : scaled significand exponent < scaled held power := by
      rw [isNear, same, Nat.cast_lt]
      omega
    have atLeast : scaled held power ≤ decimal.value := by
      rw [isNear, even, Nat.cast_le]
      omega
    have rounded := near.le_ofDecimal regular atLeast
    exact absurd (canonical.pattern_lt_pattern near less) (not_lt_of_ge (rounds ▸ rounded))

/-- A whole number below the bound is its own shortest decimal. -/
theorem value_shortest_of_whole (canonical : format.Canonical significand exponent)
    (regular : format.Regular) {whole : ℕ} (same : scaled significand exponent = whole)
    (small : whole < 2 ^ (format.fractionBits + 2)) :
    (format.shortest significand exponent).value = whole := by
  have expanded := (Scientific.value_ofBinary significand exponent).trans same
  have placed := Scientific.exponent_ofBinary significand exponent
  rw [shortest]
  generalize Scientific.ofBinary significand exponent = expansion at expanded placed
  obtain ⟨places, isPlaces⟩ : ∃ places : ℕ, expansion.exponent = -(places : ℤ) :=
    ⟨(-expansion.exponent).toNat, by omega⟩
  have zeros : expansion.coefficient = whole * 10 ^ places := by
    rw [Scientific.value, isPlaces, zpow_neg, zpow_natCast, ← div_eq_mul_inv,
      div_eq_iff (by positivity)] at expanded
    exact_mod_cast expanded
  refine Scientific.search_induction (fun decimal => decimal.value = whole) places ?_ ?_
    fun dropped further candidate member passing => ?_
  · rcases placed with none | ⟨-, positive⟩
    · omega
    · refine Nat.le_sub_one_of_lt (Scientific.lt_length_of_pow_le ?_)
      rw [zeros] at positive ⊢
      exact Nat.le_mul_of_pos_left _ (Nat.pos_of_mul_pos_right positive)
  · rw [Scientific.value_search_of_zeros zeros, expanded]
    refine beq_iff_eq.2 (canonical.ofDecimal_eq regular ?_)
    rw [isPlaces, neg_add_cancel, zpow_zero, mul_one, same]
  · obtain ⟨multiple, isMultiple⟩ := Scientific.exists_value_of_mem_neighbours member
    obtain ⟨zeros, rfl⟩ : ∃ zeros, dropped = places + zeros + 1 := ⟨dropped - places - 1, by omega⟩
    have power : expansion.exponent + (places + zeros + 1 : ℕ) = (zeros + 1 : ℕ) := by
      omega
    have even : candidate.value = (2 * (multiple * 5 * 10 ^ zeros) : ℕ) := by
      rw [isMultiple, power, zpow_natCast, pow_succ]
      push_cast
      ring
    have equal := canonical.eq_of_even regular same small even (eq_of_beq passing)
    rw [even, equal]

/-- Below the bound the shortest decimal has the whole part of the number that it is for. -/
theorem floor_shortest (canonical : format.Canonical significand exponent)
    (regular : format.Regular)
    (small : scaled significand exponent < (2 ^ (format.fractionBits + 2) : ℕ)) :
    ⌊(format.shortest significand exponent).value⌋₊ = ⌊scaled significand exponent⌋₊ := by
  have nonneg := scaled_nonneg significand exponent
  by_cases isWhole : ∃ whole : ℕ, scaled significand exponent = whole
  · obtain ⟨whole, same⟩ := isWhole
    rw [canonical.value_shortest_of_whole regular same (by rw [same] at small; exact_mod_cast small),
      same]
  have negative : exponent < 0 := by
    by_contra nonneg
    obtain ⟨power, rfl⟩ := Int.eq_ofNat_of_zero_le (not_lt.mp nonneg)
    exact isWhole ⟨significand * 2 ^ power, by rw [scaled, zpow_natCast]; push_cast; rfl⟩
  have bounded : scaled significand exponent < (2 ^ format.fractionBits : ℕ) := by
    refine canonical.scaled_lt.trans_le ?_
    rw [Nat.cast_pow, Nat.cast_ofNat, ← zpow_natCast]
    exact zpow_le_zpow_right₀ one_le_two (by omega)
  have narrow : 2 ^ format.fractionBits < 2 ^ (format.fractionBits + 1) :=
    Nat.pow_lt_pow_succ (by decide)
  have inside : ⌊scaled significand exponent⌋₊ < 2 ^ format.fractionBits :=
    (Nat.floor_lt nonneg).2 bounded
  obtain ⟨held, power, below, isBelow⟩ := exists_canonical_natCast regular (inside.trans narrow)
  obtain ⟨held', power', above, isAbove⟩ :=
    exists_canonical_natCast regular (Nat.lt_of_le_of_lt inside narrow)
  have lower : scaled held power < scaled significand exponent := by
    rw [isBelow]
    exact lt_of_le_of_ne (Nat.floor_le nonneg) fun same => isWhole ⟨_, same.symm⟩
  have upper : scaled significand exponent < scaled held' power' := by
    rw [isAbove, Nat.cast_succ]
    exact Nat.lt_floor_add_one _
  have decimalLower := canonical.lt_shortest below regular lower
  have decimalUpper := canonical.shortest_lt above regular upper
  rw [isBelow] at decimalLower
  rw [isAbove, Nat.cast_succ] at decimalUpper
  exact (Nat.floor_eq_iff ((Nat.cast_nonneg _).trans decimalLower.le)).2
    ⟨decimalLower.le, decimalUpper⟩

end Format.Canonical

/-- Of a whole number also the decimal is whole. -/
theorem Format.exists_value_shortest (format : Format) (significand : ℕ) {exponent : ℤ}
    (nonneg : 0 ≤ exponent) :
    ∃ whole : ℕ, (format.shortest significand exponent).value = whole := by
  obtain ⟨power, rfl⟩ := Int.eq_ofNat_of_zero_le nonneg
  have unplaced : (Scientific.ofBinary significand power).exponent = 0 := by
    rw [Scientific.ofBinary]
    split <;> rfl
  refine Scientific.search_induction (fun decimal => ∃ whole : ℕ, decimal.value = whole) 0
    (Nat.zero_le _) ?_ fun dropped _ candidate member _ => ?_
  · rw [Scientific.search, Scientific.value, unplaced, zpow_zero, mul_one]
    exact ⟨_, rfl⟩
  · obtain ⟨multiple, isMultiple⟩ := Scientific.exists_value_of_mem_neighbours member
    rw [unplaced, zero_add, zpow_natCast] at isMultiple
    exact ⟨multiple * 10 ^ dropped, isMultiple.trans (by push_cast; rfl)⟩

/-- Beyond the significands the decimal is a whole number to which the number is nearest. -/
theorem Format.Canonical.exists_value_shortest_of_large {format : Format} {significand : ℕ}
    {exponent : ℤ} (canonical : format.Canonical significand exponent) (regular : format.Regular)
    (large : (2 ^ (format.fractionBits + 1) : ℕ) ≤ scaled significand exponent) :
    ∃ size : ℕ, 0 < size ∧ (format.shortest significand exponent).value = size ∧
      format.nearest size 1 = format.pattern significand exponent := by
  have above : 0 < significand := by
    by_contra zero
    rw [Nat.eq_zero_of_not_pos zero, scaled, Nat.cast_zero, zero_mul] at large
    exact absurd large (not_le_of_gt (by exact_mod_cast Nat.two_pow_pos _))
  have isWhole : 0 ≤ exponent := by
    have power : (2 : ℚ) ^ (format.fractionBits + 1 : ℤ)
        = ((2 ^ (format.fractionBits + 1) : ℕ) : ℚ) := by
      push_cast
      rfl
    have less := (power.trans_le large).trans_lt canonical.scaled_lt
    have := (zpow_lt_zpow_iff_right₀ one_lt_two).1 less
    omega
  obtain ⟨size, isSize⟩ := Format.exists_value_shortest format significand isWhole
  have rounded : format.nearest size 1 = format.pattern significand exponent :=
    canonical.nearest_eq_of_ofDecimal_eq above (canonical.ofDecimal_shortest regular)
      Nat.one_pos (by rw [Nat.cast_one, div_one, ← isSize]; rfl)
  refine ⟨size, Nat.pos_of_ne_zero ?_, isSize, rounded⟩
  rintro rfl
  rw [Format.nearest, if_pos rfl] at rounded
  exact absurd (Nat.le_add_right significand _) (not_le_of_gt (rounded ▸ above))

end Wordloom.Binary
