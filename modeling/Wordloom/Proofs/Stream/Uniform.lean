import Wordloom.Proofs.Binary.Products
import Wordloom.Proofs.Table.Flat
import Wordloom.Proofs.Table.Selection
import Wordloom.Stream.Basic

/-!
# Uniform draws below a bound

This file gives the numbers that are drawn below a bound. The upper bits of a word are a share of
the bound, and the draw is the double nearest to this share. So it is never above the bound.

For it to be below, what the greatest share leaves of the bound has to be more than half of its
distance to the double before it. That is so above the least double with a full significand. At
this double and below it, where doubles are whole numbers of one unit, the greatest share is
rounded up to the bound.
-/

namespace Wordloom

open Binary

-- Powers are those of the core library, whatever else is imported.
attribute [local instance (2000)] instPowNat

/-- The number that the upper 53 bits of a word make. -/
def upperBits (word : UInt64) : ℕ :=
  (word >>> 11).toNat

theorem upperBits_lt (word : UInt64) : upperBits word < 2 ^ (53 : ℕ) := by
  have shifted : upperBits word = word.toNat / 2 ^ (11 : ℕ) := by
    rw [upperBits, UInt64.toNat_shiftRight, Nat.shiftRight_eq_div_pow]
    rfl
  have := word.toNat_lt
  rw [shifted]
  omega

/-- A word stands for its upper bits as a fraction, without any rounding. -/
theorem exists_ofFloat_unitOfWord (word : UInt64) :
    ∃ significand exponent, ofFloat (unitOfWord word) = .finite false significand exponent ∧
      scaled significand exponent = scaled (upperBits word) (-53) := by
  have narrow := upperBits_lt word
  rcases exists_ofFloat_toFloat_word narrow with ⟨whole, power, wholeRead, wholeSame⟩
  have unitRead : ofFloat (Float.ofBits 0x3CA0000000000000)
      = .finite false (2 ^ (52 : ℕ)) (-53 - (52 : ℕ)) := by rfl
  rcases @Format.exists_canonical double _ 1021 narrow (by decide) with
    ⟨significand, exponent, canonical, same⟩
  refine ⟨significand, exponent, ?_, same⟩
  apply ofFloat_mul_of_scaled_eq wholeRead unitRead canonical
  have unit := scaled_mul_two_pow 1 52 (-53)
  have least : double.leastExponent + (1021 : ℕ) = -53 := rfl
  rw [Nat.one_mul] at unit
  rw [wholeSame, unit, same, least, scaled, scaled, Nat.cast_one, one_mul]
  rfl

variable {significand : ℕ} {exponent : ℤ}

/-- The share of a bound that a word makes, rounded once. -/
theorem unitOfWord_mul {bound : Float}
    (finite : ofFloat bound = .finite false significand exponent) (word : UInt64) :
    unitOfWord word * bound
      = toFloat (double.ofBinary (upperBits word * significand) (exponent - 53)) := by
  rcases exists_ofFloat_unitOfWord word with ⟨whole, power, read, same⟩
  have shares : scaled (whole * significand) (power + exponent)
      = scaled (upperBits word * significand) (exponent - 53) := by
    rw [sub_eq_neg_add, scaled_mul, scaled_mul, same]
  rw [mul_eq_toFloat_ofBinary read finite, Format.ofBinary_congr shares]

section Shares

variable {part : ℕ} (narrow : part < 2 ^ (53 : ℕ))
  (canonical : double.Canonical significand exponent)

include narrow canonical

theorem ofBinary_share_le :
    double.ofBinary (part * significand) (exponent - 53) ≤ double.pattern significand exponent := by
  apply canonical.ofBinary_le
  rw [← scaled_mul_two_pow significand 53 exponent, Nat.mul_comm part]
  exact scaled_le_scaled (Nat.mul_le_mul_left significand narrow.le) _

/-- The greatest share leaves more than half of the distance to the significand before. -/
theorem ofBinary_share_lt_of_lt (full : 2 ^ (52 : ℕ) < significand) :
    double.ofBinary (part * significand) (exponent - 53) < double.pattern significand exponent := by
  rcases Nat.exists_eq_succ_of_ne_zero (Nat.ne_of_gt (Nat.zero_lt_of_lt full)) with ⟨before, rfl⟩
  have atMost : double.ofBinary (part * (before + 1)) (exponent - 53)
      ≤ double.pattern before exponent := by
    have shorter : double.Canonical before exponent := by
      refine ⟨(Nat.lt_succ_self before).trans canonical.narrow, canonical.least,
        .inl (Nat.le_of_lt_succ full), ?_⟩
      exact (Format.pattern_le_pattern (Nat.le_succ before) exponent).trans_lt canonical.finite
    apply shorter.ofBinary_le_of_lt
    rw [← scaled_mul_two_pow (2 * before + 1) 53 exponent]
    apply scaled_lt_scaled
    have := Nat.mul_le_mul_right (before + 1) (Nat.le_sub_one_of_lt narrow)
    rw [Nat.sub_mul] at this
    omega
  have next := pattern_double (before + 1) exponent
  rw [pattern_double] at atMost
  rw [Nat.succ_eq_add_one]
  omega

/-- Below a power of two doubles lie twice as close, and the greatest share is one of them. -/
theorem ofBinary_share_lt_of_eq (full : significand = 2 ^ (52 : ℕ)) (above : -1074 < exponent) :
    double.ofBinary (part * significand) (exponent - 53) < double.pattern significand exponent := by
  subst full
  have before := pattern_double (2 ^ (53 : ℕ) - 1) (exponent - 1)
  have bound := pattern_double (2 ^ (52 : ℕ)) exponent
  have atMost : double.ofBinary (part * 2 ^ (52 : ℕ)) (exponent - 53)
      ≤ double.pattern (2 ^ (53 : ℕ) - 1) (exponent - 1) := by
    have closer : double.Canonical (2 ^ (53 : ℕ) - 1) (exponent - 1) := by
      refine ⟨by decide, ?_, .inl (by decide), ?_⟩
      · rw [leastExponent_double]
        omega
      · have := canonical.finite
        omega
    apply closer.ofBinary_le
    have lower : exponent - 53 = exponent - 1 - (52 : ℕ) := by omega
    rw [← scaled_mul_two_pow (2 ^ (53 : ℕ) - 1) 52 (exponent - 1), lower]
    exact scaled_le_scaled (Nat.mul_le_mul_right _ (Nat.le_sub_one_of_lt narrow)) _
  omega

end Shares

theorem halfEven_greatest_share (positive : 0 < significand)
    (short : significand ≤ 2 ^ (52 : ℕ)) :
    halfEven ((2 ^ (53 : ℕ) - 1) * significand) (2 ^ (53 : ℕ)) = significand := by
  have quotient : (2 ^ (53 : ℕ) - 1) * significand / 2 ^ (53 : ℕ) = significand - 1 := by omega
  have rest : (2 ^ (53 : ℕ) - 1) * significand % 2 ^ (53 : ℕ) = 2 ^ (53 : ℕ) - significand := by
    omega
  rcases Nat.lt_or_eq_of_le short with less | same
  · rw [halfEven_of_lt (by rw [rest]; omega), quotient]
    omega
  · -- The tie goes to the power of two, which is even.
    rw [halfEven_of_eq (by rw [rest]; omega), quotient]
    omega

/-- Where doubles are whole numbers of units, the greatest share is rounded up. -/
theorem ofBinary_greatest_share (positive : 0 < significand)
    (short : significand ≤ 2 ^ (52 : ℕ)) :
    double.ofBinary ((2 ^ (53 : ℕ) - 1) * significand) (-1074 - 53)
      = min double.infinity (double.pattern significand (-1074)) := by
  have above : 0 < (2 ^ (53 : ℕ) - 1) * significand := Nat.mul_pos (by decide) positive
  have excess : excessBits ((2 ^ (53 : ℕ) - 1) * significand) (-1074 - 53) = 53 := by
    have bits : ((2 ^ (53 : ℕ) - 1) * significand).log2 < 105 := by
      rw [Nat.log2_lt (Nat.ne_of_gt above)]
      omega
    rw [excessBits]
    omega
  have reached : -1074 - 53 + ((53 : ℕ) : ℤ) = -1074 := by omega
  rw [ofBinary_eq_min above (.inr (by decide)), excess, halfEven_greatest_share positive short,
    reached]

/-- The least double with a full significand. -/
def leastFull : Float :=
  Float.ofBits 0x0010000000000000

theorem held_leastFull : Held (2 ^ (52 : ℕ)) (-1074) :=
  held_of_log2_eq (by decide) (by decide) (by decide)

theorem hasUnits_leastFull : HasUnits leastFull (2 ^ (52 : ℕ)) := by
  have read : ofFloat leastFull = .finite false (2 ^ (52 : ℕ)) (-1074) := by rfl
  exact hasUnits_of_ofFloat read

section Draws

variable {bound : Float} (finite : ofFloat bound = .finite false significand exponent)

include finite

/-- The exact share of a bound is rounded to the nearest double. -/
theorem unitOfWord_mul_eq_nearest (word : UInt64) {numerator denominator : ℕ}
    (divides : 0 < denominator)
    (share : (numerator : ℚ) / denominator
      = upperBits word * scaled significand exponent / 2 ^ (53 : ℕ)) :
    unitOfWord word * bound = toFloat (double.nearest numerator denominator) := by
  have same : scaled (upperBits word * significand) (exponent - 53)
      = upperBits word * scaled significand exponent / 2 ^ (53 : ℕ) := by
    rw [sub_eq_neg_add, scaled_mul, scaled, zpow_neg]
    simp only [zpow_ofNat]
    ring
  rw [unitOfWord_mul finite]
  congr 1
  apply Format.nearest_congr (Nat.two_pow_pos _) divides
  rw [← scaled_eq_div, share, same]

theorem zero_le_unitOfWord_mul (word : UInt64) : 0.0 ≤ unitOfWord word * bound := by
  have canonical : double.Canonical significand exponent := Format.canonical_of_datum finite
  have atMost := ofBinary_share_le (upperBits_lt word) canonical
  rcases exists_hasUnits_toFloat (atMost.trans_lt canonical.finite) with ⟨_, _, -, -, has⟩
  rw [unitOfWord_mul finite, hasUnits_literal_zero.le_iff has]
  exact Nat.zero_le _

theorem unitOfWord_mul_le (word : UInt64) : unitOfWord word * bound ≤ bound := by
  have canonical : double.Canonical significand exponent := Format.canonical_of_datum finite
  have shares := ofBinary_share_le (upperBits_lt word) canonical
  have atMost := toFloat_le_toFloat canonical.finite shares
  rwa [← unitOfWord_mul finite, toFloat_pattern finite] at atMost

theorem unitOfWord_mul_lt (above : leastFull < bound) (word : UInt64) :
    unitOfWord word * bound < bound := by
  have canonical : double.Canonical significand exponent := Format.canonical_of_datum finite
  have narrow := upperBits_lt word
  have less : double.ofBinary (upperBits word * significand) (exponent - 53)
      < double.pattern significand exponent := by
    rw [hasUnits_leastFull.lt_iff (hasUnits_of_ofFloat finite)] at above
    rcases Nat.lt_trichotomy significand (2 ^ (52 : ℕ)) with short | same | long
    · -- Such a bound has the least exponent, so it is not above.
      have least : exponent = -1074 := canonical.full.resolve_left (Nat.not_le_of_lt short)
      rw [least, units_least] at above
      omega
    · apply ofBinary_share_lt_of_eq narrow canonical same
      refine lt_of_le_of_ne canonical.least ?_
      rintro rfl
      rw [same] at above
      exact absurd above (lt_irrefl _)
    · exact ofBinary_share_lt_of_lt narrow canonical long
  have below := toFloat_lt_toFloat canonical.finite less
  rwa [← unitOfWord_mul finite, toFloat_pattern finite] at below

/-- The greatest share of a small bound is rounded up to the bound. -/
theorem unitOfWord_mul_eq (positive : 0 < significand) (atMost : bound ≤ leastFull) :
    unitOfWord (-1) * bound = bound := by
  have canonical : double.Canonical significand exponent := Format.canonical_of_datum finite
  rw [(hasUnits_of_ofFloat finite).le_iff hasUnits_leastFull] at atMost
  have least : exponent = -1074 := by
    have held := held_iff.mpr ⟨positive, canonical⟩
    by_contra other
    have := held_leastFull.units_lt_of_lt held (lt_of_le_of_ne held.least (Ne.symm other))
    rw [units_least] at this
    omega
  subst least
  rw [units_least] at atMost
  have greatest : upperBits (-1) = 2 ^ (53 : ℕ) - 1 := by decide
  rw [unitOfWord_mul finite, greatest, ofBinary_greatest_share positive atMost,
    min_eq_right canonical.finite.le, toFloat_pattern finite]

end Draws

/--
What is drawn below a bound is the double nearest to the share of the bound that the upper bits of
the next word make. It is from zero on and not above the bound, and it is below every bound that is
above the least double with a full significand. All other bounds are reached for some words. The
selection of a pick is such a draw below the total weight.
-/
theorem draws_stay_within_bound (stream : Stream) :
    (∀ bound : Float, bound > 0.0 → bound.isFinite = true →
      let part := upperBits stream.next64.1
      let draw := (RandomSource.nextDouble bound stream).1
      part < 2 ^ (53 : ℕ) ∧
      (∃ value, (ofFloat bound).value? = some value ∧
        ∀ numerator denominator : ℕ, 0 < denominator →
          (numerator : ℚ) / denominator = part * value / 2 ^ (53 : ℕ) →
            draw = toFloat (double.nearest numerator denominator)) ∧
      0.0 ≤ draw ∧ draw ≤ bound ∧ (leastFull < bound → draw < bound) ∧
      (bound ≤ leastFull → unitOfWord (-1) * bound = bound)) ∧
    ∀ (ι : Type) (table : Table Float ι) position after,
      table.pick.run stream = (.ok position, after) →
        ∃ selection, RandomSource.nextDouble table.total stream = (selection, after) ∧
          position.val = Table.select table.weights selection ∧
          0.0 ≤ selection ∧ selection ≤ table.total ∧
          (leastFull < table.total → selection < table.total) := by
  constructor
  · intro bound positive isFinite part draw
    rcases exists_ofFloat_of_positive positive isFinite with
      ⟨significand, exponent, present, finite⟩
    have made : draw = unitOfWord stream.next64.1 * bound :=
      congrArg Prod.fst (Stream.nextDouble_of_positive positive stream)
    rw [made]
    refine ⟨upperBits_lt _, ⟨scaled significand exponent, ?_, ?_⟩, zero_le_unitOfWord_mul finite _,
      unitOfWord_mul_le finite _, ?_, unitOfWord_mul_eq finite present⟩
    · rw [finite]
      rfl
    · intro numerator denominator divides share
      exact unitOfWord_mul_eq_nearest finite _ divides share
    · intro above
      exact unitOfWord_mul_lt finite above _
  · intro ι table position after success
    rcases Table.exists_draw_of_run_pick success with
      ⟨positive, isFinite, selection, drawn, falls⟩
    rcases exists_ofFloat_of_positive positive isFinite with ⟨significand, exponent, -, finite⟩
    have made : unitOfWord stream.next64.1 * table.total = selection := by
      rw [Stream.nextDouble_of_positive positive, Prod.mk.injEq] at drawn
      exact drawn.1
    refine ⟨selection, drawn, falls, ?_, ?_, ?_⟩
    · rw [← made]
      exact zero_le_unitOfWord_mul finite _
    · rw [← made]
      exact unitOfWord_mul_le finite _
    · intro above
      rw [← made]
      exact unitOfWord_mul_lt finite above _

theorem draws_stay_within_bound_total :
    let stream := Stream.ofSeed 0
    let table : Table Float String := .ofItems ["Hello", "Bye"]
    table.total > 0.0 ∧ table.total.isFinite = true ∧ leastFull < table.total ∧
      (RandomSource.nextDouble table.total stream).1 < table.total ∧
      (∃ position after, table.pick.run stream = (.ok position, after) ∧
        ∃ selection, RandomSource.nextDouble table.total stream = (selection, after) ∧
          position.val = Table.select table.weights selection) ∧
      Float.ofBits 1 > 0.0 ∧ (Float.ofBits 1).isFinite = true ∧ Float.ofBits 1 ≤ leastFull ∧
      unitOfWord (-1) * Float.ofBits 1 = Float.ofBits 1 := by
  intro stream table
  rcases draws_stay_within_bound stream with ⟨draws, pick⟩
  have above : leastFull < table.total := by
    have total := Table.hasUnits_total ["Hello", "Bye"]
    rw [Table.counted_of_le (by decide)] at total
    have twoHeld : Held (2 * 2 ^ (51 : ℕ)) (-51) :=
      ⟨by decide, by decide, by decide, by decide, .inl (by decide)⟩
    have less := held_leastFull.units_lt_of_lt twoHeld (by decide)
    rw [units_least, units_mul_two_pow 2 51 twoHeld.least] at less
    rw [hasUnits_leastFull.lt_iff total]
    exact less
  have oneHas : HasUnits (Float.ofBits 1) (units 1 (-1074)) := by
    have read : ofFloat (Float.ofBits 1) = .finite false 1 (-1074) := by rfl
    exact hasUnits_of_ofFloat read
  rw [units_least] at oneHas
  have onePositive : Float.ofBits 1 > 0.0 :=
    (hasUnits_literal_zero.lt_iff oneHas).mpr (by decide)
  have oneBelow : Float.ofBits 1 ≤ leastFull := (oneHas.le_iff hasUnits_leastFull).mpr (by decide)
  rcases Table.exists_run_pick_ofItems String (by decide : 0 < 2) stream with ⟨_, after, picks⟩
  rcases picks ["Hello", "Bye"] rfl with ⟨position, -, picked⟩
  rcases Table.exists_draw_of_run_pick picked with ⟨positive, finite, -⟩
  rcases draws table.total positive finite with ⟨-, -, -, -, below, -⟩
  rcases draws (Float.ofBits 1) onePositive oneHas.isFinite with ⟨-, -, -, -, -, reached⟩
  rcases pick String table position after picked with ⟨selection, drawn, falls, -⟩
  exact ⟨positive, finite, above, below above,
    ⟨position, after, picked, selection, drawn, falls⟩, onePositive, oneHas.isFinite, oneBelow,
    reached oneBelow⟩

/-- A draw that is not below its bound, the least double above zero. -/
theorem draw_reaches_least_bound :
    let bound := Float.ofBits 1
    let draw := (RandomSource.nextDouble bound (Stream.ofSeed 0)).1
    bound > 0.0 ∧ bound.isFinite = true ∧ draw = bound ∧ ¬draw < bound := by
  decide +kernel

end Wordloom
