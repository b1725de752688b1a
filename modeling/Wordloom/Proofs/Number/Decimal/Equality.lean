import Mathlib
import Wordloom.Number.Decimal.Equality
import Wordloom.Proofs.Number.Decimal.Text

/-!
# Decimals that are read again

This file shows when a decimal is found equal to the one as which its text is read. Both have the
same value, but where zeros were written out they are compared word by word, and there a carry can
get lost. None does as long as each word, times the power of ten, leaves room for a carry below
64 bits. A word that does not fit 64 bits at all does no harm, because then the canonical forms
are compared.

So for decimals with at most nine zeros unwritten, or with more than fifteen, equality is right. The
last example is one with ten.
-/

namespace Wordloom.Decimal

-- Powers are those of the core library, whatever else is imported.
attribute [local instance (2000)] instPowNat

section Canonical

theorem digits_mul_ten {number : ℕ} (positive : 0 < number) :
    digits (number * 10) = digits number ++ ['0'] := by
  have joined := Nat.toDigits_append_toDigits (by decide : 1 < 10) positive (by decide : 0 < 10)
  rw [digits, digits, Nat.mul_comm, ← Nat.add_zero (10 * number), ← joined]
  rfl

/-- A zero at the end does not change the canonical decimal. -/
theorem canonical_mul_ten (unscaled scale : ℤ) :
    canonical ⟨unscaled * 10, scale + 1⟩ = canonical ⟨unscaled, scale⟩ := by
  by_cases zero : unscaled = 0
  · rw [canonical, canonical, zero]
    rfl
  · have positive : 0 < unscaled.natAbs := Int.natAbs_pos.2 zero
    have longer : (digits (unscaled * 10).natAbs).length = (digits unscaled.natAbs).length + 1 := by
      rw [Int.natAbs_mul]
      exact (congrArg List.length (digits_mul_ten positive)).trans List.length_append
    rw [canonical, canonical, if_neg (by simpa using zero), if_neg zero, longer, stripZeros,
      if_pos (by dsimp only; omega)]
    dsimp only
    rw [Int.mul_ediv_cancel _ (by decide), Int.add_sub_cancel]

theorem canonical_mul_pow (unscaled scale : ℤ) (count : ℕ) :
    canonical ⟨unscaled * 10 ^ count, scale + count⟩ = canonical ⟨unscaled, scale⟩ := by
  induction count with
  | zero => simp
  | succ count ih =>
    have grouped : (⟨unscaled * 10 ^ (count + 1), scale + (count + 1 : ℕ)⟩ : Decimal)
        = ⟨unscaled * 10 ^ count * 10, scale + count + 1⟩ := by
      rw [Int.pow_succ, Int.mul_assoc]
      push_cast
      rw [add_assoc]
    rw [grouped, canonical_mul_ten, ih]

theorem sameValue_mul_pow (unscaled : ℤ) (count : ℕ) :
    sameValue ⟨unscaled, -count⟩ ⟨unscaled * 10 ^ count, 0⟩ = true := by
  have kept := canonical_mul_pow unscaled (-count) count
  rw [Int.add_left_neg] at kept
  rw [sameValue, kept, beq_self_eq_true]

end Canonical

section Words

theorem bitLength_le_iff {number bits : ℕ} : bitLength number ≤ bits ↔ number < 2 ^ bits := by
  rw [bitLength]
  split
  · rename_i zero
    rw [zero]
    exact ⟨fun _ => Nat.two_pow_pos bits, fun _ => Nat.zero_le bits⟩
  · rename_i nonzero
    rw [Nat.succ_le_iff, Nat.log2_lt nonzero]

theorem bitLength_div (number bits : ℕ) :
    bitLength (number / 2 ^ bits) = bitLength number - bits := by
  have shift : ∀ count,
      bitLength (number / 2 ^ bits) ≤ count ↔ bitLength number ≤ count + bits := by
    intro count
    rw [bitLength_le_iff, bitLength_le_iff, Nat.div_lt_iff_lt_mul (Nat.two_pow_pos bits),
      Nat.pow_add]
  have above := (shift (bitLength number - bits)).2 (by omega)
  have below := (shift (bitLength (number / 2 ^ bits))).1 (Nat.le_refl _)
  omega

/-- A product is as long as its factors together, or shorter by one. -/
theorem bitLength_add_log2_le {number factor : ℕ} (positive : 0 < number)
    (factorPositive : 0 < factor) :
    bitLength number + factor.log2 ≤ bitLength (number * factor) := by
  by_contra short
  have product : bitLength (number * factor) ≤ number.log2 + factor.log2 := by
    rw [bitLength, if_neg (Nat.ne_of_gt positive)] at short
    omega
  rw [bitLength_le_iff, Nat.pow_add] at product
  have least := Nat.mul_le_mul (Nat.log2_self_le (Nat.ne_of_gt positive))
    (Nat.log2_self_le (Nat.ne_of_gt factorPositive))
  exact absurd product (Nat.not_lt_of_ge least)

theorem words_zero : words 0 = [] := rfl

theorem words_of_pos {number : ℕ} (positive : 0 < number) :
    words number = UInt32.ofNat number :: words (number / 2 ^ (32 : ℕ)) := by
  have some : ¬bitLength number ≤ 0 := by
    rw [bitLength_le_iff]
    simpa using Nat.ne_of_gt positive
  have count : (bitLength number + 31) / 32
      = (bitLength (number / 2 ^ (32 : ℕ)) + 31) / 32 + 1 := by
    rw [bitLength_div]
    omega
  rw [words, count, List.range_succ_eq_map, List.map_cons, List.map_map, words]
  congr 1
  · simp
  · refine List.map_congr_left fun index _ => ?_
    rw [Function.comp_apply, Nat.div_div_eq_div_mul, ← Nat.pow_add, Nat.mul_succ, Nat.add_comm]

/-- Whether multiplying the words of a number loses no carry: each product of one word leaves room
for a carry or does not fit 64 bits by itself. -/
def KeepsCarries (factor number : ℕ) : Prop :=
  ∀ word ∈ words number, word.toNat * factor + UInt32.size ≤ UInt64.size ∨
    UInt64.size ≤ word.toNat * factor

instance (factor number : ℕ) : Decidable (KeepsCarries factor number) :=
  inferInstanceAs (Decidable (∀ word ∈ words number,
    word.toNat * factor + UInt32.size ≤ UInt64.size ∨ UInt64.size ≤ word.toNat * factor))

/-- One word of a product: its low half is the word that is looked for, its high half the carry. -/
theorem product_word {factor carry word : ℕ} (rest : ℕ) (carrySmall : carry < UInt32.size)
    (room : word * factor + UInt32.size ≤ UInt64.size) :
    (word * factor + carry) % UInt32.size
        = ((word + UInt32.size * rest) * factor + carry) % UInt32.size ∧
      (word * factor + carry) / UInt32.size < UInt32.size ∧
      ((word + UInt32.size * rest) * factor + carry) / UInt32.size
        = rest * factor + (word * factor + carry) / UInt32.size := by
  have spread : (word + UInt32.size * rest) * factor + carry
      = word * factor + carry + UInt32.size * (rest * factor) := by
    ring
  have sizes : UInt64.size = UInt32.size * UInt32.size := rfl
  have positive : 0 < UInt32.size := by decide
  refine ⟨?_, ?_, ?_⟩
  · rw [spread, Nat.add_mul_mod_self_left]
  · rw [Nat.div_lt_iff_lt_mul positive]
    omega
  · rw [spread, Nat.add_mul_div_left _ _ positive, Nat.add_comm]

/-- The words of a product are found to be that, or one of its words leaves no answer. -/
theorem matchesProduct_words {factor number carry : ℕ} (factorPositive : 0 < factor)
    (factorSmall : factor < UInt64.size) (carrySmall : carry < UInt32.size)
    (keeps : KeepsCarries factor number) :
    matchesProduct (UInt64.ofNat factor) (UInt64.ofNat carry) (words (number * factor + carry))
      (words number) ≠ some false := by
  have factorKept : (UInt64.ofNat factor).toNat = factor := UInt64.toNat_ofNat_of_lt' factorSmall
  induction number using Nat.strong_induction_on generalizing carry with
  | _ number ih =>
  rcases Nat.eq_zero_or_pos number with rfl | positive
  · rw [Nat.zero_mul, Nat.zero_add, words_zero]
    rcases Nat.eq_zero_or_pos carry with rfl | above
    · rw [words_zero, matchesProduct]
      decide
    · have none : carry / 2 ^ (32 : ℕ) = 0 := Nat.div_eq_of_lt carrySmall
      rw [words_of_pos above, none, words_zero, matchesProduct, if_pos (by simp), matchesProduct]
      decide
  · have productPositive : 0 < number * factor + carry :=
      Nat.add_pos_left (Nat.mul_pos positive factorPositive) carry
    have wordKept : (UInt32.ofNat number).toNat = number % UInt32.size := UInt32.toNat_ofNat
    have parts : number = number % UInt32.size + UInt32.size * (number / UInt32.size) :=
      (Nat.mod_add_div _ _).symm
    rw [KeepsCarries, words_of_pos positive, List.forall_mem_cons, wordKept] at keeps
    rw [words_of_pos positive, words_of_pos productPositive, matchesProduct, wordKept, factorKept]
    split
    · nofun
    · rename_i fits
      have room := keeps.1.resolve_right fits
      obtain ⟨low, carrySmaller, high⟩ :=
        product_word (number / UInt32.size) carrySmall room
      rw [← parts] at low high
      have word : (UInt32.ofNat number).toUInt64 = UInt64.ofNat (number % UInt32.size) := by
        rw [← UInt32.toUInt64_ofNat' (Nat.mod_lt _ (by decide)), UInt32.ofNat_mod_size]
      have found : (UInt64.ofNat (number % UInt32.size * factor + carry)).toUInt32
          = UInt32.ofNat (number * factor + carry) := by
        rw [UInt64.toUInt32_ofNat', UInt32.ofNat_eq_iff_mod_eq_toNat]
        exact low
      have carried : UInt64.ofNat (number % UInt32.size * factor + carry) >>> 32
          = UInt64.ofNat ((number % UInt32.size * factor + carry) / UInt32.size) := by
        rw [← UInt64.toNat_inj, UInt64.toNat_shiftRight, UInt64.toNat_ofNat_of_lt' (by omega),
          UInt64.toNat_ofNat_of_lt' (Nat.lt_of_le_of_lt (Nat.div_le_self _ _) (by omega)),
          Nat.shiftRight_eq_div_pow]
        rfl
      dsimp only
      rw [word, ← UInt64.ofNat_mul, ← UInt64.ofNat_add, if_pos found, carried]
      have rest := ih (number / UInt32.size) (Nat.div_lt_self positive (by decide)) carrySmaller
        keeps.2
      rwa [← high] at rest

/-- A number with zeros at its end is found to be the number without them times a power of ten. -/
theorem matchesScaled?_mul_pow {number power : ℕ} (positive : 0 < number)
    (few : power ≤ largestPower) (keeps : KeepsCarries (10 ^ power) number) :
    matchesScaled? (number * 10 ^ power) number power ≠ some false := by
  have powerPositive : 0 < 10 ^ power := Nat.pow_pos (by decide)
  have small : 10 ^ power < UInt64.size :=
    Nat.lt_of_le_of_lt (Nat.pow_le_pow_right (by decide) few) (by decide)
  have long := bitLength_add_log2_le positive powerPositive
  rw [matchesScaled?, if_neg (by omega), if_neg (by omega)]
  exact matchesProduct_words powerPositive small (by decide) keeps

end Words

/-- Whether no carry is lost when a decimal is compared with the one as which its text is read. -/
def ComparesWell (number : Decimal) : Prop :=
  number.scale < -15 ∨ KeepsCarries (10 ^ (-number.scale).toNat) number.unscaled.natAbs

instance (number : Decimal) : Decidable number.ComparesWell :=
  inferInstanceAs (Decidable (_ ∨ _))

/-- Up to nine zeros are no danger: a word times their power of ten has 62 bits. -/
theorem comparesWell_of_few_zeros {number : Decimal} (few : -9 ≤ number.scale) :
    number.ComparesWell := by
  refine Or.inr fun word _ => Or.inl ?_
  have power : 10 ^ (-number.scale).toNat ≤ 10 ^ 9 := Nat.pow_le_pow_right (by decide) (by omega)
  have product := Nat.mul_le_mul (Nat.le_of_lt word.toNat_lt) power
  have sizes : 2 ^ 32 * 10 ^ 9 + UInt32.size ≤ UInt64.size := by decide
  omega

/-- A decimal is found equal to the one as which its text is read. -/
theorem reread_same {number : Decimal} (well : number.ComparesWell) :
    number.reread.same number = true := by
  rcases number with ⟨unscaled, scale⟩
  rw [ComparesWell] at well
  rw [reread]
  dsimp only at *
  split
  · rename_i zero
    subst zero
    rw [same]
    split <;> simp
  · rename_i nonzero
    split
    · rename_i zeros
      obtain ⟨count, rfl⟩ : ∃ count : ℕ, scale = -(count : ℤ) := ⟨(-scale).toNat, by omega⟩
      rw [neg_neg, Int.toNat_natCast] at *
      rcases Nat.eq_zero_or_pos count with rfl | positive
      · simp [same]
      · have power : (0 : ℤ) < 10 ^ count := Int.pow_pos (by decide)
        have scaled : unscaled * 10 ^ count ≠ 0 := Int.mul_ne_zero nonzero (Int.ne_of_gt power)
        have signs : (unscaled * 10 ^ count).sign = unscaled.sign := by
          rw [Int.sign_mul, Int.sign_eq_one_of_pos power, Int.mul_one]
        have size : (unscaled * 10 ^ count).natAbs = unscaled.natAbs * 10 ^ count := by
          rw [Int.natAbs_mul, Int.natAbs_pow]
          rfl
        have matched := matchesScaled?_mul_pow (Int.natAbs_pos.2 nonzero)
          (by rw [largestPower]; omega) (well.resolve_left (by omega))
        rw [same, if_neg (by dsimp only; omega), if_neg (by simp [signs]), if_neg scaled,
          if_neg (by dsimp only; omega), sameScaled]
        dsimp only
        rw [size, Int.zero_sub, neg_neg, Int.toNat_natCast]
        cases answer : matchesScaled? (unscaled.natAbs * 10 ^ count) unscaled.natAbs count with
        | none => exact sameValue_mul_pow unscaled count
        | some found => cases found <;> simp_all
    · simp [same]

/-- A carry that is lost tells a decimal from what its text is read as, although both have one
value. -/
example : (reread ⟨7922816251426434771, -10⟩).same ⟨7922816251426434771, -10⟩ = false := by
  decide +kernel

end Wordloom.Decimal
