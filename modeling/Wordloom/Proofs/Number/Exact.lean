import Mathlib
import Wordloom.Number.Conversion
import Wordloom.Proofs.Binary.Nearest

/-!
# Conversion of exact numbers

This file gives the value of a number that is held exactly, a word or a whole number or a decimal,
and shows what conversion between such numbers keeps of it. A wider kind keeps all of it. A whole
number keeps what is left toward zero, and a word keeps of this the residue modulo the count of
words. So a detour through wider kinds changes nothing.

The low bits of a whole number are computed from its magnitude, and more decimal places than the
number has bits are cut off without being computed. Both are shown to be shortcuts only.
-/

namespace Wordloom

-- Powers are those of the core library, whatever else is imported.
attribute [local instance (2000)] instPowNat

/-- The whole number toward zero. -/
def towardZero (number : ℚ) : ℤ :=
  if 0 ≤ number then ⌊number⌋ else ⌈number⌉

theorem towardZero_intCast (number : ℤ) : towardZero number = number := by
  simp [towardZero]

theorem towardZero_of_abs_lt_one {number : ℚ} (small : |number| < 1) : towardZero number = 0 := by
  rw [abs_lt] at small
  rw [towardZero]
  split
  · rename_i nonneg
    exact Int.floor_eq_zero_iff.mpr ⟨nonneg, small.2⟩
  · rename_i negative
    exact Int.ceil_eq_zero_iff.mpr ⟨small.1, le_of_not_ge negative⟩

/-- Division of whole numbers that drops the remainder goes toward zero. -/
theorem towardZero_div (numerator : ℤ) (denominator : ℕ) :
    towardZero ((numerator : ℚ) / denominator) = numerator.tdiv denominator := by
  rw [towardZero]
  split
  · rename_i nonneg
    rw [Rat.floor_intCast_div_natCast]
    rcases Nat.eq_zero_or_pos denominator with rfl | positive
    · simp
    · have above : 0 ≤ numerator := by
        by_contra below
        have less : ((numerator : ℚ) / denominator) < 0 :=
          div_neg_of_neg_of_pos (by exact_mod_cast not_le.mp below) (by exact_mod_cast positive)
        exact absurd nonneg (not_le_of_gt less)
      exact (Int.tdiv_eq_ediv_of_nonneg above).symm
  · rename_i negative
    have below : numerator < 0 := by
      by_contra above
      have nonneg : (0 : ℚ) ≤ numerator := by exact_mod_cast not_lt.mp above
      exact negative (div_nonneg nonneg (Nat.cast_nonneg _))
    rw [Rat.ceil_intCast_div_natCast, ← Int.tdiv_eq_ediv_of_nonneg (by omega), Int.neg_tdiv,
      neg_neg]

namespace Decimal

/-- The value of a decimal. -/
def value (number : Decimal) : ℚ :=
  number.unscaled * (10 : ℚ) ^ (-number.scale)

theorem value_ofInt (whole : ℤ) : (ofInt whole).value = whole := by
  simp [ofInt, value]

/-- A decimal as a fraction of whole numbers, one of which is written with no power of ten. -/
theorem value_eq_div (number : Decimal) :
    number.value = ((number.unscaled * 10 ^ (-number.scale).toNat : ℤ) : ℚ)
      / ((10 ^ number.scale.toNat : ℕ) : ℚ) := by
  have power := Binary.zpow_eq_div (by decide : 0 < 10) (-number.scale)
  rw [neg_neg, Nat.cast_ofNat] at power
  rw [value, power, ← mul_div_assoc]
  push_cast
  rfl

/-- With more places than binary digits, a decimal is below one. -/
theorem abs_value_lt_one {number : Decimal}
    (many : (number.unscaled.natAbs.log2 : ℤ) < number.scale) : |number.value| < 1 := by
  rcases number with ⟨unscaled, scale⟩
  dsimp only at many
  obtain ⟨count, rfl⟩ := Int.eq_ofNat_of_zero_le (by omega : 0 ≤ scale)
  have less : unscaled.natAbs < 10 ^ count :=
    calc unscaled.natAbs < 2 ^ (unscaled.natAbs.log2 + 1) := Nat.lt_log2_self
      _ ≤ 2 ^ count := Nat.pow_le_pow_right (by decide) (by omega)
      _ ≤ 10 ^ count := Nat.pow_le_pow_left (by decide) count
  have magnitude : |(unscaled : ℚ)| < 10 ^ count := by
    rw [← Int.cast_abs, Int.abs_eq_natAbs]
    exact_mod_cast less
  have positive : (0 : ℚ) < 10 ^ count := by positivity
  rw [value, zpow_neg, zpow_natCast, abs_mul, abs_inv, abs_of_pos positive, ← div_eq_mul_inv,
    div_lt_one positive]
  exact magnitude

theorem truncate_eq (number : Decimal) : number.truncate = towardZero number.value := by
  rw [truncate]
  split
  · rename_i zero
    rw [value, zero, Int.cast_zero, zero_mul]
    exact (towardZero_intCast 0).symm
  · split
    · rename_i many
      exact (towardZero_of_abs_lt_one (abs_value_lt_one many)).symm
    · rw [value_eq_div, towardZero_div]
      push_cast
      rfl

end Decimal

namespace NumberKind

/-- The kinds that hold whole numbers. Each of them holds what those before it hold. -/
def wholeKinds : List NumberKind :=
  [.byte, .short, .int, .long, .bigInteger]

/-- The kinds that hold numbers exactly, in the same order. -/
def exactKinds : List NumberKind :=
  wholeKinds ++ [.bigDecimal]

/-- An exact kind and those that hold more. -/
def upward (kind : NumberKind) : List NumberKind :=
  exactKinds.dropWhile (· ≠ kind)

/-- Kinds of which each holds what the one before it holds. -/
def Climbing (kinds : List NumberKind) : Prop :=
  kinds.IsChain fun narrow wide => wide ∈ narrow.upward

/-- The bits of the words of a kind. -/
def wordBits? : NumberKind → Option ℕ
  | .byte => some 8
  | .short => some 16
  | .int => some 32
  | .long => some 64
  | _ => none

/-- The number of a kind that has the low bits of a whole number, or all of them. -/
def ofWhole? (kind : NumberKind) (whole : ℤ) : Option Number :=
  match kind with
  | .byte => some (.byte (Int8.ofInt whole))
  | .short => some (.short (Int16.ofInt whole))
  | .int => some (.int (Int32.ofInt whole))
  | .long => some (.long (Int64.ofInt whole))
  | .bigInteger => some (.bigInteger whole)
  | _ => none

theorem mem_wholeKinds_of_word {kind : NumberKind} {bits : ℕ}
    (isWord : kind.wordBits? = some bits) : kind ∈ wholeKinds := by
  cases kind <;> cases isWord <;> decide

/-- What holds as much as a kind is a word, and then the kind has words that are no longer, or it
has no bounds. -/
theorem upward_cases {narrow wide : NumberKind} (member : wide ∈ narrow.upward) :
    (∃ bits more, narrow.wordBits? = some bits ∧ wide.wordBits? = some more ∧ bits ≤ more) ∨
      (wide = .bigInteger ∧ narrow ∈ wholeKinds) ∨
        (wide = .bigDecimal ∧ narrow ∈ exactKinds) := by
  revert member
  cases narrow <;> cases wide <;> simp [upward, exactKinds, wholeKinds, wordBits?]

end NumberKind

/-- A residue between the bounds of a signed word is the residue of all that is congruent to it. -/
theorem bmod_eq_iff_modEq {modulus : ℕ} {residue whole : ℤ}
    (reduced : residue.bmod modulus = residue) :
    whole.bmod modulus = residue ↔ residue ≡ whole [ZMOD modulus] := by
  constructor
  · rintro rfl
    exact Int.bmod_emod
  · intro congruent
    rw [← reduced, ← Int.emod_bmod whole, ← Int.emod_bmod residue, congruent]

/-- What lies between the bounds of a word lies between those of a longer one. -/
theorem bmod_two_pow_of_le {bits more : ℕ} (longer : bits ≤ more) {whole : ℤ}
    (reduced : whole.bmod (2 ^ bits) = whole) : whole.bmod (2 ^ more) = whole := by
  have fewer : 2 ^ bits ≤ 2 ^ more := Nat.pow_le_pow_right (by decide) longer
  obtain ⟨lower, upper, -⟩ := (Int.bmod_eq_iff (Nat.two_pow_pos bits)).1 reduced
  refine (Int.bmod_eq_iff (Nat.two_pow_pos more)).2 ⟨?_, ?_, by simp⟩
  all_goals
    generalize 2 ^ bits = count at *
    generalize 2 ^ more = larger at *
    omega

namespace Number

/-- The value of a number that is held exactly. -/
def value? : Number → Option ℚ
  | .byte value => some value.toInt
  | .short value => some value.toInt
  | .int value => some value.toInt
  | .long value => some value.toInt
  | .float _ => none
  | .double _ => none
  | .bigInteger value => some value
  | .bigDecimal value => some value.value

variable {number : Number} {value : ℚ}

/-- Negation of the low word of the magnitude gives the low word of a number below zero. -/
theorem lowWord_eq (whole : ℤ) : lowWord whole = Int64.ofInt whole := by
  rw [lowWord, UInt64.toInt64_ofNat', ← Int64.ofInt_eq_ofNat]
  split
  · rename_i negative
    rw [← Int64.ofInt_neg, Int.ofNat_natAbs_of_nonpos (Int.le_of_lt negative), neg_neg]
  · rename_i nonneg
    rw [Int.natAbs_of_nonneg (not_lt.mp nonneg)]

theorem lowBits_eq (exact : number.value? = some value) :
    number.lowBits = some (Int64.ofInt (towardZero value)) := by
  cases number <;> cases exact
  case byte word => rw [towardZero_intCast, Int64.ofInt_int8ToInt]; rfl
  case short word => rw [towardZero_intCast, Int64.ofInt_int16ToInt]; rfl
  case int word => rw [towardZero_intCast, Int64.ofInt_int32ToInt]; rfl
  case long word => rw [towardZero_intCast, Int64.ofInt_toInt]; rfl
  case bigInteger whole => rw [towardZero_intCast, ← lowWord_eq]; rfl
  case bigDecimal decimal => rw [← Decimal.truncate_eq, ← lowWord_eq]; rfl

theorem toBigInteger_eq (exact : number.value? = some value) :
    number.toBigInteger = some (towardZero value) := by
  cases number <;> cases exact
  case bigDecimal decimal => rw [← Decimal.truncate_eq]; rfl
  all_goals
    rw [towardZero_intCast]
    simp [toBigInteger, lowBits]

/-- What an exact number becomes depends on the whole number toward zero only. -/
theorem convert_eq_ofWhole? (exact : number.value? = some value) {kind : NumberKind}
    (whole : kind ∈ NumberKind.wholeKinds) :
    number.convert kind = kind.ofWhole? (towardZero value) := by
  cases kind
  case float => exact absurd whole (by decide)
  case double => exact absurd whole (by decide)
  case bigDecimal => exact absurd whole (by decide)
  case bigInteger => rw [convert, toBigInteger_eq exact]; rfl
  all_goals simp [convert, lowBits_eq exact, NumberKind.ofWhole?]

/-- An exact number becomes a decimal with its value. -/
theorem exists_convert_bigDecimal (exact : number.value? = some value) :
    ∃ decimal, number.convert .bigDecimal = some (.bigDecimal decimal) ∧ decimal.value = value := by
  cases number <;> cases exact
  case bigDecimal decimal => exact ⟨decimal, rfl, rfl⟩
  case bigInteger whole => exact ⟨_, rfl, Decimal.value_ofInt whole⟩
  all_goals exact ⟨_, rfl, by simp [Decimal.value_ofInt]⟩

/-- A number of a kind that holds whole numbers has one for its value. -/
theorem exists_value?_of_whole (whole : number.kind ∈ NumberKind.wholeKinds) :
    ∃ held : ℤ, number.value? = some (held : ℚ) := by
  cases number
  case float _ => simp [kind, NumberKind.wholeKinds] at whole
  case double _ => simp [kind, NumberKind.wholeKinds] at whole
  case bigDecimal _ => simp [kind, NumberKind.wholeKinds] at whole
  all_goals exact ⟨_, rfl⟩

/-- A word has a value between the bounds of its kind. -/
theorem exists_value?_of_word {bits : ℕ} (isWord : number.kind.wordBits? = some bits) :
    ∃ whole : ℤ, number.value? = some (whole : ℚ) ∧ whole.bmod (2 ^ bits) = whole := by
  cases number <;> cases isWord
  case byte word => exact ⟨word.toInt, rfl, word.toInt_bmod⟩
  case short word => exact ⟨word.toInt, rfl, word.toInt_bmod⟩
  case int word => exact ⟨word.toInt, rfl, word.toInt_bmod⟩
  case long word => exact ⟨word.toInt, rfl, word.toInt_bmod⟩

/-- The word with the low bits of a whole number has its residue. -/
theorem exists_ofWhole? {kind : NumberKind} {bits : ℕ} (isWord : kind.wordBits? = some bits)
    (whole : ℤ) : ∃ word, kind.ofWhole? whole = some word ∧ word.kind = kind ∧
      word.value? = some ((whole.bmod (2 ^ bits) : ℤ) : ℚ) := by
  cases kind <;> cases isWord
  case byte => exact ⟨_, rfl, rfl, by rw [value?, Int8.toInt_ofInt]⟩
  case short => exact ⟨_, rfl, rfl, by rw [value?, Int16.toInt_ofInt]⟩
  case int => exact ⟨_, rfl, rfl, by rw [value?, Int32.toInt_ofInt]⟩
  case long => exact ⟨_, rfl, rfl, by rw [value?, Int64.toInt_ofInt]⟩

/-- A number of a kind that holds whole numbers is the one that its value becomes. -/
theorem ofWhole?_value {held : ℤ} (whole : number.kind ∈ NumberKind.wholeKinds)
    (exact : number.value? = some (held : ℚ)) : number.kind.ofWhole? held = some number := by
  cases number
  case float _ => cases exact
  case double _ => cases exact
  case bigDecimal _ => simp [kind, NumberKind.wholeKinds] at whole
  all_goals
    simp only [value?, Option.some.injEq, Int.cast_inj] at exact
    simp [kind, NumberKind.ofWhole?, ← exact]

/-- A kind that holds whole numbers holds each in one way. -/
theorem eq_of_value?_eq {other : Number} (whole : number.kind ∈ NumberKind.wholeKinds)
    (sameKind : other.kind = number.kind) (sameValue : other.value? = number.value?) :
    other = number := by
  obtain ⟨held, exact⟩ := exists_value?_of_whole whole
  have found := ofWhole?_value whole exact
  rw [← sameKind, ofWhole?_value (sameKind ▸ whole) (sameValue.trans exact)] at found
  exact Option.some.inj found

/-- Words of whole numbers that are congruent are the same. -/
theorem ofWhole?_congr {kind : NumberKind} {bits : ℕ} (isWord : kind.wordBits? = some bits)
    {left right : ℤ} (congruent : left ≡ right [ZMOD (2 ^ bits : ℕ)]) :
    kind.ofWhole? left = kind.ofWhole? right := by
  obtain ⟨word, found, ofKind, exact⟩ := exists_ofWhole? isWord left
  obtain ⟨word', found', ofKind', exact'⟩ := exists_ofWhole? isWord right
  have residues : left.bmod (2 ^ bits) = right.bmod (2 ^ bits) := by
    rw [← Int.emod_bmod left, ← Int.emod_bmod right, congruent]
  have whole := ofKind' ▸ NumberKind.mem_wholeKinds_of_word isWord
  rw [found, found', eq_of_value?_eq whole (ofKind.trans ofKind'.symm)]
  rw [exact, exact', residues]

/-- The word with the low bits of a whole number is the one word that is congruent to it. -/
theorem eq_word_iff {kind : NumberKind} {bits : ℕ} {word other : Number} {whole : ℤ}
    (isWord : kind.wordBits? = some bits) (ofKind : word.kind = kind)
    (exact : word.value? = some ((whole.bmod (2 ^ bits) : ℤ) : ℚ)) :
    other = word ↔ other.kind = kind ∧
      ∃ held : ℤ, other.value? = some (held : ℚ) ∧ held ≡ whole [ZMOD (2 ^ bits : ℕ)] := by
  constructor
  · rintro rfl
    exact ⟨ofKind, _, exact, Int.bmod_emod⟩
  · rintro ⟨otherKind, held, otherExact, congruent⟩
    obtain ⟨held', otherExact', reduced⟩ := exists_value?_of_word (otherKind ▸ isWord)
    obtain rfl := Int.cast_injective (Option.some.inj (otherExact.symm.trans otherExact'))
    refine eq_of_value?_eq (ofKind ▸ NumberKind.mem_wholeKinds_of_word isWord)
      (otherKind.trans ofKind.symm) ?_
    rw [exact, otherExact, (bmod_eq_iff_modEq reduced).2 congruent]

/-- What a detour through a kind that holds as much or more gives is what the target gives. -/
theorem convert_through (exact : number.value? = some value) {narrow wide : NumberKind}
    (member : wide ∈ narrow.upward) :
    (number.convert wide).bind (·.convert narrow) = number.convert narrow := by
  rcases NumberKind.upward_cases member with
    ⟨bits, more, isNarrow, isWide, longer⟩ | ⟨rfl, whole⟩ | ⟨rfl, exactKind⟩
  · obtain ⟨word, found, ofKind, held⟩ := exists_ofWhole? isWide (towardZero value)
    have whole := NumberKind.mem_wholeKinds_of_word isNarrow
    have divides : ((2 ^ bits : ℕ) : ℤ) ∣ (2 ^ more : ℕ) :=
      Int.natCast_dvd_natCast.2 (Nat.pow_dvd_pow 2 longer)
    have congruent : (towardZero value).bmod (2 ^ more) ≡ towardZero value [ZMOD (2 ^ more : ℕ)] :=
      Int.bmod_emod
    rw [convert_eq_ofWhole? exact (NumberKind.mem_wholeKinds_of_word isWide), found,
      Option.bind_some, convert_eq_ofWhole? held whole, convert_eq_ofWhole? exact whole,
      towardZero_intCast]
    exact ofWhole?_congr isNarrow (congruent.of_dvd divides)
  · have held : (bigInteger (towardZero value)).value? = some ((towardZero value : ℤ) : ℚ) := rfl
    rw [convert, toBigInteger_eq exact, Option.map_some, Option.bind_some,
      convert_eq_ofWhole? held whole, convert_eq_ofWhole? exact whole, towardZero_intCast]
  · obtain ⟨decimal, found, rfl⟩ := exists_convert_bigDecimal exact
    rw [found, Option.bind_some]
    rcases List.mem_append.1 exactKind with whole | last
    · have held : (bigDecimal decimal).value? = some decimal.value := rfl
      rw [convert_eq_ofWhole? held whole, convert_eq_ofWhole? exact whole]
    · rw [List.mem_singleton.1 last, found]
      rfl

/-- A kind that holds more keeps the value. -/
theorem exists_convert_upward (exact : number.value? = some value) {wide : NumberKind}
    (member : wide ∈ number.kind.upward) :
    ∃ widened, number.convert wide = some widened ∧ widened.value? = some value := by
  rcases NumberKind.upward_cases member with
    ⟨bits, more, isNarrow, isWide, longer⟩ | ⟨rfl, whole⟩ | ⟨rfl, -⟩
  · obtain ⟨whole, exact', reduced⟩ := exists_value?_of_word isNarrow
    obtain rfl := Option.some.inj (exact.symm.trans exact')
    obtain ⟨word, found, -, held⟩ := exists_ofWhole? isWide whole
    rw [bmod_two_pow_of_le longer reduced] at held
    refine ⟨word, ?_, held⟩
    rw [convert_eq_ofWhole? exact (NumberKind.mem_wholeKinds_of_word isWide), towardZero_intCast,
      found]
  · obtain ⟨held, exact'⟩ := exists_value?_of_whole whole
    obtain rfl := Option.some.inj (exact.symm.trans exact')
    refine ⟨.bigInteger held, ?_, rfl⟩
    rw [convert, toBigInteger_eq exact, towardZero_intCast]
    rfl
  · obtain ⟨decimal, found, same⟩ := exists_convert_bigDecimal exact
    exact ⟨_, found, congrArg some same⟩

/-- A decimal is held by decimals only, as it is. -/
theorem eq_of_convert_upward_bigDecimal {wide : NumberKind} {widened : Number}
    (decimal : number.kind = .bigDecimal) (member : wide ∈ number.kind.upward)
    (converted : number.convert wide = some widened) : widened = number := by
  have only : wide = .bigDecimal := by
    simpa [decimal, NumberKind.upward, NumberKind.exactKinds, NumberKind.wholeKinds] using member
  subst only
  cases number <;> cases decimal
  exact (Option.some.inj converted).symm

/-- A climb through kinds that hold more and more keeps the value. -/
theorem exists_climb {kinds : List NumberKind} (exact : number.value? = some value)
    (climbing : NumberKind.Climbing (number.kind :: kinds)) :
    ∃ widened, kinds.foldlM convert number = some widened ∧ widened.value? = some value ∧
      (number.kind = .bigDecimal → widened = number) := by
  induction kinds generalizing number with
  | nil => exact ⟨number, rfl, exact, fun _ => rfl⟩
  | cons wide kinds ih =>
    obtain ⟨member, rest⟩ := List.isChain_cons_cons.1 climbing
    obtain ⟨next, converted, held⟩ := exists_convert_upward exact member
    obtain ⟨widened, climbed, kept, same⟩ := ih held (kind_of_convert converted ▸ rest)
    refine ⟨widened, ?_, kept, fun decimal => ?_⟩
    · rw [List.foldlM_cons, converted]
      exact climbed
    · have still := eq_of_convert_upward_bigDecimal decimal member converted
      rw [same (still ▸ decimal), still]

/-- After a climb, the way back leads to where it began. -/
theorem convert_back {widened : Number} (exact : number.value? = some value)
    (kept : widened.value? = some value) (decimal : number.kind = .bigDecimal → widened = number) :
    widened.convert number.kind = some number := by
  by_cases isDecimal : number.kind = .bigDecimal
  · rw [decimal isDecimal]
    cases number <;> cases isDecimal
    rfl
  · have whole : number.kind ∈ NumberKind.wholeKinds := by
      cases number <;> simp [kind, NumberKind.wholeKinds, value?] at exact isDecimal ⊢
    obtain ⟨held, exact'⟩ := exists_value?_of_whole whole
    obtain rfl := Option.some.inj (exact.symm.trans exact')
    rw [convert_eq_ofWhole? kept whole, towardZero_intCast, ofWhole?_value whole exact]

theorem exists_value? (notFloat : number.kind ≠ .float) (notDouble : number.kind ≠ .double) :
    ∃ value, number.value? = some value := by
  cases number
  case float _ => exact absurd rfl notFloat
  case double _ => exact absurd rfl notDouble
  all_goals exact ⟨_, rfl⟩

/-- An exact number has a number of each exact kind. -/
theorem exists_convert (exact : number.value? = some value) {kind : NumberKind}
    (exactKind : kind ∈ NumberKind.exactKinds) :
    ∃ converted, number.convert kind = some converted := by
  rcases List.mem_append.1 exactKind with whole | last
  · rw [convert_eq_ofWhole? exact whole]
    cases kind <;> simp [NumberKind.wholeKinds, NumberKind.ofWhole?] at whole ⊢
  · obtain ⟨decimal, found, -⟩ := exists_convert_bigDecimal exact
    exact ⟨_, List.mem_singleton.1 last ▸ found⟩

/-- Exact numbers narrow to residues and widen without loss. A number that is no float has a value
`value`, and becomes a number of each exact kind: the one word that is congruent to the whole
number toward zero, or this whole number itself. A detour through kinds that hold as much changes
nothing, and a climb through kinds that hold more keeps the value and can be undone. -/
theorem exact_numbers_narrow_and_widen (notFloat : number.kind ≠ .float)
    (notDouble : number.kind ≠ .double) :
    ∃ value : ℚ, number.value? = some value ∧
      (∀ kind ∈ NumberKind.exactKinds, ∃ converted, number.convert kind = some converted) ∧
      (∀ kind bits, kind.wordBits? = some bits →
        ∃ word, number.convert kind = some word ∧
          ∀ other : Number, other = word ↔ other.kind = kind ∧
            ∃ held : ℤ, other.value? = some (held : ℚ) ∧
              held ≡ towardZero value [ZMOD (2 ^ bits : ℕ)]) ∧
      (∀ narrow : NumberKind, ∀ wide ∈ narrow.upward,
        (number.convert wide).bind (·.convert narrow) = number.convert narrow) ∧
      number.convert .bigInteger = some (.bigInteger (towardZero value)) ∧
      (∀ kinds, NumberKind.Climbing (number.kind :: kinds) →
        ∃ widened, kinds.foldlM convert number = some widened ∧ widened.value? = some value ∧
          widened.convert number.kind = some number) := by
  obtain ⟨value, exact⟩ := exists_value? notFloat notDouble
  refine ⟨value, exact, fun kind exactKind => exists_convert exact exactKind,
    fun kind bits isWord => ?_, fun narrow wide member => convert_through exact member, ?_,
    fun kinds climbing => ?_⟩
  · obtain ⟨word, found, ofKind, held⟩ := exists_ofWhole? isWord (towardZero value)
    refine ⟨word, ?_, fun other => eq_word_iff isWord ofKind held⟩
    rw [convert_eq_ofWhole? exact (NumberKind.mem_wholeKinds_of_word isWord), found]
  · rw [convert, toBigInteger_eq exact, Option.map_some]
  · obtain ⟨widened, climbed, kept, decimal⟩ := exists_climb exact climbing
    exact ⟨widened, climbed, kept, convert_back exact kept decimal⟩

/-- A decimal just below the least 64-bit word, with a part that is cut off. -/
theorem exact_numbers_narrow_and_widen_below_long :
    (bigDecimal ⟨-92233720368547758095, 1⟩).kind ≠ .float ∧
      (bigDecimal ⟨-92233720368547758095, 1⟩).kind ≠ .double ∧
      (bigDecimal ⟨-92233720368547758095, 1⟩).convert .bigInteger =
        some (.bigInteger (-9223372036854775809)) ∧
      (bigDecimal ⟨-92233720368547758095, 1⟩).convert .long =
        some (.long 9223372036854775807) ∧
      ((bigDecimal ⟨-92233720368547758095, 1⟩).convert .long).bind (·.convert .byte) =
        some (.byte (-1)) := by
  obtain ⟨value, -, -, -, through, -⟩ :=
    @exact_numbers_narrow_and_widen (.bigDecimal ⟨-92233720368547758095, 1⟩) (by decide) (by decide)
  exact ⟨by decide, by decide, by decide, by decide,
    (through .byte .long (by decide)).trans (by decide)⟩

end Number

end Wordloom
