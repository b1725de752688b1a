import Mathlib.Data.List.DropRight
import Wordloom.Text.Blank

/-!
# Trimming undoes padding

This file relates a text to its trim. A text is its trim with blanks around it, and putting
blanks around a text that is its own trim is undone by trimming.

Trimming takes the blanks from the start first and from the end after that, so the facts about
the two ends are stated apart and joined last.
-/

namespace Wordloom.Text

theorem allBlank_append {left right : List Char} :
    allBlank (left ++ right) = true ↔ allBlank left = true ∧ allBlank right = true := by
  simp [allBlank]

theorem trimEnd_eq_reverse (text : List Char) :
    trimEnd text = (trimStart text.reverse).reverse := rfl

theorem exists_eq_append_trimStart (text : List Char) :
    ∃ before, allBlank before = true ∧ text = before ++ trimStart text := by
  refine ⟨text.takeWhile isBlank, ?_, ?_⟩
  · simp [allBlank]
  · exact List.takeWhile_append_dropWhile.symm

theorem exists_eq_trimEnd_append (text : List Char) :
    ∃ after, allBlank after = true ∧ text = trimEnd text ++ after := by
  rcases exists_eq_append_trimStart text.reverse with ⟨before, blank, whole⟩
  refine ⟨before.reverse, ?_, ?_⟩
  · simpa [allBlank] using blank
  · simpa [trimEnd_eq_reverse] using congrArg List.reverse whole

/-- A text is its trim with blanks around it. -/
theorem exists_eq_append_trim_append (text : List Char) :
    ∃ before after, allBlank before = true ∧ allBlank after = true ∧
      text = before ++ trim text ++ after := by
  rcases exists_eq_append_trimStart text with ⟨before, beforeBlank, beforeWhole⟩
  rcases exists_eq_trimEnd_append (trimStart text) with ⟨after, afterBlank, afterWhole⟩
  refine ⟨before, after, beforeBlank, afterBlank, ?_⟩
  rw [trim, List.append_assoc, ← afterWhole]
  exact beforeWhole

theorem trimStart_append_of_allBlank {before : List Char} (blank : allBlank before = true)
    (text : List Char) : trimStart (before ++ text) = trimStart text := by
  induction before with
  | nil => rfl
  | cons character rest ih =>
      simp only [allBlank, List.all_cons, Bool.and_eq_true] at blank
      simpa [trimStart, blank.1] using ih (by simpa [allBlank] using blank.2)

theorem trimEnd_append_of_allBlank {after : List Char} (blank : allBlank after = true)
    (text : List Char) : trimEnd (text ++ after) = trimEnd text := by
  have reversed : allBlank after.reverse = true := by simpa [allBlank] using blank
  rw [trimEnd_eq_reverse, List.reverse_append, trimStart_append_of_allBlank reversed]
  rfl

theorem length_trimStart_le (text : List Char) : (trimStart text).length ≤ text.length :=
  (List.dropWhile_sublist isBlank).length_le

theorem length_trimEnd_le (text : List Char) : (trimEnd text).length ≤ text.length := by
  have shorter := length_trimStart_le text.reverse
  simpa [trimEnd_eq_reverse] using shorter

theorem trimStart_cons_eq_self {character : Char} {rest : List Char} :
    trimStart (character :: rest) = character :: rest ↔ isBlank character = false := by
  constructor
  · intro kept
    by_contra notPresent
    have blank : isBlank character = true := by simpa using notPresent
    have shorter := length_trimStart_le rest
    have same : trimStart (character :: rest) = trimStart rest := by
      simp [trimStart, blank]
    rw [← same, kept, List.length_cons] at shorter
    omega
  · intro present
    simp [trimStart, present]

/-- What stands after a text that starts with no blank does not change how its start is trimmed. -/
theorem trimStart_append_of_trimStart_eq_self {text : List Char} (present : text ≠ [])
    (kept : trimStart text = text) (after : List Char) :
    trimStart (text ++ after) = text ++ after := by
  rcases text with _ | ⟨character, rest⟩
  · exact absurd rfl present
  · exact trimStart_cons_eq_self.2 (trimStart_cons_eq_self.1 kept)

/-- A text that is its own trim has no blanks to lose at its start. -/
theorem trimStart_eq_self_of_trim {text : List Char} (trimmed : trim text = text) :
    trimStart text = text := by
  apply (List.dropWhile_sublist isBlank).eq_of_length_le
  have shorter := length_trimEnd_le (trimStart text)
  rw [← trim, trimmed] at shorter
  exact shorter

/-- Trimming undoes blanks that are put around a text that is its own trim. -/
theorem trim_padded {before text after : List Char} (beforeBlank : allBlank before = true)
    (afterBlank : allBlank after = true) (present : text ≠ []) (trimmed : trim text = text) :
    trim (before ++ text ++ after) = text := by
  have kept := trimStart_eq_self_of_trim trimmed
  calc trim (before ++ text ++ after)
      = trimEnd (trimStart (text ++ after)) := by
        rw [trim, List.append_assoc, trimStart_append_of_allBlank beforeBlank]
    _ = trimEnd (text ++ after) := by
        rw [trimStart_append_of_trimStart_eq_self present kept]
    _ = trimEnd (trimStart text) := by
        rw [trimEnd_append_of_allBlank afterBlank, kept]
    _ = text := trimmed

theorem trimStart_trimStart (text : List Char) : trimStart (trimStart text) = trimStart text :=
  List.dropWhile_idempotent isBlank text

/-- Trimming the end leaves a start alone that is no blank. -/
theorem trimStart_trimEnd {text : List Char} (kept : trimStart text = text) :
    trimStart (trimEnd text) = trimEnd text := by
  rcases exists_eq_trimEnd_append text with ⟨after, -, whole⟩
  rcases ending : trimEnd text with _ | ⟨character, rest⟩
  · rfl
  · rw [ending] at whole
    rw [whole] at kept
    exact trimStart_cons_eq_self.2 (trimStart_cons_eq_self.1 kept)

theorem trim_trim (text : List Char) : trim (trim text) = trim text := by
  have start : trimStart (trim text) = trim text :=
    trimStart_trimEnd (trimStart_trimStart text)
  rw [trim, start, trim, trimEnd_eq_reverse, trimEnd_eq_reverse, List.reverse_reverse,
    trimStart_trimStart]

theorem isBlank_eq_false_of_graphic {character : Char} (above : 0x20 < character.toNat)
    (below : character.toNat < 0x85) : isBlank character = false := by
  simp only [isBlank, blankRanges, List.any_cons, List.any_nil, Bool.or_eq_false_iff,
    Bool.and_eq_false_iff, decide_eq_false_iff_not, and_true]
  omega

theorem isBlank_eq_false_of_isDigit {character : Char} (digit : character.isDigit = true) :
    isBlank character = false := by
  simp only [Char.isDigit, Bool.and_eq_true, decide_eq_true_eq] at digit
  have lower : 48 ≤ character.toNat := digit.1
  have upper : character.toNat ≤ 57 := digit.2
  exact isBlank_eq_false_of_graphic (by omega) (by omega)

/-- Whether a text has no blanks, neither around it nor inside. -/
def Solid (text : List Char) : Prop :=
  ∀ character ∈ text, isBlank character = false

instance (text : List Char) : Decidable (Solid text) :=
  decidable_of_iff (text.all (!isBlank ·) = true) (by simp [Solid])

theorem solid_append {left right : List Char} :
    Solid (left ++ right) ↔ Solid left ∧ Solid right :=
  List.forall_mem_append

theorem solid_cons {character : Char} {rest : List Char} :
    Solid (character :: rest) ↔ isBlank character = false ∧ Solid rest :=
  List.forall_mem_cons

/-- A text without blanks is its own trim. -/
theorem Solid.trim_eq {text : List Char} (solid : Solid text) : trim text = text := by
  have start : ∀ {other : List Char}, Solid other → trimStart other = other := by
    intro other otherSolid
    cases other with
    | nil => rfl
    | cons character rest => exact trimStart_cons_eq_self.2 (solid_cons.1 otherSolid).1
  have reversed : Solid text.reverse := fun character member =>
    solid character (List.mem_reverse.1 member)
  rw [trim, start solid, trimEnd_eq_reverse, start reversed, List.reverse_reverse]

end Wordloom.Text
