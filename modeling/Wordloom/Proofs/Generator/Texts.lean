import Mathlib
import Wordloom.Generator.Combiner
import Wordloom.Proofs.Number.Texts
import Wordloom.Proofs.Registry.References
import Wordloom.Stream.Basic

/-!
# Values survive the trip through text

This file shows that a truth value or a number that was made a string is found again when the
string is coerced back, whatever blanks were put around it, and that a concatenation takes over
exactly this string.

What comes back is the same value, down to the sign of a zero, unless it is a decimal. A decimal
comes back with the same value, possibly with other places. The equality of decimals says so too,
except where it loses a carry.
-/

namespace Wordloom

variable {σ φ : Type}

theorem readBoolean_padded_text (truth : Bool) {before after : String}
    (beforeBlank : Text.allBlank before.toList = true)
    (afterBlank : Text.allBlank after.toList = true) :
    readBoolean (before ++ (if truth then "true" else "false") ++ after) = some truth := by
  have word : Text.Solid (if truth then "true" else "false").toList ∧
      (if truth then "true" else "false").toList ≠ [] := by
    cases truth <;> decide
  rw [readBoolean, String.toList_append, String.toList_append,
    Text.trim_padded beforeBlank afterBlank word.2 word.1.trim_eq]
  cases truth <;> decide

namespace Value

/-- Whether a value is a truth value, or a number in range that is no NaN. -/
def Textual : Value φ → Prop
  | .boolean _ => True
  | .number held => held.isNan = false ∧ held.InRange
  | _ => False

/-- Whether two values are the same in type and value, floats also in the sign of zero. -/
def Equals : Value φ → Value φ → Prop
  | .number left, .number right => left.Equals right
  | left, right => left = right

/-- Whether a value, if it is a decimal, is compared without a lost carry. -/
def ComparesWell : Value φ → Prop
  | .number held => held.ComparesWell
  | _ => True

theorem Equals.eq {left right : Value φ} (equals : left.Equals right)
    (notDecimal : right.type ≠ .number .bigDecimal) : left = right := by
  unfold Equals at equals
  split at equals
  · exact congrArg number (equals.eq fun decimal => notDecimal (congrArg ValueType.number decimal))
  · exact equals

variable {value : Value φ}

/-- The text of a value, with blanks around it, is coerced back to an equal value. -/
theorem exists_coerce_padded_text (textual : value.Textual) {before after : String}
    (beforeBlank : Text.allBlank before.toList = true)
    (afterBlank : Text.allBlank after.toList = true) (context : String) :
    ∃ back : Value φ,
      (Value.string (before ++ value.text ++ after)).coerce value.type context = .ok back ∧
        back.Equals value ∧ (value.ComparesWell → back.same value = true) := by
  cases value with
  | string held => exact textual.elim
  | generator origin tree => exact textual.elim
  | boolean truth =>
    refine ⟨.boolean truth, ?_, rfl, fun _ => beq_self_eq_true truth⟩
    have read := readBoolean_padded_text truth beforeBlank afterBlank
    simp only [coerce, type, text, read]
    rfl
  | number held =>
    obtain ⟨isNumber, inRange⟩ := textual
    refine ⟨.number held.reread, ?_, held.reread_equals, fun well =>
      Number.same_reread isNumber well⟩
    have read := Number.read_padded_text isNumber inRange beforeBlank afterBlank
    simp only [coerce, type, text, read]
    rfl

end Value

namespace Generator

variable [RandomSource σ] [Combining φ] {parameters : Parameters φ} {budget : ℕ}
  {source first second third : σ} {before after : List (Generator φ)} {part : Generator φ}
  {value : Value φ} {lefts rights : List (Value φ)}

/-- A part of a concatenation contributes the text of its value, between those of the parts before
it and after it. -/
theorem run_concatenate_part
    (ran : (before.mapM (evaluate parameters budget)).run source = (.ok lefts, first))
    (partRan : (evaluate parameters budget part).run first = (.ok value, second))
    (afterRan : (after.mapM (evaluate parameters budget)).run second = (.ok rights, third)) :
    (evaluate parameters (budget + 1) (.concatenate (before ++ part :: after))).run source
      = (.ok (.string (String.join (lefts.map Value.text) ++ value.text
          ++ String.join (rights.map Value.text))), third) := by
  rw [evaluate, List.mapM_append, List.mapM_cons]
  simp only [Drawing.run_bind, ran, partRan, afterRan, bind_assoc, pure_bind]
  rw [Drawing.run_pure, List.map_append, List.map_cons, String.join_append, String.join_cons,
    String.append_assoc]

end Generator

open Generator in
/-- Values survive the trip through text. A truth value or a number that is no NaN becomes a string
whose text, with any blanks around it, is coerced back to an equal value; and a concatenation takes
over exactly this text, between those of the parts before and after. -/
theorem values_survive_their_texts [RandomSource σ] [Combining φ] {value : Value φ}
    (textual : value.Textual) :
    ∃ text, (∀ context, value.coerce .string context = .ok (.string text)) ∧
      (∀ (before after : String) (context : String), Text.allBlank before.toList = true →
        Text.allBlank after.toList = true →
          ∃ back : Value φ,
            (Value.string (before ++ text ++ after)).coerce value.type context = .ok back ∧
              back.Equals value ∧ (value.ComparesWell → back.same value = true)) ∧
      (∀ (parameters : Parameters φ) (budget : ℕ) (before after : List (Generator φ))
        (part : Generator φ) (lefts rights : List (Value φ)) (source first second third : σ),
        (before.mapM (evaluate parameters budget)).run source = (.ok lefts, first) →
        (evaluate parameters budget part).run first = (.ok value, second) →
        (after.mapM (evaluate parameters budget)).run second = (.ok rights, third) →
          (evaluate parameters (budget + 1) (.concatenate (before ++ part :: after))).run source
            = (.ok (.string (String.join (lefts.map Value.text) ++ text
                ++ String.join (rights.map Value.text))), third)) := by
  refine ⟨value.text, fun context => ?_, fun before after context beforeBlank afterBlank =>
    Value.exists_coerce_padded_text textual beforeBlank afterBlank context, ?_⟩
  · cases value with
    | string held => exact textual.elim
    | number held => rfl
    | boolean truth => rfl
    | generator origin tree => exact textual.elim
  · intro parameters budget before after part lefts rights source first second third ran partRan
      afterRan
    exact run_concatenate_part ran partRan afterRan

/-- The zero with a minus sign keeps it, with blanks around its text and between other parts. -/
theorem values_survive_their_texts_minus_zero :
    let zero : Value Combiner := .number (.double (-0.0))
    let tree : Generator Combiner := .concatenate [.text "<", .constant zero, .text ">"]
    let stream := Stream.ofSeed 0
    zero.Textual ∧ zero.coerce .string "first combine operand" = .ok (.string "-0.0") ∧
      (Value.string "\t-0.0\n " : Value Combiner).coerce zero.type "combine result" = .ok zero ∧
      (tree.evaluate ∅ 2).run stream = (.ok (.string "<-0.0>"), stream) := by
  intro zero tree stream
  have textual : zero.Textual := ⟨by decide +kernel, trivial⟩
  obtain ⟨text, written, again, contributed⟩ :=
    @values_survive_their_texts Stream Combiner _ _ zero textual
  have isText : text = "-0.0" := by
    have same : Value.string zero.text = .string text :=
      Except.ok.inj ((written "first combine operand").symm.trans rfl).symm
    rw [← Value.string.inj same]
    decide +kernel
  subst isText
  obtain ⟨back, read, same, -⟩ := again "\t" "\n " "combine result" (by decide) (by decide)
  rw [same.eq (by decide)] at read
  exact ⟨textual, written _, read,
    contributed ∅ 1 [.text "<"] [.text ">"] (.constant zero) [.string "<"] [.string ">"] stream
      stream stream stream rfl rfl rfl⟩

end Wordloom
