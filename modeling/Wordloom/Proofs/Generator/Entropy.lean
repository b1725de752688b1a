import Wordloom.Proofs.Stream.Words
import Wordloom.Proofs.Table.Selection
import Wordloom.Stream.Basic

/-!
# Words that an evaluation takes

This file shows that an evaluation takes one word for every table that it reaches and picks from
with success, and no other. This is so whether it succeeds or fails. So what it comes to depends
on that many words of the stream and on nothing else of it.

The tables that are reached depend on what was picked before, and nothing is reached any more
after a failure. So the number is counted along the evaluation, for the source that it starts from.
-/

namespace Wordloom

variable {σ φ : Type}

namespace Generator

/-- What is counted where a reference reads a value. Only a tree that is evaluated counts. -/
def countHeld (count : Generator φ → σ → Nat) (output : ValueType) : Value φ → σ → Nat
  | .generator _ tree, source => if output = .generator then 0 else count tree source
  | _, _ => 0

variable [RandomSource σ] [Combining φ]

/-- The number of tables that the evaluation of a tree reaches and picks from with success. -/
def picks (parameters : Parameters φ) : (budget : Nat) → Generator φ → (source : σ) → Nat
  | 0, _ => fun _ => 0
  | _ + 1, .constant _ => fun _ => 0
  | budget + 1, .parameter id default output =>
    countHeld (picks parameters budget) output (parameters[id]?.getD default)
  | budget + 1, .concatenate parts =>
    countInOrder (evaluate parameters budget) (picks parameters budget) parts
  | budget + 1, .combine left leftType right _ _ _ => fun source =>
    picks parameters budget left source
      + countAfter (evaluate parameters budget left) (fun value =>
        countAfter (coerced (value.coerce leftType "first combine operand")) fun _ =>
          picks parameters budget right) source
  | budget + 1, .table _ choices =>
    countAfter choices.pick fun position after =>
      1 + picks parameters budget (choices.entryAt position).item after

end Generator

/-- A number below a positive bound is made from one word. -/
theorem Stream.takes_nextDouble {ε : Type} {bound : Float} (positive : bound > 0.0)
    (stream : Stream) :
    Takes (Drawing.ofDraw (RandomSource.nextDouble bound) : Drawing Stream ε Float) 1 stream := by
  intro other same
  have word : other.next64.1 = stream.next64.1 := List.head_eq_of_cons_eq same
  rw [Drawing.run_ofDraw, Drawing.run_ofDraw, nextDouble_of_positive positive,
    nextDouble_of_positive positive, word]
  rfl

namespace Table

variable {ι : Type}

/-- A pick takes one word, or none if it fails. -/
theorem takes_pick (choices : Table Float ι) (stream : Stream) :
    Takes (choices.pick : Drawing Stream PickError _)
      (countAfter choices.pick (fun _ _ => 1) stream) stream := by
  rcases choices.pick_cases (σ := Stream) with ⟨present, positive, -, picked⟩ | ⟨cause, failed⟩
  · have one : countAfter choices.pick (fun _ _ => 1) stream = 1 := by
      rw [picked]
      rfl
    rw [one, picked]
    apply (Stream.takes_nextDouble positive stream).bind_silent
    intro selection after
    exact Takes.pure _ after
  · have none : countAfter choices.pick (fun _ _ => 1) stream = 0 := by
      rw [failed]
      rfl
    rw [none, failed]
    exact Takes.throw cause stream

end Table

namespace Generator

theorem takes_dereference [RandomSource σ]
    {evaluate : Generator φ → Drawing σ GeneratorError (Value φ)} {count : Generator φ → σ → Nat}
    (each : ∀ tree source, Takes (evaluate tree) (count tree source) source) (output : ValueType)
    (held : Value φ) (source : σ) :
    Takes (dereference evaluate output held) (countHeld count output held source) source := by
  cases held with
  | generator origin tree =>
      rw [dereference, countHeld]
      split
      · exact Takes.pure _ source
      · exact each tree source
  | string text => exact Takes.pure _ source
  | number value => exact Takes.pure _ source
  | boolean truth => exact Takes.pure _ source

variable [Combining φ]

theorem takes_evaluate (parameters : Parameters φ) (budget : Nat) (tree : Generator φ)
    (stream : Stream) :
    Takes (tree.evaluate parameters budget) (tree.picks parameters budget stream) stream := by
  induction budget generalizing tree stream with
  | zero => exact Takes.throw _ stream
  | succ budget ih =>
      cases tree with
      | constant value => exact Takes.pure value stream
      | parameter id default output =>
          rw [evaluate, picks]
          apply (takes_dereference ih output _ stream).bind_silent
          intro value after
          exact Takes.ofExcept _ _ after
      | concatenate parts =>
          rw [evaluate, picks]
          apply (Takes.mapM (fun part _ => ih part) stream).bind_silent
          intro values after
          exact Takes.pure _ after
      | combine left leftType right rightType output function =>
          rw [evaluate, picks]
          apply (ih left stream).bind
          intro leftValue between
          apply (Takes.ofExcept _ _ between).silent_bind
          intro first start
          apply (ih right start).bind_silent
          intro rightValue after
          apply (Takes.ofExcept _ _ after).bind_silent
          intro second after
          apply (Takes.ofExcept _ _ after).bind_silent
          intro combined after
          exact Takes.ofExcept _ _ after
      | table output choices =>
          rw [evaluate, picks, countAfter_add]
          rw [← countAfter_adapt GeneratorError.pick choices.pick fun position =>
            picks parameters budget (choices.entryAt position).item]
          apply ((choices.takes_pick stream).adapt GeneratorError.pick).bind
          intro position between
          apply (ih _ between).bind_silent
          intro value after
          exact Takes.ofExcept _ _ after

end Generator

namespace Stream

open RandomSource

/-- Block numbers wrap around after the last, and the words come round with them. -/
theorem words_round (key : ChaCha.Key) (count position : Nat) :
    words count (⟨key, position + 16 * 2 ^ 64⟩ : Stream)
      = words count (⟨key, position⟩ : Stream) := by
  have word : ∀ position, wordAt key (position + 16 * 2 ^ 64) = wordAt key position := by
    intro position
    have index : (position + 16 * 2 ^ 64) % 16 = position % 16 := by omega
    have number : UInt64.ofNat ((position + 16 * 2 ^ 64) / 16) = UInt64.ofNat (position / 16) := by
      apply UInt64.toNat.inj
      rw [UInt64.toNat_ofNat', UInt64.toNat_ofNat']
      omega
    simp only [wordAt, index, number]
  induction count generalizing position with
  | zero => rfl
  | succ count ih =>
      have moved : position + 16 * 2 ^ 64 + 2 = position + 2 + 16 * 2 ^ 64 := by omega
      have next : position + 16 * 2 ^ 64 + 1 = position + 1 + 16 * 2 ^ 64 := by omega
      rw [words_succ, words_succ]
      simp only [RandomSource.next64, next64]
      rw [moved, next, word, word, ih]

theorem advance_injective (stream : Stream) :
    Function.Injective fun count => advance count stream := by
  intro count more same
  simp only [advance_eq, Stream.mk.injEq] at same
  omega

end Stream

open RandomSource

/-- An evaluation leaves the stream as many words further on as it reached tables and picked from
them with success, whether it succeeds or fails. From any other stream with the same words up to
there it has the same outcome and takes as many. -/
theorem evaluation_takes_a_word_for_each_pick [Combining φ] (tree : Generator φ)
    (parameters : Parameters φ) (stream : Stream) :
    let count := tree.picks parameters (maxDepth + 1) stream
    ((tree.generate parameters).run stream).2 = advance count stream ∧
      ∀ other : Stream, words count other = words count stream →
        (tree.generate parameters).run other
          = (((tree.generate parameters).run stream).1, advance count other) ∧
        tree.picks parameters (maxDepth + 1) other = count := by
  intro count
  have takes : Takes (tree.generate parameters) count stream :=
    tree.takes_evaluate parameters (maxDepth + 1) stream
  refine ⟨congrArg Prod.snd takes.run_eq, ?_⟩
  intro other same
  have run := takes other same
  refine ⟨run, ?_⟩
  have otherRun := (tree.takes_evaluate parameters (maxDepth + 1) other).run_eq
  exact other.advance_injective (congrArg Prod.snd (otherRun.symm.trans run))

/-- One word is taken for the one of two greetings, from a stream and from where its words come
round. -/
theorem evaluation_takes_a_word_for_each_pick_greeting :
    let greeting : Generator Combiner :=
      .concatenate [.select .string [.text "Hello", .text "Hi"], .text ", Ann"]
    let stream := Stream.ofSeed 7
    let round : Stream := ⟨stream.key, stream.position + 16 * 2 ^ 64⟩
    let outcome := (greeting.generate ∅).run stream
    greeting.picks ∅ (maxDepth + 1) stream = 1 ∧
      outcome.1.toOption.map Value.text = some "Hello, Ann" ∧ outcome.2 = advance 1 stream ∧
      words 1 round = words 1 stream ∧
      (greeting.generate ∅).run round = (outcome.1, advance 1 round) := by
  intro greeting stream round outcome
  have one : greeting.picks ∅ (maxDepth + 1) stream = 1 := by
    subst greeting stream
    decide +kernel
  have text : outcome.1.toOption.map Value.text = some "Hello, Ann" := by
    subst outcome greeting stream
    decide +kernel
  have same : words 1 round = words 1 stream := Stream.words_round stream.key 1 stream.position
  have taken := evaluation_takes_a_word_for_each_pick greeting ∅ stream
  dsimp only at taken
  rw [one] at taken
  exact ⟨one, text, taken.1, same, (taken.2 round same).1⟩

end Wordloom
