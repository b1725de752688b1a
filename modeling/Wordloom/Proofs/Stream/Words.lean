import Wordloom.Proofs.Stream.Drawing

/-!
# Words that computations take

This file says what it is for a computation to take a number of words from a source. It leaves the
source that many words further on, and it sees nothing else of it: from any other source with the
same next words it has the same outcome.

How many words are taken after a computation depends on how it ends, and on the source that it
leaves. Nothing is taken any more after a failure.
-/

namespace Wordloom

variable {σ ε δ α β : Type}

namespace RandomSource

variable [RandomSource σ]

/-- The next 64-bit words of a source, in order. -/
def words (count : Nat) (source : σ) : List UInt64 :=
  (repeatDraw next64 count source).1

theorem words_succ (count : Nat) (source : σ) :
    words (count + 1) source = (next64 source).1 :: words count (next64 source).2 := rfl

theorem length_words (count : Nat) (source : σ) : (words count source).length = count := by
  induction count generalizing source with
  | zero => rfl
  | succ count ih => rw [words_succ, List.length_cons, ih]

theorem advance_add (first second : Nat) (source : σ) :
    advance (first + second) source = advance second (advance first source) := by
  induction first generalizing source with
  | zero => rw [Nat.zero_add, advance]
  | succ first ih => rw [Nat.succ_add, advance, advance, ih]

theorem words_add (first second : Nat) (source : σ) :
    words (first + second) source = words first source ++ words second (advance first source) := by
  induction first generalizing source with
  | zero => rw [Nat.zero_add]; rfl
  | succ first ih => rw [Nat.succ_add, words_succ, words_succ, advance, ih, List.cons_append]

theorem words_add_eq_iff {first second : Nat} {source other : σ} :
    words (first + second) other = words (first + second) source ↔
      words first other = words first source ∧
        words second (advance first other) = words second (advance first source) := by
  rw [words_add, words_add]
  constructor
  · intro same
    exact List.append_inj same (by rw [length_words, length_words])
  · rintro ⟨sameFirst, sameSecond⟩
    rw [sameFirst, sameSecond]

end RandomSource

open RandomSource

/-- What is counted after a computation that succeeds, for its value and the source it leaves. -/
def countAfter (first : Drawing σ ε α) (count : α → σ → Nat) (source : σ) : Nat :=
  match first.run source with
  | (.ok value, after) => count value after
  | (.error _, _) => 0

/-- What is counted for items one after the other, up to the first that fails. -/
def countInOrder (computation : β → Drawing σ ε α) (count : β → σ → Nat) :
    List β → σ → Nat
  | [], _ => 0
  | item :: rest, source =>
    count item source
      + countAfter (computation item) (fun _ => countInOrder computation count rest) source

theorem countAfter_adapt (explain : ε → δ) (first : Drawing σ ε α) (count : α → σ → Nat)
    (source : σ) :
    countAfter (ExceptT.adapt explain first) count source = countAfter first count source := by
  rw [countAfter, countAfter, Drawing.run_adapt]
  rcases first.run source with ⟨cause | value, after⟩
  · rfl
  · rfl

theorem countAfter_zero (first : Drawing σ ε α) (source : σ) :
    countAfter first (fun _ _ => 0) source = 0 := by
  rw [countAfter]
  split
  · rfl
  · rfl

theorem countAfter_add (first : Drawing σ ε α) (left right : α → σ → Nat) (source : σ) :
    countAfter first (fun value after => left value after + right value after) source
      = countAfter first left source + countAfter first right source := by
  rw [countAfter, countAfter, countAfter]
  rcases first.run source with ⟨cause | value, after⟩
  · rfl
  · rfl

/-- Whether a computation takes a number of words from a source and sees nothing else of it. -/
def Takes [RandomSource σ] (computation : Drawing σ ε α) (count : Nat) (source : σ) : Prop :=
  ∀ other, words count other = words count source →
    computation.run other = ((computation.run source).1, advance count other)

namespace Takes

variable [RandomSource σ] {computation : Drawing σ ε α} {next : α → Drawing σ ε β}
  {count : Nat} {nextCount : α → σ → Nat} {source : σ}

theorem run_eq (takes : Takes computation count source) :
    computation.run source = ((computation.run source).1, advance count source) :=
  takes source rfl

theorem pure (value : α) (source : σ) :
    Takes (Pure.pure value : Drawing σ ε α) 0 source := by
  intro other _
  rfl

theorem throw (cause : ε) (source : σ) :
    Takes (MonadExcept.throw cause : Drawing σ ε α) 0 source := by
  intro other _
  rfl

theorem ofExcept (explain : δ → ε) (result : Except δ α) (source : σ) :
    Takes (Drawing.ofExcept explain result) 0 source := by
  intro other _
  rfl

theorem adapt {computation : Drawing σ δ α} (explain : δ → ε)
    (takes : Takes computation count source) :
    Takes (ExceptT.adapt explain computation) count source := by
  intro other same
  rw [Drawing.run_adapt, Drawing.run_adapt, takes other same]

theorem bind (takes : Takes computation count source)
    (nextTakes : ∀ value after, Takes (next value) (nextCount value after) after) :
    Takes (computation >>= next) (count + countAfter computation nextCount source) source := by
  intro other same
  have ran := takes.run_eq
  rw [words_add_eq_iff] at same
  rcases same with ⟨same, sameAfter⟩
  rw [Drawing.run_bind, Drawing.run_bind, takes other same, advance_add]
  rw [countAfter] at sameAfter ⊢
  rcases run : computation.run source with ⟨cause | value, after⟩
  · rfl
  · rw [run] at ran sameAfter
    cases ran
    exact nextTakes value _ _ sameAfter

/-- Nothing is added by what takes no words. -/
theorem bind_silent (takes : Takes computation count source)
    (silent : ∀ value after, Takes (next value) 0 after) :
    Takes (computation >>= next) count source := by
  have all := takes.bind silent
  rw [countAfter_zero] at all
  exact all

theorem silent_bind (silent : Takes computation 0 source)
    (nextTakes : ∀ value after, Takes (next value) (nextCount value after) after) :
    Takes (computation >>= next) (countAfter computation nextCount source) source := by
  have all := silent.bind nextTakes
  rw [Nat.zero_add] at all
  exact all

theorem mapM {f : β → Drawing σ ε α} {count : β → σ → Nat} {items : List β}
    (each : ∀ item ∈ items, ∀ source, Takes (f item) (count item source) source) (source : σ) :
    Takes (items.mapM f) (countInOrder f count items source) source := by
  induction items generalizing source with
  | nil => exact pure [] source
  | cons item items ih =>
      simp only [List.forall_mem_cons] at each
      rw [List.mapM_cons]
      apply (each.1 source).bind
      intro value after
      apply (ih each.2 after).bind_silent
      intro values later
      exact pure (value :: values) later

end Takes

end Wordloom
