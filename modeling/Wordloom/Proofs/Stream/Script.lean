import Mathlib.Data.List.Forall2
import Wordloom.Proofs.Binary.Units
import Wordloom.Stream.Drawing

/-!
# Prepared draws

This file gives a source that hands out prepared numbers, one for each number drawn below a
bound. With it, that a value can be drawn at all is that it is what a computation yields for
some prepared numbers.

A computation leaves behind what was prepared after its own numbers, so the numbers for two
computations one after the other are those of the first followed by those of the second.
-/

namespace Wordloom

/-- A source that hands out prepared numbers, as far as they are below the bound. -/
structure Script where
  draws : List Float

/-- A prepared number, or zero in place of one that is not from zero on and below a bound. -/
def Script.answer (bound number : Float) : Float :=
  if 0.0 ≤ number ∧ number < bound then number else 0.0

instance : RandomSource Script where
  next64 script := (0, script)
  fork script := (script, script)
  reseed script _ _ := script
  nextDouble bound script :=
    match script.draws with
    | [] => (0.0, script)
    | number :: rest => (Script.answer bound number, ⟨rest⟩)

namespace Script

open Binary

theorem answer_of_mem {bound number : Float} (above : 0.0 ≤ number) (below : number < bound) :
    answer bound number = number :=
  if_pos ⟨above, below⟩

/-- Whatever was prepared, a number drawn below a positive bound is from zero on and below it. -/
theorem nextDouble_mem {bound : Float} (positive : 0.0 < bound) (script : Script) :
    0.0 ≤ (RandomSource.nextDouble bound script).1 ∧
      (RandomSource.nextDouble bound script).1 < bound := by
  have zero : (0.0 : Float) ≤ 0.0 := (hasUnits_literal_zero.le_iff hasUnits_literal_zero).mpr
    (Nat.le_refl 0)
  rcases script with ⟨_ | ⟨number, rest⟩⟩
  · exact ⟨zero, positive⟩
  · change 0.0 ≤ answer bound number ∧ answer bound number < bound
    unfold answer
    split
    · assumption
    · exact ⟨zero, positive⟩

end Script

variable {ε δ α β : Type}

/-- Whether a computation can yield a value, for prepared numbers that it uses up. -/
def Attains (computation : Drawing Script ε α) (value : α) : Prop :=
  ∃ draws, ∀ rest, computation.run ⟨draws ++ rest⟩ = (.ok value, ⟨rest⟩)

namespace Attains

theorem pure (value : α) : Attains (Pure.pure value : Drawing Script ε α) value :=
  ⟨[], fun _ => rfl⟩

theorem bind {first : Drawing Script ε α} {next : α → Drawing Script ε β} {value : α}
    {result : β} (attains : Attains first value) (nextAttains : Attains (next value) result) :
    Attains (first >>= next) result := by
  rcases attains with ⟨draws, run⟩
  rcases nextAttains with ⟨more, nextRun⟩
  refine ⟨draws ++ more, ?_⟩
  intro rest
  rw [Drawing.run_bind, List.append_assoc, run]
  exact nextRun rest

theorem ofExcept {explain : δ → ε} {result : Except δ α} {value : α}
    (success : result = .ok value) : Attains (Drawing.ofExcept explain result) value := by
  subst success
  exact ⟨[], fun _ => rfl⟩

theorem adapt (explain : δ → ε) {computation : Drawing Script δ α} {value : α}
    (attains : Attains computation value) :
    Attains (ExceptT.adapt explain computation) value := by
  rcases attains with ⟨draws, run⟩
  refine ⟨draws, ?_⟩
  intro rest
  rw [Drawing.run_adapt, run]
  rfl

theorem nextDouble {bound number : Float} (above : 0.0 ≤ number) (below : number < bound) :
    Attains (Drawing.ofDraw (RandomSource.nextDouble bound) : Drawing Script ε Float) number := by
  refine ⟨[number], ?_⟩
  intro rest
  change (Except.ok (Script.answer bound number), (⟨rest⟩ : Script)) = _
  rw [Script.answer_of_mem above below]

theorem mapM {f : β → Drawing Script ε α} {items : List β} {values : List α}
    (attains : List.Forall₂ (fun item value => Attains (f item) value) items values) :
    Attains (items.mapM f) values := by
  induction attains with
  | nil => exact Attains.pure []
  | @cons item value items values first rest ih =>
      rw [List.mapM_cons]
      apply first.bind
      apply ih.bind
      exact Attains.pure (value :: values)

end Attains

end Wordloom
