import Wordloom.Stream.Source

/-!
# Computations that draw

This file gives computations that draw from a source and may fail, and what running one of them
does to the source.

A computation is a state transition on the source. An error does not undo draws, so the state
is kept underneath the errors.
-/

namespace Wordloom

/-- A computation that draws from a source and may fail. Draws made before a failure stay made. -/
abbrev Drawing (σ ε α : Type) : Type :=
  ExceptT ε (StateM σ) α

namespace Drawing

variable {σ ε δ α β : Type}

/-- A computation without draws. -/
def ofExcept (explain : ε → δ) (result : Except ε α) : Drawing σ δ α :=
  ExceptT.mk (pure (result.mapError explain))

/-- The result of a draw. -/
def ofDraw (draw : σ → α × σ) : Drawing σ ε α :=
  ExceptT.mk fun source => let (value, after) := draw source; (.ok value, after)

theorem run_pure (value : α) (source : σ) :
    (pure value : Drawing σ ε α).run source = (.ok value, source) := rfl

theorem run_throw (cause : ε) (source : σ) :
    (throw cause : Drawing σ ε α).run source = (.error cause, source) := rfl

theorem run_ofExcept (explain : ε → δ) (result : Except ε α) (source : σ) :
    (ofExcept explain result : Drawing σ δ α).run source = (result.mapError explain, source) :=
  rfl

theorem run_ofDraw (draw : σ → α × σ) (source : σ) :
    (ofDraw draw : Drawing σ ε α).run source = (.ok (draw source).1, (draw source).2) := rfl

theorem run_adapt (explain : ε → δ) (first : Drawing σ ε α) (source : σ) :
    (ExceptT.adapt explain first : Drawing σ δ α).run source
      = ((first.run source).1.mapError explain, (first.run source).2) := rfl

/-- The second computation runs only if the first does not fail, and from where that ended. -/
theorem run_bind (first : Drawing σ ε α) (next : α → Drawing σ ε β) (source : σ) :
    (first >>= next).run source =
      match first.run source with
      | (.ok value, after) => (next value).run after
      | (.error cause, after) => (.error cause, after) := by
  simp only [bind, ExceptT.bind, ExceptT.run, ExceptT.mk, StateT.bind]
  rcases first source with ⟨result, after⟩
  cases result <;> rfl

end Drawing

end Wordloom
