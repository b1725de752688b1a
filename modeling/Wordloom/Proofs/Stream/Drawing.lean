import Mathlib.Data.List.Forall2
import Wordloom.Stream.Drawing

/-!
# Computations that draw, one after the other

This file takes computations apart that consist of others. When two computations after each
other, or one for each of some items, succeed, then each of them did, from where the one before
it ended. When they fail, then one of them did, with the same error.
-/

namespace Wordloom.Drawing

variable {σ ε α β : Type}

theorem throw_bind (cause : ε) (next : α → Drawing σ ε β) :
    (throw cause >>= next : Drawing σ ε β) = throw cause := rfl

theorem run_bind_eq_ok_iff {first : Drawing σ ε α} {next : α → Drawing σ ε β}
    {source after : σ} {result : β} :
    (first >>= next).run source = (.ok result, after) ↔
      ∃ value between, first.run source = (.ok value, between) ∧
        (next value).run between = (.ok result, after) := by
  rw [run_bind]
  rcases first.run source with ⟨cause | value, between⟩
  · constructor
    · intro success
      cases success
    · rintro ⟨value, other, run, -⟩
      cases run
  · constructor
    · intro success
      exact ⟨value, between, rfl, success⟩
    · rintro ⟨value, between, run, success⟩
      cases run
      exact success

theorem run_bind_eq_error_iff {first : Drawing σ ε α} {next : α → Drawing σ ε β}
    {source after : σ} {cause : ε} :
    (first >>= next).run source = (.error cause, after) ↔
      first.run source = (.error cause, after) ∨
        ∃ value between, first.run source = (.ok value, between) ∧
          (next value).run between = (.error cause, after) := by
  rw [run_bind]
  rcases first.run source with ⟨reason | value, between⟩
  · constructor
    · intro failure
      cases failure
      exact .inl rfl
    · rintro (failure | ⟨value, other, run, -⟩)
      · cases failure
        rfl
      · cases run
  · constructor
    · intro failure
      exact .inr ⟨value, between, rfl, failure⟩
    · rintro (failure | ⟨value, between, run, failure⟩)
      · cases failure
      · cases run
        exact failure

theorem forall₂_of_run_mapM {f : β → Drawing σ ε α} {items : List β} {values : List α}
    {source after : σ} (success : (items.mapM f).run source = (.ok values, after)) :
    List.Forall₂ (fun item value => ∃ before behind, (f item).run before = (.ok value, behind))
      items values := by
  induction items generalizing values source with
  | nil =>
      cases success
      exact .nil
  | cons item items ih =>
      rw [List.mapM_cons, run_bind_eq_ok_iff] at success
      rcases success with ⟨value, between, run, success⟩
      rw [run_bind_eq_ok_iff] at success
      rcases success with ⟨rest, later, restRun, ended⟩
      cases ended
      exact .cons ⟨source, between, run⟩ (ih restRun)

theorem exists_of_run_mapM_eq_ok {f : β → Drawing σ ε α} {items : List β} {values : List α}
    {source after : σ} (success : (items.mapM f).run source = (.ok values, after)) {item : β}
    (member : item ∈ items) :
    ∃ before value behind, (f item).run before = (.ok value, behind) := by
  rcases List.forall₂_iff_get.mp (forall₂_of_run_mapM success) with ⟨length, each⟩
  rcases List.mem_iff_getElem.mp member with ⟨index, inside, rfl⟩
  rcases each index inside (by omega) with ⟨before, behind, run⟩
  exact ⟨before, _, behind, run⟩

theorem exists_of_run_mapM_eq_error {f : β → Drawing σ ε α} {items : List β}
    {source after : σ} {cause : ε} (failure : (items.mapM f).run source = (.error cause, after)) :
    ∃ item ∈ items, ∃ before, (f item).run before = (.error cause, after) := by
  induction items generalizing source with
  | nil => cases failure
  | cons item items ih =>
      rw [List.mapM_cons, run_bind_eq_error_iff] at failure
      rcases failure with failed | ⟨value, between, -, failure⟩
      · exact ⟨item, List.mem_cons_self, source, failed⟩
      · rw [run_bind_eq_error_iff] at failure
        rcases failure with failed | ⟨values, later, -, ended⟩
        · rcases ih failed with ⟨other, member, before, run⟩
          exact ⟨other, List.mem_cons_of_mem item member, before, run⟩
        · cases ended

end Wordloom.Drawing
