import Wordloom.Proofs.Binary.Sums
import Wordloom.Proofs.Table.Selection
import Wordloom.Stream.Basic

/-!
# When nothing can be picked from a table

This file shows when a pick fails. Whether an entry can be picked is decided from the total of
the weights and not from the entries. Since no weight is below zero, and no sum of such weights
vanishes by rounding, the total is above zero exactly when some weight is.

It may be too large for a double, though, or a weight may be infinite by itself. Then there is no
bound to draw a number below, and the pick fails as well.
-/

namespace Wordloom.Table

open Binary

variable {σ ι : Type}

theorem fromZero_of_mem_weights {table : Table Float ι} {weight : Float}
    (member : weight ∈ table.weights) : FromZero weight.toModel.unpack := by
  rcases positive_or_eq_zero_of_mem_weights member with positive | rfl
  · exact .above ((above_iff weight).mp (of_decide_eq_true positive))
  · exact .zero .positive

theorem exists_selectable_iff (table : Table Float ι) :
    (∃ index, table.Selectable index) ↔ ∃ weight ∈ table.weights, weight > 0.0 := by
  constructor
  · rintro ⟨index, weight, found, positive⟩
    exact ⟨weight, List.mem_of_getElem? found, positive⟩
  · rintro ⟨weight, member, positive⟩
    rcases List.getElem?_of_mem member with ⟨index, found⟩
    exact ⟨index, weight, found, positive⟩

theorem fromZero_total_and (table : Table Float ι) :
    FromZero table.total.toModel.unpack ∧
      (table.total > 0.0 ↔ ∃ index, table.Selectable index) := by
  have start : FromZero (-0.0 : Float).toModel.unpack := .zero .negative
  have notAbove : ¬(-0.0 : Float) > 0.0 := by decide +kernel
  have added := start.foldl fun weight (member : weight ∈ table.weights) =>
    fromZero_of_mem_weights member
  refine ⟨added.1, added.2.trans ?_⟩
  rw [exists_selectable_iff, or_iff_right notAbove]

/-- The total of a table is above zero exactly when the table has an entry to pick. -/
theorem total_pos_iff (table : Table Float ι) :
    table.total > 0.0 ↔ ∃ index, table.Selectable index :=
  table.fromZero_total_and.2

theorem isInf_total (table : Table Float ι) : table.total.isInf = !table.total.isFinite :=
  table.fromZero_total_and.1.isInf_eq

variable [RandomSource σ]

theorem run_pick_of_nil {table : Table Float ι} (none : table.entries = []) (source : σ) :
    table.pick.run source = (.error .emptyTable, source) := by
  rw [pick, dif_neg (not_not.mpr none)]
  rfl

theorem run_pick_of_selectable {table : Table Float ι} (selectable : ∃ index, table.Selectable index)
    (finite : table.total.isInf = false) (source : σ) :
    ∃ position after, table.pick.run source = (.ok position, after) := by
  have present : table.entries ≠ [] := by
    rcases selectable with ⟨index, selectable⟩
    exact List.length_pos_iff.mp (Nat.zero_lt_of_lt selectable.lt_size)
  have positive : Weighing.positive table.total = true :=
    decide_eq_true (table.total_pos_iff.mpr selectable)
  have isFinite : Weighing.finite table.total = true := by
    change table.total.isFinite = true
    simpa [isInf_total] using finite
  rw [pick, dif_pos present]
  dsimp only
  rw [if_pos (Bool.and_eq_true_iff.mpr ⟨positive, isFinite⟩)]
  exact ⟨_, _, rfl⟩

theorem run_pick_of_not_selectable {table : Table Float ι} (present : table.entries ≠ [])
    (idle : (∀ index, ¬table.Selectable index) ∨ table.total.isInf = true) (source : σ) :
    table.pick.run source = (.error .noSelectableEntries, source) := by
  have refused : ¬(Weighing.positive table.total && Weighing.finite table.total) = true := by
    rw [Bool.and_eq_true]
    rintro ⟨positive, isFinite⟩
    rcases idle with none | infinite
    · rcases table.total_pos_iff.mp (of_decide_eq_true positive) with ⟨index, selectable⟩
      exact none index selectable
    · rw [isInf_total, Bool.not_eq_true'] at infinite
      exact Bool.false_ne_true (infinite.symm.trans isFinite)
  rw [pick, dif_pos present]
  dsimp only
  rw [if_neg refused]
  rfl

/-- A pick finds a table empty exactly when it has no entries. It finds nothing to select exactly
when there are entries, but none with a positive weight or an infinite total. From all other
tables it picks an entry. -/
theorem pick_fails_without_finite_total (table : Table Float ι) (source : σ) :
    ((table.pick.run source).1 = .error .emptyTable ↔ table.entries = []) ∧
    ((table.pick.run source).1 = .error .noSelectableEntries ↔
      table.entries ≠ [] ∧
        ((∀ index, ¬table.Selectable index) ∨ table.total.isInf = true)) ∧
    ((∃ position after, table.pick.run source = (.ok position, after)) ↔
      (∃ index, table.Selectable index) ∧ table.total.isInf = false) := by
  by_cases none : table.entries = []
  · have unselectable : ¬∃ index, table.Selectable index := by
      rintro ⟨index, selectable⟩
      have inside := selectable.lt_size
      rw [size, none] at inside
      exact Nat.not_lt_zero _ inside
    rw [run_pick_of_nil none]
    exact ⟨iff_of_true rfl none, iff_of_false nofun fun both => both.1 none,
      iff_of_false nofun fun both => unselectable both.1⟩
  · by_cases pickable : (∃ index, table.Selectable index) ∧ table.total.isInf = false
    · have notIdle : ¬((∀ index, ¬table.Selectable index) ∨ table.total.isInf = true) := by
        rw [not_or, not_forall_not, Bool.not_eq_true]
        exact pickable
      rcases run_pick_of_selectable pickable.1 pickable.2 source with ⟨position, after, picked⟩
      rw [picked]
      exact ⟨iff_of_false nofun none, iff_of_false nofun fun both => notIdle both.2,
        iff_of_true ⟨position, after, rfl⟩ pickable⟩
    · have idle : (∀ index, ¬table.Selectable index) ∨ table.total.isInf = true := by
        rw [not_and_or, Bool.not_eq_false, not_exists] at pickable
        exact pickable
      rw [run_pick_of_not_selectable none idle]
      exact ⟨iff_of_false nofun none, iff_of_true rfl ⟨none, idle⟩, iff_of_false nofun pickable⟩

set_option maxRecDepth 1000 in
/-- Entries whose weights are infinite, or add up to more than any double, cannot be picked. -/
theorem infinite_total_is_not_picked :
    let alone : Table Float String := ⟨[⟨"lake", some (1.0 / 0.0)⟩], .flat, none⟩
    -- The double that is the 1023rd power of two.
    let half := Float.ofBits 0x7FE0000000000000
    let both : Table Float String := ⟨[⟨"lake", some half⟩, ⟨"wood", some half⟩], .flat, none⟩
    (alone.Selectable 0 ∧
      (alone.pick.run (Stream.ofSeed 0)).1 = .error .noSelectableEntries) ∧
    (both.Selectable 0 ∧ both.Selectable 1 ∧
      (both.pick.run (Stream.ofSeed 0)).1 = .error .noSelectableEntries) := by
  intro alone half both
  refine ⟨⟨⟨1.0 / 0.0, ?_, ?_⟩, ?_⟩, ⟨half, ?_, ?_⟩, ⟨half, ?_, ?_⟩, ?_⟩
  all_goals subst alone half both
  · rfl
  · decide +kernel
  · rfl
  · rfl
  · decide +kernel
  · rfl
  · decide +kernel
  · rfl

end Wordloom.Table
