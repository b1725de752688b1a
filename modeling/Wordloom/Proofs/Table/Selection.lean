import Wordloom.Generator.Combiner
import Wordloom.Proofs.Stream.Drawing
import Wordloom.Proofs.Stream.Script

/-!
# What can be picked from a table

This file shows that only entries with a positive weight are picked. The scan remembers the last
such entry that it went over, and it starts with the first position in its place, which need not
be one. But a total that is positive is the total of some positive weight, since zeros add up to
zero. So there is an entry that the scan goes over, wherever the selection falls.

Nothing else is needed of the arithmetic. It makes no difference how sums are rounded.
-/

namespace Wordloom.Table

variable {σ α ι : Type}

section Arithmetic

open Weighing

variable [Weighing α]

/-- What holds of all positions with a positive weight holds of the position that a scan ends at,
if there is such a position or the last one before was such. -/
theorem scan_property (property : Nat → Prop) (selection : α) {weights : List α}
    {index last : Nat} (reached : α)
    (selectable : ∀ offset weight, weights[offset]? = some weight → positive weight = true →
      property (index + offset))
    (present : property last ∨ ∃ weight ∈ weights, positive weight = true) :
    property (scan selection weights index reached last) := by
  induction weights generalizing index last reached with
  | nil =>
      apply present.resolve_right
      rintro ⟨weight, member, -⟩
      cases member
  | cons weight rest ih =>
      have later : ∀ offset weight, rest[offset]? = some weight → positive weight = true →
          property (index + 1 + offset) := by
        intro offset weight found isPositive
        have moved : index + 1 + offset = index + (offset + 1) := by omega
        rw [moved]
        exact selectable (offset + 1) weight found isPositive
      rw [scan]
      split
      · rename_i isPositive
        have here : property index := selectable 0 weight rfl isPositive
        dsimp only
        split
        · exact here
        · exact ih (reached + weight) later (.inl here)
      · rename_i notPositive
        apply ih reached later
        apply present.imp_right
        rintro ⟨other, member, isPositive⟩
        rcases List.mem_cons.mp member with rfl | inside
        · exact absurd isPositive notPositive
        · exact ⟨other, inside, isPositive⟩

theorem exists_positive_select {weights : List α}
    (present : ∃ weight ∈ weights, positive weight = true) (selection : α) :
    ∃ weight, weights[select weights selection]? = some weight ∧ positive weight = true := by
  refine scan_property (fun index => ∃ weight, weights[index]? = some weight ∧
    positive weight = true) selection _ ?_ (.inr present)
  intro offset weight found isPositive
  rw [Nat.zero_add]
  exact ⟨weight, found, isPositive⟩

theorem positive_floor_or_floor_eq (weight : α) :
    positive (floor weight) = true ∨ floor weight = ofCount 0 := by
  rw [floor]
  by_cases isPositive : positive weight = true
  · rw [if_pos isPositive]
    exact .inl isPositive
  · rw [if_neg isPositive]
    exact .inr rfl

theorem positive_or_eq_zero_of_mem_weights {table : Table α ι} {weight : α}
    (member : weight ∈ table.weights) : positive weight = true ∨ weight = ofCount 0 := by
  rw [weights] at member
  rcases List.mem_mapIdx.mp member with ⟨index, inside, rfl⟩
  exact positive_floor_or_floor_eq _

/-- Where zeros do not add up to something positive, a positive total has a positive weight. -/
theorem exists_positive_of_positive_total
    (zeros : ∀ count, positive (sum (List.replicate count (ofCount 0 : α))) = false)
    {table : Table α ι} (isPositive : positive table.total = true) :
    ∃ weight ∈ table.weights, positive weight = true := by
  by_contra none
  have allZero : ∀ weight ∈ table.weights, weight = ofCount 0 := by
    intro weight member
    apply (positive_or_eq_zero_of_mem_weights member).resolve_left
    intro weightPositive
    exact none ⟨weight, member, weightPositive⟩
  rw [total, List.eq_replicate_of_mem allZero, zeros] at isPositive
  cases isPositive

end Arithmetic

section Doubles

open Binary

theorem hasUnits_foldl_replicate_zero {start : Float} (has : HasUnits start 0) (count : Nat) :
    HasUnits ((List.replicate count (Float.ofNat 0)).foldl (· + ·) start) 0 := by
  induction count generalizing start with
  | zero => exact has
  | succ count ih =>
      apply ih
      exact has.add hasUnits_zero ⟨_, hasUnits_zero⟩

theorem positive_sum_replicate_zero (count : Nat) :
    Weighing.positive (Weighing.sum (List.replicate count (Float.ofNat 0))) = false := by
  have has := hasUnits_foldl_replicate_zero hasUnits_negative_zero count
  apply decide_eq_false
  intro positive
  exact absurd ((hasUnits_literal_zero.lt_iff has).mp positive) (Nat.lt_irrefl 0)

/-- Whether an index is that of an entry with a positive weight. -/
def Selectable (table : Table Float ι) (index : Nat) : Prop :=
  ∃ weight, table.weights[index]? = some weight ∧ weight > 0.0

variable {table : Table Float ι}

theorem Selectable.lt_size {index : Nat} (selectable : table.Selectable index) :
    index < table.size := by
  rcases selectable with ⟨weight, found, -⟩
  rw [← length_weights]
  exact (List.getElem?_eq_some_iff.mp found).1

/-- Wherever a selection falls, be it within the total or not, it falls on a positive weight. -/
theorem selectable_select (positive : table.total > 0.0) (selection : Float) :
    table.Selectable (select table.weights selection) := by
  have present := exists_positive_of_positive_total positive_sum_replicate_zero
    (decide_eq_true positive : Weighing.positive table.total = true)
  rcases exists_positive_select present selection with ⟨weight, found, isPositive⟩
  exact ⟨weight, found, of_decide_eq_true isPositive⟩

variable [RandomSource σ]

/-- A pick is a draw below a total that is positive and finite, or else it fails at once. -/
theorem pick_cases (table : Table Float ι) :
    (∃ present : table.entries ≠ [], table.total > 0.0 ∧ table.total.isFinite = true ∧
      (table.pick : Drawing σ PickError _) = (do
        let selection ← Drawing.ofDraw (RandomSource.nextDouble table.total)
        return table.positionOf present selection)) ∨
    ∃ cause, (table.pick : Drawing σ PickError _) = throw cause := by
  rw [pick]
  by_cases present : table.entries ≠ []
  · rw [dif_pos present]
    dsimp only
    split
    · rename_i both
      rw [Bool.and_eq_true] at both
      exact .inl ⟨present, of_decide_eq_true both.1, both.2, rfl⟩
    · exact .inr ⟨.noSelectableEntries, rfl⟩
  · rw [dif_neg present]
    exact .inr ⟨.emptyTable, rfl⟩

theorem run_pick_cases (table : Table Float ι) (source : σ) :
    (∃ position after, (table.pick : Drawing σ PickError _).run source = (.ok position, after) ∧
      table.Selectable position) ∨
    ∃ cause, (table.pick : Drawing σ PickError _).run source = (.error cause, source) := by
  rcases table.pick_cases (σ := σ) with ⟨present, positive, -, picked⟩ | ⟨cause, failed⟩
  · left
    rw [picked]
    exact ⟨_, _, rfl, selectable_select positive _⟩
  · right
    rw [failed]
    exact ⟨cause, rfl⟩

/-- A pick that succeeds takes the position that its draw falls on. -/
theorem exists_draw_of_run_pick {source after : σ} {position : Fin table.size}
    (success : table.pick.run source = (.ok position, after)) :
    table.total > 0.0 ∧ table.total.isFinite = true ∧
      ∃ selection, RandomSource.nextDouble table.total source = (selection, after) ∧
        position.val = select table.weights selection := by
  rcases table.pick_cases (σ := σ) with
    ⟨present, positive, finite, picked⟩ | ⟨cause, failed⟩
  · rw [picked] at success
    cases success
    exact ⟨positive, finite, _, rfl, rfl⟩
  · rw [failed] at success
    cases success

theorem selectable_of_run_pick {source after : σ} {position : Fin table.size}
    (success : table.pick.run source = (.ok position, after)) : table.Selectable position := by
  rcases exists_draw_of_run_pick success with ⟨positive, -, selection, -, falls⟩
  rw [falls]
  exact selectable_select positive selection

theorem eq_of_run_pick_eq_error {source after : σ} {cause : PickError}
    (failure : table.pick.run source = (.error cause, after)) : after = source := by
  rcases table.run_pick_cases source with ⟨position, between, picked, -⟩ | ⟨reason, failed⟩
  · rw [picked] at failure
    cases failure
  · rw [failed] at failure
    cases failure
    rfl

theorem get?_eq_some_entryAt (table : Table Float ι) (position : Fin table.size) :
    table.get? position = some (table.entryAt position) :=
  List.getElem?_eq_getElem position.isLt

end Doubles

/-- Whatever the weights are and however they add up, no entry is picked but one with a positive
weight, also where the selection is above all sums. A table goes on with the entry that it picked,
and a failed pick leaves the source as it was. -/
theorem only_positive_weights_are_picked [RandomSource σ] {φ : Type} [Combining φ]
    (table : Table Float ι) :
    (table.total > 0.0 → ∀ selection,
      select table.weights selection < table.size ∧
        table.Selectable (select table.weights selection)) ∧
    (∀ (source after : σ) position, table.pick.run source = (.ok position, after) →
      position.val < table.size ∧ table.Selectable position) ∧
    (∀ (source after : σ) item, table.pickItem.run source = (.ok item, after) →
      ∃ index entry, table.get? index = some entry ∧ entry.item = item ∧
        table.Selectable index) ∧
    (∀ (source after : σ) cause,
      table.pick.run source = (.error cause, after) ∨
        table.pickItem.run source = (.error cause, after) → after = source) ∧
    ∀ (parameters : Parameters φ) budget output (choices : Table Float (Generator φ)) (source : σ),
      (∃ cause, choices.pick.run source = (.error cause, source) ∧
        ((Generator.table output choices).evaluate parameters (budget + 1)).run source
          = (.error (.pick cause), source)) ∨
      ∃ position between entry, choices.pick.run source = (.ok position, between) ∧
        choices.get? position = some entry ∧ choices.Selectable position ∧
        ((Generator.table output choices).evaluate parameters (budget + 1)).run source
          = (do
            let value ← entry.item.evaluate parameters budget
            Generator.coerced (value.coerce output "table entry")).run between := by
  refine ⟨?_, ?_, ?_, ?_, ?_⟩
  · intro positive selection
    have selectable := selectable_select positive selection
    exact ⟨selectable.lt_size, selectable⟩
  · intro source after position success
    exact ⟨position.isLt, selectable_of_run_pick success⟩
  · intro source after item success
    rw [pickItem, Drawing.run_bind_eq_ok_iff] at success
    rcases success with ⟨position, between, picked, ended⟩
    cases ended
    exact ⟨position, table.entryAt position, table.get?_eq_some_entryAt position, rfl,
      selectable_of_run_pick picked⟩
  · rintro source after cause (failure | failure)
    · exact eq_of_run_pick_eq_error failure
    · rw [pickItem, Drawing.run_bind_eq_error_iff] at failure
      rcases failure with failed | ⟨position, between, -, ended⟩
      · exact eq_of_run_pick_eq_error failed
      · cases ended
  · intro parameters budget output choices source
    rcases choices.run_pick_cases source with
      ⟨position, between, picked, selectable⟩ | ⟨cause, failed⟩
    · right
      refine ⟨position, between, choices.entryAt position, picked,
        choices.get?_eq_some_entryAt position, selectable, ?_⟩
      rw [Generator.evaluate, Drawing.run_bind, Drawing.run_adapt, picked]
      rfl
    · left
      refine ⟨cause, failed, ?_⟩
      rw [Generator.evaluate, Drawing.run_bind, Drawing.run_adapt, failed]
      rfl

set_option maxRecDepth 1000 in
/-- Zeros, negative weights and what is no number are passed over, also by a selection that is
above the sum of all weights. -/
theorem only_positive_weights_are_picked_uneven :
    let table : Table Float String := ⟨[⟨"sky", some 0.0⟩, ⟨"lake", some 2.0⟩,
      ⟨"marsh", some (-1.0)⟩, ⟨"wood", none⟩, ⟨"mist", some (0.0 / 0.0)⟩], .flat, none⟩
    table.total > 0.0 ∧ select table.weights 9.0 = 3 ∧ table.Selectable 3 ∧
      table.pickItem.run (⟨[1.5]⟩ : Script) = (.ok "lake", ⟨[]⟩) ∧
      ∃ index entry, table.get? index = some entry ∧ entry.item = "lake" ∧
        table.Selectable index := by
  intro table
  have positive : table.total > 0.0 := by subst table; decide +kernel
  have fallen : select table.weights 9.0 = 3 := by subst table; decide +kernel
  have picked : table.pickItem.run (⟨[1.5]⟩ : Script) = (.ok "lake", ⟨[]⟩) := by subst table; rfl
  have all := only_positive_weights_are_picked (σ := Script) (φ := Combiner) table
  refine ⟨positive, fallen, ?_, picked, all.2.2.1 _ _ _ picked⟩
  rw [← fallen]
  exact (all.1 positive 9.0).2

end Wordloom.Table
