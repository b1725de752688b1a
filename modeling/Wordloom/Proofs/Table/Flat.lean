import Wordloom.Proofs.Stream.Script
import Wordloom.Table.Basic

/-!
# Picking from a flat table

This file shows that every entry of a table whose entries weigh alike can be picked. Each of
them weighs one, and sums of ones are exact as long as doubles can count them. A number between
two whole ones falls on the entry after the lower one.

There is such a number below the last count only up to `2 ^ 52`. In longer tables the doubles
next to the total are whole, and the last entry is never reached.
-/

namespace Wordloom.Table

open Binary

-- Powers are those of the core library, whatever else is imported.
attribute [local instance (2000)] instPowNat

variable {ι : Type}

/-- The count up to which doubles can stand halfway between whole numbers. -/
def halvesBound : Nat := 2 ^ (52 : Nat)

theorem positive_one : Weighing.positive (Float.ofNat 1) = true :=
  decide_eq_true ((hasUnits_zero.lt_iff hasUnits_one).mpr (units_pos Nat.one_pos 0))

theorem floor_one : Weighing.floor (Float.ofNat 1) = Float.ofNat 1 :=
  if_pos positive_one

theorem size_ofItems (items : List ι) : (ofItems items : Table Float ι).size = items.length :=
  List.length_map _

theorem item_entryAt_ofItems (items : List ι)
    (position : Fin (ofItems items : Table Float ι).size) :
    ((ofItems items : Table Float ι).entryAt position).item
      = items.get (position.cast (size_ofItems items)) := by
  rcases position with ⟨index, inside⟩
  change ((items.map fun item => (⟨item, none⟩ : Entry Float ι)).get ⟨index, inside⟩).item = _
  rw [List.get_eq_getElem, List.getElem_map]
  rfl

theorem item_entryAt_mem (items : List ι) (position : Fin (ofItems items : Table Float ι).size) :
    ((ofItems items : Table Float ι).entryAt position).item ∈ items := by
  rw [item_entryAt_ofItems]
  exact List.get_mem _ _

theorem exists_item_entryAt_eq {items : List ι} {item : ι} (member : item ∈ items) :
    ∃ position, ((ofItems items : Table Float ι).entryAt position).item = item := by
  have listed : (⟨item, none⟩ : Entry Float ι) ∈ (ofItems items : Table Float ι).entries :=
    List.mem_map_of_mem member
  rcases List.get_of_mem listed with ⟨position, same⟩
  exact ⟨position, congrArg Entry.item same⟩

/-- The strategy is asked for every weight, and it always answers one. -/
theorem weights_ofItems (items : List ι) :
    (ofItems items : Table Float ι).weights = List.replicate items.length (Float.ofNat 1) := by
  apply List.ext_getElem
  · rw [length_weights, size_ofItems, List.length_replicate]
  · intro index inside _
    rw [length_weights, size_ofItems] at inside
    have asked : (ofItems items : Table Float ι).entries.any (·.weight.isNone) = true := by
      rw [List.any_eq_true]
      exact ⟨⟨items[index], none⟩, List.mem_map_of_mem (List.getElem_mem inside), rfl⟩
    have answer : (Strategy.flat.weights items.length (none : Option Float)).toArray[index]?
        = some (Float.ofNat 1) := by
      simp [Strategy.weights, Strategy.weight, inside, Weighing.ofCount]
    have placed : index < (ofItems items : Table Float ι).entries.length := by
      rw [← size, size_ofItems]
      exact inside
    have unweighted : (ofItems items : Table Float ι).entries[index].weight = none := by
      simp [ofItems]
    simp only [weights, asked, if_true, List.getElem_mapIdx, unweighted, Option.getD_none]
    rw [size_ofItems, List.getElem_replicate]
    change Weighing.floor (((Strategy.flat.weights items.length
      (none : Option Float)).toArray[index]?).getD (Weighing.ofCount 0)) = _
    rw [answer, Option.getD_some, floor_one]

/-- The units of a sum of ones. From `2 ^ 53` on it does not grow any more. -/
def counted (count : Nat) : Nat :=
  units (min count (2 ^ (53 : Nat))) 0

theorem counted_zero : counted 0 = 0 := by
  rw [counted, Nat.zero_min, units, Nat.zero_mul]

theorem counted_of_le {count : Nat} (bounded : count ≤ 2 ^ (53 : Nat)) :
    counted count = units count 0 := by
  rw [counted, Nat.min_eq_left bounded]

theorem counted_mono {left right : Nat} (fewer : left ≤ right) : counted left ≤ counted right :=
  units_le_units (by omega) 0

theorem representable_count {count : Nat} (bounded : count ≤ 2 ^ (53 : Nat)) :
    Representable (units count 0) := by
  rcases Nat.lt_or_eq_of_le bounded with less | rfl
  · exact representable_units less (by decide) (by decide)
  · have halved := units_mul_two_pow (2 ^ (52 : Nat)) 1 (by decide : (-1074 : Int) ≤ 0)
    have represented := representable_units (by decide : 2 ^ (52 : Nat) < 2 ^ (53 : Nat))
      (by decide : (-1074 : Int) ≤ 0 + (1 : Nat)) (by decide)
    rw [← halved] at represented
    exact represented

/-- One more is lost in the rounding, once a sum of ones does not grow any more. -/
theorem hasUnits_add_one_of_full {reached : Float}
    (has : HasUnits reached (counted (2 ^ (53 : Nat)))) :
    HasUnits (reached + Float.ofNat 1) (counted (2 ^ (53 : Nat))) := by
  have full : Held (2 ^ (52 : Nat)) 1 :=
    ⟨by decide, by decide, by decide, by decide, .inl (by decide)⟩
  have halved := units_mul_two_pow (2 ^ (52 : Nat)) 1 (by decide : (-1074 : Int) ≤ 0)
  rw [counted_of_le (Nat.le_refl _)] at has ⊢
  generalize reachedUnits : units (2 ^ (53 : Nat)) 0 = count at has ⊢
  cases has with
  | zero unpacked => exact absurd reachedUnits (Nat.ne_of_gt (units_pos (by decide) 0))
  | finite held unpacked =>
      rcases held.eq_of_units_eq full (by rw [← reachedUnits]; exact halved) with ⟨rfl, rfl⟩
      have one : (Float.ofNat 1).toModel.unpack
          = .finite .positive (2 ^ (52 : Nat)) (-52) (by decide) := rfl
      have sum : Float.Model.UnpackedFloat.add .binary64
          (.finite .positive (2 ^ (52 : Nat)) 1 full.positive)
          (.finite .positive (2 ^ (52 : Nat)) (-52) (by decide))
            = .finite .positive (2 ^ (52 : Nat)) 1 full.positive := rfl
      change HasUnits (.ofModel (.pack (Float.Model.UnpackedFloat.add .binary64
        reached.toModel.unpack (Float.ofNat 1).toModel.unpack))) _
      rw [unpacked, one, sum]
      exact full.hasUnits

theorem hasUnits_add_one {reached : Float} {count : Nat} (has : HasUnits reached (counted count)) :
    HasUnits (reached + Float.ofNat 1) (counted (count + 1)) := by
  rcases Nat.lt_or_ge count (2 ^ (53 : Nat)) with bounded | full
  · have next : count + 1 ≤ 2 ^ (53 : Nat) := bounded
    have represented := representable_count next
    rw [units_add] at represented
    rw [counted_of_le (Nat.le_of_lt bounded)] at has
    rw [counted_of_le next, units_add]
    exact has.add hasUnits_one represented
  · have same : counted (count + 1) = counted (2 ^ (53 : Nat)) := by
      rw [counted, counted, Nat.min_eq_right (by omega), Nat.min_self]
    have before : counted count = counted (2 ^ (53 : Nat)) := by
      rw [counted, counted, Nat.min_eq_right full, Nat.min_self]
    rw [before] at has
    rw [same]
    exact hasUnits_add_one_of_full has

theorem hasUnits_foldl_replicate_one {start : Float} {before : Nat}
    (has : HasUnits start (counted before)) (count : Nat) :
    HasUnits ((List.replicate count (Float.ofNat 1)).foldl (· + ·) start)
      (counted (before + count)) := by
  induction count generalizing start before with
  | zero => exact has
  | succ count ih =>
      have moved : before + (count + 1) = before + 1 + count := by omega
      rw [moved]
      exact ih (hasUnits_add_one has)

theorem hasUnits_total (items : List ι) :
    HasUnits (ofItems items : Table Float ι).total (counted items.length) := by
  have none : HasUnits (-0.0) (counted 0) := by
    rw [counted_zero]
    exact hasUnits_negative_zero
  have all := hasUnits_foldl_replicate_one none items.length
  rw [Nat.zero_add] at all
  rw [total, weights_ofItems]
  exact all

/-- A flat table with entries can be picked from, however many there are. -/
theorem selectable_ofItems {items : List ι} (present : items ≠ []) :
    (Weighing.positive (ofItems items : Table Float ι).total
      && Weighing.finite (ofItems items : Table Float ι).total) = true := by
  have has := hasUnits_total items
  have count := List.length_pos_iff.mpr present
  have positive : 0 < counted items.length := units_pos (by omega) 0
  rw [Bool.and_eq_true]
  exact ⟨decide_eq_true ((hasUnits_zero.lt_iff has).mpr positive), has.isFinite⟩

theorem entries_ofItems_ne_nil {items : List ι} (present : items ≠ []) :
    (ofItems items : Table Float ι).entries ≠ [] := by
  simpa [ofItems] using present

/-- A flat table with entries draws one number and picks where it falls. -/
theorem pick_ofItems {σ : Type} [RandomSource σ] {items : List ι} (present : items ≠ []) :
    ((ofItems items : Table Float ι).pick : Drawing σ PickError _)
      = (do
        let table : Table Float ι := ofItems items
        let selection ← Drawing.ofDraw (RandomSource.nextDouble table.total)
        return table.positionOf (entries_ofItems_ne_nil present) selection) := by
  rw [pick, dif_pos (entries_ofItems_ne_nil present)]
  dsimp only
  rw [if_pos (selectable_ofItems present)]

/-- Which position is picked from a flat table depends on the number of its entries alone. -/
theorem exists_run_pick_ofItems {σ : Type} [RandomSource σ] (ι : Type) {count : Nat}
    (some : 0 < count) (source : σ) :
    ∃ (index : Nat) (after : σ), ∀ items : List ι, items.length = count →
      ∃ position : Fin (ofItems items : Table Float ι).size, position.val = index ∧
        ((ofItems items).pick : Drawing σ PickError _).run source = (.ok position, after) := by
  let weights := List.replicate count (Float.ofNat 1)
  let drawn := RandomSource.nextDouble (Weighing.sum weights) source
  refine ⟨select weights drawn.1, drawn.2, ?_⟩
  rintro items rfl
  have present : items ≠ [] := List.length_pos_iff.mp some
  have total_eq : (ofItems items : Table Float ι).total = Weighing.sum weights := by
    rw [total, weights_ofItems]
  refine ⟨(ofItems items).positionOf (entries_ofItems_ne_nil present) drawn.1, ?_, ?_⟩
  · exact congrArg (select · drawn.1) (weights_ofItems items)
  · rw [pick_ofItems present]
    dsimp only
    rw [total_eq]
    rfl

/-- A selection between two counts falls on the entry that brings the weights to the upper one. -/
theorem scan_replicate_one {selection reached : Float} {before position count selected : Nat}
    (index last : Nat) (selectionHas : HasUnits selection selected)
    (reachedHas : HasUnits reached (counted before)) (inside : position < count)
    (above : counted (before + position) < selected)
    (below : selected ≤ counted (before + position + 1)) :
    scan selection (List.replicate count (Float.ofNat 1)) index reached last
      = index + position := by
  -- The weights already gone over are counted in `before`, which grows along the scan.
  induction count generalizing before position index last reached with
  | zero => exact absurd inside (Nat.not_lt_zero position)
  | succ count ih =>
      have one := hasUnits_add_one reachedHas
      rw [List.replicate_succ, scan, if_pos positive_one]
      dsimp only
      cases position with
      | zero =>
          exact if_pos (decide_eq_true ((selectionHas.le_iff one).mpr below))
      | succ position =>
          have passed : counted (before + 1) < selected :=
            Nat.lt_of_le_of_lt (counted_mono (by omega)) above
          have later : ¬selection ≤ reached + Float.ofNat 1 := by
            rw [selectionHas.le_iff one]
            omega
          rw [if_neg (by simpa [Weighing.atMost] using later)]
          have moved : before + (position + 1) = before + 1 + position := by omega
          rw [moved] at above below
          have rest := ih (index + 1) index one (by omega) above below
          rw [Nat.add_right_comm, Nat.add_assoc] at rest
          exact rest

/-- A selection that is at most a count falls at most on the entry that brings the weights to
it. -/
theorem scan_replicate_one_le {selection reached : Float} {before position count : Nat}
    (index last : Nat) (reachedHas : HasUnits reached (counted before))
    (inside : position < count)
    (below : ∀ sum, HasUnits sum (counted (before + position + 1)) → selection ≤ sum) :
    scan selection (List.replicate count (Float.ofNat 1)) index reached last
      ≤ index + position := by
  induction count generalizing before position index last reached with
  | zero => exact absurd inside (Nat.not_lt_zero position)
  | succ count ih =>
      have one := hasUnits_add_one reachedHas
      rw [List.replicate_succ, scan, if_pos positive_one]
      dsimp only
      split
      · exact Nat.le_add_right index position
      · rename_i later
        cases position with
        | zero =>
            exact absurd (decide_eq_true (below _ one)) later
        | succ position =>
            have moved : before + (position + 1) = before + 1 + position := by omega
            rw [moved] at below
            have rest := ih (index + 1) index one (by omega) below
            omega

theorem exists_halfway {position : Nat} (bounded : position < halvesBound) :
    ∃ (selection : Float) (selected : Nat), HasUnits selection selected ∧
      counted position < selected ∧ selected < counted (position + 1) := by
  have doubled : ∀ count, units count 0 = units (count * 2 ^ (1 : Nat)) (-1) :=
    fun count => (units_mul_two_pow count 1 (by decide : (-1074 : Int) ≤ -1)).symm
  rw [halvesBound] at bounded
  have narrow : position * 2 + 1 < 2 ^ (53 : Nat) := by omega
  rw [counted_of_le (by omega), counted_of_le (by omega)]
  obtain ⟨selection, has⟩ :=
    representable_units narrow (by decide : (-1074 : Int) ≤ -1) (by decide)
  refine ⟨selection, _, has, ?_, ?_⟩
  · rw [doubled]
    exact units_lt_units (by omega) _
  · rw [doubled]
    exact units_lt_units (by omega) _

/-- In a flat table that is not too long, there is for every entry a number that can be drawn
below the total and falls on it. -/
theorem exists_select_eq {items : List ι} {position : Nat} (bounded : items.length ≤ halvesBound)
    (inside : position < items.length) :
    ∃ selection : Float, 0.0 ≤ selection ∧
      selection < (ofItems items : Table Float ι).total ∧
      select (ofItems items : Table Float ι).weights selection = position := by
  obtain ⟨selection, selected, has, above, below⟩ :=
    exists_halfway (Nat.lt_of_lt_of_le inside bounded)
  have start : HasUnits (Float.ofNat 0) (counted 0) := by
    rw [counted_zero]
    exact hasUnits_zero
  refine ⟨selection, ?_, ?_, ?_⟩
  · rw [hasUnits_literal_zero.le_iff has]
    exact Nat.zero_le _
  · rw [has.lt_iff (hasUnits_total items)]
    exact Nat.lt_of_lt_of_le below (counted_mono inside)
  · rw [← Nat.zero_add position] at above below
    have found : scan selection (List.replicate items.length (Float.ofNat 1)) 0 (Float.ofNat 0) 0
        = 0 + position :=
      scan_replicate_one 0 0 has start inside above (Nat.le_of_lt below)
    rw [Nat.zero_add] at found
    rw [select, weights_ofItems]
    exact found

theorem exists_units_eq_of_le {number : Float} {count : Nat} (has : HasUnits number count)
    (large : units halvesBound 0 ≤ count) : ∃ whole, count = units whole 0 := by
  have full : Held halvesBound 0 := ⟨by decide, by decide, by decide, by decide, .inl (by decide)⟩
  cases has with
  | zero unpacked => exact ⟨0, by rw [units, Nat.zero_mul]⟩
  | @finite significand exponent held unpacked =>
      rcases Int.lt_or_le exponent 0 with negative | whole
      · have := held.units_lt_of_lt full negative
        omega
      · obtain ⟨steps, rfl⟩ := Int.exists_add_of_le whole
        exact ⟨_, (units_mul_two_pow significand steps (by decide)).symm⟩

/-- In a longer table the last entry is never picked. -/
theorem select_add_one_lt {items : List ι} (long : halvesBound < items.length) {selection : Float}
    (below : selection < (ofItems items : Table Float ι).total) :
    select (ofItems items : Table Float ι).weights selection + 1 < items.length := by
  have least : halvesBound + 1 ≤ min items.length (2 ^ (53 : Nat)) :=
    Nat.le_min.mpr ⟨long, by decide⟩
  obtain ⟨position, most⟩ : ∃ position, min items.length (2 ^ (53 : Nat)) = position + 2 :=
    Nat.exists_eq_add_of_le' (Nat.le_trans (by decide) least)
  rw [most] at least
  have fits : halvesBound ≤ position + 1 := Nat.le_of_succ_le_succ least
  have totalHas := hasUnits_total items
  rw [counted, most] at totalHas
  have start : HasUnits (Float.ofNat 0) (counted 0) := by
    rw [counted_zero]
    exact hasUnits_zero
  have reached : ∀ sum, HasUnits sum (counted (0 + position + 1)) → selection ≤ sum := by
    intro sum sumHas
    rw [counted_of_le (by omega), Nat.zero_add] at sumHas
    rcases totalHas.exists_or_forall_le_of_lt below with ⟨selected, has⟩ | lowest
    · rw [has.le_iff sumHas]
      rw [has.lt_iff totalHas] at below
      -- Otherwise the selection is whole, and strictly between two counts next to each other.
      by_contra above
      have large : units halvesBound 0 ≤ selected :=
        Nat.le_trans (units_le_units fits 0) (Nat.le_of_not_le above)
      obtain ⟨whole, same⟩ := exists_units_eq_of_le has large
      rw [same] at above below
      have lower : position + 1 < whole := lt_of_units_lt (Nat.lt_of_not_le above)
      have upper : whole < position + 2 := lt_of_units_lt below
      omega
    · exact lowest sum _ sumHas
  have found := scan_replicate_one_le 0 0 start (by omega : position < items.length) reached
  rw [select, weights_ofItems]
  change scan selection (List.replicate items.length (Float.ofNat 1)) 0 (Float.ofNat 0) 0 + 1 < _
  omega

theorem attains_pick {items : List ι} (bounded : items.length ≤ halvesBound)
    (position : Fin (ofItems items : Table Float ι).size) :
    Attains (ofItems items : Table Float ι).pick position := by
  have inside : position.val < items.length := by
    rw [← size_ofItems items]
    exact position.isLt
  have present : items ≠ [] := by
    rintro rfl
    exact absurd inside (Nat.not_lt_zero _)
  obtain ⟨selection, above, below, found⟩ := exists_select_eq bounded inside
  rw [pick_ofItems present]
  apply (Attains.nextDouble above below).bind
  have same : (ofItems items : Table Float ι).positionOf (entries_ofItems_ne_nil present)
      selection = position := Fin.ext found
  rw [same]
  exact Attains.pure position

end Wordloom.Table
