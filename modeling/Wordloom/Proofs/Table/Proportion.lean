import Wordloom.Proofs.Table.Exact

/-!
# Picking in proportion to weight

This file shows how a scan divides the selections up to the total among the entries of a table,
when weights are added up exactly. The selections that fall on an entry are those above the sum
of the weights before it, up to its own weight more. So they are as many as its weight says. The
selection zero is above no sum and falls on the first entry with a positive weight, and the total
itself on the last one, like the selections right below it.

That an entry is found before the weights run out is said by `stop?`, which is a scan without
anything to fall back on.
-/

namespace Wordloom.Table

section Arithmetic

open Weighing

variable {α ι : Type} [Weighing α]

/-- The position at which a scan stops before the weights run out, if it does. -/
def stop? (selection : α) : (weights : List α) → (reached : α) → Option ℕ
  | [], _ => none
  | weight :: rest, reached =>
    if positive weight then
      if atMost selection (reached + weight) then some 0
      else (stop? selection rest (reached + weight)).map (· + 1)
    else (stop? selection rest reached).map (· + 1)

/-- The last position with a positive weight, or else a position that is given. -/
def lastPositive : (weights : List α) → (index : ℕ) → (last : ℕ) → ℕ
  | [], _, last => last
  | weight :: rest, index, last =>
    lastPositive rest (index + 1) (if positive weight then index else last)

/-- A scan falls back on the last position with a positive weight only if it does not stop. -/
theorem scan_eq_getD (selection : α) (weights : List α) (index : ℕ) (reached : α) (last : ℕ) :
    scan selection weights index reached last
      = ((stop? selection weights reached).map (index + ·)).getD
        (lastPositive weights index last) := by
  induction weights generalizing index reached last with
  | nil => rfl
  | cons weight rest ih =>
      have shifted (reached : α) (fallback : ℕ) :
          ((stop? selection rest reached).map (index + 1 + ·)).getD fallback
            = (((stop? selection rest reached).map (· + 1)).map (index + ·)).getD fallback := by
        rw [Option.map_map]
        congr 2
        funext offset
        simp only [Function.comp_apply]
        omega
      rw [scan, stop?, lastPositive]
      dsimp only
      split
      · split
        · rfl
        · rw [ih, shifted]
      · rw [ih, shifted]

theorem select_eq_getD (weights : List α) (selection : α) :
    select weights selection
      = (stop? selection weights (ofCount 0)).getD (lastPositive weights 0 0) := by
  rw [select, scan_eq_getD]
  simp

/-- The entry that a scan stops at. -/
def stopped? (selection : α) (entries : List (ι × α)) (reached : α) : Option (ι × α) :=
  (stop? selection (entries.map Prod.snd) reached).bind (entries[·]?)

/-- Entries without a positive weight may stand anywhere or be missing. -/
theorem stopped?_filter (selection : α) (entries : List (ι × α)) (reached : α) :
    stopped? selection (entries.filter (positive ·.2)) reached
      = stopped? selection entries reached := by
  induction entries generalizing reached with
  | nil => rfl
  | cons entry rest ih =>
      have later (reached : α) (before : List (ι × α)) :
          ((stop? selection (before.map Prod.snd) reached).map (· + 1)).bind
              ((entry :: before)[·]?)
            = stopped? selection before reached := by
        rw [stopped?, Option.bind_map]
        rfl
      rw [List.filter_cons]
      split
      · rename_i isPositive
        rw [stopped?, stopped?, List.map_cons, List.map_cons, stop?, stop?, if_pos isPositive,
          if_pos isPositive]
        split
        · rfl
        · rw [later, later, ih]
      · rename_i notPositive
        rw [ih, ← later, stopped?, List.map_cons, stop?, if_neg notPositive]

end Arithmetic

section Exact

open Weighing

/-- The sum of the first weights. -/
def upTo {α : Type} [AddCommMonoid α] (weights : List α) (count : ℕ) : α :=
  (weights.take count).sum

section Sums

variable {α : Type} [AddCommMonoid α]

theorem upTo_zero (weights : List α) : upTo weights 0 = 0 :=
  rfl

theorem upTo_cons_succ (weight : α) (rest : List α) (count : ℕ) :
    upTo (weight :: rest) (count + 1) = weight + upTo rest count :=
  List.sum_cons

theorem upTo_succ {weights : List α} {index : ℕ} (inside : index < weights.length) :
    upTo weights (index + 1) = upTo weights index + weights[index] :=
  List.sum_take_succ weights index inside

theorem upTo_of_length_le {weights : List α} {count : ℕ} (all : weights.length ≤ count) :
    upTo weights count = weights.sum := by
  rw [upTo, List.take_of_length_le all]

variable [LinearOrder α] [IsOrderedAddMonoid α] {weights : List α}

theorem upTo_nonneg (nonneg : ∀ weight ∈ weights, 0 ≤ weight) (count : ℕ) :
    0 ≤ upTo weights count :=
  List.sum_nonneg fun weight member => nonneg weight (List.mem_of_mem_take member)

theorem upTo_mono (nonneg : ∀ weight ∈ weights, 0 ≤ weight) : Monotone (upTo weights) := by
  refine monotone_nat_of_le_succ fun index => ?_
  rcases Nat.lt_or_ge index weights.length with inside | outside
  · rw [upTo_succ inside]
    exact le_add_of_nonneg_right (nonneg _ (List.getElem_mem inside))
  · rw [upTo_of_length_le outside, upTo_of_length_le (Nat.le_succ_of_le outside)]

theorem upTo_le_sum (nonneg : ∀ weight ∈ weights, 0 ≤ weight) (count : ℕ) :
    upTo weights count ≤ weights.sum := by
  rw [← upTo_of_length_le (Nat.le_add_left weights.length count)]
  exact upTo_mono nonneg (Nat.le_add_right count _)

end Sums

variable {α : Type} [Field α] [LinearOrder α] (bell : α → α) {weights : List α}

theorem stop?_cons (selection weight : α) (rest : List α) (reached : α) :
    @stop? α (exact bell) selection (weight :: rest) reached =
      if 0 < weight then
        if selection ≤ reached + weight then some 0
        else (@stop? α (exact bell) selection rest (reached + weight)).map (· + 1)
      else (@stop? α (exact bell) selection rest reached).map (· + 1) := by
  simp only [stop?, positive_exact, atMost_exact, decide_eq_true_eq]

theorem select_exact_eq_getD (weights : List α) (selection : α) :
    @select α (exact bell) weights selection
      = (@stop? α (exact bell) selection weights 0).getD
        (@lastPositive α (exact bell) weights 0 0) := by
  rw [@select_eq_getD α (exact bell), ofCount_exact, Nat.cast_zero]

theorem select_eq_of_stop?_exact {selection : α} {index : ℕ}
    (stopped : @stop? α (exact bell) selection weights 0 = some index) :
    @select α (exact bell) weights selection = index := by
  rw [select_exact_eq_getD, stopped, Option.getD_some]

variable [IsStrictOrderedRing α]

/-- Above what was reached before, a scan stops where the weights added up pass the selection. -/
theorem stop?_eq_some_iff_of_lt (nonneg : ∀ weight ∈ weights, 0 ≤ weight) {selection reached : α}
    (above : reached < selection) (offset : ℕ) :
    @stop? α (exact bell) selection weights reached = some offset ↔
      reached + upTo weights offset < selection ∧
        selection ≤ reached + upTo weights (offset + 1) := by
  induction weights generalizing reached offset with
  | nil =>
      constructor
      · intro stopped
        cases stopped
      · rintro ⟨below, atMost⟩
        rw [upTo_of_length_le (Nat.zero_le _)] at below atMost
        exact absurd atMost (not_le_of_gt below)
  | cons weight rest ih =>
      have restNonneg : ∀ other ∈ rest, 0 ≤ other := fun other member =>
        nonneg other (List.mem_cons_of_mem _ member)
      rw [stop?_cons]
      by_cases isPositive : 0 < weight
      · rw [if_pos isPositive]
        by_cases reaches : selection ≤ reached + weight
        · rw [if_pos reaches]
          cases offset with
          | zero => simpa [upTo_zero, upTo_cons_succ, above] using reaches
          | succ offset =>
              have further := upTo_nonneg restNonneg offset
              have passed : ¬reached + upTo (weight :: rest) (offset + 1) < selection := by
                rw [upTo_cons_succ]
                linarith
              simp [passed]
        · rw [if_neg reaches]
          cases offset with
          | zero => simpa [upTo_zero, upTo_cons_succ, above] using reaches
          | succ offset =>
              rw [upTo_cons_succ, upTo_cons_succ, ← add_assoc, ← add_assoc,
                ← ih restNonneg (not_le.mp reaches)]
              simp
      · have zero : weight = 0 :=
          le_antisymm (not_lt.mp isPositive) (nonneg weight List.mem_cons_self)
        subst zero
        rw [if_neg isPositive]
        cases offset with
        | zero => simp [upTo_zero, upTo_cons_succ, above]
        | succ offset =>
            rw [upTo_cons_succ, upTo_cons_succ, zero_add, zero_add, ← ih restNonneg above]
            simp

omit [IsStrictOrderedRing α] in
/-- What was reached before is reached again at the first positive weight. -/
theorem stop?_of_le [IsOrderedAddMonoid α] {selection reached : α} (atMost : selection ≤ reached) :
    @stop? α (exact bell) selection weights reached = weights.findIdx? (0 < ·) := by
  induction weights with
  | nil => rfl
  | cons weight rest ih =>
      rw [stop?_cons, List.findIdx?_cons]
      by_cases isPositive : 0 < weight
      · have reaches : selection ≤ reached + weight := le_add_of_le_of_nonneg atMost isPositive.le
        rw [if_pos isPositive, if_pos reaches, if_pos (decide_eq_true isPositive)]
      · rw [if_neg isPositive, if_neg (by simpa using isPositive), ih]

/-- A selection up to the total is reached before the weights run out. -/
theorem exists_stop?_eq_some (nonneg : ∀ weight ∈ weights, 0 ≤ weight)
    (positive : 0 < weights.sum) {selection reached : α}
    (atMost : selection ≤ reached + weights.sum) :
    ∃ index, @stop? α (exact bell) selection weights reached = some index := by
  induction weights generalizing reached with
  | nil => exact absurd positive (lt_irrefl 0)
  | cons weight rest ih =>
      have restNonneg : ∀ other ∈ rest, 0 ≤ other := fun other member =>
        nonneg other (List.mem_cons_of_mem _ member)
      rw [List.sum_cons] at positive atMost
      rw [stop?_cons]
      by_cases isPositive : 0 < weight
      · rw [if_pos isPositive]
        by_cases reaches : selection ≤ reached + weight
        · exact ⟨0, if_pos reaches⟩
        · have more : 0 < rest.sum := by linarith
          have further : selection ≤ reached + weight + rest.sum := by linarith
          rcases ih restNonneg more further with ⟨index, stopped⟩
          rw [if_neg reaches, stopped]
          exact ⟨index + 1, rfl⟩
      · have zero : weight = 0 :=
          le_antisymm (not_lt.mp isPositive) (nonneg weight List.mem_cons_self)
        rw [zero, zero_add] at positive atMost
        rcases ih restNonneg positive atMost with ⟨index, stopped⟩
        rw [if_neg isPositive, stopped]
        exact ⟨index + 1, rfl⟩

/-- Up to the total a selection falls on the position that the scan stops at. -/
theorem stop?_eq_some_select (nonneg : ∀ weight ∈ weights, 0 ≤ weight)
    (positive : 0 < weights.sum) {selection : α} (atMost : selection ≤ weights.sum) :
    @stop? α (exact bell) selection weights 0 = some (@select α (exact bell) weights selection) := by
  rw [← zero_add weights.sum] at atMost
  rcases exists_stop?_eq_some bell nonneg positive atMost with ⟨index, stopped⟩
  rw [stopped, select_eq_of_stop?_exact bell stopped]

/-- A selection above zero falls on the entry between whose sums it is. -/
theorem select_eq_iff (nonneg : ∀ weight ∈ weights, 0 ≤ weight) {selection : α}
    (above : 0 < selection) (atMost : selection ≤ weights.sum) (index : ℕ) :
    @select α (exact bell) weights selection = index ↔
      upTo weights index < selection ∧ selection ≤ upTo weights (index + 1) := by
  have stopped := stop?_eq_some_select bell nonneg (above.trans_le atMost) atMost
  have between := stop?_eq_some_iff_of_lt bell nonneg above index
  rw [stopped, zero_add, zero_add, Option.some.injEq] at between
  exact between

/-- The selection zero falls on the first entry with a positive weight. -/
theorem findIdx?_eq_some_select_zero (nonneg : ∀ weight ∈ weights, 0 ≤ weight)
    (positive : 0 < weights.sum) :
    weights.findIdx? (0 < ·) = some (@select α (exact bell) weights 0) := by
  rw [← stop?_eq_some_select bell nonneg positive positive.le, stop?_of_le bell le_rfl]

theorem exists_weight_of_upTo_lt {index : ℕ} (less : upTo weights index < upTo weights (index + 1)) :
    ∃ inside : index < weights.length, 0 < weights[index] := by
  rcases Nat.lt_or_ge index weights.length with inside | outside
  · refine ⟨inside, ?_⟩
    rw [upTo_succ inside] at less
    exact pos_of_lt_add_right less
  · rw [upTo_of_length_le outside, upTo_of_length_le (Nat.le_succ_of_le outside)] at less
    exact absurd less (lt_irrefl _)

/-- A selection falls on the first position whose weight is positive and brings the sum to it. -/
theorem isLeast_select (nonneg : ∀ weight ∈ weights, 0 ≤ weight) (positive : 0 < weights.sum)
    {selection : α} (fromZero : 0 ≤ selection) (atMost : selection ≤ weights.sum) :
    IsLeast {index | ∃ inside : index < weights.length, 0 < weights[index] ∧
      selection ≤ upTo weights (index + 1)} (@select α (exact bell) weights selection) := by
  rcases fromZero.eq_or_lt with rfl | above
  · have first := findIdx?_eq_some_select_zero bell nonneg positive
    rw [List.findIdx?_eq_some_iff_getElem] at first
    rcases first with ⟨inside, isPositive, notBefore⟩
    refine ⟨⟨inside, of_decide_eq_true isPositive, upTo_nonneg nonneg _⟩, ?_⟩
    rintro index ⟨_, indexPositive, -⟩
    by_contra before
    exact notBefore index (not_le.mp before) (decide_eq_true indexPositive)
  · have between := (select_eq_iff bell nonneg above atMost _).mp rfl
    rcases exists_weight_of_upTo_lt (between.1.trans_le between.2) with ⟨inside, isPositive⟩
    refine ⟨⟨inside, isPositive, between.2⟩, ?_⟩
    rintro index ⟨-, -, reached⟩
    by_contra before
    have passed := upTo_mono nonneg (Nat.succ_le_of_lt (not_le.mp before))
    exact absurd (reached.trans passed) (not_le_of_gt between.1)

/-- Of two selections, the greater one falls no earlier. -/
theorem select_mono (nonneg : ∀ weight ∈ weights, 0 ≤ weight) (positive : 0 < weights.sum)
    {lower upper : α} (fromZero : 0 ≤ lower) (ordered : lower ≤ upper)
    (atMost : upper ≤ weights.sum) :
    @select α (exact bell) weights lower ≤ @select α (exact bell) weights upper := by
  have lowerLeast := isLeast_select bell nonneg positive fromZero (ordered.trans atMost)
  have upperLeast := isLeast_select bell nonneg positive (fromZero.trans ordered) atMost
  rcases upperLeast.1 with ⟨inside, isPositive, reached⟩
  exact lowerLeast.2 ⟨inside, isPositive, ordered.trans reached⟩

/-- The selections below the total that fall on a position. -/
def share (weights : List α) (index : ℕ) : Set α :=
  {selection ∈ Set.Ico 0 weights.sum | @select α (exact bell) weights selection = index}

theorem share_diff_zero (nonneg : ∀ weight ∈ weights, 0 ≤ weight) (index : ℕ) :
    share bell weights index \ {0}
      = Set.Ioc (upTo weights index) (upTo weights (index + 1)) ∩ Set.Iio weights.sum := by
  ext selection
  constructor
  · rintro ⟨⟨⟨fromZero, below⟩, fallen⟩, notZero⟩
    have above : 0 < selection := lt_of_le_of_ne fromZero (Ne.symm notZero)
    exact ⟨(select_eq_iff bell nonneg above below.le index).mp fallen, below⟩
  · rintro ⟨between, below⟩
    have above : 0 < selection := (upTo_nonneg nonneg index).trans_lt between.1
    exact ⟨⟨⟨above.le, below⟩, (select_eq_iff bell nonneg above (le_of_lt below) index).mpr between⟩,
      above.ne'⟩

/-- Nothing falls on an entry without weight. -/
theorem share_eq_empty (nonneg : ∀ weight ∈ weights, 0 ≤ weight) {index : ℕ}
    (weightless : weights[index]? = some 0) : share bell weights index = ∅ := by
  rw [Set.eq_empty_iff_forall_notMem]
  rintro selection ⟨⟨fromZero, below⟩, fallen⟩
  have least := isLeast_select bell nonneg (fromZero.trans_lt below) fromZero below.le
  rcases least.1 with ⟨inside, isPositive, -⟩
  rw [List.getElem?_eq_some_iff] at weightless
  rcases weightless with ⟨_, zero⟩
  subst fallen
  rw [zero] at isPositive
  exact absurd isPositive (lt_irrefl 0)

omit [IsStrictOrderedRing α] in
/-- What is chosen depends on the entries of positive weight alone. -/
theorem getElem?_select_of_filter_eq {ι : Type} {entries others : List (ι × α)} {entry : ι × α}
    (same : others.filter (0 < ·.2) = entries.filter (0 < ·.2)) {selection : α} {index : ℕ}
    (stopped : @stop? α (exact bell) selection (entries.map Prod.snd) 0 = some index)
    (found : entries[index]? = some entry) :
    others[@select α (exact bell) (others.map Prod.snd) selection]? = some entry := by
  have filtered (list : List (ι × α)) :
      @stopped? α ι (exact bell) selection (list.filter (0 < ·.2)) 0
        = @stopped? α ι (exact bell) selection list 0 :=
    @stopped?_filter α ι (exact bell) selection list 0
  have chosen : @stopped? α ι (exact bell) selection others 0 = some entry := by
    rw [← filtered, same, filtered]
    exact (congrArg (Option.bind · (entries[·]?)) stopped).trans found
  rcases Option.bind_eq_some_iff.mp chosen with ⟨other, otherStopped, otherFound⟩
  rw [select_eq_of_stop?_exact bell otherStopped]
  exact otherFound

end Exact

section Length

open MeasureTheory

variable (bell : ℝ → ℝ) {weights : List ℝ}

/-- As many selections fall on an entry as its weight says. -/
theorem volume_share (nonneg : ∀ weight ∈ weights, 0 ≤ weight) {index : ℕ}
    (inside : index < weights.length) :
    volume (share bell weights index) = ENNReal.ofReal weights[index] := by
  have difference : upTo weights (index + 1) - upTo weights index = weights[index] := by
    rw [upTo_succ inside, add_sub_cancel_left]
  rw [← measure_sdiff_null (Real.volume_singleton (a := 0)), share_diff_zero bell nonneg]
  -- Only the last interval is cut, and it loses no more than its upper end.
  rcases (upTo_le_sum nonneg (index + 1)).lt_or_eq with less | last
  · have whole : Set.Ioc (upTo weights index) (upTo weights (index + 1)) ⊆ Set.Iio weights.sum :=
      fun selection between => between.2.trans_lt less
    rw [Set.inter_eq_left.mpr whole, Real.volume_Ioc, difference]
  · have cut : Set.Ioc (upTo weights index) (upTo weights (index + 1)) ∩ Set.Iio weights.sum
        = Set.Ioo (upTo weights index) (upTo weights (index + 1)) := by
      rw [← last]
      ext selection
      exact ⟨fun ⟨between, below⟩ => ⟨between.1, below⟩,
        fun inside => ⟨⟨inside.1, inside.2.le⟩, inside.2⟩⟩
    rw [cut, Real.volume_Ioo, difference]

end Length

/-- In exact arithmetic a selection up to the total falls on the first entry of positive weight
that brings the sum to it, and the scan stops there. Greater selections fall no earlier, and
entries without weight may be put in or taken out anywhere. Every selection below the total falls
on one entry. But for the selection zero, those that fall on an entry are an interval as long as
its weight, open below and closed above where it is not cut off by the total. -/
theorem selections_are_shared_in_proportion (bell : ℝ → ℝ) {weights : List ℝ}
    (nonneg : ∀ weight ∈ weights, 0 ≤ weight) (positive : 0 < weights.sum) :
    @Weighing.sum ℝ (.exact bell) weights = weights.sum ∧
    (∀ selection ∈ Set.Icc 0 weights.sum,
      IsLeast {index | ∃ inside : index < weights.length, 0 < weights[index] ∧
        selection ≤ upTo weights (index + 1)} (@select ℝ (.exact bell) weights selection)) ∧
    (∀ selection, @select ℝ (.exact bell) weights selection
      = (@stop? ℝ (.exact bell) selection weights 0).getD
        (@lastPositive ℝ (.exact bell) weights 0 0)) ∧
    (∀ selection ∈ Set.Icc 0 weights.sum, (@stop? ℝ (.exact bell) selection weights 0).isSome) ∧
    (∀ index, share bell weights index \ {0}
      = Set.Ioc (upTo weights index) (upTo weights (index + 1)) ∩ Set.Iio weights.sum) ∧
    (∀ index (inside : index < weights.length),
      upTo weights (index + 1) - upTo weights index = weights[index] ∧
      MeasureTheory.volume (share bell weights index) = ENNReal.ofReal weights[index] ∧
      (weights[index] = 0 → share bell weights index = ∅)) ∧
    (∀ selection ∈ Set.Ico 0 weights.sum,
      ∃! index, index < weights.length ∧ selection ∈ share bell weights index) ∧
    MonotoneOn (@select ℝ (.exact bell) weights) (Set.Icc 0 weights.sum) ∧
    ∀ {ι : Type} (entries others : List (ι × ℝ)), entries.map Prod.snd = weights →
      others.filter (0 < ·.2) = entries.filter (0 < ·.2) →
      ∀ selection ∈ Set.Icc 0 weights.sum, ∃ entry,
        entries[@select ℝ (.exact bell) weights selection]? = some entry ∧
        others[@select ℝ (.exact bell) (others.map Prod.snd) selection]? = some entry := by
  have least : ∀ selection ∈ Set.Icc 0 weights.sum, IsLeast _ _ := fun selection between =>
    isLeast_select bell nonneg positive between.1 between.2
  have stopped : ∀ selection ∈ Set.Icc 0 weights.sum, _ = some _ := fun selection between =>
    stop?_eq_some_select bell nonneg positive between.2
  refine ⟨Weighing.sum_exact bell weights, least, select_exact_eq_getD bell weights, ?_,
    share_diff_zero bell nonneg, ?_, ?_, ?_, ?_⟩
  · intro selection between
    rw [stopped selection between]
    rfl
  · intro index inside
    refine ⟨?_, volume_share bell nonneg inside, fun weightless => ?_⟩
    · rw [upTo_succ inside, add_sub_cancel_left]
    · refine share_eq_empty bell nonneg ?_
      rw [List.getElem?_eq_getElem inside, weightless]
  · intro selection between
    rcases (least selection (Set.Ico_subset_Icc_self between)).1 with ⟨inside, -, -⟩
    refine ⟨_, ⟨inside, between, rfl⟩, ?_⟩
    rintro index ⟨-, -, fallen⟩
    exact fallen.symm
  · intro lower lowerBetween upper upperBetween ordered
    exact select_mono bell nonneg positive lowerBetween.1 ordered upperBetween.2
  · rintro ι entries others rfl same selection between
    rcases (least selection between).1 with ⟨inside, -, -⟩
    rw [List.length_map] at inside
    refine ⟨entries[_], List.getElem?_eq_getElem inside, ?_⟩
    refine getElem?_select_of_filter_eq bell same ?_ (List.getElem?_eq_getElem inside)
    exact stopped selection between

/-- Three of four selections fall on the last of these entries, and none on the first or the
third. The total falls on the last one as well. -/
theorem selections_are_shared_in_proportion_uneven :
    let bell : ℝ → ℝ := fun distance => Real.exp (-0.5 * distance * distance)
    let weights : List ℝ := [0, 1, 0, 3]
    (∀ weight ∈ weights, 0 ≤ weight) ∧ 0 < weights.sum ∧
      share bell weights 0 = ∅ ∧ share bell weights 2 = ∅ ∧
      share bell weights 3 \ {0} = Set.Ioc 1 4 ∩ Set.Iio 4 ∧
      MeasureTheory.volume (share bell weights 3) = ENNReal.ofReal 3 ∧
      @select ℝ (.exact bell) weights weights.sum = 3 := by
  intro bell weights
  have nonneg : ∀ weight ∈ weights, 0 ≤ weight := by simp [weights]
  have total : weights.sum = 4 := by norm_num [weights]
  have before : upTo weights 3 = 1 := by norm_num [weights, upTo]
  have after : upTo weights 4 = 4 := by norm_num [weights, upTo]
  have positive : 0 < weights.sum := by rw [total]; norm_num
  have all := selections_are_shared_in_proportion bell nonneg positive
  rcases all with ⟨-, least, -, -, intervals, lengths, -⟩
  have last := intervals 3
  rw [before, after, total] at last
  have atTotal : @select ℝ (.exact bell) weights weights.sum = 3 := by
    refine (least weights.sum ⟨positive.le, le_rfl⟩).unique ⟨?_, ?_⟩
    · exact ⟨by simp [weights], by norm_num [weights], by rw [total, after]⟩
    · rintro index ⟨-, -, reached⟩
      by_contra earlier
      have passed := reached.trans (upTo_mono nonneg (not_le.mp earlier : index + 1 ≤ 3))
      rw [total, before] at passed
      norm_num at passed
  exact ⟨nonneg, positive, (lengths 0 (by simp [weights])).2.2 rfl,
    (lengths 2 (by simp [weights])).2.2 rfl, last, (lengths 3 (by simp [weights])).2.1, atTotal⟩

end Wordloom.Table
