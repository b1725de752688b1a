import Mathlib.Data.List.Forall2
import Wordloom.Stream.Drawing

/-!
# Outcomes one after the other

This file describes what becomes of things that are tried one after the other and stop at the
first failure. Either all of them succeed, and there are as many values as things; or there is a
first one that fails, and its error is that of the whole.

Things are numbered from one. The outcome of a number stands for itself, so nothing here depends
on what was tried before it.
-/

namespace Wordloom

variable {ε α β σ : Type}

/-- The values of the first outcomes, all of which succeed. -/
structure AllSucceed (outcome : Nat → Except ε α) (count : Nat) (values : List α) : Prop where
  length_eq : values.length = count
  outcome_eq : ∀ index (inside : index < values.length),
    outcome (index + 1) = .ok values[index]

/-- The error of the first outcome that fails, among the outcomes up to a count. -/
def FirstFailure (outcome : Nat → Except ε α) (count : Nat) (cause : ε) : Prop :=
  ∃ index, 1 ≤ index ∧ index ≤ count ∧ outcome index = .error cause ∧
    ∀ earlier, 1 ≤ earlier → earlier < index → ∃ value, outcome earlier = .ok value

/-- The outcomes up to a count, one after the other. -/
def outcomes (outcome : Nat → Except ε α) (count : Nat) : Except ε (List α) :=
  (List.range count).mapM fun index => outcome (index + 1)

theorem mapM_eq_ok_iff {f : β → Except ε α} {items : List β} {values : List α} :
    items.mapM f = .ok values ↔
      List.Forall₂ (fun item value => f item = .ok value) items values := by
  induction items generalizing values with
  | nil =>
      rw [List.mapM_nil, List.forall₂_nil_left_iff]
      constructor
      · intro done
        cases done
        rfl
      · rintro rfl
        rfl
  | cons item items ih =>
      rw [List.mapM_cons, List.forall₂_cons_left_iff]
      rcases first : f item with cause | value
      · simp [bind, Except.bind]
      · rcases rest : items.mapM f with cause | others
        · simp only [bind, Except.bind, reduceCtorEq, false_iff]
          rintro ⟨_, later, -, related, -⟩
          rw [ih.mpr related] at rest
          cases rest
        · have related := ih.mp rest
          simp only [bind, Except.bind, pure, Except.pure, Except.ok.injEq]
          constructor
          · rintro rfl
            exact ⟨value, others, rfl, related, rfl⟩
          · rintro ⟨_, later, rfl, laterRelated, rfl⟩
            have same := ih.mpr laterRelated
            rw [rest] at same
            rw [Except.ok.inj same]

theorem mapM_eq_error_iff {f : β → Except ε α} {items : List β} {cause : ε} :
    items.mapM f = .error cause ↔
      ∃ before item after, items = before ++ item :: after ∧ f item = .error cause ∧
        ∀ earlier ∈ before, ∃ value, f earlier = .ok value := by
  induction items with
  | nil =>
      rw [List.mapM_nil]
      simp [pure, Except.pure]
  | cons item items ih =>
      rw [List.mapM_cons]
      constructor
      · intro failed
        rcases first : f item with reason | value
        · simp only [first, bind, Except.bind, Except.error.injEq] at failed
          exact ⟨[], item, items, rfl, by rw [first, failed], by simp⟩
        · rcases rest : items.mapM f with reason | others
          · simp only [first, rest, bind, Except.bind, Except.error.injEq] at failed
            rcases ih.mp (by rw [rest, failed]) with ⟨before, bad, after, whole, bads, goods⟩
            refine ⟨item :: before, bad, after, by rw [whole, List.cons_append], bads, ?_⟩
            intro earlier member
            rcases List.mem_cons.mp member with same | member
            · exact ⟨value, by rw [same, first]⟩
            · exact goods earlier member
          · simp [first, rest, bind, Except.bind, pure, Except.pure] at failed
      · rintro ⟨before, bad, after, whole, bads, goods⟩
        rcases before with _ | ⟨head, before⟩
        · rcases List.cons.inj whole with ⟨rfl, rfl⟩
          simp [bads, bind, Except.bind]
        · rw [List.cons_append] at whole
          rcases List.cons.inj whole with ⟨rfl, rfl⟩
          simp only [List.forall_mem_cons] at goods
          rcases goods with ⟨⟨value, good⟩, goods⟩
          have later := ih.mpr ⟨before, bad, after, rfl, bads, goods⟩
          simp [good, later, bind, Except.bind]

theorem outcomes_eq_ok_iff {outcome : Nat → Except ε α} {count : Nat} {values : List α} :
    outcomes outcome count = .ok values ↔ AllSucceed outcome count values := by
  rw [outcomes, mapM_eq_ok_iff, List.forall₂_iff_get]
  constructor
  · rintro ⟨length, related⟩
    rw [List.length_range] at length
    refine ⟨length.symm, ?_⟩
    intro index inside
    have found := related index (by rw [List.length_range]; omega) inside
    simpa using found
  · rintro ⟨length, related⟩
    refine ⟨by rw [List.length_range, length], ?_⟩
    intro index _ inside
    have found := related index inside
    simpa using found

theorem outcomes_eq_error_iff {outcome : Nat → Except ε α} {count : Nat} {cause : ε} :
    outcomes outcome count = .error cause ↔ FirstFailure outcome count cause := by
  rw [outcomes, mapM_eq_error_iff]
  constructor
  · rintro ⟨before, index, after, whole, failed, goods⟩
    -- The index that fails is the count of those before it, which are all smaller ones.
    have length := congrArg List.length whole
    rw [List.length_range, List.length_append, List.length_cons] at length
    have taken := congrArg (List.take before.length) whole
    rw [List.take_range, List.take_left, Nat.min_eq_left (by omega)] at taken
    have place := congrArg (fun list => list[before.length]?) whole
    simp only [List.getElem?_append_right (Nat.le_refl before.length), Nat.sub_self,
      List.getElem?_cons_zero, List.getElem?_range (by omega : before.length < count),
      Option.some.injEq] at place
    subst place
    refine ⟨before.length + 1, by omega, by omega, failed, ?_⟩
    intro earlier positive less
    have member : earlier - 1 ∈ before := by
      rw [← taken, List.mem_range]
      omega
    have good := goods (earlier - 1) member
    rwa [Nat.sub_add_cancel positive] at good
  · rintro ⟨index, positive, inside, failed, goods⟩
    refine ⟨(List.range count).take (index - 1), index - 1, (List.range count).drop index,
      ?_, by rwa [Nat.sub_add_cancel positive], ?_⟩
    · have split := List.take_append_drop (index - 1) (List.range count)
      rw [List.drop_eq_getElem_cons (by rw [List.length_range]; omega), List.getElem_range,
        Nat.sub_add_cancel positive] at split
      exact split.symm
    · intro earlier member
      rw [List.take_range, List.mem_range] at member
      exact goods (earlier + 1) (by omega) (by omega)

theorem AllSucceed.take {outcome : Nat → Except ε α} {count smaller : Nat} {values : List α}
    (succeed : AllSucceed outcome count values) (fewer : smaller ≤ count) :
    AllSucceed outcome smaller (values.take smaller) := by
  rcases succeed with ⟨length, related⟩
  refine ⟨by rw [List.length_take]; omega, ?_⟩
  intro index inside
  rw [List.length_take] at inside
  rw [List.getElem_take]
  exact related index (by omega)

theorem mapM_mapError {δ : Type} (explain : δ → ε) (f : β → Except δ α) (items : List β) :
    (items.mapM f).mapError explain = items.mapM fun item => (f item).mapError explain := by
  induction items with
  | nil => rfl
  | cons item items ih =>
      rw [List.mapM_cons, List.mapM_cons, ← ih]
      rcases f item with cause | value
      · rfl
      · rcases items.mapM f with cause | values
        · rfl
        · rfl

/-- Going on with the values of things that all succeed is going on with each of them at once. -/
theorem mapM_bind_of_forall₂ {γ : Type} {f : β → Except ε γ} {next : γ → Except ε α}
    {items : List β} {values : List γ}
    (succeed : List.Forall₂ (fun item value => f item = .ok value) items values) :
    (items.mapM fun item => (f item).bind next) = values.mapM next := by
  induction succeed with
  | nil => rfl
  | cons first rest ih =>
      rw [List.mapM_cons, List.mapM_cons, ih, first]
      rfl

section Conversion

variable {δ γ : Type} (outcome : Nat → Except ε γ) (convert : γ → Except δ α) (explain : δ → ε)
  {count : Nat}

def converted (index : Nat) : Except ε α :=
  (outcome index).bind fun value => (convert value).mapError explain

/-- Outcomes whose values are converted once all of them are there. -/
def convertedTogether (count : Nat) : Except ε (List α) :=
  (outcomes outcome count).bind fun values => (values.mapM convert).mapError explain

variable {outcome convert explain}

theorem convertedTogether_of_allSucceed {values : List γ}
    (succeed : AllSucceed outcome count values) :
    convertedTogether outcome convert explain count
      = outcomes (converted outcome convert explain) count := by
  have done := outcomes_eq_ok_iff.mpr succeed
  rw [convertedTogether, done]
  change (values.mapM convert).mapError explain = _
  rw [mapM_mapError]
  exact (mapM_bind_of_forall₂ (mapM_eq_ok_iff.mp done)).symm

theorem AllSucceed.of_converted {results : List α}
    (succeed : AllSucceed (converted outcome convert explain) count results) :
    ∃ values, AllSucceed outcome count values := by
  rcases done : outcomes outcome count with cause | values
  · rcases outcomes_eq_error_iff.mp done with ⟨index, positive, inside, failed, -⟩
    have found := succeed.outcome_eq (index - 1) (by rw [succeed.length_eq]; omega)
    rw [Nat.sub_add_cancel positive, converted, failed] at found
    cases found
  · exact ⟨values, outcomes_eq_ok_iff.mp done⟩

/-- Converting all values in the end succeeds when each outcome does with its conversion. -/
theorem convertedTogether_eq_ok_iff {results : List α} :
    convertedTogether outcome convert explain count = .ok results ↔
      AllSucceed (converted outcome convert explain) count results := by
  constructor
  · intro done
    rcases first : outcomes outcome count with cause | values
    · rw [convertedTogether, first] at done
      cases done
    · rw [convertedTogether_of_allSucceed (outcomes_eq_ok_iff.mp first)] at done
      exact outcomes_eq_ok_iff.mp done
  · intro succeed
    rcases succeed.of_converted with ⟨values, valuesSucceed⟩
    rw [convertedTogether_of_allSucceed valuesSucceed]
    exact outcomes_eq_ok_iff.mpr succeed

/-- A failed outcome comes before every conversion, and then the first failed conversion counts. -/
theorem convertedTogether_eq_error_iff {cause : ε} :
    convertedTogether outcome convert explain count = .error cause ↔
      FirstFailure outcome count cause ∨
        (∃ values, AllSucceed outcome count values) ∧
          FirstFailure (converted outcome convert explain) count cause := by
  rcases first : outcomes outcome count with reason | values
  · have none : ¬∃ values, AllSucceed outcome count values := by
      rintro ⟨values, succeed⟩
      rw [outcomes_eq_ok_iff.mpr succeed] at first
      cases first
    have same : convertedTogether outcome convert explain count = .error reason := by
      rw [convertedTogether, first]
      rfl
    rw [same, ← outcomes_eq_error_iff, first]
    simp [none]
  · have succeed := outcomes_eq_ok_iff.mp first
    have none : ¬FirstFailure outcome count cause := by
      rw [← outcomes_eq_error_iff, first]
      simp
    rw [convertedTogether_of_allSucceed succeed, outcomes_eq_error_iff]
    constructor
    · intro failed
      exact .inr ⟨⟨values, succeed⟩, failed⟩
    · rintro (failed | ⟨-, failed⟩)
      · exact absurd failed none
      · exact failed

end Conversion

/-- Computations whose results do not depend on where they start have these results one after
the other as well. -/
theorem Drawing.run_mapM_fst {f : β → Drawing σ ε α} {outcome : β → Except ε α} {items : List β}
    (independent : ∀ item source, ((f item).run source).1 = outcome item) (source : σ) :
    ((items.mapM f).run source).1 = items.mapM outcome := by
  induction items generalizing source with
  | nil => rfl
  | cons item items ih =>
      rw [List.mapM_cons, List.mapM_cons, Drawing.run_bind, ← independent item source]
      rcases (f item).run source with ⟨cause | value, after⟩
      · rfl
      · simp only [Drawing.run_bind]
        have rest := ih after
        rw [← rest]
        rcases (items.mapM f).run after with ⟨cause | values, last⟩
        · rfl
        · rfl

end Wordloom
