import Mathlib.Data.Fintype.Card
import Mathlib.Order.Interval.Finset.Nat
import SlotOutcome.Proofs.CheckedSteps

/-!
# Weighted choices are fair

A choice by weights makes one draw below the sum of the weights. The draws below that sum are dealt
out to the indices in their order, to each as many as its weight says, so no index is preferred and
one without weight is never chosen.

```text
  weights    3      0   2
  draws      0 1 2      3 4
  index      0          2
```

The sums that a search adds up on its way to the index stay within 64 bits because the sum of all
weights does, and the search always ends at an index. Weights whose sum is zero or does not fit 64
bits allow no choice, and then nothing is drawn.

## Main definitions

* `selectedIndex`: the index that a draw selects.
* `FairSelection`: to each index as many draws as its weight says.
* `RefusesWeights`: a choice fails before anything is drawn.

## Main results

* `indexAt_eq_some_iff`: the draws that select an index.
* `card_selectedIndex`: how many they are.
* `weightedIndex_fair`: what a choice by weights does.
-/

namespace SlotOutcome

/-! ### Sums of weights -/

theorem weightSum_cons (weight : Nat) (rest : List Nat) :
    weightSum (weight :: rest) = weight + weightSum rest := rfl

theorem weightSum_append (weights weights' : List Nat) :
    weightSum (weights ++ weights') = weightSum weights + weightSum weights' := List.sum_append

theorem weightSum_take_le (weights : List Nat) (i : Nat) :
    weightSum (weights.take i) ≤ weightSum weights := by
  have hsplit := weightSum_append (weights.take i) (weights.drop i)
  rw [List.take_append_drop] at hsplit
  omega

theorem weightSum_take_succ (weights : List Nat) (i : Fin weights.length) :
    weightSum (weights.take (i + 1)) = weightSum (weights.take i) + weights.get i := by
  rw [List.take_succ_eq_append_getElem i.isLt, weightSum_append]
  rfl

/-! ### The draws that select an index -/

/-- An index is found for the draws from the sum of the weights before it up to the sum that
includes its own. -/
theorem indexAt_eq_some_iff {weights : List Nat} {value : Nat} {i : Fin weights.length} :
    indexAt weights value = some i ↔
      weightSum (weights.take i) ≤ value ∧ value < weightSum (weights.take (i + 1)) := by
  induction weights generalizing value with
  | nil => exact i.elim0
  | cons weight rest ih =>
    rw [indexAt]
    cases i using Fin.cases with
    | zero =>
      have hfirst : weightSum ((weight :: rest).take 1) = weight := Nat.add_zero weight
      change _ ↔ 0 ≤ value ∧ value < weightSum ((weight :: rest).take 1)
      rw [hfirst]
      by_cases hlt : value < weight
      · rw [if_pos hlt]
        exact iff_of_true rfl ⟨Nat.zero_le _, hlt⟩
      · have hother : (indexAt rest (value - weight)).map Fin.succ ≠ some 0 := by
          intro h
          obtain ⟨_, -, hsucc⟩ := Option.map_eq_some_iff.mp h
          exact Fin.succ_ne_zero _ hsucc
        rw [if_neg hlt]
        exact iff_of_false hother fun h => hlt h.2
    | succ i =>
      change _ ↔ weight + weightSum (rest.take i) ≤ value ∧
        value < weight + weightSum (rest.take (i + 1))
      by_cases hlt : value < weight
      · rw [if_pos hlt, Option.some.injEq]
        exact iff_of_false (Fin.succ_ne_zero i).symm (by omega)
      · have hfound : (indexAt rest (value - weight)).map Fin.succ = some i.succ ↔
            indexAt rest (value - weight) = some i := by simp [Option.map_eq_some_iff]
        rw [if_neg hlt, hfound, ih]
        omega

/-- Every draw below the sum of the weights selects an index. -/
theorem isSome_indexAt {weights : List Nat} {value : Nat} (h : value < weightSum weights) :
    (indexAt weights value).isSome = true := by
  induction weights generalizing value with
  | nil => exact absurd h (Nat.not_lt_zero value)
  | cons weight rest ih =>
    rw [weightSum_cons] at h
    rw [indexAt]
    split
    · rfl
    · rw [Option.isSome_map]
      exact ih (by omega)

/-- The index that a draw below the sum of the weights selects. -/
def selectedIndex (weights : List Nat) (value : Fin (weightSum weights)) : Fin weights.length :=
  (indexAt weights value).get (isSome_indexAt value.isLt)

theorem indexAt_eq_selectedIndex (weights : List Nat) (value : Fin (weightSum weights)) :
    indexAt weights value = some (selectedIndex weights value) := (Option.some_get _).symm

theorem selectedIndex_eq_iff {weights : List Nat} {value : Fin (weightSum weights)}
    {i : Fin weights.length} : selectedIndex weights value = i ↔
      weightSum (weights.take i) ≤ value ∧ value < weightSum (weights.take (i + 1)) := by
  rw [← indexAt_eq_some_iff, indexAt_eq_selectedIndex, Option.some.injEq]

/-- As many draws select an index as its weight says. -/
theorem card_selectedIndex (weights : List Nat) (i : Fin weights.length) :
    Fintype.card { value // selectedIndex weights value = i } = weights.get i := by
  have hshare : (Finset.univ.filter fun value => selectedIndex weights value = i).map
      Fin.valEmbedding =
        Finset.Ico (weightSum (weights.take i)) (weightSum (weights.take (i + 1))) := by
    ext value
    simp only [Finset.mem_map, Finset.mem_filter, Finset.mem_univ, true_and, Finset.mem_Ico,
      selectedIndex_eq_iff, Fin.valEmbedding_apply]
    constructor
    · rintro ⟨value, hvalue, rfl⟩
      exact hvalue
    · intro hvalue
      exact ⟨⟨value, hvalue.2.trans_le (weightSum_take_le weights _)⟩, hvalue, rfl⟩
  rw [Fintype.card_subtype, ← Finset.card_map, hshare, Nat.card_Ico, weightSum_take_succ,
    Nat.add_sub_cancel_left]

/-- A selection by draws deals them out to the indices in order, to each as many as its weight
says. -/
structure FairSelection (weights : List Nat)
    (select : Fin (weightSum weights) → Fin weights.length) : Prop where
  share : ∀ value i, select value = i ↔
    weightSum (weights.take i) ≤ value ∧ value < weightSum (weights.take (i + 1))
  card : ∀ i, Fintype.card { value // select value = i } = weights.get i
  ne_of_weightless : ∀ i, weights.get i = 0 → ∀ value, select value ≠ i

theorem fairSelection_selectedIndex (weights : List Nat) :
    FairSelection weights (selectedIndex weights) where
  share _ _ := selectedIndex_eq_iff
  card := card_selectedIndex weights
  ne_of_weightless i hzero value hvalue := by
    have hshare := selectedIndex_eq_iff.mp hvalue
    rw [weightSum_take_succ, hzero] at hshare
    omega

/-! ### Choices -/

/-- A search that adds up the weights stays within 64 bits and ends at the index that the draw
selects. -/
theorem indexFrom_eq_selectedIndex {σ : Type} {weights : List Nat}
    (hsize : weightSum weights < UInt64.size) (value : Fin (weightSum weights)) :
    (Check.indexFrom value 0 0 weights : PlanM (Checked σ) (Option Nat)) =
      pure (some (selectedIndex weights value).val) := by
  rw [Check.indexFrom_eq (by omega) (Nat.zero_le _), Nat.sub_zero, indexAt_eq_selectedIndex,
    Option.map_some, Nat.zero_add]

variable {σ : Type} [RandomSource σ]

/-- A choice by weights that allow one is a draw and the index that it selects. -/
theorem weightedIndex_of_choice {weights : List Nat} (hpos : 0 < weightSum weights)
    (hsize : weightSum weights < UInt64.size) :
    (weightedIndex weights : DrawM σ (Fin weights.length)) =
      draw (weightSum weights) >>= fun value =>
        if h : value < weightSum weights then pure (selectedIndex weights ⟨value, h⟩)
        else throw .zeroWeight := by
  rw [weightedIndex_eq, if_neg (by omega), if_neg (by omega)]
  refine bind_congr fun value => ?_
  by_cases h : value < weightSum weights
  · rw [dif_pos h, indexAt_eq_selectedIndex weights ⟨value, h⟩]
    rfl
  · have hnone : indexAt weights value = none := by
      rw [Option.eq_none_iff_forall_ne_some]
      intro i hi
      exact h ((indexAt_eq_some_iff.mp hi).2.trans_le (weightSum_take_le weights _))
    rw [dif_neg h, hnone]
    rfl

/-- A choice by weights fails before anything is drawn, and the configuration is at fault. -/
def RefusesWeights (σ : Type) [RandomSource σ] (weights : List Nat) (e : DrawError) : Prop :=
  ∀ source : σ,
    (weightedIndex weights : DrawM σ (Fin weights.length)) source = (.error e, source) ∧
      (chooseIndex weights : PlanM σ (Fin weights.length)) source =
        (.error (.config (.invalid ("bad weights: " ++ e.message))), source)

theorem refusesWeights_of_overflow {weights : List Nat} (h : UInt64.size ≤ weightSum weights) :
    RefusesWeights σ weights .weightOverflow := by
  intro source
  have hrun : (weightedIndex weights : DrawM σ (Fin weights.length)) source =
      (.error .weightOverflow, source) := by
    rw [weightedIndex_eq, if_pos h]
    rfl
  refine ⟨hrun, ?_⟩
  rw [chooseIndex, adapt_run, hrun]
  rfl

theorem refusesWeights_of_zero {weights : List Nat} (h : weightSum weights = 0) :
    RefusesWeights σ weights .zeroWeight := by
  intro source
  have hrun : (weightedIndex weights : DrawM σ (Fin weights.length)) source =
      (.error .zeroWeight, source) := by
    have hsmall : ¬UInt64.size ≤ weightSum weights := by
      rw [h]
      decide
    rw [weightedIndex_eq, if_neg hsmall, if_pos h]
    rfl
  refine ⟨hrun, ?_⟩
  rw [chooseIndex, adapt_run, hrun]
  rfl

/-- A choice by weights is exactly fair. If the sum of the weights is positive and fits 64 bits, the
choice makes one draw below the sum and answers the index that the draw selects, to each index as
many draws as its weight says; and the search for it neither leaves the 64 bits nor runs past the
last index. All other weights are refused. -/
theorem weightedIndex_fair (weights : List Nat) :
    (0 < weightSum weights ∧ weightSum weights < UInt64.size →
      FairSelection weights (selectedIndex weights) ∧
      (weightedIndex weights : DrawM σ (Fin weights.length)) =
        (draw (weightSum weights) >>= fun value =>
          if h : value < weightSum weights then pure (selectedIndex weights ⟨value, h⟩)
          else throw .zeroWeight) ∧
      ∀ value : Fin (weightSum weights),
        (Check.indexFrom value 0 0 weights : PlanM (Checked σ) (Option Nat)) =
          pure (some (selectedIndex weights value).val)) ∧
    (UInt64.size ≤ weightSum weights → RefusesWeights σ weights .weightOverflow) ∧
    (weightSum weights = 0 → RefusesWeights σ weights .zeroWeight) := by
  refine ⟨fun ⟨hpos, hsize⟩ => ?_, refusesWeights_of_overflow, refusesWeights_of_zero⟩
  exact ⟨fairSelection_selectedIndex weights, weightedIndex_of_choice hpos hsize,
    indexFrom_eq_selectedIndex hsize⟩

/-- Of five draws, the fourth is the first one that selects the last index, since the index in
between has no weight; and weights that are one too many for 64 bits are refused. -/
theorem weightedIndex_fair_gap :
    (0 < weightSum [3, 0, 2] ∧ weightSum [3, 0, 2] < UInt64.size) ∧
      FairSelection [3, 0, 2] (selectedIndex [3, 0, 2]) ∧
      (weightedIndex [3, 0, 2] : DrawM Script (Fin 3)) (.ofDraws [3]) = (.ok 2, ⟨1, []⟩) ∧
      UInt64.size ≤ weightSum [UInt64.size - 1, 1] ∧
      RefusesWeights Script [UInt64.size - 1, 1] .weightOverflow := by
  have hsum : 0 < weightSum [3, 0, 2] ∧ weightSum [3, 0, 2] < UInt64.size := by decide
  have hbig : UInt64.size ≤ weightSum [UInt64.size - 1, 1] := by decide
  obtain ⟨hfair, hchoice, -⟩ := (weightedIndex_fair (σ := Script) [3, 0, 2]).1 hsum
  refine ⟨hsum, hfair, ?_, hbig, (weightedIndex_fair _).2.1 hbig⟩
  rw [hchoice]
  rfl

end SlotOutcome
