import Mathlib.Data.List.Nodup
import Mathlib.Data.List.Perm.Basic
import Mathlib.Data.Set.Function
import SlotOutcome.Proofs.RecordedDraws
import SlotOutcome.Proofs.Results

/-!
# Samples are unbiased

A sample takes items out of a list one after another. Each draw is an index among the items that are
left, so the ranges of the draws go down by one from the number of all items. What is taken and what
is left are together the items of the list.

```text
  items      a b c d     a b d     b d
  draw           2       0           1
  taken          c       a           d        left: b
```

If the items of the list are different, then different draws take different items or take them in
another order, and every ordered selection is taken by some draws. So draws that are equally likely
make the selections equally likely.

## Main definitions

* `sampleRanges`, `SampleDraws`: the ranges that the draws are made from, and the draws within them.
* `drawEach`: a draw from each of several ranges.
* `taken`, `leftOver`: the items that draws take, and those that they leave.
* `Selections`: so many different items of a list, in some order.
* `SamplesFrom`: computations that draw without replacement.

## Main results

* `sampleExactly_eq_drawEach`: a sample is a draw from each range, and the items taken.
* `perm_taken_leftOver`: nothing is lost and nothing is doubled.
* `bijOn_taken`: the draws within the ranges are in bijection with the selections.
* `sample_unbiased`: what a sample does.
-/

namespace SlotOutcome

variable {α : Type}

/-- The ranges of so many draws without replacement from a number of items. -/
def sampleRanges (total count : Nat) : List Nat := (List.range count).map (total - ·)

/-- Draws without replacement, each within its range. -/
def SampleDraws (total count : Nat) : Set (List Nat) :=
  { draws | List.Forall₂ (· < ·) draws (sampleRanges total count) }

/-- A draw from each of several ranges, in their order. -/
def drawEach {σ : Type} [RandomSource σ] (ranges : List Nat) : DrawM σ (List Nat) :=
  ranges.mapM fun n => do return (← drawBelow n).val

/-- The items at the given indices, each one taken out before the next index is looked up. -/
def taken : List Nat → List α → List α
  | [], _ => []
  | i :: draws, items => items[i]?.toList ++ taken draws (items.eraseIdx i)

/-- The items that are left when those at the given indices have been taken out. -/
def leftOver : List Nat → List α → List α
  | [], items => items
  | i :: draws, items => leftOver draws (items.eraseIdx i)

/-- So many different items of a list, in any order. -/
def Selections (items : List α) (count : Nat) : Set (List α) :=
  { chosen | chosen.length = count ∧ chosen.Nodup ∧ ∀ a ∈ chosen, a ∈ items }

theorem sampleRanges_succ (total count : Nat) :
    sampleRanges total (count + 1) = total :: sampleRanges (total - 1) count := by
  rw [sampleRanges, List.range_succ_eq_map, List.map_cons, List.map_map, Nat.sub_zero]
  refine congrArg _ (List.map_congr_left fun j _ => ?_)
  change total - (j + 1) = total - 1 - j
  omega

theorem length_sampleRanges (total count : Nat) : (sampleRanges total count).length = count := by
  rw [sampleRanges, List.length_map, List.length_range]

/-- The first draw is an index of the list, and the others are draws without its item. -/
theorem mem_sampleDraws_succ {items : List α} {draws : List Nat} {count : Nat} :
    draws ∈ SampleDraws items.length (count + 1) ↔
      ∃ i rest, i < items.length ∧ rest ∈ SampleDraws (items.eraseIdx i).length count ∧
        draws = i :: rest := by
  have hranges : draws ∈ SampleDraws items.length (count + 1) ↔
      List.Forall₂ (· < ·) draws (items.length :: sampleRanges (items.length - 1) count) := by
    rw [← sampleRanges_succ]
    rfl
  rw [hranges, List.forall₂_cons_right_iff]
  refine exists_congr fun i => exists_congr fun rest => and_congr_right fun hi => ?_
  rw [List.length_eraseIdx_of_lt hi]
  rfl

theorem taken_cons_of_lt {items : List α} {i : Nat} (h : i < items.length) (draws : List Nat) :
    taken (i :: draws) items = items[i] :: taken draws (items.eraseIdx i) := by
  rw [taken, List.getElem?_eq_getElem h]
  rfl

/-! ### What is taken and what is left -/

/-- What is taken and what is left are together the items of the list. -/
theorem perm_taken_leftOver (draws : List Nat) (items : List α) :
    (taken draws items ++ leftOver draws items).Perm items := by
  induction draws generalizing items with
  | nil => exact .refl items
  | cons i draws ih =>
    have hrest := ih (items.eraseIdx i)
    by_cases h : i < items.length
    · rw [taken_cons_of_lt h]
      exact (hrest.cons items[i]).trans (List.getElem_cons_eraseIdx_perm h)
    · rw [List.eraseIdx_of_length_le (Nat.le_of_not_lt h)] at hrest
      rw [taken, leftOver, List.getElem?_eq_none (Nat.le_of_not_lt h),
        List.eraseIdx_of_length_le (Nat.le_of_not_lt h)]
      exact hrest

/-- Draws within their ranges take an item each. -/
theorem length_taken {draws : List Nat} {items : List α} {count : Nat}
    (h : draws ∈ SampleDraws items.length count) : (taken draws items).length = count := by
  induction count generalizing draws items with
  | zero =>
    cases h
    rfl
  | succ count ih =>
    obtain ⟨i, draws, hi, hdraws, rfl⟩ := mem_sampleDraws_succ.mp h
    rw [taken_cons_of_lt hi, List.length_cons, ih hdraws]

/-- Draws that are as many as there are items take all of them. -/
theorem perm_taken {draws : List Nat} {items : List α}
    (h : draws ∈ SampleDraws items.length items.length) : (taken draws items).Perm items := by
  have hperm := perm_taken_leftOver draws items
  have hlength := hperm.length_eq
  rw [List.length_append, length_taken h] at hlength
  have hnil : leftOver draws items = [] := List.eq_nil_of_length_eq_zero (by omega)
  rwa [hnil, List.append_nil] at hperm

/-! ### Draws and selections -/

theorem taken_mem_selections {items : List α} (hitems : items.Nodup) {draws : List Nat}
    {count : Nat} (h : draws ∈ SampleDraws items.length count) :
    taken draws items ∈ Selections items count := by
  have hperm := perm_taken_leftOver draws items
  refine ⟨length_taken h, ?_, fun a ha => hperm.subset (List.mem_append_left _ ha)⟩
  exact (List.nodup_append.mp (hperm.nodup_iff.mpr hitems)).1

/-- The first item that was taken tells the first draw, and so on. -/
theorem injOn_taken {items : List α} (hitems : items.Nodup) (count : Nat) :
    Set.InjOn (taken · items) (SampleDraws items.length count) := by
  induction count generalizing items with
  | zero =>
    intro draws hdraws draws' hdraws' _
    cases hdraws
    cases hdraws'
    rfl
  | succ count ih =>
    intro draws hdraws draws' hdraws' htaken
    obtain ⟨i, rest, hi, htail, rfl⟩ := mem_sampleDraws_succ.mp hdraws
    obtain ⟨i', rest', hi', htail', rfl⟩ := mem_sampleDraws_succ.mp hdraws'
    dsimp only at htaken
    rw [taken_cons_of_lt hi, taken_cons_of_lt hi'] at htaken
    obtain ⟨hfirst, hrest⟩ := List.cons.inj htaken
    obtain rfl : i = i' := hitems.getElem_inj_iff.mp hfirst
    rw [ih (hitems.eraseIdx i) htail htail' hrest]

/-- The items of a selection are taken in turn. -/
theorem surjOn_taken {items : List α} (hitems : items.Nodup) (count : Nat) :
    Set.SurjOn (taken · items) (SampleDraws items.length count) (Selections items count) := by
  induction count generalizing items with
  | zero =>
    rintro chosen ⟨hlength, -, -⟩
    exact ⟨[], .nil, (List.eq_nil_of_length_eq_zero hlength).symm⟩
  | succ count ih =>
    rintro (_ | ⟨a, chosen⟩) ⟨hlength, hchosen, hmem⟩
    · cases hlength
    obtain ⟨ha, hdifferent⟩ := List.nodup_cons.mp hchosen
    obtain ⟨hitem, hothers⟩ := List.forall_mem_cons.mp hmem
    obtain ⟨i, hi, rfl⟩ := List.getElem_of_mem hitem
    -- The other items of the selection are still there.
    have hrest (b : α) (hb : b ∈ chosen) : b ∈ items.eraseIdx i := by
      have hperm : b ∈ items[i] :: items.eraseIdx i :=
        (List.getElem_cons_eraseIdx_perm hi).mem_iff.mpr (hothers b hb)
      rcases List.mem_cons.mp hperm with hfirst | hb'
      · exact absurd (hfirst ▸ hb) ha
      · exact hb'
    obtain ⟨draws, hdraws, htaken⟩ := ih (hitems.eraseIdx i)
      ⟨Nat.succ.inj hlength, hdifferent, hrest⟩
    refine ⟨i :: draws, mem_sampleDraws_succ.mpr ⟨i, draws, hi, hdraws, rfl⟩, ?_⟩
    exact (taken_cons_of_lt hi draws).trans (congrArg _ htaken)

/-- Draws within their ranges and selections correspond one to one. -/
theorem bijOn_taken {items : List α} (hitems : items.Nodup) (count : Nat) :
    Set.BijOn (taken · items) (SampleDraws items.length count) (Selections items count) :=
  ⟨fun _ h => taken_mem_selections hitems h, injOn_taken hitems count, surjOn_taken hitems count⟩

/-! ### Drawing -/

section Drawing

variable {σ : Type} [RandomSource σ]

/-- A sample is a draw from each range, and the items that the draws take. -/
theorem sampleExactly_eq_drawEach (count : Nat) (items : List α) :
    (sampleExactly count items : DrawM σ (List α)) =
      drawEach (sampleRanges items.length count) >>= fun draws => pure (taken draws items) := by
  induction count generalizing items with
  | zero => rfl
  | succ count ih =>
    rw [sampleExactly, sampleRanges_succ, drawEach, List.mapM_cons]
    simp only [bind_assoc, pure_bind]
    refine bind_congr fun i => ?_
    rw [ih, List.length_eraseIdx_of_lt i.isLt, bind_assoc]
    refine bind_congr fun draws => ?_
    rw [pure_bind, taken_cons_of_lt i.isLt]
    rfl

/-- Draws from several ranges are within them. -/
theorem drawEach_yields (ranges : List Nat) :
    Yields (fun draws => List.Forall₂ (· < ·) draws ranges)
      (drawEach ranges : DrawM σ (List Nat)) := by
  intro draws hdraws
  have hitems := Yields.mapM _ ranges draws hdraws
  refine (hitems.imp fun n value hvalue => ?_).flip
  have hlt : Yields (· < n) (do return (← drawBelow n).val : DrawM σ Nat) :=
    .after fun i => .pure i.isLt
  exact hlt value hvalue

/-- What was sampled was taken by draws within the ranges. -/
theorem exists_draws_of_sample {items chosen : List α} {count : Nat} {x y : σ}
    (h : (sample items count : DrawM σ (List α)) x = (.ok chosen, y)) :
    ∃ draws ∈ SampleDraws items.length (min count items.length),
      drawEach (sampleRanges items.length (min count items.length)) x = (.ok draws, y) ∧
      taken draws items = chosen := by
  rw [sample, sampleExactly_eq_drawEach] at h
  obtain ⟨draws, z, hdrawn, htaken⟩ := bind_run_eq_ok.mp h
  cases htaken
  exact ⟨draws, drawEach_yields _ draws ⟨x, y, hdrawn⟩, hdrawn, rfl⟩

end Drawing

/-- A script answers each range with its next draw. -/
theorem drawEach_script {draws ranges : List Nat} (h : List.Forall₂ (· < ·) draws ranges)
    (consumed : Nat) (rest : List Nat) :
    (drawEach ranges : DrawM Script (List Nat)) ⟨consumed, draws ++ rest⟩ =
      (.ok draws, ⟨consumed + ranges.length, rest⟩) := by
  induction h generalizing consumed with
  | nil => rfl
  | @cons i n draws ranges hi _ ih =>
    have hfirst : (drawBelow n : DrawM Script (Fin n)) ⟨consumed, i :: (draws ++ rest)⟩ =
        (.ok ⟨i, hi⟩, ⟨consumed + 1, draws ++ rest⟩) :=
      drawBelow_of_draw (Script.draw_cons hi _ _) hi
    have hrest := ih (consumed + 1)
    rw [List.length_cons, Nat.add_comm ranges.length, ← Nat.add_assoc, drawEach, List.mapM_cons,
      bind_assoc]
    refine bind_run_eq_ok.mpr ⟨_, _, hfirst, ?_⟩
    rw [pure_bind]
    exact bind_run_eq_ok.mpr ⟨_, _, hrest, rfl⟩

/-- A computation draws so many items of a list without replacement, whatever the source. -/
structure SamplesFrom (items : List α) (count : Nat)
    (m : (σ : Type) → [RandomSource σ] → DrawM σ (List α)) : Prop where
  /-- It draws from each range once and answers the items that the draws take. -/
  eq_drawEach : ∀ (σ : Type) [RandomSource σ],
    m σ = drawEach (sampleRanges items.length count) >>= fun draws => pure (taken draws items)
  /-- An answer is what draws within the ranges take. -/
  exists_draws : ∀ (σ : Type) [RandomSource σ] (source next : σ) (result : List α),
    m σ source = (.ok result, next) →
      ∃ draws ∈ SampleDraws items.length count, taken draws items = result
  /-- A script of such draws is answered by what they take, and is read no further. -/
  script : ∀ draws ∈ SampleDraws items.length count, ∀ consumed rest,
    m Script ⟨consumed, draws ++ rest⟩ = (.ok (taken draws items), ⟨consumed + count, rest⟩)

theorem samplesFrom_sampleExactly (items : List α) (count : Nat) :
    SamplesFrom items count fun _ _ => sampleExactly count items where
  eq_drawEach _ _ := sampleExactly_eq_drawEach count items
  exists_draws σ _ source next result hrun := by
    rw [sampleExactly_eq_drawEach] at hrun
    obtain ⟨draws, source', hdraws, hresult⟩ := bind_run_eq_ok.mp hrun
    cases hresult
    exact ⟨draws, drawEach_yields _ draws ⟨_, _, hdraws⟩, rfl⟩
  script draws h consumed rest := by
    rw [sampleExactly_eq_drawEach]
    refine bind_run_eq_ok.mpr ⟨_, _, drawEach_script h consumed rest, ?_⟩
    rw [length_sampleRanges]
    rfl

/-- Sampling is unbiased. A sample makes one draw for each item that it takes, below the number of
items that are left. If the items of the list are different, such draws correspond one to one to the
ordered selections of so many different items. What is taken and what is left are together the items
of the list; a permutation takes all of them. -/
theorem sample_unbiased (items : List α) (count : Nat) :
    SamplesFrom items (min count items.length) (fun _ _ => sample items count) ∧
      (items.Nodup → Set.BijOn (taken · items)
        (SampleDraws items.length (min count items.length))
        (Selections items (min count items.length))) ∧
      (∀ draws ∈ SampleDraws items.length (min count items.length),
        (taken draws items ++ leftOver draws items).Perm items) ∧
      SamplesFrom items items.length (fun _ _ => permutation items) ∧
      ∀ draws ∈ SampleDraws items.length items.length, (taken draws items).Perm items := by
  have hpermutation : SamplesFrom items (min items.length items.length) fun _ _ =>
      permutation items := samplesFrom_sampleExactly items _
  rw [Nat.min_self] at hpermutation
  exact ⟨samplesFrom_sampleExactly items _, fun hitems => bijOn_taken hitems _,
    fun draws _ => perm_taken_leftOver draws items, hpermutation, fun _ h => perm_taken h⟩

/-- Three of four letters: the draws that take `c`, `a` and `b` are the only ones to do so. -/
theorem sample_unbiased_letters :
    ['a', 'b', 'c', 'd'].Nodup ∧
      (sample ['a', 'b', 'c', 'd'] 3 : DrawM Script (List Char)) (.ofDraws [2, 0, 0, 7]) =
        (.ok ['c', 'a', 'b'], ⟨3, [7]⟩) ∧
      ∃! draws, draws ∈ SampleDraws 4 3 ∧ taken draws ['a', 'b', 'c', 'd'] = ['c', 'a', 'b'] := by
  have hitems : ['a', 'b', 'c', 'd'].Nodup := by decide
  obtain ⟨hsample, hbijection, -⟩ := sample_unbiased ['a', 'b', 'c', 'd'] 3
  have hdraws : [2, 0, 0] ∈ SampleDraws 4 3 := by
    change List.Forall₂ (· < ·) [2, 0, 0] [4, 3, 2]
    simp
  refine ⟨hitems, hsample.script [2, 0, 0] hdraws 0 [7], [2, 0, 0], ⟨hdraws, rfl⟩, ?_⟩
  rintro draws ⟨hmem, htaken⟩
  exact (hbijection hitems).injOn hmem hdraws htaken

end SlotOutcome
