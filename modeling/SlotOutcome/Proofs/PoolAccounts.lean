import Mathlib.Algebra.BigOperators.Fin
import Mathlib.Data.List.Infix
import Mathlib.Order.Bounds.Basic
import SlotOutcome.Proofs.PoolOwners

/-!
# The accounts of a pool

A pool without passes in the background is used by whole operations, one after another. What it
counts can then be told from the handles alone: every owner of a generator is a handle that is held,
so a slot is in use exactly while its handle is.

```text
  held      get: one more        put, drop: one less       otherwise the same
  size      max of the size and of the handles that are held, after every operation
  created   the size
  in use    the handles that are held
  exercised the sum of what the passes answered, each the size less the slots in use
```

The size is a peak: it goes up only where more handles are held than ever before, and it never goes
down.

## Main definitions

* `Pool.Operation`, `Pool.Custody`: the operations, and a pool with the handles that are held.
* `Pool.Stats`, `Pool.stats`: what a pool counts.
* `Pool.Custody.Accounts`: what the counts stand for.

## Main results

* `Pool.Custody.Kept.step`, `Pool.Custody.kept_run`: the handles that are held are all the owners.
* `Pool.Custody.size_step`: an operation takes the size to the handles that are held, if they are
  more.
* `Pool.Custody.accounts_run`: the accounts are right after any operations.
-/

namespace SlotOutcome.Pool

open Generator (Seed)

/-- What a pool counts. -/
structure Stats where
  size : ℕ
  inUse : ℕ
  created : ℕ
  exercised : ℕ
deriving DecidableEq, Repr

variable {γ : Type} [Generator γ]

/-- The counts of a pool. -/
def stats (pool : Pool γ) : Stats := ⟨pool.size, pool.inUse, pool.created, pool.exercised⟩

/-! ### Operations -/

/-- A whole operation on a pool, or a draw from a handle. A handle is named by its place among those
that are held, the last one first. -/
inductive Operation where
  | get
  | put (handle : ℕ)
  | drop (handle : ℕ)
  | draw (handle range : ℕ)
  | exercise (most : ℕ)
  | shutdown
deriving DecidableEq, Repr

/-- A pool, the handles that are held, the last one first, and what the passes answered. -/
structure Custody (γ : Type) [Generator γ] where
  pool : Pool γ
  held : List (Loan γ)
  answers : List ℕ

namespace Custody

/-- A new pool, of which no handle is held. -/
def start (entropy : ℕ → Seed γ) (settings : PoolSettings) : Custody γ :=
  ⟨.start entropy settings, [], []⟩

variable (c : Custody γ)

/-- A handle is given up, and its generator goes back into the pool. Nothing happens where fewer
handles are held. -/
def giveBack (handle : ℕ) : Custody γ :=
  match c.held[handle]? with
  | some loan => { c with pool := c.pool.put loan, held := c.held.eraseIdx handle }
  | none => c

/-- One operation. `put` drops the handle that it is given. -/
def step (c : Custody γ) : Operation → Custody γ
  | .get => { c with pool := c.pool.get.2, held := c.pool.get.1 :: c.held }
  | .put handle | .drop handle => c.giveBack handle
  | .draw handle range =>
    { c with held := c.held.modify handle fun loan =>
        ⟨loan.slot, ((draw range : DrawM γ ℕ) loan.generator).2⟩ }
  | .exercise most =>
    { c with pool := (c.pool.exercise most).2, answers := c.answers ++ [(c.pool.exercise most).1] }
  | .shutdown => { c with pool := c.pool.shutdown }

/-- Operations one after another. -/
def run (operations : List Operation) : Custody γ := operations.foldl step c

theorem run_concat (operations : List Operation) (operation : Operation) :
    c.run (operations ++ [operation]) = (c.run operations).step operation := by
  simp [run]

/-- The numbers of handles that were held before, between and after the operations. -/
def everHeld (operations : List Operation) : Set ℕ :=
  {n | ∃ before, before <+: operations ∧ (c.run before).held.length = n}

theorem everHeld_nil : c.everHeld [] = {c.held.length} := by
  ext n
  simp [everHeld, run, eq_comm]

theorem everHeld_concat (operations : List Operation) (operation : Operation) :
    c.everHeld (operations ++ [operation]) =
      insert (c.run (operations ++ [operation])).held.length (c.everHeld operations) := by
  ext n
  simp [everHeld, List.prefix_concat_iff, or_and_right, exists_or, eq_comm]

end Custody

/-! ### Who owns what -/

theorem countP_eq_sum_range {α : Type} {p : α → Bool} {l : List α} {count : ℕ → ℕ}
    (h : ∀ i a, l[i]? = some a → count i = if p a then 1 else 0) :
    l.countP p = ∑ i ∈ Finset.range l.length, count i := by
  induction l using List.reverseRecOn with
  | nil => rfl
  | append_singleton l a ih =>
    have hlast : count l.length = if p a then 1 else 0 := h _ _ List.getElem?_concat_length
    have hinit : l.countP p = ∑ i ∈ Finset.range l.length, count i := by
      refine ih fun i b hi => h i b ?_
      rw [List.getElem?_append_left (List.getElem?_eq_some_iff.mp hi).1, hi]
    rw [List.countP_append, List.countP_singleton, List.length_append, List.length_singleton,
      Finset.sum_range_succ, hinit, hlast]

omit [Generator γ] in
theorem card_ownersAmong (place : ℕ) (holdings : Multiset (Holding γ)) :
    (ownersAmong place holdings).card = (holdings.map Holding.slot).count place := by
  rw [ownersAmong, Multiset.card_map, Multiset.count_map]
  simp only [eq_comm]

/-- There are as many owners as slots in use. -/
theorem FitAll.countP_inUse {seeds : List (Seed γ)} {slots : List (Slot γ)}
    {holdings : Multiset (Holding γ)} (h : FitAll seeds slots holdings) :
    slots.countP Slot.inUse = holdings.card := by
  have hcount (place : ℕ) (slot : Slot γ) (hslot : slots[place]? = some slot) :
      (holdings.map Holding.slot).count place = if slot.inUse then 1 else 0 := by
    have hfits := h place
    rw [hslot] at hfits
    have hset := hfits.inUse_iff
    have hone := hfits.card_le
    rw [← Multiset.card_pos] at hset
    rw [← card_ownersAmong]
    split_ifs <;> grind
  have hrange : ∀ place ∈ holdings.map Holding.slot, place ∈ Finset.range slots.length := by
    intro place hplace
    rw [Finset.mem_range]
    by_contra hge
    have hfits := h place
    rw [List.getElem?_eq_none (not_lt.mp hge)] at hfits
    rw [hfits.isNone_iff.mpr rfl] at hfits
    have hzero := congrArg Multiset.card hfits.eq_zero
    rw [card_ownersAmong, Multiset.card_zero, Multiset.count_eq_zero] at hzero
    exact hzero hplace
  rw [countP_eq_sum_range hcount, Multiset.sum_count_eq_card hrange, Multiset.card_map]

omit [Generator γ] in
theorem takeFirst_eq_none_iff {slots : List (Slot γ)} :
    takeFirst slots = none ↔ ∀ slot ∈ slots, slot.acquire? = none := by
  induction slots with
  | nil => simp [takeFirst]
  | cons slot slots ih =>
    rw [takeFirst, List.forall_mem_cons, ← ih]
    rcases slot.acquire? with _ | ⟨generator, rest⟩ <;> simp

omit [Generator γ] in
theorem length_of_takeFirst {slots rest : List (Slot γ)} {loan : Loan γ}
    (h : takeFirst slots = some (loan, rest)) : rest.length = slots.length := by
  induction slots generalizing loan rest with
  | nil => cases h
  | cons slot slots ih =>
    rw [takeFirst] at h
    rcases hacquire : slot.acquire? with _ | ⟨generator, taken⟩
    · rw [hacquire] at h
      obtain ⟨⟨next, rest⟩, hnext, hmap⟩ := Option.map_eq_some_iff.mp h
      cases hmap
      rw [List.length_cons, List.length_cons, ih hnext]
    · rw [hacquire] at h
      cases h
      rfl

namespace Custody

/-- A pool and its handles, with one thread that is between two operations. -/
def sharing (c : Custody γ) : Sharing γ := ⟨c.pool, c.held, {.idle}⟩

/-- Every slot has one of its forms, and the owners are the handles that are held. -/
def Kept (c : Custody γ) : Prop := ∃ seeds, c.sharing.Sound seeds

variable {c : Custody γ}

theorem holdings_sharing (c : Custody γ) :
    c.sharing.holdings = (c.held.map Loan.holding : Multiset (Holding γ)) := by
  rw [Sharing.holdings, sharing, Multiset.singleton_bind, Thread.holdings, add_zero,
    Multiset.map_coe]

theorem kept_start (entropy : ℕ → Seed γ) (settings : PoolSettings) :
    (start entropy settings).Kept :=
  ⟨_, Sharing.sound_start entropy settings 1⟩

theorem Kept.of_run {c' : Custody γ} (h : c.Kept) (hrun : Sharing.Run c.sharing c'.sharing) :
    c'.Kept := by
  obtain ⟨seeds, hsound⟩ := h
  obtain ⟨more, hsound'⟩ := hrun.sound hsound
  exact ⟨_, hsound'⟩

theorem Kept.toExclusive (h : c.Kept) : c.sharing.Exclusive := by
  obtain ⟨seeds, hsound⟩ := h
  exact hsound.toExclusive

theorem Kept.slot_lt (h : c.Kept) {loan : Loan γ} (hloan : loan ∈ c.held) :
    loan.slot < c.pool.size := by
  refine h.toExclusive.owned_lt loan.holding ?_
  rw [holdings_sharing]
  exact Multiset.mem_coe.mpr (List.mem_map_of_mem hloan)

theorem coe_held {handle : ℕ} {loan : Loan γ} (hloan : c.held[handle]? = some loan) :
    (c.held : Multiset (Loan γ)) = {loan} + (c.held.eraseIdx handle : Multiset (Loan γ)) := by
  obtain ⟨hlt, rfl⟩ := List.getElem?_eq_some_iff.mp hloan
  exact Multiset.coe_eq_coe.mpr (List.getElem_cons_eraseIdx_perm hlt).symm

theorem Kept.giveBack (h : c.Kept) (handle : ℕ) : (c.giveBack handle).Kept := by
  rw [Custody.giveBack]
  rcases hloan : c.held[handle]? with _ | loan
  · exact h
  · refine h.of_run ?_
    rw [sharing, sharing, coe_held hloan, Multiset.singleton_add]
    exact Sharing.Run.put (h.slot_lt (List.mem_of_getElem? hloan))

theorem Kept.draw (h : c.Kept) (handle range : ℕ) : (c.step (.draw handle range)).Kept := by
  rw [step, List.modify_eq_set_getElem?]
  rcases hloan : c.held[handle]? with _ | loan
  · exact h
  · refine h.of_run (.single ?_)
    have hlt := (List.getElem?_eq_some_iff.mp hloan).1
    have hdrawn (next : γ) : (c.held.set handle ⟨loan.slot, next⟩ : Multiset (Loan γ)) =
        {⟨loan.slot, next⟩} + (c.held.eraseIdx handle : Multiset (Loan γ)) :=
      Multiset.coe_eq_coe.mpr (List.set_perm_cons_eraseIdx hlt _)
    rw [sharing, sharing, coe_held hloan]
    change Sharing.Step _ ⟨_, (c.held.set handle _ : Multiset (Loan γ)), _⟩
    rw [hdrawn]
    exact .move (.draw loan range) False.elim

/-- Every operation leaves the slots in their forms. -/
theorem Kept.step (h : c.Kept) (operation : Operation) : (c.step operation).Kept := by
  cases operation with
  | get => exact h.of_run (Sharing.Run.get (by simp))
  | put handle | drop handle => exact h.giveBack handle
  | draw handle range => exact h.draw handle range
  | exercise most => exact h.of_run (Sharing.Run.exercise most)
  | shutdown =>
    obtain ⟨seeds, hfit, hsteady⟩ := h
    exact ⟨seeds, hfit, hsteady⟩

theorem kept_run (entropy : ℕ → Seed γ) (settings : PoolSettings) (operations : List Operation) :
    ((start entropy settings).run operations).Kept := by
  induction operations using List.reverseRecOn with
  | nil => exact kept_start entropy settings
  | append_singleton operations operation ih =>
    rw [run_concat]
    exact ih.step operation

/-! ### The counts -/

/-- The slots in use are those of the handles. -/
theorem Kept.inUse_eq (h : c.Kept) : c.pool.inUse = c.held.length := by
  obtain ⟨seeds, hsound⟩ := h
  have hcount := hsound.fitAll.countP_inUse
  rwa [holdings_sharing, Multiset.coe_card, List.length_map] at hcount

theorem Kept.held_le (h : c.Kept) : c.held.length ≤ c.pool.size := by
  rw [← h.inUse_eq]
  exact List.countP_le_length

/-- A slot without a generator to take is in use. -/
theorem Kept.acquire?_eq_none_iff (h : c.Kept) {slot : Slot γ} (hslot : slot ∈ c.pool.slots) :
    slot.acquire? = none ↔ slot.inUse = true := by
  constructor
  · intro hnone
    rcases Slot.acquire?_eq_none hnone with hset | rfl
    · exact hset
    · cases h.toExclusive.full_of_clear _ hslot rfl
  · rcases slot with ⟨_ | _, _ | generator⟩ <;> simp [Slot.acquire?]

/-- No generator can be taken only where every one is on loan. -/
theorem Kept.takeFirst_eq_none_iff (h : c.Kept) :
    takeFirst c.pool.slots = none ↔ c.held.length = c.pool.size := by
  rw [Pool.takeFirst_eq_none_iff, ← h.inUse_eq, inUse, size, List.countP_eq_length]
  exact forall₂_congr fun slot hslot => h.acquire?_eq_none_iff hslot

/-- There are as many generators to exercise as slots that are not in use. -/
theorem Kept.exercise_eq (h : c.Kept) (most : ℕ) :
    (c.pool.exercise most).1 = c.pool.size - c.pool.inUse := by
  have hclear : c.pool.slots.countP (fun slot => slot.acquire?.isSome) =
      c.pool.slots.countP fun slot => !slot.inUse := by
    refine List.countP_congr fun slot hslot => ?_
    rw [Option.isSome_iff_ne_none, Ne, h.acquire?_eq_none_iff hslot]
    simp
  have hall := c.pool.slots.length_eq_countP_add_countP Slot.inUse
  simp only [Bool.not_eq_true, Bool.decide_eq_false] at hall
  rw [exercise, hclear, size, inUse, hall, Nat.add_sub_cancel_left]

section Exercise

variable (pool : Pool γ) (most : ℕ)

/-- A pass leaves every flag as it is, and every generator in its slot. -/
theorem map_exercise :
    ((pool.exercise most).2.slots.map fun slot => (slot.inUse, slot.generator.map Generator.seed)) =
      pool.slots.map fun slot => (slot.inUse, slot.generator.map Generator.seed) := by
  rw [exercise, List.map_map]
  refine List.map_congr_left fun slot _ => ?_
  rcases slot with ⟨_ | _, _ | generator⟩
  · rfl
  · exact congrArg (fun seed => (false, some seed)) (Slot.seed_burn most generator)
  · rfl
  · rfl

theorem stats_exercise : (pool.exercise most).2.stats =
    { pool.stats with exercised := pool.exercised + (pool.exercise most).1 } := by
  have hflags := congrArg (List.countP Prod.fst) (map_exercise pool most)
  rw [List.countP_map, List.countP_map] at hflags
  have hinUse : (pool.exercise most).2.inUse = pool.inUse := hflags
  have hsize : (pool.exercise most).2.size = pool.size := List.length_map _
  rw [stats, hinUse, hsize]
  rfl

end Exercise

theorem size_get (pool : Pool γ) :
    pool.get.2.size = if takeFirst pool.slots = none then pool.size + 1 else pool.size := by
  rw [Pool.get]
  rcases hfirst : takeFirst pool.slots with _ | ⟨loan, slots⟩
  · simp [size]
  · simpa [size] using length_of_takeFirst hfirst

theorem created_get (pool : Pool γ) : pool.get.2.created =
    if takeFirst pool.slots = none then pool.created + 1 else pool.created := by
  rw [Pool.get]
  rcases takeFirst pool.slots with _ | ⟨loan, slots⟩ <;> rfl

theorem exercised_get (pool : Pool γ) : pool.get.2.exercised = pool.exercised := by
  rw [Pool.get]
  rcases takeFirst pool.slots with _ | ⟨loan, slots⟩ <;> rfl

/-- Giving a handle up changes no count of the pool but the slots in use. -/
theorem giveBack_counts (c : Custody γ) (handle : ℕ) :
    (c.giveBack handle).pool.size = c.pool.size ∧
      (c.giveBack handle).pool.created = c.pool.created ∧
      (c.giveBack handle).pool.exercised = c.pool.exercised ∧
      (c.giveBack handle).answers = c.answers ∧
      (c.giveBack handle).held.length ≤ c.held.length := by
  rw [Custody.giveBack]
  rcases c.held[handle]? with _ | loan
  · exact ⟨rfl, rfl, rfl, rfl, le_rfl⟩
  · exact ⟨List.length_set, rfl, rfl, rfl, List.length_eraseIdx_le ..⟩

/-- The pool grows where more handles are held than it has slots, and only there. -/
theorem Kept.size_step (h : c.Kept) (operation : Operation) :
    (c.step operation).pool.size = max (c.step operation).held.length c.pool.size := by
  have hheld := h.held_le
  cases operation with
  | get =>
    have hnone := h.takeFirst_eq_none_iff
    simp only [Custody.step, size_get, List.length_cons]
    split_ifs with hall <;> grind
  | put handle | drop handle =>
    obtain ⟨hsize, -, -, -, hless⟩ := c.giveBack_counts handle
    exact hsize.trans (max_eq_right (hless.trans hheld)).symm
  | draw handle range =>
    simpa only [Custody.step, List.length_modify] using (max_eq_right hheld).symm
  | exercise most =>
    have hsize := congrArg Stats.size (stats_exercise c.pool most)
    exact hsize.trans (max_eq_right hheld).symm
  | shutdown => exact (max_eq_right hheld).symm

theorem created_step (h : c.pool.created = c.pool.size) (operation : Operation) :
    (c.step operation).pool.created = (c.step operation).pool.size := by
  cases operation with
  | get =>
    simp only [step, size_get, created_get, h]
  | put handle | drop handle =>
    obtain ⟨hsize, hcreated, -⟩ := c.giveBack_counts handle
    exact hcreated.trans (h.trans hsize.symm)
  | draw handle range => exact h
  | exercise most =>
    have hsize := congrArg Stats.size (stats_exercise c.pool most)
    exact h.trans hsize.symm
  | shutdown => exact h

theorem exercised_step (h : c.pool.exercised = c.answers.sum) (operation : Operation) :
    (c.step operation).pool.exercised = (c.step operation).answers.sum := by
  cases operation with
  | get => exact (exercised_get c.pool).trans h
  | put handle | drop handle =>
    obtain ⟨-, -, hexercised, hanswers, -⟩ := c.giveBack_counts handle
    exact hexercised.trans (h.trans (congrArg List.sum hanswers).symm)
  | draw handle range => exact h
  | exercise most =>
    simp [step, Pool.exercise, h]
  | shutdown => exact h

/-- What the counts of a pool stand for. -/
structure Accounts (c : Custody γ) : Prop where
  created_eq : c.pool.created = c.pool.size
  inUse_eq : c.pool.inUse = c.held.length
  exercised_eq : c.pool.exercised = c.answers.sum
  /-- A pass answers with the number of slots that are not in use. -/
  exercise_answers : ∀ most, (c.step (.exercise most)).answers =
    c.answers ++ [c.pool.size - c.pool.inUse]
  /-- A pass counts its answer and changes no other count. -/
  exercise_stats : ∀ most, (c.step (.exercise most)).pool.stats =
    { c.pool.stats with exercised := c.pool.exercised + (c.pool.size - c.pool.inUse) }
  /-- The handles are as they were. -/
  exercise_held : ∀ most, (c.step (.exercise most)).held = c.held
  /-- The flags are as they were, and every generator is in its slot. -/
  exercise_slots : ∀ most,
    ((c.step (.exercise most)).pool.slots.map fun slot =>
      (slot.inUse, slot.generator.map Generator.seed)) =
      c.pool.slots.map fun slot => (slot.inUse, slot.generator.map Generator.seed)
  /-- The pool grows only where every generator is held. -/
  held_of_growth : c.pool.size < (c.step .get).pool.size →
    ∀ place < c.pool.size, ∃ loan ∈ c.held, loan.slot = place

/-- Where there are as many handles as slots, every slot has its handle. -/
theorem Kept.exists_loan (h : c.Kept) (hall : c.held.length = c.pool.size) {place : ℕ}
    (hplace : place < c.pool.size) : ∃ loan ∈ c.held, loan.slot = place := by
  obtain ⟨slot, hslot⟩ : ∃ slot, c.pool.slots[place]? = some slot :=
    ⟨_, List.getElem?_eq_getElem hplace⟩
  have hset : slot.inUse = true := by
    have hcount : c.pool.slots.countP Slot.inUse = c.pool.slots.length := h.inUse_eq.trans hall
    exact List.countP_eq_length.mp hcount slot (List.mem_of_getElem? hslot)
  have howners := (h.toExclusive.inUse_iff place slot hslot).mp hset
  obtain ⟨inHand, hinHand⟩ := Multiset.exists_mem_of_ne_zero howners
  rw [Sharing.owners, holdings_sharing] at hinHand
  obtain ⟨holding, hholding, -⟩ := Multiset.mem_map.mp hinHand
  obtain ⟨hmem, hplace⟩ := Multiset.mem_filter.mp hholding
  obtain ⟨loan, hloan, rfl⟩ := List.mem_map.mp (Multiset.mem_coe.mp hmem)
  exact ⟨loan, hloan, hplace⟩

theorem Kept.toAccounts (h : c.Kept) (hcreated : c.pool.created = c.pool.size)
    (hexercised : c.pool.exercised = c.answers.sum) : c.Accounts where
  created_eq := hcreated
  inUse_eq := h.inUse_eq
  exercised_eq := hexercised
  exercise_answers most := by simp only [Custody.step, h.exercise_eq]
  exercise_stats most := by
    rw [← h.exercise_eq most]
    exact stats_exercise c.pool most
  exercise_held _ := rfl
  exercise_slots most := map_exercise c.pool most
  held_of_growth hgrowth place hplace := by
    refine h.exists_loan (h.takeFirst_eq_none_iff.mp ?_) hplace
    simp only [Custody.step, size_get] at hgrowth
    by_contra hsome
    rw [if_neg hsome] at hgrowth
    exact lt_irrefl _ hgrowth

/-- The accounts of a pool without passes in the background are right after any operations. Its size
is the larger of the initial size and the greatest number of handles that were ever held at once. -/
theorem accounts_run (entropy : ℕ → Seed γ) (initial most : ℕ) (operations : List Operation) :
    let opened := start entropy ⟨initial, 0, most⟩
    IsGreatest (insert initial (opened.everHeld operations)) (opened.run operations).pool.size ∧
      (opened.run operations).Accounts := by
  intro opened
  have hkept (operations : List Operation) : (opened.run operations).Kept :=
    kept_run entropy _ operations
  -- The last operation is split off: before it, the size is the peak of the others.
  induction operations using List.reverseRecOn with
  | nil =>
    have hsize : opened.pool.size = initial := by
      simp [opened, start, Pool.start, size]
    refine ⟨?_, (hkept []).toAccounts hsize.symm rfl⟩
    rw [everHeld_nil, run, List.foldl_nil, hsize]
    have hpeak : IsGreatest {initial, 0} (max initial 0) := isGreatest_pair
    rwa [Nat.max_zero] at hpeak
  | append_singleton operations operation ih =>
    obtain ⟨hgreatest, haccounts⟩ := ih
    have hstep := (hkept operations).size_step operation
    rw [everHeld_concat, Set.insert_comm, run_concat, hstep]
    refine ⟨hgreatest.insert _, ?_⟩
    rw [← run_concat]
    refine (hkept _).toAccounts ?_ ?_
    · rw [run_concat]
      exact created_step haccounts.created_eq operation
    · rw [run_concat]
      exact exercised_step haccounts.exercised_eq operation

end Custody

end SlotOutcome.Pool
