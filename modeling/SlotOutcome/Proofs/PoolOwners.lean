import SlotOutcome.Proofs.PoolSteps
import SlotOutcome.Random.Seeded

/-!
# Owners of generators

A slot of a shared pool is owned by a handle, or by a thread that is on its way to one, that drops
one or that exercises the generator. An owner has the generator in its hands, but for a moment after
it has set the flag and for a moment before it clears it.

```text
  flag    cell        owners
  clear   generator   none
  set     generator   one, which is about to take it or has written it back
  set     empty       one, with the generator in its hands
```

Every step keeps each slot in one of these three forms, and with the generator that it was seeded
with. A generator whose slot is still to be appended belongs to no slot of the pool.

## Main definitions

* `Pool.Sharing.owners`, `Pool.Sharing.generatorsOf`: the owners of a slot, and its generators.
* `Pool.Fits`, `Pool.Sharing.Sound`: the three forms, and that every slot has one of them.
* `Pool.Sharing.Exclusive`: no generator is shared or lost.

## Main results

* `Pool.Sharing.Step.sound`, `Pool.Sharing.Run.sound`: steps and runs keep the forms.
* `Pool.Sharing.Run.exclusive`: no generator is shared or lost, whatever the threads do.
-/

namespace SlotOutcome.Pool

open Generator (Seed seed)

variable {γ : Type}

/-! ### Owners -/

/-- A slot that is owned, and the generator if its owner has it in its hands. -/
structure Holding (γ : Type) where
  slot : ℕ
  inHand : Option γ

/-- A handle owns its slot and has its generator. -/
def Loan.holding (loan : Loan γ) : Holding γ := ⟨loan.slot, some loan.generator⟩

/-- The slot that a thread owns: from the step that sets its flag to the step that clears it, or
that makes it a handle. -/
def Thread.holdings : Thread γ → Multiset (Holding γ)
  | idle => 0
  | trying _ => 0
  | taking walk => {⟨walk.place, none⟩}
  | retreating walk => {⟨walk.place, none⟩}
  | returning loan _ => {loan.holding}
  | freeing place _ => {⟨place, none⟩}
  | growing _ => 0
  | counting loan => {loan.holding}

theorem Thread.holdings_resume (walk : Option Walk) : (resume walk : Thread γ).holdings = 0 := by
  cases walk <;> rfl

/-- Of each owner of a slot, the generator that it has in its hands. -/
def ownersAmong (place : ℕ) (holdings : Multiset (Holding γ)) : Multiset (Option γ) :=
  (holdings.filter fun holding => holding.slot = place).map Holding.inHand

section Among

variable {place : ℕ} {holdings holdings' : Multiset (Holding γ)}

@[simp] theorem ownersAmong_zero : ownersAmong place (0 : Multiset (Holding γ)) = 0 := rfl

@[simp] theorem ownersAmong_add : ownersAmong place (holdings + holdings') =
    ownersAmong place holdings + ownersAmong place holdings' := by
  rw [ownersAmong, Multiset.filter_add, Multiset.map_add]
  rfl

@[simp] theorem ownersAmong_singleton (holding : Holding γ) :
    ownersAmong place {holding} = if holding.slot = place then {holding.inHand} else 0 := by
  rw [ownersAmong, Multiset.filter_singleton]
  split_ifs <;> rfl

end Among

variable [Generator γ]

namespace Sharing

variable (s : Sharing γ)

/-- Who owns which slot. -/
def holdings : Multiset (Holding γ) := s.handles.map Loan.holding + s.threads.bind Thread.holdings

/-- Of each owner of a slot, the generator that it has in its hands. -/
def owners (place : ℕ) : Multiset (Option γ) := ownersAmong place s.holdings

/-- The generators of a slot: in its cell, and in the hands of its owners. -/
def generatorsOf (place : ℕ) : Multiset γ :=
  ((s.pool.slots[place]?.bind Slot.generator).toList : Multiset γ) +
    (s.owners place).filterMap id

end Sharing

/-! ### The forms of a slot -/

/-- The forms of a slot, for the seed of its generator: what its flag and its cell hold, and of each
owner what it has in its hands. A place past the end has no seed, no slot and no owner. -/
inductive Fits : Option (Seed γ) → Option (Slot γ) → Multiset (Option γ) → Prop
  | absent : Fits none none 0
  | idle (generator : γ) : Fits (some (seed generator)) (some (.idle generator)) 0
  | owned (generator : γ) : Fits (some (seed generator)) (some ⟨true, some generator⟩) {none}
  | lent (generator : γ) : Fits (some (seed generator)) (some .checkedOut) {some generator}

namespace Fits

variable {seed : Option (Seed γ)} {slot : Slot γ} {slot? : Option (Slot γ)}
  {owners : Multiset (Option γ)}

/-- A slot whose flag is clear is idle. -/
theorem eq_idle (h : Fits seed (some slot) owners) (hclear : slot.inUse = false) :
    ∃ generator, seed = some (Generator.seed generator) ∧ slot = .idle generator ∧ owners = 0 := by
  cases h with
  | idle generator => exact ⟨generator, rfl, rfl, rfl⟩
  | owned generator => cases hclear
  | lent generator => cases hclear

/-- There are as many seeds as slots. -/
theorem isNone_iff (h : Fits seed slot? owners) : seed = none ↔ slot? = none := by
  cases h <;> simp

theorem eq_zero (h : Fits none none owners) : owners = 0 := by
  cases h
  rfl

theorem card_le (h : Fits seed slot? owners) : owners.card ≤ 1 := by
  cases h <;> simp

theorem inUse_iff (h : Fits seed (some slot) owners) : slot.inUse = true ↔ owners ≠ 0 := by
  cases h <;> simp [Slot.idle, Slot.checkedOut]

theorem isSome_of_mem {inHand : Option γ} (h : Fits seed slot? owners)
    (hmem : inHand ∈ owners) : slot?.isSome = true := by
  cases h with
  | absent => exact absurd hmem (Multiset.notMem_zero _)
  | idle | owned | lent => rfl

theorem full_of_mem (h : Fits seed slot? owners) (hmem : none ∈ owners) :
    ∃ generator, slot? = some ⟨true, some generator⟩ := by
  cases h with
  | absent => exact absurd hmem (Multiset.notMem_zero _)
  | idle generator => exact absurd hmem (Multiset.notMem_zero _)
  | owned generator => exact ⟨generator, rfl⟩
  | lent generator => cases Multiset.mem_singleton.mp hmem

/-- In its cell and in the hands of its owners a slot has one generator, that of its seed. -/
theorem exists_generator {seed : Seed γ} (h : Fits (some seed) slot? owners) :
    ∃ generator, ((slot?.bind Slot.generator).toList : Multiset γ) + owners.filterMap id =
      {generator} ∧ Generator.seed generator = seed := by
  cases h with
  | idle generator => exact ⟨generator, rfl, rfl⟩
  | owned generator => exact ⟨generator, rfl, rfl⟩
  | lent generator => exact ⟨generator, rfl, rfl⟩

/-- An owner is the only one, and the generator is in the cell or in its hands. -/
theorem alone {inHand : Option γ} (h : Fits seed slot? ({inHand} + owners)) :
    owners = 0 ∧ ∃ generator, seed = some (Generator.seed generator) ∧
      (inHand = none ∧ slot? = some ⟨true, some generator⟩ ∨
        inHand = some generator ∧ slot? = some .checkedOut) := by
  rw [Multiset.singleton_add] at h
  generalize hall : inHand ::ₘ owners = all at h
  cases h with
  | absent => exact absurd hall Multiset.cons_ne_zero
  | idle generator => exact absurd hall Multiset.cons_ne_zero
  | owned generator =>
    obtain ⟨hhand, hnone⟩ := (Multiset.singleton_eq_cons_iff _).mp hall.symm
    exact ⟨hnone, generator, rfl, .inl ⟨hhand.symm, rfl⟩⟩
  | lent generator =>
    obtain ⟨hhand, hnone⟩ := (Multiset.singleton_eq_cons_iff _).mp hall.symm
    exact ⟨hnone, generator, rfl, .inr ⟨hhand.symm, rfl⟩⟩

/-- An owner without the generator finds it in the cell. -/
theorem eq_owned (h : Fits seed slot? ({none} + owners)) :
    ∃ generator, seed = some (Generator.seed generator) ∧ slot? = some ⟨true, some generator⟩ ∧
      owners = 0 := by
  obtain ⟨hnone, generator, hseed, ⟨-, hslot⟩ | ⟨hhand, -⟩⟩ := h.alone
  · exact ⟨generator, hseed, hslot, hnone⟩
  · cases hhand

/-- An owner with a generator has that of the slot. -/
theorem eq_lent {generator : γ} (h : Fits seed slot? ({some generator} + owners)) :
    seed = some (Generator.seed generator) ∧ slot? = some .checkedOut ∧ owners = 0 := by
  obtain ⟨hnone, generator, hseed, ⟨hhand, -⟩ | ⟨hhand, hslot⟩⟩ := h.alone
  · cases hhand
  · cases hhand
    exact ⟨hseed, hslot, hnone⟩

end Fits

/-- Every slot has one of its forms, for the seeds of the generators in the order of the slots. -/
def FitAll (seeds : List (Seed γ)) (slots : List (Slot γ)) (holdings : Multiset (Holding γ)) :
    Prop :=
  ∀ place, Fits seeds[place]? slots[place]? (ownersAmong place holdings)

namespace FitAll

variable {seeds seeds' : List (Seed γ)} {slots slots' : List (Slot γ)}
  {mine mine' rest : Multiset (Holding γ)}

/-- A change at one place has to be looked at there only. -/
theorem update (h : FitAll seeds slots (mine + rest)) (place : ℕ)
    (hseeds : ∀ other ≠ place, seeds'[other]? = seeds[other]?)
    (hslots : ∀ other ≠ place, slots'[other]? = slots[other]?)
    (hmine : ∀ other ≠ place, ownersAmong other mine' = ownersAmong other mine)
    (hplace : Fits seeds[place]? slots[place]? (ownersAmong place mine + ownersAmong place rest) →
      Fits seeds'[place]? slots'[place]? (ownersAmong place mine' + ownersAmong place rest)) :
    FitAll seeds' slots' (mine' + rest) := by
  intro other
  have hother := h other
  rw [ownersAmong_add] at hother ⊢
  rcases eq_or_ne other place with rfl | hne
  · exact hplace hother
  · rwa [hseeds other hne, hslots other hne, hmine other hne]

theorem length_eq (h : FitAll seeds slots mine) : seeds.length = slots.length := by
  have hle (place : ℕ) : seeds.length ≤ place ↔ slots.length ≤ place := by
    rw [← List.getElem?_eq_none_iff, ← List.getElem?_eq_none_iff]
    exact (h place).isNone_iff
  exact le_antisymm ((hle _).mpr le_rfl) ((hle _).mp le_rfl)

end FitAll

theorem Slot.seed_burn (most : ℕ) (generator : γ) :
    Generator.seed (burn most generator) = Generator.seed generator := by
  have hdraw := Generator.seed_draw generator (max most 1)
  rw [burn]
  rcases hdrawn : (draw (max most 1) : DrawM γ ℕ) generator with ⟨e | count, next⟩ <;>
    rw [hdrawn] at hdraw
  · exact hdraw
  · exact (Generator.seed_skip next (count + 1)).trans hdraw

/-! ### Steps -/

section Steps

variable {seeds : List (Seed γ)} {pool pool' : Pool γ} {thread thread' : Thread γ}
  {taken given : Multiset (Loan γ)} {rest : Multiset (Holding γ)}

theorem FitAll.modify {slots : List (Slot γ)} {mine mine' : Multiset (Holding γ)}
    (h : FitAll seeds slots (mine + rest)) (place : ℕ) (change : Slot γ → Slot γ)
    (hmine : ∀ other ≠ place, ownersAmong other mine' = ownersAmong other mine)
    (hplace : Fits seeds[place]? slots[place]? (ownersAmong place mine + ownersAmong place rest) →
      Fits seeds[place]? (slots[place]?.map change)
        (ownersAmong place mine' + ownersAmong place rest)) :
    FitAll seeds (slots.modify place change) (mine' + rest) := by
  refine h.update place (fun _ _ => rfl) (fun other hother => ?_) hmine fun hfits => ?_
  · rw [List.getElem?_modify]
    simp [hother.symm]
  · rw [List.getElem?_modify]
    simpa using hplace hfits

section Owning

variable {slots : List (Slot γ)} {slot : Slot γ} {generator next : γ} {place : ℕ}

/-- Who sets the flag owns the slot. -/
theorem FitAll.acquire (h : FitAll seeds slots (0 + rest)) (hslot : slots[place]? = some slot)
    (hclear : slot.inUse = false) :
    FitAll seeds (slots.modify place fun slot => { slot with inUse := true })
      ({⟨place, none⟩} + rest) := by
  refine h.modify place _ (fun other hother => by simp [hother.symm]) fun hfits => ?_
  rw [ownersAmong_zero, zero_add, hslot] at hfits
  obtain ⟨generator, hseeds, rfl, halone⟩ := hfits.eq_idle hclear
  rw [ownersAmong_singleton, if_pos rfl, hseeds, hslot, halone]
  exact .owned generator

/-- The owner takes the generator out and may draw on it. -/
theorem FitAll.take (h : FitAll seeds slots ({⟨place, none⟩} + rest))
    (hslot : slots[place]? = some slot) (hfull : slot.generator = some generator)
    (hseed : Generator.seed next = Generator.seed generator) :
    FitAll seeds (slots.modify place fun slot => { slot with generator := none })
      ({⟨place, some next⟩} + rest) := by
  refine h.modify place _ (fun other hother => by simp [hother.symm]) fun hfits => ?_
  rw [ownersAmong_singleton, if_pos rfl] at hfits ⊢
  obtain ⟨found, hseeds, hslots, halone⟩ := hfits.eq_owned
  cases hslot.symm.trans hslots
  cases hfull
  rw [hseeds, hslots, halone, ← hseed]
  exact .lent next

/-- The owner draws on the generator. -/
theorem FitAll.draw (h : FitAll seeds slots ({⟨place, some generator⟩} + rest))
    (hseed : Generator.seed next = Generator.seed generator) :
    FitAll seeds slots ({⟨place, some next⟩} + rest) := by
  refine h.update place (fun _ _ => rfl) (fun _ _ => rfl)
    (fun other hother => by simp [hother.symm]) fun hfits => ?_
  rw [ownersAmong_singleton, if_pos rfl] at hfits ⊢
  obtain ⟨hseeds, hslots, halone⟩ := hfits.eq_lent
  rw [hseeds, hslots, halone, ← hseed]
  exact .lent next

/-- The owner writes the generator back. -/
theorem FitAll.writeBack (h : FitAll seeds slots ({⟨place, some generator⟩} + rest)) :
    FitAll seeds (slots.modify place fun slot => { slot with generator := some generator })
      ({⟨place, none⟩} + rest) := by
  refine h.modify place _ (fun other hother => by simp [hother.symm]) fun hfits => ?_
  rw [ownersAmong_singleton, if_pos rfl] at hfits ⊢
  obtain ⟨hseeds, hslots, halone⟩ := hfits.eq_lent
  rw [hseeds, hslots, halone]
  exact .owned generator

/-- Who clears the flag does not own the slot any more. -/
theorem FitAll.free (h : FitAll seeds slots ({⟨place, none⟩} + rest)) :
    FitAll seeds (slots.modify place fun slot => { slot with inUse := false }) (0 + rest) := by
  refine h.modify place _ (fun other hother => by simp [hother.symm]) fun hfits => ?_
  rw [ownersAmong_singleton, if_pos rfl] at hfits
  obtain ⟨generator, hseeds, hslots, halone⟩ := hfits.eq_owned
  rw [ownersAmong_zero, hseeds, hslots, halone]
  exact .idle generator

/-- Who has set the flag finds the generator. -/
theorem FitAll.exists_full (h : FitAll seeds slots ({⟨place, none⟩} + rest))
    (hslot : slots[place]? = some slot) : ∃ generator, slot = ⟨true, some generator⟩ := by
  have hfits := h place
  rw [ownersAmong_add, ownersAmong_singleton, if_pos rfl] at hfits
  obtain ⟨generator, -, hfound, -⟩ := hfits.eq_owned
  exact ⟨generator, Option.some.inj (hslot.symm.trans hfound)⟩

end Owning

theorem getElem?_concat_of_ne {α : Type} {l : List α} {a : α} {i : ℕ} (h : i ≠ l.length) :
    (l ++ [a])[i]? = l[i]? := by
  rcases lt_or_gt_of_ne h with hlt | hgt
  · exact List.getElem?_append_left hlt
  · rw [List.getElem?_eq_none hgt.le, List.getElem?_eq_none]
    rw [List.length_append, List.length_singleton]
    exact hgt

/-- A slot that is appended comes with its owner and the seed of its generator. -/
theorem FitAll.append {slots : List (Slot γ)} (h : FitAll seeds slots rest) (generator : γ) :
    FitAll (seeds ++ [Generator.seed generator]) (slots ++ [.checkedOut])
      ({⟨slots.length, some generator⟩} + rest) := by
  have hlength := h.length_eq
  have habsent : seeds[slots.length]? = none := List.getElem?_eq_none hlength.le
  have hslots : slots[slots.length]? = none := List.getElem?_eq_none le_rfl
  rw [← zero_add rest] at h
  refine h.update slots.length (fun other hother => ?_) (fun other hother => ?_)
    (fun other hother => by simp [hother.symm]) fun hfits => ?_
  · rw [← hlength] at hother
    exact getElem?_concat_of_ne hother
  · exact getElem?_concat_of_ne hother
  · rw [habsent, hslots, ownersAmong_zero, zero_add] at hfits
    rw [hfits.eq_zero, ownersAmong_singleton, if_pos rfl, List.getElem?_concat_length, ← hlength,
      List.getElem?_concat_length]
    exact .lent generator

/-- A step of a thread that does not append keeps every slot in one of its forms. -/
theorem Move.fitAll (h : Move pool thread taken pool' thread' given) (hold : ¬thread.Appends)
    (hsteady : ∀ walk, thread ≠ .retreating walk)
    (hfit : FitAll seeds pool.slots (taken.map Loan.holding + thread.holdings + rest)) :
    FitAll seeds pool'.slots (given.map Loan.holding + thread'.holdings + rest) := by
  cases h with
  | beginGet | beginExercise | drop | pass | seed | unseeded | finish | count => exact hfit
  | draw loan n => exact FitAll.draw hfit (Generator.seed_draw loan.generator n)
  | acquire hplace hslot hclear => exact FitAll.acquire hfit hslot hclear
  | lend hget hslot hfull => exact FitAll.take hfit hslot hfull rfl
  | burn hpass hslot hfull => exact FitAll.take hfit hslot hfull (Slot.seed_burn _ _)
  | miss hslot hempty =>
    obtain ⟨generator, rfl⟩ := FitAll.exists_full hfit hslot
    cases hempty
  | retreat => exact absurd rfl (hsteady _)
  | writeBack => exact FitAll.writeBack hfit
  | free =>
    rw [Thread.holdings_resume]
    exact FitAll.free hfit
  | append => exact absurd trivial hold

/-- No step finds an empty slot behind a flag that it has set. -/
theorem Move.ne_retreating (h : Move pool thread taken pool' thread' given)
    (hfit : FitAll seeds pool.slots (taken.map Loan.holding + thread.holdings + rest))
    (walk : Walk) : thread' ≠ .retreating walk := by
  cases h with
  | miss hslot hempty =>
    obtain ⟨generator, rfl⟩ := FitAll.exists_full hfit hslot
    cases hempty
  | @free place next => cases next <;> exact nofun
  | _ => exact nofun

end Steps

namespace Sharing

variable {s s' : Sharing γ} {seeds : List (Seed γ)}

/-- Every slot has one of its forms, and nobody found an empty slot behind a flag that it set. -/
structure Sound (seeds : List (Seed γ)) (s : Sharing γ) : Prop where
  fitAll : FitAll seeds s.pool.slots s.holdings
  steady : ∀ walk, .retreating walk ∉ s.threads

/-- The holdings of a thread and of some handles, apart from those of the others. -/
theorem holdings_split (pool : Pool γ) (thread : Thread γ) (taken handles : Multiset (Loan γ))
    (others : Multiset (Thread γ)) :
    (⟨pool, taken + handles, thread ::ₘ others⟩ : Sharing γ).holdings =
      taken.map Loan.holding + thread.holdings +
        (handles.map Loan.holding + others.bind Thread.holdings) := by
  rw [holdings, Multiset.map_add, Multiset.cons_bind]
  exact add_add_add_comm _ _ _ _

/-- A step keeps the forms of the slots. The seeds of the slots that are there stay. -/
theorem Step.sound (h : Step s s') (hsound : s.Sound seeds) :
    ∃ more, s'.Sound (seeds ++ more) := by
  obtain @⟨pool, pool', thread, thread', taken, given, handles, others, hmove, -⟩ := h
  obtain ⟨hfit, hsteady⟩ := hsound
  rw [holdings_split] at hfit
  have hsteady' (walk : Walk) : .retreating walk ∉ thread' ::ₘ others := by
    rw [Multiset.mem_cons, not_or]
    exact ⟨(hmove.ne_retreating hfit walk).symm,
      fun hothers => hsteady walk (Multiset.mem_cons_of_mem hothers)⟩
  by_cases happends : thread.Appends
  · cases hmove with
    | @append generator =>
      refine ⟨[Generator.seed generator], ⟨?_, hsteady'⟩⟩
      rw [holdings_split]
      simp only [Multiset.map_zero, zero_add, Thread.holdings] at hfit ⊢
      exact hfit.append generator
    | _ => exact happends.elim
  · have hthread (walk : Walk) : thread ≠ .retreating walk := by
      rintro rfl
      exact hsteady walk (Multiset.mem_cons_self _ _)
    refine ⟨[], ⟨?_, hsteady'⟩⟩
    rw [holdings_split, List.append_nil]
    exact hmove.fitAll happends hthread hfit

/-- A run keeps the forms of the slots. The seeds of the slots that are there stay. -/
theorem Run.sound (h : Run s s') (hsound : s.Sound seeds) :
    ∃ more, s'.Sound (seeds ++ more) := by
  induction h with
  | refl => exact ⟨[], by rwa [List.append_nil]⟩
  | tail _ hstep ih =>
    obtain ⟨more, hmore⟩ := ih
    obtain ⟨last, hlast⟩ := hstep.sound hmore
    exact ⟨more ++ last, by rwa [← List.append_assoc]⟩

theorem sound_start (entropy : ℕ → Seed γ) (settings : PoolSettings) (threads : ℕ) :
    (start entropy settings threads).Sound ((List.range settings.initialSize).map entropy) := by
  have hidle {thread : Thread γ} (h : thread ∈ (start entropy settings threads).threads) :
      thread = .idle := Multiset.eq_of_mem_replicate h
  have hempty : (start entropy settings threads).holdings = 0 := by
    have hnone : ∀ thread ∈ (start entropy settings threads).threads, thread.holdings = 0 :=
      fun thread h => by rw [hidle h, Thread.holdings]
    rw [holdings, Multiset.bind_congr hnone, Multiset.bind_zero]
    rfl
  refine ⟨fun place => ?_, fun walk hwalk => nomatch hidle hwalk⟩
  rw [hempty, ownersAmong_zero, start, Pool.start, List.getElem?_map, List.getElem?_map]
  rcases (List.range settings.initialSize)[place]? with _ | i
  · exact .absent
  · have hfits := Fits.idle (Generator.ofSeed (γ := γ) (entropy i))
    rwa [Generator.seed_ofSeed] at hfits

/-- What it means that no generator is shared or lost. -/
structure Exclusive (s : Sharing γ) : Prop where
  /-- A slot has one owner at most. -/
  one_owner : ∀ place, (s.owners place).card ≤ 1
  /-- The flag of a slot is set exactly while the slot has an owner. -/
  inUse_iff : ∀ place slot, s.pool.slots[place]? = some slot →
    (slot.inUse = true ↔ s.owners place ≠ 0)
  /-- A slot whose flag is clear holds a generator. -/
  full_of_clear : ∀ slot ∈ s.pool.slots, slot.inUse = false → slot.generator.isSome = true
  /-- Who has set a flag finds the generator. -/
  finds : ∀ walk, .taking walk ∈ s.threads →
    ∃ generator, s.pool.slots[walk.place]? = some ⟨true, some generator⟩
  /-- Nobody clears a flag again because the slot was empty. -/
  never_empty : ∀ walk, .retreating walk ∉ s.threads
  /-- Every slot has one generator, in its cell or in the hands of an owner. -/
  one_generator : ∀ place < s.pool.size, (s.generatorsOf place).card = 1
  /-- Owners own slots of the pool. -/
  owned_lt : ∀ holding ∈ s.holdings, holding.slot < s.pool.size

theorem mem_owners {holding : Holding γ} (h : holding ∈ s.holdings) :
    holding.inHand ∈ s.owners holding.slot :=
  Multiset.mem_map_of_mem _ (Multiset.mem_filter.mpr ⟨h, rfl⟩)

theorem mem_holdings {thread : Thread γ} (h : thread ∈ s.threads) {holding : Holding γ}
    (hmem : holding ∈ thread.holdings) : holding ∈ s.holdings :=
  Multiset.mem_add.mpr (.inr (Multiset.mem_bind.mpr ⟨thread, h, hmem⟩))

theorem Sound.exists_seed (h : s.Sound seeds) {place : ℕ} (hplace : place < s.pool.size) :
    ∃ seed, seeds[place]? = some seed := by
  have hlength := h.fitAll.length_eq
  exact ⟨_, List.getElem?_eq_getElem (hlength ▸ hplace)⟩

/-- A slot has one generator, and it is the one that its slot was made for. -/
theorem Sound.exists_generator (h : s.Sound seeds) {place : ℕ} {seed : Seed γ}
    (hseed : seeds[place]? = some seed) :
    ∃ generator, s.generatorsOf place = {generator} ∧ Generator.seed generator = seed := by
  have hfits := h.fitAll place
  rw [hseed] at hfits
  exact hfits.exists_generator

theorem Sound.toExclusive (h : s.Sound seeds) : s.Exclusive where
  one_owner place := (h.fitAll place).card_le
  inUse_iff place slot hslot := by
    have hfits := h.fitAll place
    rw [hslot] at hfits
    exact hfits.inUse_iff
  full_of_clear slot hslot hclear := by
    obtain ⟨place, hplace⟩ := List.mem_iff_getElem?.mp hslot
    have hfits := h.fitAll place
    rw [hplace] at hfits
    obtain ⟨generator, -, rfl, -⟩ := hfits.eq_idle hclear
    rfl
  finds walk hwalk := by
    have hmem : ⟨walk.place, none⟩ ∈ s.holdings :=
      mem_holdings hwalk (Multiset.mem_singleton_self _)
    exact (h.fitAll walk.place).full_of_mem (mem_owners hmem)
  never_empty := h.steady
  one_generator place hplace := by
    obtain ⟨seed, hseed⟩ := h.exists_seed hplace
    obtain ⟨generator, hgenerator, -⟩ := h.exists_generator hseed
    rw [hgenerator, Multiset.card_singleton]
  owned_lt holding hmem := by
    have hsome := (h.fitAll holding.slot).isSome_of_mem (mem_owners hmem)
    obtain ⟨slot, hslot⟩ := Option.isSome_iff_exists.mp hsome
    exact (List.getElem?_eq_some_iff.mp hslot).1

/-- Where nothing is owned, every slot is idle. -/
theorem Sound.idle (h : s.Sound seeds) (hempty : s.holdings = 0) {slot : Slot γ}
    (hslot : slot ∈ s.pool.slots) : ∃ generator, slot = .idle generator := by
  obtain ⟨place, hplace⟩ := List.mem_iff_getElem?.mp hslot
  have hfits := h.fitAll place
  rw [hplace, hempty, ownersAmong_zero] at hfits
  have hclear : slot.inUse = false := by simpa using hfits.inUse_iff
  obtain ⟨generator, -, rfl, -⟩ := hfits.eq_idle hclear
  exact ⟨generator, rfl⟩

/-- No generator is shared or lost, whatever the threads do. Every slot keeps the generator that it
was made for. When no handle is left and no thread owns a slot, all slots are idle. -/
theorem Run.exclusive {entropy : ℕ → Seed γ} {settings : PoolSettings} {threads : ℕ}
    (h : Run (start entropy settings threads) s) :
    s.Exclusive ∧
    (∀ s', Run s s' → ∀ place < s.pool.size,
      (s'.generatorsOf place).map Generator.seed = (s.generatorsOf place).map Generator.seed) ∧
    (s.handles = 0 → (∀ thread ∈ s.threads, thread.holdings = 0) →
      ∀ slot ∈ s.pool.slots, ∃ generator, slot = .idle generator) := by
  obtain ⟨more, hsound⟩ := h.sound (sound_start entropy settings threads)
  refine ⟨hsound.toExclusive, fun s' hrun place hplace => ?_,
    fun hhandles hthreads slot hslot => ?_⟩
  · obtain ⟨seed, hseed⟩ := hsound.exists_seed hplace
    obtain ⟨generator, hgenerator, rfl⟩ := hsound.exists_generator hseed
    obtain ⟨last, hsound'⟩ := hrun.sound hsound
    have hseed' : (_ ++ more ++ last)[place]? = some (Generator.seed generator) :=
      (List.getElem?_append_left (List.getElem?_eq_some_iff.mp hseed).1).trans hseed
    obtain ⟨generator', hgenerator', hsame⟩ := hsound'.exists_generator hseed'
    rw [hgenerator, hgenerator', Multiset.map_singleton, Multiset.map_singleton, hsame]
  · refine hsound.idle ?_ hslot
    rw [holdings, hhandles, Multiset.bind_congr hthreads, Multiset.bind_zero, Multiset.map_zero,
      zero_add]

/-- A handle is half way back when another thread tries the slot: the generator is there, and the
flag is still set. -/
theorem Run.exclusive_halfway :
    let entropy (_ : ℕ) : UInt64 := 7
    let pool (slot : Slot Seeded) : Pool Seeded := ⟨entropy, [slot], 1, 0, none⟩
    let pass : Thread Seeded := .trying ⟨.exercise 16 0, 1, 1⟩
    let halfway : Sharing Seeded := ⟨pool ⟨true, some (.ofSeed 7)⟩, 0, {.freeing 0 none, pass}⟩
    let returned : Sharing Seeded := ⟨pool (.idle (.ofSeed 7)), 0, {.idle, pass}⟩
    Run (start entropy ⟨1, 0, 16⟩ 2) halfway ∧ halfway.Exclusive ∧ Run halfway returned ∧
      (returned.generatorsOf 0).map Generator.seed = (halfway.generatorsOf 0).map Generator.seed ∧
      ∀ slot ∈ returned.pool.slots, ∃ generator, slot = .idle generator := by
  intro entropy pool pass halfway returned
  have hlock : ∀ other ∈ ({.idle} : Multiset (Thread Seeded)), ¬other.Scans := by
    simp [Thread.Scans]
  have hget : Run (start entropy ⟨1, 0, 16⟩ 2)
      ⟨pool .checkedOut, {⟨0, .ofSeed 7⟩}, {.idle, .idle}⟩ := Run.get hlock
  have hdrop : Run ⟨pool .checkedOut, {⟨0, .ofSeed 7⟩}, {.idle, .idle}⟩
      ⟨pool .checkedOut, 0, {.returning ⟨0, .ofSeed 7⟩ none, .idle}⟩ :=
    Run.of_taken (.drop _) False.elim
  have hpass : Run ⟨pool .checkedOut, 0, {.idle, .returning ⟨0, .ofSeed 7⟩ none}⟩
      ⟨pool .checkedOut, 0, {pass, .returning ⟨0, .ofSeed 7⟩ none}⟩ :=
    (Run.of_silent (.beginExercise 16) False.elim).trans
      (Run.of_silent (.pass Nat.one_pos rfl rfl) False.elim)
  have hback : Run ⟨pool .checkedOut, 0, {.returning ⟨0, .ofSeed 7⟩ none, pass}⟩ halfway :=
    Run.of_silent .writeBack False.elim
  have hfree : Run halfway returned := Run.of_silent .free False.elim
  rw [Multiset.pair_comm, Multiset.pair_comm pass] at hpass
  have hhalfway := hget.trans (hdrop.trans (hpass.trans hback))
  obtain ⟨hexclusive, hkept, -⟩ := Run.exclusive hhalfway
  obtain ⟨-, -, hidle⟩ := Run.exclusive (hhalfway.trans hfree)
  exact ⟨hhalfway, hexclusive, hfree, hkept returned hfree 0 Nat.one_pos,
    hidle rfl (by simp [returned, pass, Thread.holdings])⟩

end Sharing

end SlotOutcome.Pool
