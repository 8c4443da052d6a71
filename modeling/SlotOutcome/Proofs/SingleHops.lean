import SlotOutcome.Proofs.StakeOfSteps

/-!
# History does not pile up

A state is linked back to the round before and to the step before, and forward to the steps that are
to be revealed. Links are copied in many places: a snapshot keeps the chain, the next step keeps the
link to the round before, and revealing a step takes over what is left of the chain of another
state. But whatever is linked is bare, without links backwards of its own, so the links of a state
lead one hop and end there.

```text
            chain: bare, bare, …              chain: bare, bare, …
                 ▲                                 ▲
  stateful, stateless: bare  ◄────────────  a state that was built
```

## Main definitions

* `RoundState.IsBare`: a state without links backwards.
* `RoundState.SingleHop`: all that a state is linked to is bare.
* `RoundState.Built`: the states that are built from fresh ones.

## Main results

* `RoundState.SingleHop.pass`: a pass of any tree leaves links that lead one hop.
* `RoundState.Built.singleHop`: so do all ways to build a state.
-/

namespace SlotOutcome

open Reveal (pending)

namespace RoundState

/-- A state without links backwards. -/
def IsBare (s : RoundState) : Prop := s.stateful = none ∧ s.stateless = none

/-- A state is linked back to another one, the round before or the step before. -/
def LinkedTo (s t : RoundState) : Prop := s.stateful = some t ∨ s.stateless = some t

/-- No link of the chain of a state has links backwards. -/
def HasBareChain (s : RoundState) : Prop := ∀ link ∈ s.links, link.IsBare

/-- The links of a state backwards lead one hop, and its chain and those of the linked states lead
nowhere else. -/
structure SingleHop (s : RoundState) : Prop where
  chain : s.HasBareChain
  linked : ∀ t, s.LinkedTo t → t.IsBare ∧ t.HasBareChain

/-- The states that are built from fresh ones: by links, by going on to the next round or step, by
setting, taking and dropping chains, and by passes of any trees, with whatever outcome. -/
inductive Built : RoundState → Prop
  | fresh (reels rows : Nat) : Built (fresh reels rows)
  /-- What stands in a state beside its links may be set at will. -/
  | configured {s : RoundState} (h : Built s) (outcome : Outcome) (stake : Float)
      (replay : ReplayInfo) (paytable : Option String) (evaluator : Option Evaluator) :
      Built { s with
        outcome := outcome, stake := stake, replay := replay, paytable := paytable,
        evaluator := evaluator }
  | linkStateful {s previous : RoundState} (h : Built s) (hprevious : Built previous) :
      Built (s.linkStateful previous)
  | linkStateless {s previous : RoundState} (h : Built s) (hprevious : Built previous) :
      Built (s.linkStateless previous)
  | snapshot {s : RoundState} (h : Built s) : Built s.snapshot
  | nextRound {s : RoundState} (h : Built s) : Built s.nextRound
  | nextStep {s : RoundState} (h : Built s) : Built s.nextStep
  | setChain {s : RoundState} (h : Built s) (links : List RoundState) : Built (s.setChain links)
  | takeNext {s : RoundState} (h : Built s) : Built s.takeNext.1
  | taken {s link : RoundState} (h : Built s) (hlink : s.takeNext.2 = some link) : Built link
  | clearChain {s : RoundState} (h : Built s) : Built s.clearChain
  | pass {σ : Type} [RandomSource σ] {s : RoundState} (h : Built s) (d : Definition) (source : σ)
      (bag : Bag) : Built (SlotOutcome.trigger .builtin d source s bag).2.state

/-! ### Bare states and chains -/

variable {s previous : RoundState}

theorem isBare_snapshot (s : RoundState) : s.snapshot.IsBare := ⟨rfl, rfl⟩

theorem isBare_asLink (s : RoundState) : s.asLink.IsBare := ⟨rfl, rfl⟩

theorem IsBare.not_linkedTo (h : s.IsBare) (t : RoundState) : ¬s.LinkedTo t := by
  rintro (hlink | hlink)
  · rw [h.1] at hlink
    cases hlink
  · rw [h.2] at hlink
    cases hlink

/-- What follows a link in a chain does not matter to its links backwards. -/
theorem forall_isBare_linksOf_iff (chain : List RoundState) :
    (∀ link ∈ linksOf chain, link.IsBare) ↔ ∀ link ∈ chain, link.IsBare := by
  induction chain with
  | nil => rfl
  | cons link rest ih => rw [linksOf, List.forall_mem_cons, List.forall_mem_cons, ih]; rfl

theorem hasBareChain_iff : s.HasBareChain ↔ ∀ link ∈ s.chain, link.IsBare :=
  forall_isBare_linksOf_iff s.chain

theorem HasBareChain.of_subset {t : RoundState} (h : t.HasBareChain) (hchain : s.chain ⊆ t.chain) :
    s.HasBareChain :=
  hasBareChain_iff.mpr fun link hlink => hasBareChain_iff.mp h link (hchain hlink)

theorem hasBareChain_of_nil (h : s.chain = []) : s.HasBareChain :=
  hasBareChain_iff.mpr fun link hlink => by
    rw [h] at hlink
    cases hlink

theorem hasBareChain_setChain (s : RoundState) (links : List RoundState) :
    (s.setChain links).HasBareChain := by
  refine hasBareChain_iff.mpr fun link hlink => ?_
  obtain ⟨step, -, rfl⟩ := List.mem_map.mp hlink
  exact step.isBare_asLink

/-! ### Ways to build states -/

namespace SingleHop

theorem of_isBare (h : s.IsBare) (hchain : s.HasBareChain) : s.SingleHop :=
  ⟨hchain, fun t ht => absurd ht (h.not_linkedTo t)⟩

/-- A state with another chain, if the links backwards are the same. -/
theorem withChain {t : RoundState} (h : s.SingleHop) (hstateful : t.stateful = s.stateful)
    (hstateless : t.stateless = s.stateless) (hchain : t.HasBareChain) : t.SingleHop := by
  refine ⟨hchain, fun u hu => h.linked u ?_⟩
  rwa [LinkedTo, hstateful, hstateless] at hu

/-- The snapshot of a state is bare and keeps the chain. -/
theorem snapshot_bare (h : previous.SingleHop) :
    previous.snapshot.IsBare ∧ previous.snapshot.HasBareChain :=
  ⟨previous.isBare_snapshot, h.chain.of_subset fun _ hlink => hlink⟩

protected theorem snapshot (h : s.SingleHop) : s.snapshot.SingleHop :=
  of_isBare h.snapshot_bare.1 h.snapshot_bare.2

protected theorem linkStateful (h : s.SingleHop) (hprevious : previous.SingleHop) :
    (s.linkStateful previous).SingleHop := by
  refine ⟨h.chain, ?_⟩
  rintro t (⟨⟨⟩⟩ | hstateless)
  · exact hprevious.snapshot_bare
  · exact h.linked t (.inr hstateless)

protected theorem linkStateless (h : s.SingleHop) (hprevious : previous.SingleHop) :
    (s.linkStateless previous).SingleHop := by
  refine ⟨h.chain, ?_⟩
  rintro t (hstateful | ⟨⟨⟩⟩)
  · exact h.linked t (.inl hstateful)
  · exact hprevious.snapshot_bare

protected theorem nextRound (h : s.SingleHop) : s.nextRound.SingleHop := by
  refine ⟨hasBareChain_of_nil rfl, ?_⟩
  rintro t (⟨⟨⟩⟩ | hstateless)
  · exact h.snapshot_bare
  · cases hstateless

/-- The next step keeps the link to the round before. -/
protected theorem nextStep (h : s.SingleHop) : s.nextStep.SingleHop := by
  refine ⟨hasBareChain_of_nil rfl, ?_⟩
  rintro t (hstateful | ⟨⟨⟩⟩)
  · exact h.linked t (.inl hstateful)
  · exact h.snapshot_bare

protected theorem takeNext (h : s.SingleHop) : s.takeNext.1.SingleHop := by
  unfold RoundState.takeNext
  split
  · exact h
  · exact h.withChain rfl rfl (hasBareChain_of_nil rfl)

protected theorem taken {link : RoundState} (h : s.SingleHop) (hlink : s.takeNext.2 = some link) :
    link.SingleHop := by
  unfold RoundState.takeNext at hlink
  split at hlink
  · cases hlink
  next first rest hchain =>
  cases hlink
  have hbare := hasBareChain_iff.mp h.chain
  rw [hchain] at hbare
  refine of_isBare (hbare first List.mem_cons_self) (hasBareChain_iff.mpr fun link hlink => ?_)
  exact hbare link (List.mem_cons_of_mem _ hlink)

end SingleHop

/-! ### Passes -/

/-- The steps that wait to be revealed are the chain of the round before. -/
theorem exists_linkedTo_of_pending {link : RoundState} {rest : List RoundState} {tries : UInt32}
    (h : pending s = some (link, rest, tries)) : ∃ t, s.LinkedTo t ∧ t.chain = link :: rest := by
  obtain ⟨previous, hstateful, hchain⟩ := Reveal.exists_of_pending h
  exact ⟨previous, .inl hstateful, hchain⟩

/-- A pass keeps the links backwards. The links of the chain that it leaves were there before, or
they wait in the chain of the round before, or they were computed and have lost their own links. -/
theorem SingleHop.pass {σ : Type} [RandomSource σ] (h : s.SingleHop) (d : Definition) (source : σ)
    (bag : Bag) : (SlotOutcome.trigger .builtin d source s bag).2.state.SingleHop := by
  rcases hrun : SlotOutcome.trigger .builtin d source s bag with ⟨r, p⟩
  obtain ⟨hsetting, hnone, hsome⟩ := chainLaw.trigger_keeps (σ := σ) (fun n hn => hn) [] _ _ _ hrun
  refine h.withChain (stateful_of_setting hsetting) (stateless_of_setting hsetting) ?_
  rcases hpending : pending s with _ | ⟨first, rest, tries⟩
  · refine hasBareChain_iff.mpr fun link hlink => ?_
    rcases hnone hpending link hlink with hold | ⟨-, hcomputed⟩
    · exact hasBareChain_iff.mp h.chain link hold
    · obtain ⟨-, -, -, -, -, -, step, -, -, -, rfl⟩ := hcomputed
      exact step.isBare_asLink
  · rcases hsome first rest tries hpending with hchain | hchain | hchain
    · exact h.chain.of_subset fun link hlink => by rwa [hchain] at hlink
    · exact hasBareChain_of_nil hchain
    · obtain ⟨t, ht, hround⟩ := exists_linkedTo_of_pending hpending
      refine (h.linked t ht).2.of_subset ?_
      rw [hround, hchain]
      exact List.subset_cons_self first rest

/-- History never piles up: whatever way a state was built, the states that it is linked back to
have no links backwards, and no link of its chain or of their chains has any. -/
theorem Built.singleHop (h : s.Built) : s.SingleHop := by
  induction h with
  | fresh reels rows => exact .of_isBare ⟨rfl, rfl⟩ (hasBareChain_of_nil rfl)
  | configured _ _ _ _ _ _ ih => exact ih.withChain rfl rfl ih.chain
  | linkStateful _ _ ih ihprevious => exact ih.linkStateful ihprevious
  | linkStateless _ _ ih ihprevious => exact ih.linkStateless ihprevious
  | snapshot _ ih => exact ih.snapshot
  | nextRound _ ih => exact ih.nextRound
  | nextStep _ ih => exact ih.nextStep
  | setChain _ links ih => exact ih.withChain rfl rfl (hasBareChain_setChain _ links)
  | takeNext _ ih => exact ih.takeNext
  | taken _ hlink ih => exact ih.taken hlink
  | clearChain _ ih => exact ih.withChain rfl rfl (hasBareChain_of_nil rfl)
  | pass _ d source bag ih => exact ih.pass d source bag

/-- Computes three steps with a prize each, and reveals the others in the calls after it. -/
def threePrizes : Definition where
  id := 1
  tag := "Activator"
  params := .empty
  features := [
    ⟨2, "Play", Bag.empty.insert "Steps" (.ofNat 3),
      [⟨3, "InstantPrize", Bag.empty.insert "Prize" (.ofNat 5), []⟩]⟩,
    ⟨4, "Replay", .empty, []⟩]

/-- The next step of a round that reveals a step: it is linked to the round that computed three
steps and to the one that revealed one of them and keeps another one. -/
theorem Built.singleHop_revealing : ∃ s : RoundState, s.Built ∧
    s.stateful.map (fun t => t.chain.length) = some 2 ∧
    s.stateless.map (fun t => t.chain.length) = some 1 ∧ s.SingleHop := by
  have hcomputed : (SlotOutcome.trigger .builtin threePrizes (Script.ofDraws []) (.fresh 2 2)
      .empty).2.state.Built := .pass (.fresh 2 2) threePrizes _ _
  have hrevealed := (hcomputed.nextRound.pass threePrizes (Script.ofDraws []) .empty).nextStep
  exact ⟨_, hrevealed, by decide +kernel, by decide +kernel, hrevealed.singleHop⟩

end RoundState

end SlotOutcome
