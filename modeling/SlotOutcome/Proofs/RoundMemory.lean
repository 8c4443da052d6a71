import SlotOutcome.Proofs.WrittenMemory

/-!
# The memory of a round

The memory of a round travels from step to step: each step finds it in the ledger of the step before
and writes it to its own. So a step finds the bag that was stashed last in the round, whatever steps
lie in between, and the next round finds nothing.

```text
  turn       1      2      3            4             5
             next step     next round   next step
  stash      A      none   B            none          none
  finds      –      A      A            –             –
```

This is so as long as no step is taken over that was computed before. Such a step brings a ledger
of its own, with the memory of the round in which it was computed.

## Main definitions

* `memoryVisits`: the visits that write the memory of the round on its state.
* `Turn`, `TakesTurn`: what happens on a state between two steps or rounds.
* `RoundRun`: runs of steps and rounds, with what was stashed since the last round began.

## Main results

* `TakesTurn.next`: what one turn leaves for the next step.
* `RoundRun.statelessMap_eq`: a step finds the bag that was stashed last in its round.
* `memory_of_computed_step`: a step that is taken over brings the memory of another round.
-/

namespace SlotOutcome

open Execution (visitsOf)

/-- The tag of the features that write the memory of the round. -/
def roundTag : String := Channel.stateless.tag

/-- The visits of features that write the memory of the round, on the state itself. -/
def memoryVisits (calls : List Execution) : List Visit :=
  ((calls.flatMap Execution.here).filterMap Execution.visit).filter fun v => v.node.tag == roundTag

variable {σ : Type} [RandomSource σ]

/-! ### Turns -/

/-- What happens on a state in its turn, with the executions on it and on the states of the steps
that are computed ahead: a tree is triggered, or the state is a step of a sequence and the children
of the feature that computes it are called. It may also end with an error. -/
inductive Turn (σ : Type) [RandomSource σ] (s : RoundState) : List Execution → RoundState → Prop
  | pass {d : Definition} {source : σ} {bag : Bag} {r : Except FeatureError Unit} {p : Pass σ}
      {root : Execution} (hrun : d.watch .builtin [] ((Pass.start source s bag).watched []) =
        (r, p.watched [root])) : Turn σ s [root] p.state
  | step {n : Definition} {above : List Definition} {p q : Pass (Watched σ)}
      {calls : List Execution} {r : Except FeatureError Unit} (hstate : p.state = s)
      (hrun : fireAll (n.features.map fun c => ⟨c, c.watch .builtin above⟩) p = (r, q))
      (hcalls : q.source.calls = p.source.calls ++ calls) : Turn σ s calls q.state

/-- A turn in which the memory of the round is written once, by a feature that finds the given bag
stashed or none. -/
def WritesOnce (σ : Type) [RandomSource σ] (s : RoundState) (calls : List Execution)
    (stash : Option Bag) (s' : RoundState) : Prop :=
  Turn σ s calls s' ∧ ∃ v, memoryVisits calls = [v] ∧ Channel.stateless.pending v.bag = .ok stash

/-- A turn like this in which no step is taken over. -/
def TakesTurn (σ : Type) [RandomSource σ] (s : RoundState) (stash : Option Bag) (s' : RoundState) :
    Prop :=
  ∃ calls, WritesOnce σ s calls stash s' ∧ ∀ w ∈ visitsOf calls, ¬w.node.Reveals s.stateful

/-- What is written in a turn follows from the visits on the state. -/
theorem Turn.writes {s s' : RoundState} {calls : List Execution} (h : Turn σ s calls s') :
    Writes .stateless s s' calls calls := by
  cases h with
  | @pass d source bag r p root hrun =>
    obtain ⟨calls, hcalls, hwrites⟩ := d.watch_writes .stateless [] _ _ _ hrun
    obtain rfl : [root] = calls := hcalls
    exact hwrites
  | @step n above p q calls r hstate hrun hcalls =>
    subst hstate
    obtain ⟨calls', hcalls', hwrites⟩ := fireAll_writes (c := .stateless) (fun child hchild => by
      obtain ⟨c, -, rfl⟩ := List.mem_map.mp hchild
      exact c.watch_writes .stateless above) hrun
    obtain rfl : calls' = calls := List.append_cancel_left (hcalls'.symm.trans hcalls)
    exact hwrites

/-- In a turn the memory of the round is written by the visits on the state that are there for it,
unless a step is taken over. -/
theorem Turn.entries {s s' : RoundState} {calls : List Execution} (h : Turn σ s calls s')
    (hreveals : ∀ w ∈ visitsOf calls, ¬w.node.Reveals s.stateful) :
    s'.featuresOf roundTag =
      s.featuresOf roundTag ++ (memoryVisits calls).flatMap (Visit.written .stateless s) :=
  h.writes.entries.trans <| foldl_entriesAfter
    (fun v hv => hreveals v ((Execution.visitsHere_sublist calls).subset hv)) _

/-- A state that has not written the memory of the round yet, and finds a bag there. -/
def FindsInRound (s : RoundState) (map : Bag) : Prop :=
  s.featuresOf roundTag = [] ∧
    ∀ bag, Channel.stateless.pending bag = .ok none → statelessMap s bag = .ok map

theorem FindsInRound.statelessMap_of_pending {s : RoundState} {map bag : Bag} {stash : Option Bag}
    (h : FindsInRound s map) (hbag : Channel.stateless.pending bag = .ok stash) :
    statelessMap s bag = .ok (stash.getD map) := by
  rcases stash with _ | stash
  · exact h.2 bag hbag
  · rw [statelessMap, hbag]
    rfl

/-- The next step finds what is in the ledger of the state. -/
theorem statelessMap_nextStep (s : RoundState) {bag : Bag}
    (hbag : Channel.stateless.pending bag = .ok none) :
    statelessMap s.nextStep bag = latestMemory (s.featuresOf roundTag) := by
  rw [statelessMap, hbag]
  exact recorded_eq_latestMemory .stateless s.snapshot

/-- A turn leaves to the next step what was stashed in it, or else what was there. -/
theorem TakesTurn.next {s s' : RoundState} {map : Bag} {stash : Option Bag}
    (h : TakesTurn σ s stash s') (hs : FindsInRound s map) :
    FindsInRound s'.nextStep (stash.getD map) := by
  obtain ⟨calls, ⟨hturn, v, hvisits, hstash⟩, hreveals⟩ := h
  refine ⟨rfl, fun bag hbag => ?_⟩
  rw [statelessMap_nextStep s' hbag, hturn.entries hreveals, hs.1, hvisits, List.flatMap_singleton,
    Visit.written, Channel.plan, statelessMap_plan, hs.statelessMap_of_pending hstash]
  by_cases hempty : (stash.getD map).isEmpty
  · change latestMemory (v.node.entriesOf (.ok (ite _ _ _))) = _
    rw [if_pos hempty, (Members.isEmpty_iff _).mp hempty]
    rfl
  · change latestMemory (v.node.entriesOf (.ok (ite _ _ _))) = _
    rw [if_neg hempty]
    rfl

/-- The steps that a feature computes have their turns too: its children are called on the state
that follows the step before. -/
theorem Reveal.Ran.turn {n : Definition} {above : List Definition} {bag : Bag}
    {s s' : RoundState} {x x' : Watched σ} (h : Reveal.Ran
      (n.features.map fun c => ⟨c, c.watch .builtin above⟩) bag s x s' x') :
    ∃ calls, Turn σ s calls s' ∧ x'.calls = x.calls ++ calls := by
  obtain ⟨visits, q, hrun, rfl, rfl⟩ := h
  have hone : ∀ child ∈ n.features.map fun c => ⟨c, c.watch .builtin above⟩,
      AddsOne (Child.trigger child : PassM (Watched σ) Unit) := by
    intro child hchild
    obtain ⟨c, -, rfl⟩ := List.mem_map.mp hchild
    dsimp only
    rw [Definition.watch_eq]
    exact addsOne_recorded c _
  obtain ⟨calls, hcalls, -⟩ := fireAll_adds hone hrun
  exact ⟨calls, .step rfl hrun hcalls, hcalls⟩

/-- A feature that writes the memory of the round and does nothing else. -/
def roundWriter : Definition := ⟨1, roundTag, .empty, []⟩

/-- A turn that just writes the memory may always follow, with a stash or without. -/
theorem FindsInRound.exists_turn {s : RoundState} {map : Bag} (h : FindsInRound s map)
    (source : σ) {caller : Bag} {collate : Bool} {stash : Option Bag}
    (hcaller : caller.isCollate = .ok collate)
    (hstash : Channel.stateless.pending caller = .ok stash) :
    ∃ p, trigger .builtin roundWriter source s caller = (.ok (), p) ∧
      TakesTurn σ s stash p.state := by
  obtain ⟨change, hplan⟩ : ∃ change, Channel.stateless.plan s caller = .ok change := by
    rw [Channel.plan, statelessMap_plan, h.statelessMap_of_pending hstash]
    exact ⟨_, rfl⟩
  obtain ⟨p, root, hrun, hwatch, -, hvisits, hhere⟩ :=
    watch_writer (d := roundWriter) rfl rfl source hcaller hplan
  have honce : memoryVisits [root] = [⟨[], roundWriter, caller⟩] :=
    congrArg (List.filter (Visit.writes .stateless)) hhere
  refine ⟨p, hrun, [root], ⟨.pass hwatch, _, honce, hstash⟩, ?_⟩
  rw [hvisits]
  refine List.forall_mem_singleton.mpr fun hreveals => ?_
  exact absurd (show roundWriter.tag = "Replay" from hreveals.1) (by decide)

/-! ### Runs -/

/-- A run of steps and rounds that begins with a fresh state: the state whose turn is next, and what
was stashed in the turns since the last round began, none or a bag in each. -/
inductive RoundRun (σ : Type) [RandomSource σ] : List (Option Bag) → RoundState → Prop
  | fresh (reels rows : Nat) : RoundRun σ [] (.fresh reels rows)
  /-- What else happens to the state before its turn does not matter. -/
  | changed {stashes : List (Option Bag)} {s t : RoundState} (h : RoundRun σ stashes s)
      (hlink : t.stateless = s.stateless)
      (hledger : t.featuresOf roundTag = s.featuresOf roundTag) : RoundRun σ stashes t
  | nextStep {stashes : List (Option Bag)} {s s' : RoundState} {stash : Option Bag}
      (h : RoundRun σ stashes s) (hturn : TakesTurn σ s stash s') :
      RoundRun σ (stashes ++ [stash]) s'.nextStep
  | nextRound {stashes : List (Option Bag)} {s s' : RoundState} {stash : Option Bag}
      (h : RoundRun σ stashes s) (hturn : TakesTurn σ s stash s') : RoundRun σ [] s'.nextRound

/-- The bag that was stashed last. -/
def lastStashed (stashes : List (Option Bag)) : Bag :=
  stashes.foldl (fun map stash => stash.getD map) .empty

theorem lastStashed_append (stashes : List (Option Bag)) (stash : Option Bag) :
    lastStashed (stashes ++ [stash]) = stash.getD (lastStashed stashes) :=
  List.foldl_concat ..

theorem RoundRun.finds {stashes : List (Option Bag)} {t : RoundState} (h : RoundRun σ stashes t) :
    FindsInRound t (lastStashed stashes) := by
  induction h with
  | fresh reels rows =>
    refine ⟨rfl, fun bag hbag => ?_⟩
    rw [statelessMap, hbag]
    rfl
  | changed _ hlink hledger ih =>
    refine ⟨hledger.trans ih.1, fun bag hbag => ?_⟩
    rw [← ih.2 bag hbag, statelessMap, statelessMap, hlink]
  | nextStep _ hturn ih =>
    rw [lastStashed_append]
    exact hturn.next ih
  | nextRound _ _ _ =>
    refine ⟨rfl, fun bag hbag => ?_⟩
    rw [statelessMap, hbag]
    rfl

/-- The memory of a round lives exactly one round. In a run of steps and rounds in any order, with
one turn on each state that writes the memory once and takes over no step, a feature without a stash
finds the bag that was stashed last since the round began, or an empty one if there was none: so it
is in the state whose turn is next, and in those of the next step and of the next round after any
turn. Reading the memory does not fail, and a turn with a stash or without may always follow. -/
theorem RoundRun.statelessMap_eq {stashes : List (Option Bag)} {t : RoundState}
    (h : RoundRun σ stashes t) :
    (∀ bag, Channel.stateless.pending bag = .ok none →
      statelessMap t bag = .ok (lastStashed stashes) ∧
      ∀ stash t', TakesTurn σ t stash t' →
        statelessMap t'.nextStep bag = .ok (lastStashed (stashes ++ [stash])) ∧
        statelessMap t'.nextRound bag = .ok .empty) ∧
    ∀ (source : σ) (caller : Bag) collate stash, caller.isCollate = .ok collate →
      Channel.stateless.pending caller = .ok stash →
      ∃ p, trigger .builtin roundWriter source t caller = (.ok (), p) ∧
        TakesTurn σ t stash p.state := by
  refine ⟨fun bag hbag => ⟨h.finds.2 bag hbag, fun stash t' hturn => ⟨?_, ?_⟩⟩, ?_⟩
  · exact (h.nextStep hturn).finds.2 bag hbag
  · exact (h.nextRound hturn).finds.2 bag hbag
  · exact fun source caller collate stash => h.finds.exists_turn source

/-- A bag stashed in the first step is found in the second one, and gone in the next round. -/
theorem RoundRun.statelessMap_eq_carried :
    ∃ s t, RoundRun Script [some levelThree] s ∧ TakesTurn Script s none t ∧
      statelessMap t.nextStep .empty = .ok levelThree ∧
      statelessMap t.nextRound .empty = .ok .empty := by
  have hstash : Channel.stateless.pending (Channel.stateless.stash .empty levelThree) =
      .ok (some levelThree) := rfl
  have hbag : Channel.stateless.pending .empty = .ok none := rfl
  have hfresh : RoundRun Script [] (.fresh 1 1) := .fresh 1 1
  obtain ⟨-, hturns⟩ := hfresh.statelessMap_eq
  obtain ⟨p, -, hfirst⟩ := hturns (Script.ofDraws []) _ _ _ rfl hstash
  obtain ⟨hfinds, hturns⟩ := (hfresh.nextStep hfirst).statelessMap_eq
  obtain ⟨q, -, hsecond⟩ := hturns (Script.ofDraws []) .empty _ _ rfl hbag
  obtain ⟨-, hlater⟩ := hfinds .empty hbag
  exact ⟨_, q.state, hfresh.nextStep hfirst, hsecond, hlater none q.state hsecond⟩

/-! ### Steps of another round -/

/-- Two steps, and what each stashes for the steps after it. -/
def stashingSteps : Definition :=
  ⟨1, "Activator", .empty, [⟨2, "Play", Bag.empty.insert "Steps" (.ofNat 2),
    [⟨3, roundTag, Channel.stateless.stash .empty levelThree, []⟩]⟩]⟩

/-- The step that was computed first is taken over, before the memory is written. -/
def takingOver : Definition :=
  ⟨4, "Activator", .empty, [⟨5, "Replay", .empty, []⟩, ⟨6, roundTag, .empty, []⟩]⟩

theorem exists_writesOnce (d : Definition) (s : RoundState) (source : σ) {held : Bool}
    (h : (memoryVisits
      (d.watch .builtin [] ((Pass.start source s .empty).watched [])).2.source.calls).map
        (fun v => (Channel.stateless.pending v.bag).toOption.map Option.isSome) = [some held]) :
    ∃ calls stash, WritesOnce σ s calls stash (trigger .builtin d source s .empty).2.state ∧
      stash.isSome = held := by
  obtain ⟨r, p, hrun⟩ : ∃ r p, trigger .builtin d source s .empty = (r, p) := ⟨_, _, rfl⟩
  obtain ⟨root, hwatch, -⟩ := Definition.trigger_watched hrun []
  rw [hwatch] at h
  obtain ⟨v, hv, hheld⟩ := List.map_eq_singleton_iff.mp h
  obtain ⟨stash, hstash, hheld⟩ := Option.map_eq_some_iff.mp hheld
  rcases hpending : Channel.stateless.pending v.bag with e | stash' <;> rw [hpending] at hstash
  · cases hstash
  · cases hstash
    rw [hrun]
    exact ⟨[root], stash, ⟨.pass hwatch, v, hv, hpending⟩, hheld⟩

/-- A step that is taken over brings the memory of the round in which it was computed: in a round in
which nothing was stashed, and which began with an empty bag, the next step finds a bag. -/
theorem memory_of_computed_step : ∃ calls stash first calls' second map,
    WritesOnce Script (.fresh 1 1) calls stash first ∧
      statelessMap first.nextRound .empty = .ok .empty ∧
      WritesOnce Script first.nextRound calls' none second ∧
      statelessMap second.nextStep .empty = .ok map ∧ map.isEmpty = false := by
  let source := Script.ofDraws []
  let first := (trigger .builtin stashingSteps source (.fresh 1 1) .empty).2.state
  let second := (trigger .builtin takingOver source first.nextRound .empty).2.state
  obtain ⟨calls, stash, hfirst, -⟩ : ∃ calls stash,
      WritesOnce Script (.fresh 1 1) calls stash first ∧ stash.isSome = true :=
    exists_writesOnce stashingSteps _ source (by decide +kernel)
  obtain ⟨calls', stash', hsecond, hnone⟩ : ∃ calls stash,
      WritesOnce Script first.nextRound calls stash second ∧ stash.isSome = false :=
    exists_writesOnce takingOver _ source (by decide +kernel)
  obtain rfl : stash' = none := Option.not_isSome_iff_eq_none.mp (by simp [hnone])
  have hmap : (statelessMap second.nextStep .empty).toOption.map Members.isEmpty = some false := by
    decide +kernel
  obtain ⟨map, hread, hmap⟩ := Option.map_eq_some_iff.mp hmap
  rcases hread' : statelessMap second.nextStep .empty with e | map' <;> rw [hread'] at hread <;>
    cases hread
  exact ⟨calls, stash, first, calls', second, map, hfirst, rfl, hsecond, hread', hmap⟩

end SlotOutcome
