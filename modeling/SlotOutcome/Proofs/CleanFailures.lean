import SlotOutcome.Proofs.LoopsInPlace

/-!
# Failures that leave nothing behind

A feature that calls no others reads, draws and checks, and then edits the state in place. When it
fails, it has not begun to edit, so the state is as before; and what it has written into its own bag
is lost, whether its caller collates or not. Only the random source may have moved.

## Main definitions

* `Effect.lone`: the types of features that call no others.
* `Effect.inPlace?`: what these features do, edit by edit.
* `Definition.triggerInPlace`: triggering a node with such a feature, edit by edit.

## Main results

* `Effect.inPlace_enacts`: every such feature enacts its plan.
* `Definition.trigger_lone_failed`: triggering a node edit by edit is triggering it, and a node with
  such a feature that fails leaves state and bag.
-/

namespace SlotOutcome

/-- The types of features that call no others. -/
def Effect.lone : List Effect :=
  [tileExpansion, expandingWild, expandingSymbols, replaceTile, randomWilds, mysterySymbol,
    applyPattern, cascade, reelStops, awardFreespins, evaluateWins, multiplier, applyMultiplier,
    instantPrize, scatterPay, counter, stickySymbols, setParams, statefulMap, statelessMap]

variable {σ : Type}

/-- A feature that keeps its bag, with that bag as a part of its plan. -/
theorem Enacts.keepingBag {d : Definition} {s : RoundState} {bag : Bag} {m : PassM σ Unit}
    {plan : RoundState → Bag → PlanM σ (Option Change)}
    (h : Enacts d s bag m (·, bag) (plan s bag)) :
    Enacts d s bag m id (SlotOutcome.keepingBag plan s bag) := by
  intro source visits
  have hrun := h source visits
  rw [SlotOutcome.keepingBag, bind_run]
  rcases hplan : plan s bag source with ⟨e | change, x⟩ <;> rw [hplan] at hrun <;> exact hrun

variable [RandomSource σ]

namespace Effect

/-- What a feature that calls no others does, edit by edit. -/
def inPlace? (d : Definition) : Effect → Option (PassM σ Unit)
  | setParams => some Edit.setParams
  | reelStops => some (Edit.reels d)
  | tileExpansion => some (Edit.tile d)
  | expandingWild => some (Edit.expandAround d)
  | expandingSymbols => some (Edit.expandReels d)
  | replaceTile => some (Edit.replace d)
  | randomWilds => some (Edit.randomWilds d)
  | mysterySymbol => some (Edit.mystery d)
  | applyPattern => some (Edit.pattern d)
  | cascade => some (Edit.cascade d)
  | awardFreespins => some (Edit.freespins d)
  | evaluateWins => some (Edit.evaluate d)
  | multiplier => some (Edit.multiply d)
  | applyMultiplier => some (Edit.applyMultiplier d)
  | instantPrize => some (Edit.prize d)
  | scatterPay => some (Edit.scatter d)
  | counter => some (Edit.counter d)
  | stickySymbols => some (Edit.sticky d)
  | statefulMap => some (Edit.statefulMap d)
  | statelessMap => some (Edit.statelessMap d)
  | _ => none

/-- Every feature that calls no others has a plan, which it enacts edit by edit. -/
theorem inPlace_enacts {e : Effect} (he : e ∈ lone) (d : Definition) :
    ∃ (m : PassM σ Unit) (plan : RoundState → Bag → PlanM σ (Option Change × Bag)),
      e.inPlace? d = some m ∧ e.leaf? = some plan ∧
        ∀ s bag, Enacts d s bag m id (plan s bag) := by
  have hkeeps {m : PassM σ Unit} {plan : RoundState → Bag → PlanM σ (Option Change)}
      (hm : e.inPlace? d = some m) (hplan : e.leaf? = some (keepingBag plan))
      (h : ∀ s bag, Enacts d s bag m (·, bag) (plan s bag)) :
      ∃ (m : PassM σ Unit) (plan : RoundState → Bag → PlanM σ (Option Change × Bag)),
        e.inPlace? d = some m ∧ e.leaf? = some plan ∧
          ∀ s bag, Enacts d s bag m id (plan s bag) :=
    ⟨m, _, hm, hplan, fun s bag => .keepingBag (h s bag)⟩
  cases e <;> try exact absurd he (by decide)
  case setParams => exact ⟨_, _, rfl, rfl, Edit.setParams_enacts d⟩
  case reelStops => exact hkeeps rfl rfl fun s bag => Edit.reels_enacts d s bag
  case tileExpansion => exact hkeeps rfl rfl fun s bag => Edit.tile_enacts d s bag
  case expandingWild => exact hkeeps rfl rfl fun s bag => Edit.expandAround_enacts d s bag
  case expandingSymbols => exact hkeeps rfl rfl fun s bag => Edit.expandReels_enacts d s bag
  case replaceTile => exact hkeeps rfl rfl fun s bag => Edit.replace_enacts d s bag
  case randomWilds => exact hkeeps rfl rfl fun s bag => Edit.randomWilds_enacts d s bag
  case mysterySymbol => exact hkeeps rfl rfl fun s bag => Edit.mystery_enacts d s bag
  case applyPattern => exact hkeeps rfl rfl fun s bag => Edit.pattern_enacts d s bag
  case cascade => exact hkeeps rfl rfl fun s bag => Edit.cascade_enacts d s bag
  case awardFreespins => exact hkeeps rfl rfl fun s bag => Edit.freespins_enacts d s bag
  case evaluateWins => exact hkeeps rfl rfl fun s bag => Edit.evaluate_enacts d s bag
  case multiplier => exact hkeeps rfl rfl fun s bag => Edit.multiply_enacts d s bag
  case applyMultiplier => exact hkeeps rfl rfl fun s bag => Edit.applyMultiplier_enacts d s bag
  case instantPrize => exact hkeeps rfl rfl fun s bag => Edit.prize_enacts d s bag
  case scatterPay => exact hkeeps rfl rfl fun s bag => Edit.scatter_enacts d s bag
  case counter => exact ⟨_, _, rfl, rfl, Edit.counter_enacts d⟩
  case stickySymbols => exact ⟨_, _, rfl, rfl, Edit.sticky_enacts d⟩
  case statefulMap => exact hkeeps rfl rfl fun s bag => Edit.statefulMap_enacts d s bag
  case statelessMap => exact hkeeps rfl rfl fun s bag => Edit.statelessMap_enacts d s bag

end Effect

/-- Triggering a node whose feature calls no others, edit by edit. Other features are run. -/
def Definition.triggerInPlace (above : List Definition) (d : Definition) : PassM σ Unit :=
  d.enter .builtin above fun e => (e.inPlace? d).getD <|
    e.run d (d.features.map fun c => ⟨c, c.trigger .builtin (above ++ [d])⟩)

/-- A node whose feature calls no others does the same edit by edit. When it fails, it leaves the
state and the bag of its caller exactly as they were, whatever its caller does with the bags of its
features. At most it is noted as visited, and the source may have moved. -/
theorem Definition.trigger_lone_failed (d : Definition) (e : Effect) (he : e ∈ Effect.lone)
    (htag : d.tag = e.tag) (above : List Definition) (p : Pass σ) :
    d.trigger .builtin above p = d.triggerInPlace above p ∧
      ∀ error q, d.triggerInPlace above p = (.error error, q) →
        q.state = p.state ∧ q.bag = p.bag ∧
          (q.visits = p.visits ∨ q.visits = ⟨above, d, d.params.overlay p.bag⟩ :: p.visits) := by
  have hcreate : Registry.builtin.create d.tag = .ok e := by rw [htag, Registry.create_builtin]
  obtain ⟨m, plan, hm, hplan, henacts⟩ := Effect.inPlace_enacts (σ := σ) he d
  rcases hcollate : p.bag.isCollate with reason | collate
  · rw [triggerInPlace, trigger_eq, enter_run_unread hcreate hcollate,
      enter_run_unread hcreate hcollate]
    refine ⟨rfl, fun error q h => ?_⟩
    cases h
    exact ⟨rfl, rfl, .inl rfl⟩
  have hwork : (e.inPlace? d).getD (e.run d
      (d.features.map fun c => ⟨c, c.trigger .builtin (above ++ [d])⟩)) (d.entered above p) =
        m (d.entered above p) := by rw [hm, Option.getD_some]
  have hrun := henacts p.state (d.params.overlay p.bag) p.source (d.entered above p).visits
  rw [trigger_leaf_run hplan htag hcollate]
  rcases hact : plan p.state (d.params.overlay p.bag) p.source with ⟨reason | ⟨change, left⟩, x⟩ <;>
    rw [hact] at hrun
  · -- The feature has failed, and with its bag all is lost that it has changed.
    obtain ⟨left, hrun⟩ := hrun
    rw [triggerInPlace, enter_run hcreate hcollate (hwork.trans hrun)]
    refine ⟨rfl, fun error q h => ?_⟩
    cases h
    exact ⟨rfl, rfl, .inr rfl⟩
  · rw [triggerInPlace, enter_run hcreate hcollate (hwork.trans hrun)]
    refine ⟨rfl, fun error q h => ?_⟩
    cases h

/-- A counter that is told to raise a flag that is no name. -/
def flaglessCounter : Definition where
  id := 1
  tag := "Counter"
  params := ((Bag.empty.insert "CounterKey" (.str "spins")).insert "Target" (.ofInt 1)).insert
    "ReachedFlag" (.ofInt 5)
  features := []

/-- The counter has changed the stash of its memory when it fails, and still the bag of a caller
that collates stays as it was. -/
theorem trigger_lone_failed_flaglessCounter : ∃ (p q : Pass Script) (error : FeatureError),
    p.bag.isCollate = .ok true ∧
      (Channel.stateful.pending (Edit.counter flaglessCounter
        (flaglessCounter.entered [] p)).2.bag).toOption.join.map (·.isEmpty) = some false ∧
      flaglessCounter.trigger .builtin [] p = (.error error, q) ∧
      q.state = p.state ∧ q.bag = p.bag := by
  let p : Pass Script := .start (.ofDraws []) (.fresh 1 1)
    ((Bag.empty.insert Key.collate (.bool true)).insert Key.statefulStash (.obj .nil))
  have hfails : (flaglessCounter.trigger .builtin [] p).1.toOption = none := by decide +kernel
  obtain ⟨hsame, hfailed⟩ := Definition.trigger_lone_failed flaglessCounter .counter (by decide) rfl
    [] p
  rcases hrun : flaglessCounter.trigger .builtin [] p with ⟨error | ⟨⟩, q⟩
  · obtain ⟨hstate, hbag, -⟩ := hfailed error q (hsame ▸ hrun)
    exact ⟨p, q, error, by decide +kernel, by decide +kernel, hrun, hstate, hbag⟩
  · rw [hrun] at hfails
    cases hfails

end SlotOutcome
