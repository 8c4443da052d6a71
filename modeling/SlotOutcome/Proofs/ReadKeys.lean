import SlotOutcome.Proofs.BagWrites

/-!
# The keys that features read

Each type of feature has keys of its own, under which its settings stand in a bag. Beyond them a
feature reads at most the keys of the context: where symbols were found, the strips, whether bags
are written back, and what is to be remembered. A feature without children does the same on two bags
that agree on these keys.

## Main definitions

* `Effect.keys`: the keys of each type.
* `Bag.Agree`: bags with the same values under some keys.

## Main results

* `Effect.run_reads`: a feature without children reads no other keys.
-/

namespace SlotOutcome

/-- The keys under which the settings of features of a type stand. -/
def Effect.keys : Effect → List String
  | activator => []
  | filterActivator => ["Indices"]
  | orderedActivator => ["Names", "Order"]
  | weightedActivator => ["ForceIndex", "Weights"]
  | conditionalActivator => ["ConditionFlag", "ConditionPresent"]
  | probabilityActivator => ["Probability"]
  | phaseActivator => ["Phases"]
  | repeatActivator => ["Count", "Counts", "CountWeights"]
  | setParams => ["Values"]
  | reelStops => ["Rows", "ForceStops"]
  | weightedReelset => ["Reelsets"]
  | tileExpansion => ["X", "Y", "W", "H", "TileId"]
  | expandingWild => ["WildId"]
  | expandingSymbols => ["ExpandId"]
  | replaceTile => ["ReplaceFrom", "ReplaceTo"]
  | randomWilds => ["RandomWildId", "Exclude", "WildCount", "WildCounts", "WildWeights"]
  | mysterySymbol => ["MysteryId", "Symbols", "SymbolWeights"]
  | applyPattern => ["Patterns", "PatternWeights", "PatternTileId"]
  | cascade => []
  | countTrigger => ["TriggerId", "TriggerIds", "MinCount"]
  | symbolTrigger => ["TriggerId", "TriggerIds"]
  | awardFreespins => ["Spins", "SpinCounts", "SpinWeights"]
  | evaluateWins => ["Paytable"]
  | multiplier => ["Multiplier", "Multipliers", "MultiplierWeights"]
  | applyMultiplier => ["MultiplierWildId"]
  | instantPrize => ["Prize", "Prizes", "PrizeWeights", "PrizeLabel"]
  | scatterPay => ["ScatterId", "Pays", "PayFrom"]
  | counter =>
    ["CounterMemory", "CounterKey", "CountId", "Increment", "Target", "Reset", "ReachedFlag"]
  | stickySymbols => ["StickyId", "StickyMemory", "StickyKey"]
  | statefulMap => []
  | statelessMap => []
  | play => ["Steps"]
  | replay => []
  | replayContinue => ["Tries"]
  | replayAbort => []

/-- Different types of features have different keys, except that the two triggers name the symbols
that they look for in the same way. -/
theorem Effect.triggers_of_mem_keys {e e' : Effect} (hne : e ≠ e') {key : String}
    (h : key ∈ e.keys) (h' : key ∈ e'.keys) :
    key ∈ ["TriggerId", "TriggerIds"] ∧
      (e = countTrigger ∧ e' = symbolTrigger ∨ e = symbolTrigger ∧ e' = countTrigger) := by
  have hall : ∀ e ∈ Effect.all, ∀ e' ∈ Effect.all, e ≠ e' → ∀ key ∈ e.keys, key ∈ e'.keys →
      key ∈ ["TriggerId", "TriggerIds"] ∧
        (e = countTrigger ∧ e' = symbolTrigger ∨ e = symbolTrigger ∧ e' = countTrigger) := by
    decide +kernel
  exact hall e e.mem_all e' e'.mem_all hne key h h'

/-! ### Bags that agree -/

/-- The bags have the same values under some keys. -/
def Bag.Agree (bag : Bag) (keys : List String) (bag' : Bag) : Prop :=
  ∀ key ∈ keys, bag.get? key = bag'.get? key

namespace Bag.Agree

variable {keys : List String} {bag bag' : Bag} (h : bag.Agree keys bag') {α : Type}
  (type : ParamType α)

include h

theorem find {key : String} (hkey : key ∈ keys) : bag.find type key = bag'.find type key := by
  rw [Bag.find, Bag.find, h key hkey]

theorem require {key : String} (hkey : key ∈ keys) :
    bag.require type key = bag'.require type key := by
  rw [Bag.require, Bag.require, h.find type hkey]

theorem findD {key : String} (hkey : key ∈ keys) (default : α) :
    bag.findD type key default = bag'.findD type key default := by
  rw [Bag.findD, Bag.findD, h.find type hkey]

theorem pickFrom {σ : Type} [RandomSource σ] {single several weights : String}
    (hsingle : single ∈ keys) (hseveral : several ∈ keys) (hweights : weights ∈ keys)
    (listType : ParamType (List α)) :
    (SlotOutcome.pickFrom bag type listType single several weights : PlanM σ α) =
      SlotOutcome.pickFrom bag' type listType single several weights := by
  rw [SlotOutcome.pickFrom, SlotOutcome.pickFrom, h.find listType hseveral,
    h.require type hsingle, h.find .weights hweights]

theorem symbols (hseveral : "TriggerIds" ∈ keys) (hsingle : "TriggerId" ∈ keys) :
    Trigger.symbols bag = Trigger.symbols bag' := by
  rw [Trigger.symbols, Trigger.symbols, h.find .symbols hseveral, h.require .symbol hsingle]

end Bag.Agree

theorem Bag.Agree.right {keys keys' : List String} {bag bag' : Bag}
    (h : bag.Agree (keys ++ keys') bag') : bag.Agree keys' bag' :=
  fun key hkey => h key (List.mem_append_right keys hkey)

section Plans

variable {σ : Type} {s : RoundState} {bag bag' : Bag}

theorem statefulMap_congr (h : bag.get? Key.statefulStash = bag'.get? Key.statefulStash) :
    statefulMap s bag = statefulMap s bag' := by
  simp only [statefulMap, Channel.pending, Channel.stashKey, Bag.find, h]

theorem statelessMap_congr (h : bag.get? Key.statelessStash = bag'.get? Key.statelessStash) :
    statelessMap s bag = statelessMap s bag' := by
  simp only [statelessMap, Channel.pending, Channel.stashKey, Bag.find, h]

/-- Two ways to go on from the same result that differ in the second part of theirs only. -/
theorem map_fst_bind {ε α β γ : Type} {x x' : Except ε α} (hx : x = x')
    {f f' : α → Except ε (β × γ)} (h : ∀ a, (f a).map Prod.fst = (f' a).map Prod.fst) :
    (x >>= f).map Prod.fst = (x' >>= f').map Prod.fst := by
  subst hx
  rcases x with e | a
  · rfl
  · exact h a

theorem map_fst_ite {ε β γ : Type} (c : Prop) [Decidable c] {x y x' y' : Except ε (β × γ)}
    (hx : x.map Prod.fst = x'.map Prod.fst) (hy : y.map Prod.fst = y'.map Prod.fst) :
    (if c then x else y).map Prod.fst = (if c then x' else y').map Prod.fst := by
  split
  · exact hx
  · exact hy

/-- The memory of a channel that a feature finds, where the bags agree on the context. -/
theorem read_congr (h : bag.Agree Key.context bag') (channel : Channel) :
    channel.read s bag = channel.read s bag' := by
  cases channel
  · exact statefulMap_congr (h _ (by decide))
  · exact statelessMap_congr (h _ (by decide))

theorem counter_reads (h : bag.Agree (Effect.counter.keys ++ Key.context) bag') :
    (Remember.counter s bag).map Prod.fst = (Remember.counter s bag').map Prod.fst := by
  have hflag (channel : Channel) (map : Bag) :
      Bag.find (channel.stash bag map) .text "ReachedFlag" =
        Bag.find (channel.stash bag' map) .text "ReachedFlag" := by
    rw [channel.find_flag_stash, channel.find_flag_stash, h.find .text (by decide)]
  unfold Remember.counter Remember.channel
  rw [h.find .text (by decide), h.require .text (by decide), h.find .symbol (by decide),
    h.findD .int (by decide), h.find .int (by decide), h.findD .bool (by decide)]
  refine map_fst_bind rfl fun channel => map_fst_bind rfl fun key => ?_
  refine map_fst_bind rfl fun symbol => ?_
  have hread := read_congr (s := s) h.right channel
  rcases symbol with _ | symbol <;>
    refine map_fst_bind rfl fun increment => map_fst_bind hread fun map => ?_ <;>
    refine map_fst_bind rfl fun count => map_fst_bind rfl fun target => ?_ <;>
    refine map_fst_ite _ (map_fst_bind rfl fun reset => ?_) (map_fst_bind rfl fun reset => ?_) <;>
    refine map_fst_ite _ (map_fst_bind (congrArg liftM (hflag channel _)) fun flag => ?_)
      (map_fst_bind rfl fun flag => ?_) <;>
    exact map_fst_ite _ rfl rfl

theorem sticky_reads (h : bag.Agree (Effect.stickySymbols.keys ++ Key.context) bag') :
    (Remember.sticky s bag).map Prod.fst = (Remember.sticky s bag').map Prod.fst := by
  unfold Remember.sticky Remember.channel
  rw [h.require .symbol (by decide), h.find .text (by decide), h.findD .text (by decide)]
  refine map_fst_bind rfl fun id => map_fst_bind rfl fun channel => map_fst_bind rfl fun key => ?_
  refine map_fst_bind (read_congr h.right channel) fun map => map_fst_bind rfl fun applied => ?_
  exact map_fst_bind rfl fun grid => map_fst_ite _ rfl rfl

theorem lift_reads {x x' : Except FeatureError (Option Change × Bag)}
    (h : x.map Prod.fst = x'.map Prod.fst) (y : σ) :
    (((liftM x : PlanM σ _) y).1.map Prod.fst, ((liftM x : PlanM σ _) y).2) =
      (((liftM x' : PlanM σ _) y).1.map Prod.fst, ((liftM x' : PlanM σ _) y).2) := by
  rw [liftM_run, liftM_run]
  exact congrArg (·, y) h

theorem keepingBag_fst (plan : RoundState → Bag → PlanM σ (Option Change)) (x : σ) :
    ((keepingBag plan s bag x).1.map Prod.fst, (keepingBag plan s bag x).2) = plan s bag x := by
  rw [keepingBag, bind_run]
  rcases plan s bag x with ⟨e | change, y⟩ <;> rfl

theorem keepingBag_reads {plan : RoundState → Bag → PlanM σ (Option Change)}
    (h : plan s bag = plan s bag') (x : σ) :
    ((keepingBag plan s bag x).1.map Prod.fst, (keepingBag plan s bag x).2) =
      ((keepingBag plan s bag' x).1.map Prod.fst, (keepingBag plan s bag' x).2) := by
  rw [keepingBag_fst, keepingBag_fst, h]

variable [RandomSource σ]

theorem leaf?_reads {e : Effect} {plan : RoundState → Bag → PlanM σ (Option Change × Bag)}
    (hplan : e.leaf? = some plan) (h : bag.Agree (e.keys ++ Key.context) bag') (x : σ) :
    ((plan s bag x).1.map Prod.fst, (plan s bag x).2) =
      ((plan s bag' x).1.map Prod.fst, (plan s bag' x).2) := by
  have hstateless := statelessMap_congr (s := s) (h.right Key.statelessStash (by decide))
  cases e <;> simp only [Effect.leaf?, Option.some.injEq, reduceCtorEq] at hplan <;> subst hplan
  case setParams =>
    refine lift_reads ?_ x
    simp (disch := decide) only [Remember.setParams, h.require]
    rcases bag'.require .bag "Values" with e | values <;> rfl
  case counter => exact lift_reads (counter_reads h) x
  case stickySymbols => exact lift_reads (sticky_reads h) x
  all_goals
    refine keepingBag_reads ?_ x
    try simp (disch := decide) only [Spin.reels, Paint.tile, Paint.expandAround, Paint.expandReels,
      Paint.replace, Paint.randomWilds, Paint.mystery, Paint.pattern, Pay.freespins, Pay.evaluate,
      Pay.multiply, Pay.applyMultiplier, Pay.prize, Pay.scatter, Remember.statefulMap,
      Remember.statelessMap, Channel.pending, Channel.stashKey, h.find, h.require, h.findD,
      h.pickFrom, hstateless]

end Plans

/-! ### Features without children -/

section Run

variable {σ : Type}

/-- The same result, from passes that end in the same way but for their bags. -/
def SameButBag {α : Type} (x x' : Except FeatureError α × Pass σ) : Prop :=
  x.1 = x'.1 ∧ x'.2 = { x.2 with bag := x'.2.bag }

theorem times_nil (count : Nat) : Branch.times ([] : List (Child σ)) count = pure () := by
  induction count with
  | zero => rfl
  | succ count ih =>
    rw [Branch.times, ih]
    rfl

/-- Children in the order of names of which there are none. -/
theorem fireNamed_nil (order : List String) (p : Pass σ) (bag : Bag) :
    SameButBag (fireNamed [] order [] p) (fireNamed [] order [] { p with bag := bag }) := by
  cases order with
  | nil => exact ⟨rfl, rfl⟩
  | cons name rest => exact ⟨rfl, rfl⟩

/-- The steps after a step without children need no bag. -/
theorem followOn_nil (count : Nat) (s : RoundState) : ∃ links, ∀ (bag : Bag) (p : Pass σ),
    Reveal.followOn [] bag count s p = (.ok links, p) := by
  induction count generalizing s with
  | zero => exact ⟨[], fun _ _ => rfl⟩
  | succ count ih =>
    let step : RoundState := { s.nextStep with replay := .start }
    obtain ⟨links, hlinks⟩ := ih step
    have hstep (bag : Bag) (p : Pass σ) :
        onStep step bag (fireAll []) p = (.ok step, p) := rfl
    by_cases haborted : step.aborted = true
    · refine ⟨[step], fun bag p => ?_⟩
      rw [Reveal.followOn, bind_run, hstep]
      simp only [haborted, ↓reduceIte]
      rfl
    · refine ⟨step :: links, fun bag p => ?_⟩
      rw [Reveal.followOn, bind_run, hstep]
      simp only [haborted, Bool.false_eq_true, ↓reduceIte, bind_run, hlinks]
      rfl

/-- Calling no children for a cell does nothing, or fails if there is no such cell. -/
theorem atCell_nil (position : Nat) (p : Pass σ) (bag : Bag) :
    ∃ r, Trigger.atCell [] position p = (r, p) ∧
      Trigger.atCell [] position { p with bag := bag } = (r, { p with bag := bag }) := by
  rw [Trigger.atCell, get_bind_run, get_bind_run]
  rcases hcell : p.state.outcome.grid.cell position with e | ⟨reel, row⟩
  · exact ⟨_, rfl, rfl⟩
  have hfound : (liftM (Except.ok (reel, row) : Except DataError (Nat × Nat)) :
    Except FeatureError (Nat × Nat)) = .ok (reel, row) := rfl
  rcases hreel : p.state.outcome.grid.reelPositions reel with e | positions <;>
    simp only [bind_run, liftM_run, hfound, hreel] <;> exact ⟨_, rfl, rfl⟩

theorem atCells_nil (positions : List Nat) (p : Pass σ) (bag : Bag) :
    SameButBag (positions.forM (Trigger.atCell []) p)
      (positions.forM (Trigger.atCell []) { p with bag := bag }) := by
  induction positions with
  | nil => exact ⟨rfl, rfl⟩
  | cons position rest ih =>
    obtain ⟨r, hp, hbag⟩ := atCell_nil position p bag
    change SameButBag ((Trigger.atCell [] position >>= fun _ => rest.forM _) p)
      ((Trigger.atCell [] position >>= fun _ => rest.forM _) { p with bag := bag })
    rw [bind_run, bind_run, hp, hbag]
    rcases r with e | ⟨⟩
    · exact ⟨rfl, rfl⟩
    · exact ih

theorem fireOnFlag_nil (flag : String) (present : Bool) (p : Pass σ) :
    fireOnFlag [] flag present p = (.ok (p.bag.contains flag == present), p) := by
  rw [fireOnFlag, get_bind_run]
  cases p.bag.contains flag == present <;> rfl

variable [RandomSource σ] {d : Definition} {p : Pass σ} {bag : Bag}

theorem carries_reads {e : Effect} {plan : RoundState → Bag → PlanM σ (Option Change × Bag)}
    (hplan : e.leaf? = some plan) (h : p.bag.Agree (e.keys ++ Key.context) bag) :
    SameButBag (atomic (Act.carries d plan) p)
      (atomic (Act.carries d plan) { p with bag := bag }) := by
  have hreads := leaf?_reads (s := p.state) hplan h p.source
  simp only [atomic, Act.carries, bind_run]
  rcases hplanned : plan p.state p.bag p.source with ⟨r, y⟩
  rcases hplanned' : plan p.state bag p.source with ⟨r', y'⟩
  rw [hplanned, hplanned'] at hreads
  obtain ⟨hresult, hsource⟩ := Prod.mk.inj hreads
  dsimp only at hresult hsource
  subst hsource
  rcases r with e | ⟨change, left⟩ <;> rcases r' with e' | ⟨change', left'⟩ <;> cases hresult <;>
    exact ⟨rfl, rfl⟩

omit [RandomSource σ] in
theorem filtered_reads (h : p.bag.Agree (Effect.filterActivator.keys ++ Key.context) bag) :
    SameButBag (Branch.filtered [] p) (Branch.filtered [] { p with bag := bag }) := by
  rw [Branch.filtered, get_bind_run, get_bind_run, h.require .positions (by decide)]
  rcases bag.require .positions "Indices" with e | indices <;> exact ⟨rfl, rfl⟩

omit [RandomSource σ] in
theorem ordered_reads (h : p.bag.Agree (Effect.orderedActivator.keys ++ Key.context) bag) :
    SameButBag (Branch.ordered [] p) (Branch.ordered [] { p with bag := bag }) := by
  rw [Branch.ordered, get_bind_run, get_bind_run, h.require .texts (by decide),
    h.require .texts (by decide)]
  rcases bag.require .texts "Names" with e | names
  · exact ⟨rfl, rfl⟩
  rcases bag.require .texts "Order" with e | order
  · exact ⟨rfl, rfl⟩
  rcases names with _ | ⟨name, names⟩
  · exact fireNamed_nil order p bag
  · exact ⟨rfl, rfl⟩

theorem weighted_reads (h : p.bag.Agree (Effect.weightedActivator.keys ++ Key.context) bag) :
    SameButBag (Branch.weighted d [] p) (Branch.weighted d [] { p with bag := bag }) := by
  rw [Branch.weighted, get_bind_run, get_bind_run, h.find .nat (by decide),
    h.find .weights (by decide)]
  rcases bag.find .nat "ForceIndex" with e | _ | forced
  · exact ⟨rfl, rfl⟩
  · rcases bag.find .weights "Weights" with e | weights
    · exact ⟨rfl, rfl⟩
    · simp only [bind_run, liftM_run, lift_param_ok, fireDrawn, liftM_plan_run, List.length_nil]
      rcases pick weights 0 p.source with ⟨e | index, source⟩
      · exact ⟨rfl, rfl⟩
      · exact index.elim0
  · exact ⟨rfl, rfl⟩

omit [RandomSource σ] in
theorem conditional_reads (h : p.bag.Agree (Effect.conditionalActivator.keys ++ Key.context) bag) :
    SameButBag (Branch.conditional [] p) (Branch.conditional [] { p with bag := bag }) := by
  rw [Branch.conditional, get_bind_run, get_bind_run, h.require .text (by decide),
    h.findD .bool (by decide)]
  rcases bag.require .text "ConditionFlag" with e | flag
  · exact ⟨rfl, rfl⟩
  rcases bag.findD .bool "ConditionPresent" true with e | present
  · exact ⟨rfl, rfl⟩
  simp only [bind_run, liftM_run, lift_param_ok, fireOnFlag_nil]
  exact ⟨rfl, rfl⟩

theorem byChance_reads (h : p.bag.Agree (Effect.probabilityActivator.keys ++ Key.context) bag) :
    SameButBag (Branch.byChance [] p) (Branch.byChance [] { p with bag := bag }) := by
  rw [Branch.byChance, get_bind_run, get_bind_run, h.require .int (by decide)]
  rcases bag.require .int "Probability" with e | probability
  · exact ⟨rfl, rfl⟩
  simp only [bind_run, liftM_run, lift_param_ok, fireByChance, liftM_plan_run]
  rcases chance probability p.source with ⟨e | _ | _, source⟩ <;> exact ⟨rfl, rfl⟩

omit [RandomSource σ] in
theorem inPhases_reads (h : p.bag.Agree (Effect.phaseActivator.keys ++ Key.context) bag) :
    SameButBag (Branch.inPhases [] p) (Branch.inPhases [] { p with bag := bag }) := by
  rw [Branch.inPhases, get_bind_run, get_bind_run, h.require .texts (by decide)]
  rcases bag.require .texts "Phases" with e | names
  · exact ⟨rfl, rfl⟩
  simp only [bind_run, liftM_run, lift_param_ok]
  rcases (names.mapM Branch.phaseNamed : Except FeatureError (List Phase)) with e | phases
  · exact ⟨rfl, rfl⟩
  change SameButBag ((if phases.contains p.state.outcome.phase then fireAll [] else pure ()) p)
    ((if phases.contains p.state.outcome.phase then fireAll [] else pure ()) { p with bag := bag })
  split <;> exact ⟨rfl, rfl⟩

theorem repeated_reads (h : p.bag.Agree (Effect.repeatActivator.keys ++ Key.context) bag) :
    SameButBag (Branch.repeated d [] p) (Branch.repeated d [] { p with bag := bag }) := by
  rw [repeated_eq, atomic_bind_run, atomic_bind_run, Act.counts, Act.counts,
    h.find .positions (by decide), h.find .weights (by decide), h.require .nat (by decide)]
  rcases bag.find .positions "Counts" with e | _ | counts
  · exact ⟨rfl, rfl⟩
  · rcases bag.require .nat "Count" with e | count
    · exact ⟨rfl, rfl⟩
    · simp only [bind_run, liftM_run, lift_param_ok, times_nil]
      exact ⟨rfl, rfl⟩
  · rcases bag.find .weights "CountWeights" with e | weights
    · exact ⟨rfl, rfl⟩
    simp only [bind_run, liftM_run, lift_param_ok, times_nil]
    rcases pick weights counts.length p.source with ⟨e | index, source⟩ <;> exact ⟨rfl, rfl⟩

theorem reelset_reads (h : p.bag.Agree (Effect.weightedReelset.keys ++ Key.context) bag) :
    SameButBag (Spin.reelset d [] p) (Spin.reelset d [] { p with bag := bag }) := by
  rw [reelset_eq, atomic_bind_run, atomic_bind_run, Act.chooses, Act.chooses,
    h.require .bags (by decide)]
  rcases bag.require .bags "Reelsets" with e | sets
  · exact ⟨rfl, rfl⟩
  simp only [bind_run, liftM_run, lift_param_ok]
  generalize (sets.mapM fun set => set.require .nat "Weight" : Except ParamError (List Nat)) = read
  rcases read with e | weights
  · exact ⟨rfl, rfl⟩
  simp only [lift_param_ok]
  rcases pick (some weights) sets.length p.source with ⟨e | index, source⟩
  · exact ⟨rfl, rfl⟩
  dsimp only
  rcases (sets.get index).require .text "Name" with e | name
  · exact ⟨rfl, rfl⟩
  rcases (sets.get index).require .intLists "Reels" with e | strips <;> exact ⟨rfl, rfl⟩

omit [RandomSource σ] in
theorem byCount_reads (h : p.bag.Agree (Effect.countTrigger.keys ++ Key.context) bag) :
    SameButBag (Trigger.byCount d [] p) (Trigger.byCount d [] { p with bag := bag }) := by
  rw [byCount_eq, atomic_bind_run, atomic_bind_run, Act.counting, Act.counting,
    h.symbols (by decide) (by decide), h.require .nat (by decide)]
  rcases Trigger.symbols bag with e | sought
  · exact ⟨rfl, rfl⟩
  rcases bag.require .nat "MinCount" with e | least
  · exact ⟨rfl, rfl⟩
  simp only [bind_run, liftM_run, lift_param_ok]
  by_cases hfew : (p.state.outcome.grid.positionsWhere sought.contains).length < least ∨
      (p.state.outcome.grid.positionsWhere sought.contains).isEmpty = true
  · simp only [if_pos hfew]
    exact ⟨rfl, rfl⟩
  · simp only [if_neg hfew]
    exact ⟨rfl, rfl⟩

omit [RandomSource σ] in
theorem byCell_reads (h : p.bag.Agree (Effect.symbolTrigger.keys ++ Key.context) bag) :
    SameButBag (Trigger.byCell d [] p) (Trigger.byCell d [] { p with bag := bag }) := by
  rw [byCell_eq, atomic_bind_run, atomic_bind_run, Act.seeking, Act.seeking,
    h.symbols (by decide) (by decide)]
  rcases Trigger.symbols bag with e | sought
  · exact ⟨rfl, rfl⟩
  simp only [bind_run, liftM_run, lift_param_ok]
  by_cases hnone : (p.state.outcome.grid.positionsWhere sought.contains).isEmpty = true
  · simp only [if_pos hnone]
    exact ⟨rfl, rfl⟩
  · simp only [if_neg hnone]
    exact atCells_nil _ _ bag

omit [RandomSource σ] in
theorem play_reads (h : p.bag.Agree (Effect.play.keys ++ Key.context) bag) :
    SameButBag (Reveal.play [] p) (Reveal.play [] { p with bag := bag }) := by
  rw [Reveal.play, get_bind_run, get_bind_run, h.findD .nat (by decide)]
  by_cases hpending : (Reveal.pending p.state).isSome = true
  · simp only [hpending, ↓reduceIte]
    exact ⟨rfl, rfl⟩
  simp only [hpending, Bool.false_eq_true, ↓reduceIte]
  rcases bag.findD .nat "Steps" 1 with e | count
  · exact ⟨rfl, rfl⟩
  obtain ⟨links, hlinks⟩ := followOn_nil (σ := σ) (count - 1) (Act.begun p.state)
  have hplayed (bag' : Bag) (p' : Pass σ) : (Reveal.followOn [] bag' (count - 1)
    (Act.begun p.state) >>= fun links => modifyState (·.setChain links)) p' =
      (.ok (), { p' with state := p'.state.setChain links }) := by
    rw [bind_run, hlinks]
    rfl
  change SameButBag ((Reveal.followOn [] p.bag (count - 1) (Act.begun p.state) >>= fun links =>
      modifyState (·.setChain links)) { p with state := Act.begun p.state })
    ((Reveal.followOn [] bag (count - 1) (Act.begun p.state) >>= fun links =>
      modifyState (·.setChain links)) { p with state := Act.begun p.state, bag := bag })
  rw [hplayed, hplayed]
  exact ⟨rfl, rfl⟩

omit [RandomSource σ] in
theorem goOn_reads (h : p.bag.Agree (Effect.replayContinue.keys ++ Key.context) bag) :
    SameButBag (Reveal.goOn [] p) (Reveal.goOn [] { p with bag := bag }) := by
  rw [goOn_eq, atomic_bind_run, atomic_bind_run, Act.decides, Act.decides,
    h.require .nat (by decide)]
  rcases bag.require .nat "Tries" with e | ceiling
  · exact ⟨rfl, rfl⟩
  simp only [bind_run, liftM_run, lift_param_ok]
  by_cases hgoes : (!p.state.chain.isEmpty &&
      decide (p.state.replay.tries.toNat < ceiling)) = true
  · simp only [if_pos hgoes]
    exact ⟨rfl, rfl⟩
  · simp only [if_neg hgoes]
    exact ⟨rfl, rfl⟩

/-- What a feature without children does, apart from the bag that it leaves, is determined by the
values of the keys of its type and of the context. -/
theorem Effect.run_reads {e : Effect} (h : p.bag.Agree (e.keys ++ Key.context) bag) :
    SameButBag (e.run d [] p) (e.run d [] { p with bag := bag }) := by
  cases e
  case activator => exact ⟨rfl, rfl⟩
  case filterActivator => exact filtered_reads h
  case orderedActivator => exact ordered_reads h
  case weightedActivator => exact weighted_reads h
  case conditionalActivator => exact conditional_reads h
  case probabilityActivator => exact byChance_reads h
  case phaseActivator => exact inPhases_reads h
  case repeatActivator => exact repeated_reads h
  case weightedReelset => exact reelset_reads h
  case countTrigger => exact byCount_reads h
  case symbolTrigger => exact byCell_reads h
  case play => exact play_reads h
  case replay =>
    rw [Effect.run, replay_eq, atomic_bind_run, atomic_bind_run, Act.reveals, Act.reveals]
    rcases Reveal.pending p.state with _ | ⟨link, rest, tries⟩ <;> exact ⟨rfl, rfl⟩
  case replayContinue => exact goOn_reads h
  case replayAbort => exact ⟨rfl, rfl⟩
  all_goals
    rw [Effect.run_leaf rfl]
    exact carries_reads rfl h

end Run

end SlotOutcome
