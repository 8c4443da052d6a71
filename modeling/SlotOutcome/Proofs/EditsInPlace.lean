import SlotOutcome.Proofs.GridViews
import SlotOutcome.Proofs.Trees

/-!
# Features that edit in place

A feature that calls no others is given by a plan: what it reads and draws, and the change that it
makes as a whole. It can also be told edit by edit. Then it reads a parameter, draws, looks at the
grid, and changes one thing after another where it stands, and when it fails it leaves what it has
changed by then.

```text
  plan                            in place
    let x ← read                    let x ← read
    let positions ← look            let positions ← look
    return the grid with x there    check the positions        may still fail
           and the entry            write x, one by one        from here on it does not
                                    add the entry
```

Both do the same. So whatever such a feature may fail at comes before its first edit of the state.
Its own bag is another matter: a counter stashes what it has counted before it reads the name of
the flag to be raised.

## Main definitions

* `Edit.outcome`, `Edit.update`, `Edit.record`, `Edit.onGrid`: looking at the state and editing it.
* `Edit.tile`, `Edit.multiply`, `Edit.counter`, …: the features, edit by edit.
* `Enacts`: a part of a feature that does what a plan says, and nothing to the state when it fails.

## Main results

* `Enacts.read`, `Enacts.draw`, `Enacts.look`, `Enacts.stash`: one step of a feature.
* `Edit.tile_enacts`, `Edit.multiply_enacts`, …: each feature enacts its plan.
-/

namespace SlotOutcome

theorem RoundState.withOutcome_self (s : RoundState) : s.withOutcome s.outcome = s := by
  cases s
  rfl

namespace Edit

variable {σ α : Type}

/-! ### Edits -/

/-- The bag of the feature at work. -/
def bag : PassM σ Bag := do return (← get).bag

/-- The state as it has become. -/
def state : PassM σ RoundState := do return (← get).state

/-- The outcome as it has become. -/
def outcome : PassM σ Outcome := do return (← get).state.outcome

/-- Changes something of the outcome. -/
def update (f : Outcome → Outcome) : PassM σ Unit :=
  modifyState fun s => s.withOutcome (f s.outcome)

/-- Adds the entry of a definition to the ledger. -/
def record (d : Definition) (payload : Json) : PassM σ Unit := update (·.record d payload)

/-- Changes the working grid in place. When that fails, it stays as far as it was changed. -/
def onGrid (m : InPlace α) : PassM σ α := fun p =>
  let (r, grid) := m p.state.outcome.grid
  (r.mapError .data, { p with state := p.state.withOutcome { p.state.outcome with grid := grid } })

/-- Changes the wins in place, which never fails. -/
def onWins (m : StateM (List Win) α) : PassM σ α := fun p =>
  let (a, wins) := m p.state.outcome.wins
  (.ok a, { p with state := p.state.withOutcome { p.state.outcome with wins := wins } })

/-! ### Painting -/

variable (d : Definition)

/-- Covers cells of the grid and notes it. -/
def cover (positions : List Nat) (symbol : Symbol) (payload : Json) : PassM σ Unit := do
  onGrid (InPlace.writeAll positions symbol)
  record d payload

/-- Covers a block. -/
def tile : PassM σ Unit := do
  let bag ← bag
  let x ← bag.require .nat "X"
  let y ← bag.require .nat "Y"
  let w ← bag.require .nat "W"
  let h ← bag.require .nat "H"
  let id ← bag.require .symbol "TileId"
  if w = 0 ∨ h = 0 then
    throw (invalid ("empty tile " ++ toString w ++ "x" ++ toString h))
  Paint.reserve (w * h)
  let positions ← Paint.block (← outcome).grid x y w h
  cover d positions id (Payload.tile x y w h id)

/-- Covers cells because of a wild. -/
def expandAround : PassM σ Unit := do
  let bag ← bag
  let position ← bag.require .nat Key.position
  let positions ← bag.require .positions Key.positions
  let id ← bag.require .symbol "WildId"
  let _ ← (← outcome).grid.cell position
  cover d positions id (Payload.expansion position positions id)

/-- Turns one symbol into another. -/
def replace : PassM σ Unit := do
  let bag ← bag
  let source ← bag.require .symbol "ReplaceFrom"
  let target ← bag.require .symbol "ReplaceTo"
  let positions := (← outcome).grid.positionsOf source
  if positions.isEmpty ∨ source = target then return
  cover d positions target (Payload.painted positions target)

/-- Drops wilds on random cells. -/
def randomWilds [RandomSource σ] : PassM σ Unit := do
  let bag ← bag
  let id ← bag.require .symbol "RandomWildId"
  let exclude ← bag.findD .symbols "Exclude" []
  let count ← (pickFrom bag .nat .positions "WildCount" "WildCounts" "WildWeights" : PlanM σ Nat)
  let eligible := (← outcome).grid.positionsWhere fun symbol =>
    symbol != id && !exclude.contains symbol
  if count = 0 ∨ eligible.isEmpty then return
  let drawn ← (liftM (sample eligible count : DrawM σ (List Nat)) : PlanM σ (List Nat))
  let positions := ascending drawn
  cover d positions id (Payload.painted positions id)

/-- Reveals hidden symbols. -/
def mystery [RandomSource σ] : PassM σ Unit := do
  let bag ← bag
  let hidden ← bag.require .symbol "MysteryId"
  let symbols ← bag.require .symbols "Symbols"
  let weights ← bag.find .weights "SymbolWeights"
  let positions := (← outcome).grid.positionsOf hidden
  if positions.isEmpty then return
  let id := symbols.get (← (pick weights symbols.length : PlanM σ (Fin symbols.length)))
  cover d positions id (Payload.painted positions id)

/-- Covers a pattern. -/
def pattern [RandomSource σ] : PassM σ Unit := do
  let bag ← bag
  let patterns ← bag.require .intLists "Patterns"
  let weights ← bag.find .weights "PatternWeights"
  let id ← bag.require .symbol "PatternTileId"
  let index ← (pick weights patterns.length : PlanM σ (Fin patterns.length))
  let positions ← Paint.patternPositions index (patterns.get index)
  cover d positions id (Payload.pattern index positions id)

/-! ### Spinning -/

/-- Spins the reels. -/
def reels [RandomSource σ] : PassM σ Unit := do
  let bag ← bag
  let strips ← Strip.allOfInts (← bag.require .intLists "Reels")
  let rows ← bag.require .nat "Rows"
  if rows = 0 then throw (invalid "Rows must be positive")
  let stops ← match ← bag.find .positions "ForceStops" with
    | some stops => liftM (Spin.checkForced strips stops)
    | none => (liftM (liftM (Spin.drawStops strips : DrawM σ (List Nat)) : PlanM σ (List Nat)))
  let grid ← Grid.ofReels (List.zipWith (fun strip stop => strip.window stop rows) strips stops)
  update fun o => { o with sourceGrid := grid }
  update fun o => { o with grid := grid }
  update fun o => { o with strips := strips.map Strip.symbols }
  update fun o => { o with stops := stops }
  record d (Payload.stops stops)

/-! ### Paying -/

/-- Adds the wins that the evaluator finds. -/
def evaluate : PassM σ Unit := do
  let bag ← bag
  let s ← state
  match s.evaluator with
  | none => throw (.logic "no win evaluator on the state")
  | some evaluator =>
    let paytable := (← bag.find .text "Paytable") <|> s.paytable
    let wins := evaluator (← outcome).grid paytable
    if wins.isEmpty then return
    update fun o => { o with wins := o.wins ++ wins }
    record d (Payload.evaluated wins.length (winSum wins))

/-- Multiplies the multiplier of the round. -/
def multiply [RandomSource σ] : PassM σ Unit := do
  let bag ← bag
  let factor ← (pickFrom bag .float .floats "Multiplier" "Multipliers" "MultiplierWeights" :
    PlanM σ Float)
  update fun o => { o with multiplier := o.multiplier * factor }
  let total := (← outcome).multiplier
  record d (Payload.multiplied factor total)

/-- Multiplies a win if it touches some cells, and counts it. -/
def scaleWin (factor : Float) (wilds : Option (List Nat)) (affected i : Nat) :
    StateM (List Win) Nat := do
  match (← get)[i]? with
  | none => return affected
  | some win =>
    if Pay.touches wilds win then
      modify (·.set i (Pay.scale factor win))
      return affected + 1
    else return affected

/-- Multiplies the wins that touch some cells, one after another, and counts them. -/
def scaleWins (factor : Float) (wilds : Option (List Nat)) : StateM (List Win) Nat := do
  (List.range (← get).length).foldlM (scaleWin factor wilds) 0

/-- Multiplies wins by the multiplier of the round. -/
def applyMultiplier : PassM σ Unit := do
  let bag ← bag
  let multiplier := (← outcome).multiplier
  if multiplier == 1.0 || (← outcome).wins.isEmpty then return
  let wilds := (← bag.find .symbol "MultiplierWildId").map (← outcome).grid.positionsOf
  let affected ← onWins (scaleWins multiplier wilds)
  if affected = 0 then return
  record d (Payload.applied multiplier affected)

/-- Adds a prize. -/
def prize [RandomSource σ] : PassM σ Unit := do
  let bag ← bag
  let multiplier ← (pickFrom bag .float .floats "Prize" "Prizes" "PrizeWeights" : PlanM σ Float)
  let label ← bag.findD .text "PrizeLabel" "Prize"
  if multiplier ≤ 0.0 then return
  update fun o => { o with wins := o.wins ++ [⟨label, multiplier, [], []⟩] }
  record d (Payload.prize label multiplier)

/-- Adds a win for enough symbols. -/
def scatter : PassM σ Unit := do
  let bag ← bag
  let symbol ← bag.require .symbol "ScatterId"
  let pays ← bag.require .floats "Pays"
  let least ← bag.require .nat "PayFrom"
  let positions := (← outcome).grid.positionsOf symbol
  let count := positions.length
  if count < least then return
  match pays[min (count - least) (pays.length - 1)]? with
  | none => return
  | some multiplier =>
    if multiplier ≤ 0.0 then return
    update fun o => { o with wins := o.wins ++ [⟨"Scatter", multiplier, [symbol], positions⟩] }
    record d (Payload.scatter count multiplier)

/-- Grants free spins. -/
def freespins [RandomSource σ] : PassM σ Unit := do
  let bag ← bag
  let spins ← (pickFrom bag .nat .positions "Spins" "SpinCounts" "SpinWeights" : PlanM σ Nat)
  if spins = 0 then return
  let award ← Pay.spinCount spins
  update fun o => { o with freespins := Pay.addSpins o.freespins award }
  update fun o => { o with nextPhase := some .freespin }
  let total := (← outcome).freespins
  record d (Payload.award spins total)

/-! ### Remembering -/

/-- Moves a counter. What it has counted is stashed before the name of the flag is read. -/
def counter : PassM σ Unit := do
  let bag ← bag
  let s ← state
  let channel ← Remember.channel bag "CounterMemory" .stateful
  let key ← bag.require .text "CounterKey"
  let increment ← match ← bag.find .symbol "CountId" with
    | some symbol => pure (s.outcome.grid.count symbol : Int)
    | none => liftM (bag.findD .int "Increment" 1)
  let map ← channel.read s bag
  let value := Remember.addWithin (← map.findD .int key 0) increment
  let reached := (← bag.find .int "Target").any (· ≤ value)
  let reset ← if reached then liftM (bag.findD .bool "Reset" false) else pure false
  modifyBag fun bag => channel.stash bag (map.insert key (.ofInt (if reset then 0 else value)))
  if reached then
    let left ← Edit.bag
    match ← left.find .text "ReachedFlag" with
    | some flag => modifyBag (·.insert flag (.bool true))
    | none => pure ()
  if increment = 0 ∧ !reached then return
  record d (Payload.count key value reached)

/-- Restores and remembers symbols. -/
def sticky : PassM σ Unit := do
  let bag ← bag
  let s ← state
  let id ← bag.require .symbol "StickyId"
  let channel ← Remember.channel bag "StickyMemory" .stateless
  let key ← bag.findD .text "StickyKey" "Sticky"
  let map ← channel.read s bag
  let applied ← map.findD .positions key []
  onGrid (InPlace.writeAll applied id)
  let positions := (← outcome).grid.positionsOf id
  modifyBag fun bag => channel.stash bag (map.insert key (.ofNats positions))
  if applied.isEmpty ∧ positions.isEmpty then return
  record d (Payload.sticky applied positions id)

/-- Writes the memory of the stakes. -/
def statefulMap : PassM σ Unit := do
  let bag ← bag
  let s ← state
  let namespaces ← statefulNamespaces s
  let current ← match ← Channel.stateful.pending bag with
    | some map => pure map
    | none => liftM (atStake s namespaces)
  if current.isEmpty ∧ namespaces.isEmpty then return
  record d (.obj (namespaces.insert s.stakeKey (.obj current)))

/-- Writes the memory of the round. -/
def statelessMap : PassM σ Unit := do
  let bag ← bag
  let s ← state
  let current ← SlotOutcome.statelessMap s bag
  if current.isEmpty then return
  record d (.obj current)

/-- Copies values into the bag. -/
def setParams : PassM σ Unit := do
  let values ← (← bag).require .bag "Values"
  modifyBag (·.extend values)

end Edit

/-! ### Following a plan -/

/-- A part of a feature, from a state and a bag on, enacts a plan. It draws as the plan draws. If
the plan succeeds, it makes the change and leaves the bag that the plan says, and if the plan fails,
it fails in the same way and has not changed the state. -/
def Enacts {σ β : Type} (d : Definition) (s : RoundState) (bag : Bag) (m : PassM σ Unit)
    (finish : β → Option Change × Bag) (plan : PlanM σ β) : Prop :=
  ∀ source visits, match plan source with
    | (.ok b, x) => m ⟨source, visits, s, bag⟩ =
        (.ok (), ⟨x, visits, s.perform d (finish b).1, (finish b).2⟩)
    | (.error e, x) => ∃ left, m ⟨source, visits, s, bag⟩ = (.error e, ⟨x, visits, s, left⟩)

namespace Enacts

variable {σ α β ε : Type} {d : Definition} {s : RoundState} {bag : Bag}
  {finish : β → Option Change × Bag} {plan : PlanM σ β}

/-! #### Before the first edit -/

/-- A feature that draws as its plan draws. -/
theorem draw {x : PlanM σ α} {k : α → PassM σ Unit} {k' : α → PlanM σ β}
    (h : ∀ a, Enacts d s bag (k a) finish (k' a)) :
    Enacts d s bag (liftM x >>= k) finish (x >>= k') := by
  intro source visits
  rw [bind_run, bind_run, liftM_plan_run]
  dsimp only
  rcases x source with ⟨e | a, x'⟩
  · exact ⟨bag, rfl⟩
  · exact h a x' visits

/-- A feature that reads what its plan reads. -/
theorem read [MonadLiftT (Except ε) (Except FeatureError)] {x : Except ε α} {k : α → PassM σ Unit}
    {k' : α → PlanM σ β} (h : ∀ a, Enacts d s bag (k a) finish (k' a)) :
    Enacts d s bag (liftM x >>= k) finish (liftM x >>= k') := by
  intro source visits
  rw [bind_run, bind_run, liftM_run, liftM_run]
  rcases (liftM x : Except FeatureError α) with e | a
  · exact ⟨bag, rfl⟩
  · exact h a source visits

/-- A feature that reads what its plan reads, if the plan draws nothing. -/
theorem settle [MonadLiftT (Except ε) (Except FeatureError)] {x : Except ε α}
    {k : α → PassM σ Unit} {k' : α → Except FeatureError β}
    (h : ∀ a, Enacts d s bag (k a) finish (liftM (k' a))) :
    Enacts d s bag (liftM x >>= k) finish
      (liftM ((liftM x : Except FeatureError α) >>= k')) := by
  intro source visits
  rw [bind_run, liftM_run, liftM_run]
  rcases (liftM x : Except FeatureError α) with e | a
  · exact ⟨bag, rfl⟩
  · exact h a source visits

/-- A feature that knows what it would have read. -/
theorem known {a : α} {k : α → PassM σ Unit} {k' : α → Except FeatureError β}
    (h : Enacts d s bag (k a) finish (liftM (k' a))) :
    Enacts d s bag (pure a >>= k) finish (liftM (pure a >>= k')) := h

/-- A feature that decides as its plan decides. -/
theorem ite {c : Prop} [Decidable c] {m m' : PassM σ Unit} {plan plan' : Except FeatureError β}
    (h : Enacts d s bag m finish (liftM plan)) (h' : Enacts d s bag m' finish (liftM plan')) :
    Enacts d s bag (if c then m else m') finish (liftM (if c then plan else plan')) := by
  split
  · exact h
  · exact h'

theorem lookAtBag {k : Bag → PassM σ Unit} (h : Enacts d s bag (k bag) finish plan) :
    Enacts d s bag (Edit.bag >>= k) finish plan := h

theorem lookAtState {k : RoundState → PassM σ Unit} (h : Enacts d s bag (k s) finish plan) :
    Enacts d s bag (Edit.state >>= k) finish plan := h

theorem look {k : Outcome → PassM σ Unit} (h : Enacts d s bag (k s.outcome) finish plan) :
    Enacts d s bag (Edit.outcome >>= k) finish plan := h

/-- What is written into the own bag does not count as an edit: it is lost when the feature
fails. -/
theorem stash {f : Bag → Bag} {k : Unit → PassM σ Unit}
    (h : Enacts d s (f bag) (k ()) finish plan) :
    Enacts d s bag (modifyBag f >>= k) finish plan := h

theorem fail {e : FeatureError} {m : PassM σ Unit} (hm : m = throw e) (hplan : plan = throw e) :
    Enacts d s bag m finish plan := by
  subst hm hplan
  exact fun _ _ => ⟨bag, rfl⟩

/-- A feature that has nothing more to read. From here on it does not fail. -/
theorem finished {b : β} {m : PassM σ Unit} (hplan : plan = pure b)
    (hm : ∀ source visits, m ⟨source, visits, s, bag⟩ =
      (.ok (), ⟨source, visits, s.perform d (finish b).1, (finish b).2⟩)) :
    Enacts d s bag m finish plan := by
  subst hplan
  exact hm

/-! #### Edits of the grid -/

section OnGrid

variable {m : InPlace α} {k : α → PassM σ Unit} {g : Grid}

/-- An edit of the grid that fails and leaves the grid as it was. -/
theorem gridKept {e : DataError} (hm : m s.outcome.grid = (.error e, s.outcome.grid))
    (hplan : plan = throw (.data e)) : Enacts d s bag (Edit.onGrid m >>= k) finish plan := by
  subst hplan
  intro source visits
  refine ⟨bag, ?_⟩
  rw [bind_run, Edit.onGrid, hm]
  change (_, (⟨source, visits, s.withOutcome s.outcome, bag⟩ : Pass σ)) = _
  rw [RoundState.withOutcome_self]

/-- An edit of the grid that succeeds. From here on the feature does not fail. -/
theorem gridEdited {a : α} {b : β} (hm : m s.outcome.grid = (.ok a, g)) (hplan : plan = pure b)
    (hk : ∀ source visits,
      k a ⟨source, visits, s.withOutcome { s.outcome with grid := g }, bag⟩ =
        (.ok (), ⟨source, visits, s.perform d (finish b).1, (finish b).2⟩)) :
    Enacts d s bag (Edit.onGrid m >>= k) finish plan := by
  refine .finished hplan fun source visits => ?_
  rw [bind_run, Edit.onGrid, hm]
  exact hk source visits

/-- An edit of the grid that leaves it as it was. -/
theorem gridUntouched {a : α} {b : β} (hm : m s.outcome.grid = (.ok a, s.outcome.grid))
    (hplan : plan = pure b) (hk : ∀ source visits, k a ⟨source, visits, s, bag⟩ =
      (.ok (), ⟨source, visits, s.perform d (finish b).1, (finish b).2⟩)) :
    Enacts d s bag (Edit.onGrid m >>= k) finish plan := by
  refine .gridEdited hm hplan fun source visits => ?_
  change k a ⟨source, visits, s.withOutcome s.outcome, bag⟩ = _
  rw [RoundState.withOutcome_self]
  exact hk source visits

end OnGrid

theorem cover {positions : List Nat} {symbol : Symbol} {payload : Json} :
    Enacts (σ := σ) d s bag (Edit.cover d positions symbol payload) (·, bag)
      (liftM (Paint.cover s.outcome positions symbol) >>= fun o => pure (some ⟨o, payload⟩)) := by
  have hwrite := InPlace.writeAll_run positions symbol s.outcome.grid
  rw [Paint.cover]
  rcases hset : s.outcome.grid.setAll positions symbol with e | grid <;> rw [hset] at hwrite
  · exact .gridKept hwrite rfl
  · exact .gridEdited hwrite rfl fun _ _ => rfl

theorem cover_settle {positions : List Nat} {symbol : Symbol} {payload : Json} :
    Enacts (σ := σ) d s bag (Edit.cover d positions symbol payload) (·, bag)
      (liftM (do return some ⟨← Paint.cover s.outcome positions symbol, payload⟩ :
        Except FeatureError (Option Change))) := by
  have h : Enacts (σ := σ) d s bag (Edit.cover d positions symbol payload) _ _ := cover
  rcases hcover : Paint.cover s.outcome positions symbol with e | o <;> rw [hcover] at h <;> exact h

end Enacts

namespace Edit

variable {σ : Type} (d : Definition) (s : RoundState) (bag : Bag)

theorem tile_enacts : Enacts (σ := σ) d s bag (tile d) (·, bag) (liftM (Paint.tile s bag)) := by
  refine .lookAtBag <| .settle fun x => .settle fun y => .settle fun w => .settle fun h => ?_
  refine .settle fun id => ?_
  split
  · exact .fail rfl rfl
  · refine .settle (x := Paint.reserve (w * h)) fun _ => ?_
    exact .look <| .settle fun positions => .cover_settle

theorem expandAround_enacts :
    Enacts (σ := σ) d s bag (expandAround d) (·, bag) (liftM (Paint.expandAround s bag)) := by
  refine .lookAtBag <| .settle fun position => .settle fun positions => .settle fun id => ?_
  exact .look <| .settle fun _ => .cover_settle

theorem replace_enacts :
    Enacts (σ := σ) d s bag (replace d) (·, bag) (liftM (Paint.replace s bag)) := by
  refine .lookAtBag <| .settle fun source => .settle fun target => .look ?_
  dsimp only
  split
  · exact .finished rfl fun _ _ => rfl
  · exact .cover_settle

theorem randomWilds_enacts [RandomSource σ] :
    Enacts d s bag (randomWilds d) (·, bag) (Paint.randomWilds (σ := σ) s bag) := by
  refine .lookAtBag <| .read fun id => .read fun exclude => .draw fun count => .look ?_
  dsimp only
  split
  · exact .finished rfl fun _ _ => rfl
  · exact .draw fun drawn => .cover

theorem mystery_enacts [RandomSource σ] :
    Enacts d s bag (mystery d) (·, bag) (Paint.mystery (σ := σ) s bag) := by
  refine .lookAtBag <| .read fun hidden => .read fun symbols => .read fun weights => .look ?_
  dsimp only
  split
  · exact .finished rfl fun _ _ => rfl
  · exact .draw fun index => .cover

theorem pattern_enacts [RandomSource σ] :
    Enacts d s bag (pattern d) (·, bag) (Paint.pattern (σ := σ) s bag) := by
  refine .lookAtBag <| .read fun patterns => .read fun weights => .read fun id => ?_
  exact .draw fun index => .read fun positions => .cover

theorem reels_enacts [RandomSource σ] :
    Enacts d s bag (reels d) (·, bag) (Spin.reels (σ := σ) s bag) := by
  refine .lookAtBag <| .read fun ints => .read fun strips => .read fun rows => ?_
  dsimp only
  split
  · exact .fail rfl rfl
  · refine .read fun forced => ?_
    rcases forced with _ | stops
    · exact .draw fun stops => .read fun grid => .finished rfl fun _ _ => rfl
    · exact .read fun stops => .read fun grid => .finished rfl fun _ _ => rfl

theorem evaluate_enacts :
    Enacts (σ := σ) d s bag (evaluate d) (·, bag) (liftM (Pay.evaluate s bag)) := by
  refine .lookAtBag <| .lookAtState ?_
  unfold Pay.evaluate
  rcases s.evaluator with _ | evaluator
  · exact .fail rfl rfl
  · refine .settle fun name => .look ?_
    dsimp only
    split
    · exact .finished rfl fun _ _ => rfl
    · exact .finished rfl fun _ _ => rfl

theorem multiply_enacts [RandomSource σ] :
    Enacts d s bag (multiply d) (·, bag) (Pay.multiply (σ := σ) s bag) :=
  .lookAtBag <| .draw fun _ => .finished rfl fun _ _ => rfl

theorem prize_enacts [RandomSource σ] :
    Enacts d s bag (prize d) (·, bag) (Pay.prize (σ := σ) s bag) := by
  refine .lookAtBag <| .draw fun multiplier => .read fun label => ?_
  split
  · exact .finished rfl fun _ _ => rfl
  · exact .finished rfl fun _ _ => rfl

theorem scatter_enacts :
    Enacts (σ := σ) d s bag (scatter d) (·, bag) (liftM (Pay.scatter s bag)) := by
  refine .lookAtBag <| .settle fun symbol => .settle fun pays => .settle fun least => .look ?_
  dsimp only
  split
  · exact .finished rfl fun _ _ => rfl
  · rcases pays[min _ _]? with _ | multiplier
    · exact .finished rfl fun _ _ => rfl
    · dsimp only
      split
      · exact .finished rfl fun _ _ => rfl
      · exact .finished rfl fun _ _ => rfl

theorem freespins_enacts [RandomSource σ] :
    Enacts d s bag (freespins d) (·, bag) (Pay.freespins (σ := σ) s bag) := by
  refine .lookAtBag <| .draw fun spins => ?_
  split
  · exact .finished rfl fun _ _ => rfl
  · exact .read fun award => .finished rfl fun _ _ => rfl

theorem statefulMap_enacts :
    Enacts (σ := σ) d s bag (statefulMap d) (·, bag) (liftM (Remember.statefulMap s bag)) := by
  refine .lookAtBag <| .lookAtState <| .settle fun namespaces => .settle fun pending => ?_
  have hdone (current : Bag) : Enacts (σ := σ) d s bag
      (if current.isEmpty ∧ namespaces.isEmpty then pure ()
        else record d (.obj (namespaces.insert s.stakeKey (.obj current)))) (·, bag)
      (liftM (if current.isEmpty ∧ namespaces.isEmpty then pure none
        else pure (some ⟨s.outcome, .obj (namespaces.insert s.stakeKey (.obj current))⟩) :
          Except FeatureError (Option Change))) := by
    split
    · exact .finished rfl fun _ _ => rfl
    · exact .finished rfl fun _ _ => rfl
  rcases pending with _ | map
  · exact .settle (x := atStake s namespaces) hdone
  · exact hdone map

theorem statelessMap_enacts :
    Enacts (σ := σ) d s bag (statelessMap d) (·, bag) (liftM (Remember.statelessMap s bag)) := by
  refine .lookAtBag <| .lookAtState <| .settle fun current => ?_
  split
  · exact .finished rfl fun _ _ => rfl
  · exact .finished rfl fun _ _ => rfl

theorem stateM_bind_run {S α β : Type} (m : StateM S α) (k : α → StateM S β) (x : S) :
    (m >>= k) x = k (m x).1 (m x).2 := rfl

theorem scaleWin_run (factor : Float) (wilds : Option (List Nat)) (affected : Nat)
    (done rest : List Win) (win : Win) :
    scaleWin factor wilds affected done.length (done ++ win :: rest) =
      (affected + if Pay.touches wilds win then 1 else 0,
        done ++ (if Pay.touches wilds win then Pay.scale factor win else win) :: rest) := by
  have hwin : (done ++ win :: rest)[done.length]? = some win := by simp
  have hset : (done ++ win :: rest).set done.length (Pay.scale factor win) =
      done ++ Pay.scale factor win :: rest := by simp
  change (match (done ++ win :: rest)[done.length]? with
    | none => (pure affected : StateM (List Win) Nat)
    | some win =>
      if Pay.touches wilds win then do
        modify fun wins : List Win => wins.set done.length (Pay.scale factor win)
        return affected + 1
      else return affected) (done ++ win :: rest) = _
  rw [hwin]
  dsimp only
  split
  · exact congrArg (Prod.mk _) hset
  · rfl

/-- The wins after those that were looked at already are multiplied one by one. -/
theorem foldlM_scaleWin_run (factor : Float) (wilds : Option (List Nat)) (affected : Nat)
    (done rest : List Win) :
    (List.range' done.length rest.length).foldlM (scaleWin factor wilds) affected (done ++ rest) =
      (affected + rest.countP (Pay.touches wilds),
        done ++ rest.map fun win =>
          if Pay.touches wilds win then Pay.scale factor win else win) := by
  induction rest generalizing affected done with
  | nil => rfl
  | cons win rest ih =>
    have hnext := ih (affected + if Pay.touches wilds win then 1 else 0)
      (done ++ [if Pay.touches wilds win then Pay.scale factor win else win])
    simp only [List.length_append, List.length_singleton, List.append_assoc,
      List.singleton_append] at hnext
    rw [List.length_cons, List.range'_succ, List.foldlM_cons, stateM_bind_run, scaleWin_run]
    refine hnext.trans ?_
    rw [List.countP_cons, List.map_cons]
    congr 1
    omega

theorem scaleWins_run (factor : Float) (wilds : Option (List Nat)) (wins : List Win) :
    scaleWins factor wilds wins = (wins.countP (Pay.touches wilds),
      wins.map fun win => if Pay.touches wilds win then Pay.scale factor win else win) := by
  have h := foldlM_scaleWin_run factor wilds 0 [] wins
  rw [Nat.zero_add] at h
  change (List.range wins.length).foldlM (scaleWin factor wilds) 0 wins = _
  rw [List.range_eq_range']
  exact h

theorem applyMultiplier_enacts :
    Enacts (σ := σ) d s bag (applyMultiplier d) (·, bag) (liftM (Pay.applyMultiplier s bag)) := by
  refine .lookAtBag <| .look <| .look ?_
  refine .ite (.finished rfl fun _ _ => rfl) (.settle fun id => .look ?_)
  dsimp only
  generalize id.map s.outcome.grid.positionsOf = wilds
  have hscaled := scaleWins_run s.outcome.multiplier wilds s.outcome.wins
  by_cases hnone : s.outcome.wins.countP (Pay.touches wilds) = 0
  · -- No win was changed.
    have hsame : (s.outcome.wins.map fun win =>
        if Pay.touches wilds win then Pay.scale s.outcome.multiplier win else win) =
          s.outcome.wins := by
      refine (List.map_congr_left fun win hwin => ?_).trans (List.map_id _)
      exact if_neg (List.countP_eq_zero.mp hnone win hwin)
    rw [if_pos hnone]
    refine .finished (b := none) rfl fun source visits => ?_
    simp only [bind_run, onWins, hscaled, hsame, hnone, ↓reduceIte]
    change (_, (⟨source, visits, s.withOutcome s.outcome, bag⟩ : Pass σ)) = _
    rw [RoundState.withOutcome_self]
    rfl
  · rw [if_neg hnone]
    refine .finished rfl fun source visits => ?_
    simp only [bind_run, onWins, hscaled, hnone, ↓reduceIte]
    rfl

theorem sticky_enacts :
    Enacts (σ := σ) d s bag (sticky d) id (liftM (Remember.sticky s bag)) := by
  refine .lookAtBag <| .lookAtState <| .settle fun id => .settle fun channel => ?_
  refine .settle fun key => .settle fun map => .settle fun applied => ?_
  have hwrite := InPlace.writeAll_run applied id s.outcome.grid
  rcases hset : s.outcome.grid.setAll applied id with e | grid <;> rw [hset] at hwrite
  · exact .gridKept hwrite rfl
  by_cases hnone : applied.isEmpty ∧ (grid.positionsOf id).isEmpty
  · -- Nothing was restored, so the grid is as it was.
    obtain rfl := List.isEmpty_iff.mp hnone.1
    cases hset
    refine .gridUntouched hwrite (congrArg liftM (if_pos hnone)) fun _ _ => ?_
    exact congrFun (if_pos hnone) _
  · refine .gridEdited hwrite (congrArg liftM (if_neg hnone)) fun _ _ => ?_
    exact congrFun (if_neg hnone) _

theorem setParams_enacts : Enacts (σ := σ) d s bag setParams id
    (liftM (do return (none, ← Remember.setParams bag) :
      Except FeatureError (Option Change × Bag))) := by
  unfold Remember.setParams
  rw [bind_assoc]
  exact .lookAtBag <| .settle fun values => .finished rfl fun _ _ => rfl

theorem counter_enacts :
    Enacts (σ := σ) d s bag (counter d) id (liftM (Remember.counter s bag)) := by
  refine .lookAtBag <| .lookAtState <| .settle fun channel => .settle fun key => ?_
  refine .settle fun symbol => ?_
  rcases symbol with _ | symbol <;> dsimp only
  case' none => refine .settle fun increment => ?_
  case' some => refine .known ?_
  all_goals
    refine .settle fun map => .settle fun old => .settle fun target => ?_
    generalize target.any _ = reached
    rcases reached with _ | _
    · -- Short of the target neither `Reset` nor the flag is read.
      refine .known (.stash ?_)
      simp only [Bool.false_eq_true, ↓reduceIte, pure_bind]
      exact .ite (.finished rfl fun _ _ => rfl) (.finished rfl fun _ _ => rfl)
    · refine .settle fun reset => .stash <| .lookAtBag <| .settle fun flag => ?_
      rcases flag with _ | flag
      · exact .ite (.finished rfl fun _ _ => rfl) (.finished rfl fun _ _ => rfl)
      · refine .stash ?_
        exact .ite (.finished rfl fun _ _ => rfl) (.finished rfl fun _ _ => rfl)

end Edit

end SlotOutcome
