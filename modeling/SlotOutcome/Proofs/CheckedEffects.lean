import SlotOutcome.Proofs.CheckedCascades
import SlotOutcome.Proofs.Trees

/-!
# Features with a check

The features that read lists at an index, divide or subtract, done with checked steps: what they
draw an index of, they look up by that number; the strips that they spin are lists again, which may
be empty as far as their type goes; and a cell is split by the height of the grid that it lies on. A
tree at work with checked steps does the same as the tree at work, so no step is out of range.

## Main definitions

* `Check.tile`, `Check.randomWilds`, `Check.sticky`, …: the features that write cells.
* `Check.reels`, `Check.reelset`: spinning the reels.
* `Check.weighted`, `Check.repeated`, `Check.byCell`, `Check.play`: the features that call children.
* `Effect.check`, `Definition.check`: all features, and a tree at work with checked steps.

## Main results

* `Effect.check_eq`: a feature with its steps checked is the feature.
* `Definition.check_eq`: a tree with its steps checked is the tree.
-/

namespace SlotOutcome

namespace Check

variable {σ : Type}

section Lift

variable {α β ε : Type}

/-- A plan that begins with a computation without draws. -/
theorem bind_lift [MonadLiftT (Except ε) (Except FeatureError)] {x : Except ε α}
    {f : α → PlanM (Checked σ) β} {k : α → Except FeatureError β} (h : ∀ a, f a = liftM (k a)) :
    (liftM x : PlanM (Checked σ) α) >>= f = liftM ((liftM x : Except FeatureError α) >>= k) := by
  change (liftM (liftM x : Except FeatureError α) : PlanM (Checked σ) α) >>= f = _
  rcases (liftM x : Except FeatureError α) with e | a
  · rfl
  · exact h a

/-- A plan in two steps is two parts of a pass. -/
theorem liftM_plan_bind (m : PlanM σ α) (f : α → PlanM σ β) :
    (liftM (m >>= f) : PassM σ β) = liftM m >>= fun a => liftM (f a) := by
  funext p
  rw [bind_run, liftM_plan_run, liftM_plan_run, bind_run]
  rcases m p.source with ⟨e | a, x⟩ <;> rfl

/-- A part of a pass that begins with a plan whose result is mapped first. -/
theorem liftM_plan_map_bind {γ : Type} (m : PlanM σ α) (f : α → β) (k : β → PassM σ γ) :
    (liftM (f <$> m : PlanM σ β) : PassM σ β) >>= k =
      (liftM m : PassM σ α) >>= fun a => k (f a) := by
  rw [map_eq_pure_bind, liftM_plan_bind, bind_assoc]
  rfl

/-- A computation without draws is the same part of a pass, whether or not it is a plan first. -/
theorem liftM_plan_lift [MonadLiftT (Except ε) (Except FeatureError)] (x : Except ε α) :
    (liftM (liftM x : PlanM σ α) : PassM σ α) = liftM x := by
  change (liftM (liftM (liftM x : Except FeatureError α) : PlanM σ α) : PassM σ α) =
    liftM (liftM x : Except FeatureError α)
  rcases (liftM x : Except FeatureError α) with e | a <;> rfl

theorem mapM_draws (f : α → DrawM σ β) (items : List α) :
    items.mapM (fun a => (liftM (f a) : PlanM σ β)) = liftM (items.mapM f) := by
  induction items with
  | nil => rfl
  | cons a rest ih =>
    rw [List.mapM_cons, List.mapM_cons, ih]
    change _ = ExceptT.adapt _ (_ >>= _)
    rw [adapt_bind]
    refine bind_congr fun b => ?_
    rw [adapt_bind]
    rfl

end Lift

/-! ### Painting -/

/-- The outcome with a symbol at every listed position of the working grid. -/
def cover (o : Outcome) (positions : List Nat) (symbol : Symbol) : PlanM (Checked σ) Outcome := do
  let grid ← setAll o.grid positions symbol
  pure { o with grid := grid }

theorem cover_eq (o : Outcome) (positions : List Nat) (symbol : Symbol) :
    (cover o positions symbol : PlanM (Checked σ) Outcome) =
      liftM (Paint.cover o positions symbol) := by
  unfold cover Paint.cover
  rw [setAll_eq]
  rcases o.grid.setAll positions symbol with e | grid <;> rfl

/-- A feature that covers cells and notes it. -/
theorem cover_bind {β : Type} (o : Outcome) (positions : List Nat) (symbol : Symbol)
    (f : Outcome → β) :
    (do return f (← cover o positions symbol) : PlanM (Checked σ) β) =
      liftM (do return f (← Paint.cover o positions symbol) : Except FeatureError β) := by
  rw [cover_eq]
  exact bind_lift fun _ => rfl

section Settled

variable (s : RoundState) (bag : Bag)

/-- Covers a block. -/
def tile : PlanM (Checked σ) (Option Change) := do
  let x ← bag.require .nat "X"
  let y ← bag.require .nat "Y"
  let w ← bag.require .nat "W"
  let h ← bag.require .nat "H"
  let id ← bag.require .symbol "TileId"
  if w = 0 ∨ h = 0 then
    throw (invalid ("empty tile " ++ toString w ++ "x" ++ toString h))
  Paint.reserve (w * h)
  let positions ← Paint.block s.outcome.grid x y w h
  return some ⟨← cover s.outcome positions id, Payload.tile x y w h id⟩

theorem tile_eq : (tile s bag : PlanM (Checked σ) (Option Change)) = liftM (Paint.tile s bag) := by
  refine bind_lift fun x => bind_lift fun y => bind_lift fun w => bind_lift fun h => ?_
  refine bind_lift fun id => ?_
  split
  · rfl
  · refine bind_lift (x := Paint.reserve (w * h)) fun _ => ?_
    exact bind_lift fun positions => cover_bind ..

/-- Covers cells because of a wild. -/
def expandAround : PlanM (Checked σ) (Option Change) := do
  let position ← bag.require .nat Key.position
  let positions ← bag.require .positions Key.positions
  let id ← bag.require .symbol "WildId"
  let _ ← cell s.outcome.grid position
  return some ⟨← cover s.outcome positions id, Payload.expansion position positions id⟩

theorem expandAround_eq :
    (expandAround s bag : PlanM (Checked σ) (Option Change)) =
      liftM (Paint.expandAround s bag) := by
  refine bind_lift fun position => bind_lift fun positions => bind_lift fun id => ?_
  rw [cell_eq]
  exact bind_lift fun _ => cover_bind ..

/-- Fills the reels that show a symbol. -/
def expandReels : PlanM (Checked σ) (Option Change) := do
  let id ← bag.require .symbol "ExpandId"
  let g := s.outcome.grid
  let columns ← (List.range g.reels).mapM (reel g)
  let reels := (columns.zipIdx.filter fun column => Paint.partlyShows id column.1).map Prod.snd
  if reels.isEmpty then return none
  let positions ← (reels.mapM g.reelPositions : Except DataError _)
  return some ⟨← cover s.outcome positions.flatten id, Payload.expandedReels reels id⟩

theorem expandReels_eq :
    (expandReels s bag : PlanM (Checked σ) (Option Change)) = liftM (Paint.expandReels s bag) := by
  have hcolumns : ((List.range s.outcome.grid.reels).mapM (reel s.outcome.grid) :
      PlanM (Checked σ) (List (List Symbol))) =
        liftM ((List.range s.outcome.grid.reels).mapM s.outcome.grid.reel) :=
    mapM_lift fun r _ => reel_eq s.outcome.grid r
  refine bind_lift fun id => ?_
  dsimp only
  rw [hcolumns]
  refine bind_lift fun columns => ?_
  split
  · rfl
  · exact bind_lift fun positions => cover_bind ..

/-- Turns one symbol into another. -/
def replace : PlanM (Checked σ) (Option Change) := do
  let source ← bag.require .symbol "ReplaceFrom"
  let target ← bag.require .symbol "ReplaceTo"
  let positions := s.outcome.grid.positionsOf source
  if positions.isEmpty ∨ source = target then return none
  return some ⟨← cover s.outcome positions target, Payload.painted positions target⟩

theorem replace_eq :
    (replace s bag : PlanM (Checked σ) (Option Change)) = liftM (Paint.replace s bag) := by
  refine bind_lift fun source => bind_lift fun target => ?_
  dsimp only
  split
  · rfl
  · exact cover_bind ..

/-- Restores and remembers symbols. -/
def sticky : PlanM (Checked σ) (Option Change × Bag) := do
  let id ← bag.require .symbol "StickyId"
  let channel ← Remember.channel bag "StickyMemory" .stateless
  let key ← bag.findD .text "StickyKey" "Sticky"
  let map ← channel.read s bag
  let applied ← map.findD .positions key []
  let grid ← setAll s.outcome.grid applied id
  let positions := grid.positionsOf id
  let left := channel.stash bag (map.insert key (.ofNats positions))
  if applied.isEmpty ∧ positions.isEmpty then return (none, left)
  return (some ⟨{ s.outcome with grid := grid }, Payload.sticky applied positions id⟩, left)

theorem sticky_eq :
    (sticky s bag : PlanM (Checked σ) (Option Change × Bag)) = liftM (Remember.sticky s bag) := by
  refine bind_lift fun id => bind_lift fun channel => bind_lift fun key => ?_
  refine bind_lift fun map => bind_lift fun applied => ?_
  rw [setAll_eq]
  refine bind_lift fun grid => ?_
  dsimp only
  split
  · rfl
  · rfl

/-! ### Paying -/

/-- Adds a win for enough symbols. -/
def scatter : PlanM (Checked σ) (Option Change) := do
  let symbol ← bag.require .symbol "ScatterId"
  let pays ← bag.require .floats "Pays"
  let least ← bag.require .nat "PayFrom"
  let positions := s.outcome.grid.positionsOf symbol
  let count := positions.length
  if count < least ∨ pays.isEmpty then return none
  let multiplier ← item pays (min (← difference count least) (← difference pays.length 1))
  if multiplier ≤ 0.0 then return none
  return some {
    outcome := { s.outcome with
      wins := s.outcome.wins ++ [⟨"Scatter", multiplier, [symbol], positions⟩] }
    payload := Payload.scatter count multiplier }

theorem scatter_eq :
    (scatter s bag : PlanM (Checked σ) (Option Change)) = liftM (Pay.scatter s bag) := by
  refine bind_lift fun symbol => bind_lift fun pays => bind_lift fun least => ?_
  dsimp only
  by_cases hcount : (s.outcome.grid.positionsOf symbol).length < least
  · rw [if_pos (.inl hcount), if_pos hcount]
    rfl
  rw [if_neg hcount]
  rcases pays with _ | ⟨pay, pays⟩
  · rw [if_pos (.inr rfl)]
    rfl
  have hlast : min ((s.outcome.grid.positionsOf symbol).length - least)
      ((pay :: pays).length - 1) < (pay :: pays).length := by
    simp only [List.length_cons]
    omega
  rw [if_neg (by simpa using hcount), difference_of_le (Nat.le_of_not_lt hcount), pure_bind,
    difference_of_le (by simp), pure_bind, item_of_lt hlast, pure_bind,
    List.getElem?_eq_getElem hlast]
  dsimp only
  split
  · rfl
  · rfl

end Settled

/-! ### The strips of a spin -/

/-- The first stop past its strip and the reel of it, among those from a reel on. -/
def firstPast (strips : List (List Symbol)) :
    Nat → List Nat → PlanM (Checked σ) (Option (Nat × Nat))
  | _, [] => pure none
  | reel, stop :: rest => do
    let strip ← item strips reel
    if strip.length ≤ stop then pure (some (stop, reel)) else firstPast strips (reel + 1) rest

/-- Where there is a strip for each stop, looking for a stop past its strip finds the first one. -/
theorem firstPast_eq {strips : List Strip} {reel : Nat} {stops : List Nat}
    (h : reel + stops.length = strips.length) :
    (firstPast (strips.map Strip.symbols) reel stops : PlanM (Checked σ) (Option (Nat × Nat))) =
      pure ((((stops.zip (strips.drop reel)).zipIdx reel).find? fun x =>
        x.1.2.length ≤ x.1.1).map fun x => (x.1.1, x.2)) := by
  induction stops generalizing reel with
  | nil => rfl
  | cons stop rest ih =>
    rw [List.length_cons] at h
    have hreel : reel < strips.length := by omega
    have hitem : (item (strips.map Strip.symbols) reel : PlanM (Checked σ) (List Symbol)) =
        pure strips[reel].symbols := by
      rw [item_of_lt (by simpa using hreel), List.getElem_map]
    rw [firstPast, hitem, pure_bind, List.drop_eq_getElem_cons hreel, List.zip_cons_cons,
      List.zipIdx_cons, List.find?_cons]
    by_cases hpast : strips[reel].symbols.length ≤ stop
    · have hfirst : decide (strips[reel].length ≤ stop) = true := decide_eq_true hpast
      rw [if_pos hpast]
      dsimp only
      rw [hfirst]
      rfl
    · have hfirst : decide (strips[reel].length ≤ stop) = false := decide_eq_false hpast
      rw [if_neg hpast]
      dsimp only
      rw [hfirst]
      exact ih (by omega)

/-- Stops that an operator forces: one for each strip, and on it. -/
def checkForced (strips : List (List Symbol)) (stops : List Nat) :
    PlanM (Checked σ) (List Nat) := do
  if stops.length ≠ strips.length then
    throw (invalid (toString stops.length ++ " forced stops for " ++ toString strips.length ++
      " reels"))
  match ← firstPast strips 0 stops with
  | some (stop, reel) =>
    throw (invalid ("forced stop " ++ toString stop ++ " past reel " ++ toString reel))
  | none => pure stops

theorem checkForced_eq (strips : List Strip) (stops : List Nat) :
    (checkForced (strips.map Strip.symbols) stops : PlanM (Checked σ) (List Nat)) =
      liftM (Spin.checkForced strips stops) := by
  unfold checkForced Spin.checkForced
  rw [List.length_map]
  by_cases hlength : stops.length = strips.length
  · rw [if_neg (not_not.mpr hlength), if_neg (not_not.mpr hlength),
      firstPast_eq (by rw [Nat.zero_add, hlength]), pure_bind, List.drop_zero]
    dsimp only
    rcases (stops.zip strips).zipIdx.find? fun (x : (Nat × Strip) × Nat) =>
      x.1.2.length ≤ x.1.1 with _ | ⟨⟨stop, strip⟩, reel⟩
    · rfl
    · rfl
  · rw [if_pos hlength, if_pos hlength]
    rfl

/-- The grid of the given columns. -/
def ofReels (columns : List (List Symbol)) : PlanM (Checked σ) Grid := do
  let rows := (columns.head?.map List.length).getD 0
  match columns.findIdx? fun c => c.length != rows with
  | some bad =>
    let column ← item columns bad
    throw (.data (.malformed ("reel " ++ toString bad ++ " has " ++ toString column.length ++
      " rows, expected " ++ toString rows)))
  | none => Grid.ofReels columns

theorem ofReels_eq (columns : List (List Symbol)) :
    (ofReels columns : PlanM (Checked σ) Grid) = liftM (Grid.ofReels columns) := by
  unfold ofReels
  dsimp only
  rcases hbad : columns.findIdx? _ with _ | bad
  · rfl
  have hragged : ¬∀ c ∈ columns, c.length = (columns.head?.map List.length).getD 0 := fun h => by
    rw [List.findIdx?_eq_none_iff.mpr fun c hc => by simpa using h c hc] at hbad
    cases hbad
  obtain ⟨hlt, hfirst⟩ := List.findIdx?_eq_some_iff_findIdx_eq.mp hbad
  rw [Grid.ofReels]
  dsimp only
  rw [dif_neg hragged, hfirst, List.getElem?_eq_getElem hlt, item_of_lt hlt]
  rfl

/-- The windows of all strips. -/
theorem columns_eq (strips : List Strip) (stops : List Nat) (rows : Nat) :
    (((strips.map Strip.symbols).zip stops).mapM fun x => window x.1 x.2 rows :
        PlanM (Checked σ) (List (List Symbol))) =
      pure (List.zipWith (fun strip stop => strip.window stop rows) strips stops) := by
  rw [List.zip_map_left, List.mapM_map]
  refine (mapM_eq_pure_map fun x _ => window_eq x.1 x.2 rows).trans ?_
  rw [← List.map_uncurry_zip_eq_zipWith]
  rfl

/-! ### Features that draw -/

variable [RandomSource σ]

section Drawn

variable (s : RoundState) (bag : Bag)

/-- Drops wilds on random cells. -/
def randomWilds : PlanM (Checked σ) (Option Change) := do
  let id ← bag.require .symbol "RandomWildId"
  let exclude ← bag.findD .symbols "Exclude" []
  let count ← pickFrom bag .nat .positions "WildCount" "WildCounts" "WildWeights"
  let eligible := s.outcome.grid.positionsWhere fun symbol =>
    symbol != id && !exclude.contains symbol
  if count = 0 ∨ eligible.isEmpty then return none
  let positions := ascending (← sampleExactly (min count eligible.length) eligible)
  return some ⟨← cover s.outcome positions id, Payload.painted positions id⟩

theorem randomWilds_eq :
    (randomWilds s bag : PlanM (Checked σ) (Option Change)) = Paint.randomWilds s bag := by
  unfold randomWilds Paint.randomWilds
  simp only [pickFrom_eq, sampleExactly_eq, cover_eq]
  rfl

/-- Reveals hidden symbols. -/
def mystery : PlanM (Checked σ) (Option Change) := do
  let hidden ← bag.require .symbol "MysteryId"
  let symbols ← bag.require .symbols "Symbols"
  let weights ← bag.find .weights "SymbolWeights"
  let positions := s.outcome.grid.positionsOf hidden
  if positions.isEmpty then return none
  let id ← item symbols (← pick weights symbols.length)
  return some ⟨← cover s.outcome positions id, Payload.painted positions id⟩

theorem mystery_eq :
    (mystery s bag : PlanM (Checked σ) (Option Change)) = Paint.mystery s bag := by
  unfold mystery Paint.mystery
  simp only [pick_eq, bind_map_left, item_val, pure_bind, cover_eq]
  rfl

/-- Covers a pattern. -/
def pattern : PlanM (Checked σ) (Option Change) := do
  let patterns ← bag.require .intLists "Patterns"
  let weights ← bag.find .weights "PatternWeights"
  let id ← bag.require .symbol "PatternTileId"
  let index ← pick weights patterns.length
  let positions ← Paint.patternPositions index (← item patterns index)
  return some ⟨← cover s.outcome positions id, Payload.pattern index positions id⟩

theorem pattern_eq :
    (pattern s bag : PlanM (Checked σ) (Option Change)) = Paint.pattern s bag := by
  unfold pattern Paint.pattern
  simp only [pick_eq, bind_map_left, item_val, pure_bind, cover_eq]
  rfl

/-- Multiplies the multiplier of the round. -/
def multiply : PlanM (Checked σ) (Option Change) := do
  let factor ← pickFrom bag .float .floats "Multiplier" "Multipliers" "MultiplierWeights"
  let total := s.outcome.multiplier * factor
  return some ⟨{ s.outcome with multiplier := total }, Payload.multiplied factor total⟩

theorem multiply_eq :
    (multiply s bag : PlanM (Checked σ) (Option Change)) = Pay.multiply s bag := by
  rw [multiply, pickFrom_eq]
  rfl

/-- Adds a prize. -/
def prize : PlanM (Checked σ) (Option Change) := do
  let multiplier ← pickFrom bag .float .floats "Prize" "Prizes" "PrizeWeights"
  let label ← bag.findD .text "PrizeLabel" "Prize"
  if multiplier ≤ 0.0 then return none
  return some {
    outcome := { s.outcome with wins := s.outcome.wins ++ [⟨label, multiplier, [], []⟩] }
    payload := Payload.prize label multiplier }

theorem prize_eq : (prize s bag : PlanM (Checked σ) (Option Change)) = Pay.prize s bag := by
  rw [prize, pickFrom_eq]
  rfl

/-- Grants free spins. -/
def freespins : PlanM (Checked σ) (Option Change) := do
  let spins ← pickFrom bag .nat .positions "Spins" "SpinCounts" "SpinWeights"
  if spins = 0 then return none
  let total := Pay.addSpins s.outcome.freespins (← Pay.spinCount spins)
  return some {
    outcome := { s.outcome with freespins := total, nextPhase := some .freespin }
    payload := Payload.award spins total }

theorem freespins_eq :
    (freespins s bag : PlanM (Checked σ) (Option Change)) = Pay.freespins s bag := by
  rw [freespins, pickFrom_eq]
  rfl

/-- A stop for each strip, drawn from all its places. -/
def drawStops (strips : List (List Symbol)) : PlanM (Checked σ) (List Nat) :=
  strips.mapM fun strip => below strip.length

theorem drawStops_eq (strips : List Strip) :
    (drawStops (strips.map Strip.symbols) : PlanM (Checked σ) (List Nat)) =
      liftM (Spin.drawStops strips : DrawM (Checked σ) (List Nat)) := by
  have hstop (strip : Strip) : (below strip.symbols.length : PlanM (Checked σ) Nat) =
      liftM (do return (← drawBelow strip.length).val : DrawM (Checked σ) Nat) := by
    change _ = ExceptT.adapt _ (_ >>= _)
    rw [adapt_bind, below, map_eq_pure_bind]
    rfl
  rw [drawStops, List.mapM_map]
  exact (congrArg strips.mapM (funext hstop)).trans (mapM_draws _ strips)

/-- Spins the reels. -/
def reels : PlanM (Checked σ) (Option Change) := do
  let strips ← Strip.allOfInts (← bag.require .intLists "Reels")
  let lists := strips.map Strip.symbols
  let rows ← bag.require .nat "Rows"
  if rows = 0 then throw (invalid "Rows must be positive")
  let stops ← match ← bag.find .positions "ForceStops" with
    | some stops => checkForced lists stops
    | none => drawStops lists
  let columns ← (lists.zip stops).mapM fun x => window x.1 x.2 rows
  let grid ← ofReels columns
  return some {
    outcome := { s.outcome with
      sourceGrid := grid
      grid := grid
      strips := lists
      stops := stops }
    payload := Payload.stops stops }

theorem reels_eq : (reels s bag : PlanM (Checked σ) (Option Change)) = Spin.reels s bag := by
  refine bind_congr fun listed => bind_congr fun strips => bind_congr fun rows => ?_
  dsimp only
  split
  · rfl
  refine bind_congr fun forced => ?_
  rcases forced with _ | stops
  · simp only [drawStops_eq, columns_eq, ofReels_eq, pure_bind]
  · simp only [checkForced_eq, columns_eq, ofReels_eq, pure_bind]

end Drawn

/-! ### Features that call children -/

/-- Carries out a plan that draws and changes the bag too. -/
def remember {τ : Type} (d : Definition)
    (plan : RoundState → Bag → PlanM τ (Option Change × Bag)) : PassM τ Unit := do
  let p ← get
  let (change, bag) ← (plan p.state p.bag : PlanM τ (Option Change × Bag))
  modifyState (·.perform d change)
  modifyBag fun _ => bag

section Children

variable (d : Definition) (children : List (Child (Checked σ)))

/-- Chooses a set of strips and calls the children. -/
def reelset : PassM (Checked σ) Unit := do
  let p ← get
  let sets ← p.bag.require .bags "Reelsets"
  let weights ← (sets.mapM fun set => set.require .nat "Weight" : Except ParamError (List Nat))
  let index ← (pick (some weights) sets.length : PlanM (Checked σ) Nat)
  let chosen ← (item sets index : PlanM (Checked σ) Bag)
  let name ← chosen.require .text "Name"
  let strips ← chosen.require .intLists "Reels"
  modifyBag (·.insert "Reels" (.arr (strips.map fun strip => .arr (strip.map .ofInt))))
  note d ⟨{ p.state.outcome with reelset := some name }, Payload.reelset name index⟩
  fireAll children

/-- Triggers a child drawn by weights if there are any, and answers its index. -/
def fireDrawn (weights : Option (List Nat)) : PassM (Checked σ) Nat := do
  let index ← (pick weights children.length : PlanM (Checked σ) Nat)
  fireAt children index
  return index

/-- Calls one child by weight. -/
def weighted : PassM (Checked σ) Unit := do
  let bag := (← get).bag
  let index ← match ← bag.find .nat "ForceIndex" with
    | some forced => do
      fireAt children forced
      pure forced
    | none => fireDrawn children (← bag.find .weights "Weights")
  note d ⟨(← get).state.outcome, Payload.choice index⟩

/-- Calls the children several times. -/
def repeated : PassM (Checked σ) Unit := do
  let p ← get
  let count ← match ← p.bag.find .positions "Counts" with
    | some counts => do
      let weights ← p.bag.find .weights "CountWeights"
      let index ← (pick weights counts.length : PlanM (Checked σ) Nat)
      let count ← (item counts index : PlanM (Checked σ) Nat)
      note d ⟨p.state.outcome, Payload.repeats count⟩
      pure count
    | none => p.bag.require .nat "Count"
  Branch.times children count

omit [RandomSource σ]

/-- Calls the children for a cell that was found, with its reel in a bag of their own. -/
def atCell (position : Nat) : PassM (Checked σ) Unit := do
  let p ← get
  let (reel, _) ← (cell p.state.outcome.grid position : PlanM (Checked σ) (Nat × Nat))
  let positions ← p.state.outcome.grid.reelPositions reel
  let _ ← withBag ((p.bag.insert Key.position (.ofNat position)).insert Key.positions
    (.ofNats positions)) (fireAll children)

/-- Calls the children for each symbol. -/
def byCell : PassM (Checked σ) Unit := do
  let p ← get
  let sought ← Trigger.symbols p.bag
  let positions := p.state.outcome.grid.positionsWhere sought.contains
  if positions.isEmpty then return
  note d ⟨p.state.outcome, Payload.triggered positions⟩
  positions.forM (atCell children)

/-- Computes a sequence of steps. -/
def play : PassM (Checked σ) Unit := do
  let p ← get
  if (Reveal.pending p.state).isSome then return
  let steps ← p.bag.findD .nat "Steps" 1
  modifyState fun s => { s with replay := .start, chain := [] }
  fireAll children
  let first := (← get).state
  if first.aborted then return
  let further ← (difference (max steps 1) 1 : PlanM (Checked σ) Nat)
  let links ← Reveal.followOn children p.bag further first
  modifyState (·.setChain links)

theorem atCell_eq (position : Nat) :
    atCell children position = Trigger.atCell children position := by
  refine bind_congr fun p => ?_
  rw [cell_eq, liftM_plan_lift]

theorem byCell_eq : byCell d children = Trigger.byCell d children := by
  have hcell : atCell children = Trigger.atCell children := funext (atCell_eq children)
  rw [byCell, hcell]
  rfl

theorem play_eq : play children = Reveal.play children := by
  have hfurther (steps : Nat) : (liftM (difference (max steps 1) 1 : PlanM (Checked σ) Nat) :
      PassM (Checked σ) Nat) = pure (steps - 1) := by
    rw [difference_of_le (Nat.le_max_right _ _), ← Nat.sub_max_sub_right, Nat.max_zero]
    rfl
  unfold play Reveal.play
  simp only [hfurther, pure_bind]

/-- A plan without draws that changes the bag too. -/
theorem remember_lift {plan : RoundState → Bag → PlanM σ (Option Change × Bag)}
    {plan' : RoundState → Bag → Except FeatureError (Option Change × Bag)}
    (h : ∀ s bag, plan s bag = liftM (plan' s bag)) :
    remember d plan = SlotOutcome.remember d plan' := by
  refine bind_congr fun p => ?_
  rw [h, liftM_plan_lift]

variable [RandomSource σ]

theorem fireDrawn_eq (weights : Option (List Nat)) :
    fireDrawn children weights = SlotOutcome.fireDrawn children weights := by
  rw [fireDrawn, pick_eq, liftM_plan_map_bind]
  rfl

theorem weighted_eq : weighted d children = Branch.weighted d children := by
  refine bind_congr fun p => bind_congr fun forced => ?_
  rcases forced with _ | forced
  · refine bind_congr fun weights => ?_
    rw [fireDrawn_eq]
  · rfl

theorem repeated_eq : repeated d children = Branch.repeated d children := by
  unfold repeated Branch.repeated
  simp only [pick_eq, liftM_plan_map_bind, item_val]
  rfl

theorem reelset_eq : reelset d children = Spin.reelset d children := by
  unfold reelset Spin.reelset
  simp only [pick_eq, liftM_plan_map_bind, item_val]
  rfl

end Children

end Check

variable {σ : Type} [RandomSource σ]

/-! ### All features -/

/-- The behaviour of a type of feature with its steps checked. -/
def Effect.check (d : Definition) (children : List (Child (Checked σ))) :
    Effect → PassM (Checked σ) Unit
  | weightedActivator => Check.weighted d children
  | repeatActivator => Check.repeated d children
  | reelStops => carryOut d Check.reels
  | weightedReelset => Check.reelset d children
  | tileExpansion => carryOut d Check.tile
  | expandingWild => carryOut d Check.expandAround
  | expandingSymbols => carryOut d Check.expandReels
  | replaceTile => carryOut d Check.replace
  | randomWilds => carryOut d Check.randomWilds
  | mysterySymbol => carryOut d Check.mystery
  | applyPattern => carryOut d Check.pattern
  | cascade => carryOut d fun s _ => Check.cascade s
  | symbolTrigger => Check.byCell d children
  | awardFreespins => carryOut d Check.freespins
  | multiplier => carryOut d Check.multiply
  | instantPrize => carryOut d Check.prize
  | scatterPay => carryOut d Check.scatter
  | stickySymbols => Check.remember d Check.sticky
  | play => Check.play children
  | e => e.run d children

/-- A feature with its steps checked is the feature. -/
theorem Effect.check_eq (d : Definition) (children : List (Child (Checked σ))) (e : Effect) :
    e.check d children = e.run d children := by
  cases e
  case weightedActivator => exact Check.weighted_eq d children
  case repeatActivator => exact Check.repeated_eq d children
  case reelStops => exact congrArg (carryOut d) (funext₂ Check.reels_eq)
  case weightedReelset => exact Check.reelset_eq d children
  case tileExpansion => exact congrArg (carryOut d) (funext₂ Check.tile_eq)
  case expandingWild => exact congrArg (carryOut d) (funext₂ Check.expandAround_eq)
  case expandingSymbols => exact congrArg (carryOut d) (funext₂ Check.expandReels_eq)
  case replaceTile => exact congrArg (carryOut d) (funext₂ Check.replace_eq)
  case randomWilds => exact congrArg (carryOut d) (funext₂ Check.randomWilds_eq)
  case mysterySymbol => exact congrArg (carryOut d) (funext₂ Check.mystery_eq)
  case applyPattern => exact congrArg (carryOut d) (funext₂ Check.pattern_eq)
  case cascade => exact congrArg (carryOut d) (funext₂ fun s _ => Check.cascade_eq s)
  case symbolTrigger => exact Check.byCell_eq d children
  case awardFreespins => exact congrArg (carryOut d) (funext₂ Check.freespins_eq)
  case multiplier => exact congrArg (carryOut d) (funext₂ Check.multiply_eq)
  case instantPrize => exact congrArg (carryOut d) (funext₂ Check.prize_eq)
  case scatterPay => exact congrArg (carryOut d) (funext₂ Check.scatter_eq)
  case stickySymbols => exact Check.remember_lift d Check.sticky_eq
  case play => exact Check.play_eq children
  all_goals rfl

namespace Definition

mutual

/-- A node at work with its steps and those of the nodes below it checked. -/
def check (registry : Registry) (above : List Definition) :
    Definition → PassM (Checked σ) Unit
  | ⟨id, tag, params, features⟩ =>
    let d : Definition := ⟨id, tag, params, features⟩
    let children := checkAll registry (above ++ [d]) features
    d.enter registry above fun e => e.check d children

/-- The children of a node, each with its steps checked. -/
def checkAll (registry : Registry) (above : List Definition) :
    List Definition → List (Child (Checked σ))
  | [] => []
  | d :: rest => ⟨d, check registry above d⟩ :: checkAll registry above rest

end

theorem checkAll_eq_map (registry : Registry) (above : List Definition) :
    (ds : List Definition) → (checkAll registry above ds : List (Child (Checked σ))) =
      ds.map fun c => ⟨c, c.check registry above⟩
  | [] => by rw [checkAll, List.map_nil]
  | d :: rest => by rw [checkAll, checkAll_eq_map registry above rest, List.map_cons]

/-- A tree with its steps checked is the tree. -/
theorem check_eq (registry : Registry) (d : Definition) (above : List Definition) :
    (d.check registry above : PassM (Checked σ) Unit) = d.trigger registry above := by
  induction d using Definition.induction generalizing above with
  | node d ih =>
    have hchildren : (checkAll registry (above ++ [d]) d.features : List (Child (Checked σ))) =
        d.features.map fun c => ⟨c, c.trigger registry (above ++ [d])⟩ := by
      rw [checkAll_eq_map]
      exact List.map_congr_left fun c hc => by rw [ih c hc]
    have hwork : (d.check registry above : PassM (Checked σ) Unit) = d.enter registry above
        fun e => e.check d (checkAll registry (above ++ [d]) d.features) := by
      obtain ⟨id, tag, params, features⟩ := d
      rw [check]
    rw [hwork, hchildren, trigger_eq]
    simp only [Effect.check_eq]

end Definition

end SlotOutcome
