import SlotOutcome.Ledger.Payload
import SlotOutcome.Round.Plan

/-!
# Painting the grid

Features that write one symbol to several cells. The cells are chosen first and written all at
once, and the payload lists them.
-/

namespace SlotOutcome

namespace Paint

variable {σ : Type} [RandomSource σ]

/-- The outcome with a symbol at every listed position of the working grid. -/
def cover (o : Outcome) (positions : List Nat) (symbol : Symbol) : Except DataError Outcome := do
  let grid ← o.grid.setAll positions symbol
  pure { o with grid := grid }

/-- The positions of the cells of a block, reel by reel. -/
def block (g : Grid) (x y w h : Nat) : Except DataError (List Nat) := do
  let reels ← (List.range' x w).mapM fun reel => (List.range' y h).mapM fun row =>
    g.position reel row
  pure reels.flatten

/-- How many positions a list can hold. Each takes eight bytes, and a list takes fewer than
`2 ^ 63`. -/
def capacity : Nat := 0x7FFFFFFFFFFFFFFF / 8

/-- Room for a list of positions. -/
def reserve (len : Nat) : Except FeatureError Unit :=
  if len ≤ capacity then pure () else throw .capacity

/-- Covers the block of `W` reels and `H` rows at reel `X` and row `Y` with `TileId`. There has to
be room for its positions before they are looked at. -/
def tile (s : RoundState) (bag : Bag) : Except FeatureError (Option Change) := do
  let x ← bag.require .nat "X"
  let y ← bag.require .nat "Y"
  let w ← bag.require .nat "W"
  let h ← bag.require .nat "H"
  let id ← bag.require .symbol "TileId"
  if w = 0 ∨ h = 0 then
    throw (invalid ("empty tile " ++ toString w ++ "x" ++ toString h))
  reserve (w * h)
  let positions ← block s.outcome.grid x y w h
  return some ⟨← cover s.outcome positions id, Payload.tile x y w h id⟩

/-- Covers `Positions` with `WildId`, because of the cell at `Position`. -/
def expandAround (s : RoundState) (bag : Bag) : Except FeatureError (Option Change) := do
  let position ← bag.require .nat Key.position
  let positions ← bag.require .positions Key.positions
  let id ← bag.require .symbol "WildId"
  let _ ← s.outcome.grid.cell position
  return some ⟨← cover s.outcome positions id, Payload.expansion position positions id⟩

/-- Whether a column shows a symbol, but not only that. -/
def partlyShows (symbol : Symbol) (column : List Symbol) : Bool :=
  column.contains symbol && column.any (· != symbol)

/-- Fills every reel that shows `ExpandId` with it. -/
def expandReels (s : RoundState) (bag : Bag) : Except FeatureError (Option Change) := do
  let id ← bag.require .symbol "ExpandId"
  let g := s.outcome.grid
  let columns ← ((List.range g.reels).mapM g.reel : Except DataError _)
  let reels := (columns.zipIdx.filter fun column => partlyShows id column.1).map Prod.snd
  if reels.isEmpty then return none
  let positions ← (reels.mapM g.reelPositions : Except DataError _)
  return some ⟨← cover s.outcome positions.flatten id, Payload.expandedReels reels id⟩

/-- Turns every `ReplaceFrom` into `ReplaceTo`. -/
def replace (s : RoundState) (bag : Bag) : Except FeatureError (Option Change) := do
  let source ← bag.require .symbol "ReplaceFrom"
  let target ← bag.require .symbol "ReplaceTo"
  let positions := s.outcome.grid.positionsOf source
  if positions.isEmpty ∨ source = target then return none
  return some ⟨← cover s.outcome positions target, Payload.painted positions target⟩

/-- Drops `WildCount` symbols `RandomWildId`, or as many as a number drawn from `WildCounts` says,
on different cells that show neither it nor a symbol in `Exclude`. -/
def randomWilds (s : RoundState) (bag : Bag) : PlanM σ (Option Change) := do
  let id ← bag.require .symbol "RandomWildId"
  let exclude ← bag.findD .symbols "Exclude" []
  let count ← pickFrom bag .nat .positions "WildCount" "WildCounts" "WildWeights"
  let eligible := s.outcome.grid.positionsWhere fun symbol =>
    symbol != id && !exclude.contains symbol
  if count = 0 ∨ eligible.isEmpty then return none
  let positions := ascending (← (sample eligible count : DrawM σ (List Nat)))
  return some ⟨← cover s.outcome positions id, Payload.painted positions id⟩

/-- Reveals every `MysteryId` as the same symbol, drawn from `Symbols`. -/
def mystery (s : RoundState) (bag : Bag) : PlanM σ (Option Change) := do
  let hidden ← bag.require .symbol "MysteryId"
  let symbols ← bag.require .symbols "Symbols"
  let weights ← bag.find .weights "SymbolWeights"
  let positions := s.outcome.grid.positionsOf hidden
  if positions.isEmpty then return none
  let id := symbols[← (pick weights symbols.length : PlanM σ (Fin symbols.length))]
  return some ⟨← cover s.outcome positions id, Payload.painted positions id⟩

/-- The positions of a pattern. -/
def patternPositions (index : Nat) (pattern : List Int) : Except DataError (List Nat) :=
  pattern.mapM fun position =>
    if position < 0 then
      .error (.malformed ("pattern " ++ toString index ++ " has negative position " ++
        toString position))
    else .ok position.toNat

/-- Covers one of `Patterns` with `PatternTileId`. -/
def pattern (s : RoundState) (bag : Bag) : PlanM σ (Option Change) := do
  let patterns ← bag.require .intLists "Patterns"
  let weights ← bag.find .weights "PatternWeights"
  let id ← bag.require .symbol "PatternTileId"
  let index ← (pick weights patterns.length : PlanM σ (Fin patterns.length))
  let positions ← patternPositions index patterns[index]
  return some ⟨← cover s.outcome positions id, Payload.pattern index positions id⟩

end Paint

end SlotOutcome
