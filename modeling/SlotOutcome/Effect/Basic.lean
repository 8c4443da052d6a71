import SlotOutcome.Ledger.Payload

/-!
# The types of features

Every type of feature that this library knows, its tag, and the shape of what it notes in the
ledger. What the types do is said in the other modules of this folder and put together in
`SlotOutcome.Effect.Run`.
-/

namespace SlotOutcome

/-- A type of feature. -/
inductive Effect where
  /-- Calls every child. -/
  | activator
  /-- Calls the children listed. -/
  | filterActivator
  /-- Calls children by name. -/
  | orderedActivator
  /-- Calls one child by weight. -/
  | weightedActivator
  /-- Calls the children if a key is in the bag, or if it is not. -/
  | conditionalActivator
  /-- Calls the children by chance. -/
  | probabilityActivator
  /-- Calls the children in some phases. -/
  | phaseActivator
  /-- Calls the children several times. -/
  | repeatActivator
  /-- Writes values into the bag. -/
  | setParams
  /-- Spins the reels. -/
  | reelStops
  /-- Chooses a set of strips by weight. -/
  | weightedReelset
  /-- Covers a block. -/
  | tileExpansion
  /-- Covers cells because of a wild. -/
  | expandingWild
  /-- Fills the reels that show a symbol. -/
  | expandingSymbols
  /-- Turns one symbol into another. -/
  | replaceTile
  /-- Drops wilds on random cells. -/
  | randomWilds
  /-- Reveals hidden symbols. -/
  | mysterySymbol
  /-- Covers a pattern. -/
  | applyPattern
  /-- Removes winning cells and refills the reels. -/
  | cascade
  /-- Calls the children for enough symbols. -/
  | countTrigger
  /-- Calls the children for each symbol. -/
  | symbolTrigger
  /-- Grants free spins. -/
  | awardFreespins
  /-- Adds the wins that the evaluator finds. -/
  | evaluateWins
  /-- Multiplies the multiplier of the round. -/
  | multiplier
  /-- Multiplies wins by the multiplier of the round. -/
  | applyMultiplier
  /-- Adds a prize. -/
  | instantPrize
  /-- Adds a scatter win. -/
  | scatterPay
  /-- Moves a counter. -/
  | counter
  /-- Holds symbols in place. -/
  | stickySymbols
  /-- Writes the memory of the stakes to the ledger. -/
  | statefulMap
  /-- Writes the memory of the round to the ledger. -/
  | statelessMap
  /-- Computes a sequence of steps. -/
  | play
  /-- Reveals a step. -/
  | replay
  /-- Goes on revealing, or stops. -/
  | replayContinue
  /-- Ends a sequence early. -/
  | replayAbort
deriving DecidableEq, Repr

namespace Effect

/-- Every type of feature. -/
def all : List Effect :=
  [activator, filterActivator, orderedActivator, weightedActivator, conditionalActivator,
    probabilityActivator, phaseActivator, repeatActivator, setParams, reelStops, weightedReelset,
    tileExpansion, expandingWild, expandingSymbols, replaceTile, randomWilds, mysterySymbol,
    applyPattern, cascade, countTrigger, symbolTrigger, awardFreespins, evaluateWins, multiplier,
    applyMultiplier, instantPrize, scatterPay, counter, stickySymbols, statefulMap, statelessMap,
    play, replay, replayContinue, replayAbort]

/-- The tag that definitions name a type of feature by. -/
def tag : Effect → String
  | activator => "Activator"
  | filterActivator => "FilterActivator"
  | orderedActivator => "OrderedActivator"
  | weightedActivator => "WeightedActivator"
  | conditionalActivator => "ConditionalActivator"
  | probabilityActivator => "ProbabilityActivator"
  | phaseActivator => "PhaseActivator"
  | repeatActivator => "RepeatActivator"
  | setParams => "SetParams"
  | reelStops => "ReelStops"
  | weightedReelset => "WeightedReelset"
  | tileExpansion => "TileExpansion"
  | expandingWild => "ExpandingWild"
  | expandingSymbols => "ExpandingSymbols"
  | replaceTile => "ReplaceTile"
  | randomWilds => "RandomWilds"
  | mysterySymbol => "MysterySymbol"
  | applyPattern => "ApplyPattern"
  | cascade => "Cascade"
  | countTrigger => "CountTrigger"
  | symbolTrigger => "SymbolTrigger"
  | awardFreespins => "AwardFreespins"
  | evaluateWins => "EvaluateWins"
  | multiplier => "Multiplier"
  | applyMultiplier => "ApplyMultiplier"
  | instantPrize => "InstantPrize"
  | scatterPay => "ScatterPay"
  | counter => "Counter"
  | stickySymbols => "StickySymbols"
  | statefulMap => "StatefulMap"
  | statelessMap => "StatelessMap"
  | play => "Play"
  | replay => "Replay"
  | replayContinue => "ReplayContinue"
  | replayAbort => "ReplayAbort"

/-- The type of feature of a tag. -/
def ofTag? (tag : String) : Option Effect := all.find? (·.tag == tag)

/-- What features of a type note in the ledger. -/
def shape : Effect → Shape
  | weightedActivator => .choice
  | repeatActivator => .repeats
  | reelStops => .stops
  | weightedReelset => .reelset
  | tileExpansion => .tile
  | expandingWild => .expansion
  | expandingSymbols => .expandedReels
  | replaceTile => .painted
  | randomWilds => .painted
  | mysterySymbol => .painted
  | applyPattern => .pattern
  | cascade => .cascade
  | countTrigger => .triggered
  | symbolTrigger => .triggered
  | awardFreespins => .award
  | evaluateWins => .evaluated
  | multiplier => .multiplied
  | applyMultiplier => .applied
  | instantPrize => .prize
  | scatterPay => .scatter
  | counter => .count
  | stickySymbols => .sticky
  | statefulMap => .memory
  | statelessMap => .memory
  | activator => .nothing
  | filterActivator => .nothing
  | orderedActivator => .nothing
  | conditionalActivator => .nothing
  | probabilityActivator => .nothing
  | phaseActivator => .nothing
  | setParams => .nothing
  | play => .nothing
  | replay => .nothing
  | replayContinue => .nothing
  | replayAbort => .nothing

end Effect

end SlotOutcome
