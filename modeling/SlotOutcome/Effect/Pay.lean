import SlotOutcome.Ledger.Payload
import SlotOutcome.Round.Plan

/-!
# Paying

Features that add wins, change what wins pay, or grant free spins.
-/

namespace SlotOutcome

namespace Pay

variable {σ : Type} [RandomSource σ]

/-- Adds the wins that the evaluator finds on the working grid, under the paytable `Paytable` or
else under that of the state. -/
def evaluate (s : RoundState) (bag : Bag) : Except FeatureError (Option Change) := do
  match s.evaluator with
  | none => throw (.logic "no win evaluator on the state")
  | some evaluator =>
    let paytable := (← bag.find .text "Paytable") <|> s.paytable
    let wins := evaluator s.outcome.grid paytable
    if wins.isEmpty then return none
    return some {
      outcome := { s.outcome with wins := s.outcome.wins ++ wins }
      payload := Payload.evaluated wins.length (winSum wins) }

/-- Multiplies the multiplier of the round by `Multiplier`, or by one of `Multipliers`. -/
def multiply (s : RoundState) (bag : Bag) : PlanM σ (Option Change) := do
  let factor ← pickFrom bag .float .floats "Multiplier" "Multipliers" "MultiplierWeights"
  let total := s.outcome.multiplier * factor
  return some ⟨{ s.outcome with multiplier := total }, Payload.multiplied factor total⟩

/-- Whether a win touches one of some cells; without cells it does. -/
def touches (cells : Option (List Nat)) (win : Win) : Bool :=
  cells.all fun cells => win.positions.any cells.contains

/-- The win multiplied by a factor. -/
def scale (factor : Float) (win : Win) : Win :=
  { win with multiplier := win.multiplier * factor }

/-- Multiplies the wins by the multiplier of the round; with `MultiplierWildId`, only those that
touch such a symbol. -/
def applyMultiplier (s : RoundState) (bag : Bag) : Except FeatureError (Option Change) := do
  let o := s.outcome
  if o.multiplier == 1.0 || o.wins.isEmpty then return none
  let wilds := (← bag.find .symbol "MultiplierWildId").map o.grid.positionsOf
  let affected := o.wins.countP (touches wilds)
  if affected = 0 then return none
  let wins := o.wins.map fun win => if touches wilds win then scale o.multiplier win else win
  return some ⟨{ o with wins := wins }, Payload.applied o.multiplier affected⟩

/-- Adds a win of `Prize`, or of one of `Prizes`, labelled `PrizeLabel`. -/
def prize (s : RoundState) (bag : Bag) : PlanM σ (Option Change) := do
  let multiplier ← pickFrom bag .float .floats "Prize" "Prizes" "PrizeWeights"
  let label ← bag.findD .text "PrizeLabel" "Prize"
  if multiplier ≤ 0.0 then return none
  return some {
    outcome := { s.outcome with wins := s.outcome.wins ++ [⟨label, multiplier, [], []⟩] }
    payload := Payload.prize label multiplier }

/-- Adds a win for so many `ScatterId` symbols anywhere. The first of `Pays` is for `PayFrom` of
them, and the last one is also for any greater number. -/
def scatter (s : RoundState) (bag : Bag) : Except FeatureError (Option Change) := do
  let symbol ← bag.require .symbol "ScatterId"
  let pays ← bag.require .floats "Pays"
  let least ← bag.require .nat "PayFrom"
  let positions := s.outcome.grid.positionsOf symbol
  let count := positions.length
  if count < least then return none
  match pays[min (count - least) (pays.length - 1)]? with
  | none => return none
  | some multiplier =>
    if multiplier ≤ 0.0 then return none
    return some {
      outcome := { s.outcome with
        wins := s.outcome.wins ++ [⟨"Scatter", multiplier, [symbol], positions⟩] }
      payload := Payload.scatter count multiplier }

/-- A count of free spins as a counter. -/
def spinCount (spins : Nat) : Except FeatureError UInt32 :=
  if spins < UInt32.size then pure (UInt32.ofNat spins)
  else throw (invalid (toString spins ++ " free spins do not fit a counter"))

/-- The sum of two counters, or the greatest counter if that is less. -/
def addSpins (a b : UInt32) : UInt32 := UInt32.ofNat (min (a.toNat + b.toNat) (UInt32.size - 1))

/-- Grants `Spins` free spins, or as many as a number drawn from `SpinCounts` says. -/
def freespins (s : RoundState) (bag : Bag) : PlanM σ (Option Change) := do
  let spins ← pickFrom bag .nat .positions "Spins" "SpinCounts" "SpinWeights"
  if spins = 0 then return none
  let total := addSpins s.outcome.freespins (← spinCount spins)
  return some {
    outcome := { s.outcome with freespins := total, nextPhase := some .freespin }
    payload := Payload.award spins total }

end Pay

end SlotOutcome
