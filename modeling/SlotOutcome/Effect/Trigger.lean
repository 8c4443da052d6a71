import SlotOutcome.Ledger.Payload
import SlotOutcome.Round.Pass

/-!
# Triggers

Features that look for symbols on the grid and call their children when they find them. The
children learn from the bag where the symbols are.
-/

namespace SlotOutcome

namespace Trigger

variable {σ : Type}

/-- The symbols that a trigger looks for: `TriggerIds`, or `TriggerId` alone. -/
def symbols (bag : Bag) : Except ParamError (List Symbol) := do
  match ← bag.find .symbols "TriggerIds" with
  | some ids => pure ids
  | none => return [← bag.require .symbol "TriggerId"]

/-- Calls the children once if there are at least `MinCount` symbols. -/
def byCount (d : Definition) (children : List (Child σ)) : PassM σ Unit := do
  let p ← get
  let sought ← symbols p.bag
  let least ← p.bag.require .nat "MinCount"
  let positions := p.state.outcome.grid.positionsWhere sought.contains
  if positions.length < least ∨ positions.isEmpty then return
  modifyBag fun bag =>
    (bag.insert Key.positions (.ofNats positions)).insert "TriggerCount" (.ofNat positions.length)
  note d ⟨p.state.outcome, Payload.triggered positions⟩
  fireAll children

/-- Calls the children for a cell that was found, with its reel in a bag of their own. -/
def atCell (children : List (Child σ)) (position : Nat) : PassM σ Unit := do
  let p ← get
  let (reel, _) ← p.state.outcome.grid.cell position
  let positions ← p.state.outcome.grid.reelPositions reel
  let _ ← withBag ((p.bag.insert Key.position (.ofNat position)).insert Key.positions
    (.ofNats positions)) (fireAll children)

/-- Calls the children once for each symbol. -/
def byCell (d : Definition) (children : List (Child σ)) : PassM σ Unit := do
  let p ← get
  let sought ← symbols p.bag
  let positions := p.state.outcome.grid.positionsWhere sought.contains
  if positions.isEmpty then return
  note d ⟨p.state.outcome, Payload.triggered positions⟩
  positions.forM (atCell children)

end Trigger

end SlotOutcome
