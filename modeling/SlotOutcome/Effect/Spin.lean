import SlotOutcome.Ledger.Payload
import SlotOutcome.Round.Pass
import SlotOutcome.Strip

/-!
# Spinning the reels

Spinning chooses a stop on the strip of each reel and shows the window below it. An operator may
force the stops. The strips may be given, or chosen by weight from several sets of strips.
-/

namespace SlotOutcome

namespace Spin

variable {σ : Type} [RandomSource σ]

/-- Stops that an operator forces: one for each strip, and on it. -/
def checkForced (strips : List Strip) (stops : List Nat) : Except FeatureError (List Nat) := do
  if stops.length ≠ strips.length then
    throw (invalid (toString stops.length ++ " forced stops for " ++ toString strips.length ++
      " reels"))
  match (stops.zip strips).zipIdx.find? fun ((stop, strip), _) => strip.length ≤ stop with
  | some ((stop, _), reel) =>
    throw (invalid ("forced stop " ++ toString stop ++ " past reel " ++ toString reel))
  | none => pure stops

/-- A stop for each strip, drawn from all its places. -/
def drawStops (strips : List Strip) : DrawM σ (List Nat) :=
  strips.mapM fun strip => do return (← drawBelow strip.length).val

/-- Spins the strips in `Reels` and shows `Rows` symbols of each, at the stops in `ForceStops` if
these are given. -/
def reels (s : RoundState) (bag : Bag) : PlanM σ (Option Change) := do
  let strips ← Strip.allOfInts (← bag.require .intLists "Reels")
  let rows ← bag.require .nat "Rows"
  if rows = 0 then throw (invalid "Rows must be positive")
  let stops ← match ← bag.find .positions "ForceStops" with
    | some stops => liftM (checkForced strips stops)
    | none => liftM (drawStops strips : DrawM σ (List Nat))
  let grid ← Grid.ofReels (List.zipWith (fun strip stop => strip.window stop rows) strips stops)
  return some {
    outcome := { s.outcome with
      sourceGrid := grid
      grid := grid
      strips := strips.map Strip.symbols
      stops := stops }
    payload := Payload.stops stops }

/-- Chooses one of `Reelsets` by weight, hands its strips on under `Reels`, and calls the
children. -/
def reelset (d : Definition) (children : List (Child σ)) : PassM σ Unit := do
  let p ← get
  let sets ← p.bag.require .bags "Reelsets"
  let weights ← (sets.mapM fun set => set.require .nat "Weight" : Except ParamError (List Nat))
  let index ← (pick (some weights) sets.length : PlanM σ (Fin sets.length))
  let name ← sets[index].require .text "Name"
  let strips ← sets[index].require .intLists "Reels"
  modifyBag (·.insert "Reels" (.arr (strips.map fun strip => .arr (strip.map .ofInt))))
  note d ⟨{ p.state.outcome with reelset := some name }, Payload.reelset name index⟩
  fireAll children

end Spin

end SlotOutcome
