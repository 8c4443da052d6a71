import SlotOutcome.Ledger.Payload
import SlotOutcome.Round.Memory

/-!
# Remembering

Features that keep something from round to round or from step to step. Counters and sticky
symbols read the memory of a channel, change it and leave it pending in the bag; the map features
write pending memory to the ledger.
-/

namespace SlotOutcome

namespace Remember

/-- The channel named under a key. -/
def channel (bag : Bag) (key : String) (default : Channel) : Except FeatureError Channel := do
  match ← bag.find .text key with
  | none => pure default
  | some name =>
    match Channel.parse? name with
    | some channel => pure channel
    | none => throw (invalid ("unknown memory channel `" ++ name ++ "`"))

/-- The sum of two integers, held within 64 bits. -/
def addWithin (a b : Int) : Int :=
  max (-0x8000000000000000) (min 0x7fffffffffffffff (a + b))

theorem addWithin_bounds (a b : Int) :
    -0x8000000000000000 ≤ addWithin a b ∧ addWithin a b < 0x8000000000000000 := by
  unfold addWithin
  omega

/-- Adds the number of `CountId` cells, or `Increment`, to the counter `CounterKey`. When the
counter reaches `Target`, the key in `ReachedFlag` is set and a `Reset` counter starts over. -/
def counter (s : RoundState) (bag : Bag) : Except FeatureError (Option Change × Bag) := do
  let channel ← channel bag "CounterMemory" .stateful
  let key ← bag.require .text "CounterKey"
  let increment ← match ← bag.find .symbol "CountId" with
    | some symbol => pure (s.outcome.grid.count symbol : Int)
    | none => liftM (bag.findD .int "Increment" 1)
  let map ← channel.read s bag
  let value := addWithin (← map.findD .int key 0) increment
  let reached := (← bag.find .int "Target").any (· ≤ value)
  let reset ← if reached then liftM (bag.findD .bool "Reset" false) else pure false
  let left := channel.stash bag (map.insert key (.ofInt (if reset then 0 else value)))
  let flag ← if reached then liftM (left.find .text "ReachedFlag") else pure none
  let left := match flag with
    | some flag => left.insert flag (.bool true)
    | none => left
  if increment = 0 ∧ !reached then return (none, left)
  return (some ⟨s.outcome, Payload.count key value reached⟩, left)

/-- Restores the remembered `StickyId` cells, then remembers every such cell under `StickyKey`. -/
def sticky (s : RoundState) (bag : Bag) : Except FeatureError (Option Change × Bag) := do
  let id ← bag.require .symbol "StickyId"
  let channel ← channel bag "StickyMemory" .stateless
  let key ← bag.findD .text "StickyKey" "Sticky"
  let map ← channel.read s bag
  let applied ← map.findD .positions key []
  let grid ← s.outcome.grid.setAll applied id
  let positions := grid.positionsOf id
  let left := channel.stash bag (map.insert key (.ofNats positions))
  if applied.isEmpty ∧ positions.isEmpty then return (none, left)
  return (some ⟨{ s.outcome with grid := grid }, Payload.sticky applied positions id⟩, left)

/-- Writes the memory of every stake to the ledger, with that of the current stake as it is now. -/
def statefulMap (s : RoundState) (bag : Bag) : Except FeatureError (Option Change) := do
  let namespaces ← statefulNamespaces s
  let current ← match ← Channel.stateful.pending bag with
    | some map => pure map
    | none => atStake s namespaces
  if current.isEmpty ∧ namespaces.isEmpty then return none
  return some ⟨s.outcome, .obj (namespaces.insert s.stakeKey (.obj current))⟩

/-- Writes the memory of the round to the ledger. -/
def statelessMap (s : RoundState) (bag : Bag) : Except FeatureError (Option Change) := do
  let current ← SlotOutcome.statelessMap s bag
  if current.isEmpty then return none
  return some ⟨s.outcome, .obj current⟩

/-- Copies `Values` into the bag. -/
def setParams (bag : Bag) : Except FeatureError Bag := do
  return bag.extend (← bag.require .bag "Values")

end Remember

end SlotOutcome
