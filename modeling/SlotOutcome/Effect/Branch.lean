import SlotOutcome.Ledger.Payload
import SlotOutcome.Round.Pass

/-!
# Branching

Features that decide which of their children are called, and how often.
-/

namespace SlotOutcome

namespace Branch

variable {σ : Type} [RandomSource σ]

/-- Calls the children in `Indices`, in their own order. -/
def filtered (children : List (Child σ)) : PassM σ Unit := do
  let indices ← (← get).bag.require .positions "Indices"
  fireWhere children fun index _ _ _ => indices.contains index

/-- Calls children by their `Names` in the order of `Order`. -/
def ordered (children : List (Child σ)) : PassM σ Unit := do
  let bag := (← get).bag
  let names ← bag.require .texts "Names"
  let order ← bag.require .texts "Order"
  if names.length ≠ children.length then
    throw (invalid (toString names.length ++ " names for " ++ toString children.length ++
      " children"))
  fireNamed children order names

/-- Calls one child, drawn by `Weights` if there are any. An operator may force it. -/
def weighted (d : Definition) (children : List (Child σ)) : PassM σ Unit := do
  let bag := (← get).bag
  let index ← match ← bag.find .nat "ForceIndex" with
    | some forced => do
      fireAt children forced
      pure forced
    | none => fireDrawn children (← bag.find .weights "Weights")
  note d ⟨(← get).state.outcome, Payload.choice index⟩

/-- Calls the children if the key in `ConditionFlag` is in the bag, or, if `ConditionPresent` is
false, if it is not. -/
def conditional (children : List (Child σ)) : PassM σ Unit := do
  let bag := (← get).bag
  let flag ← bag.require .text "ConditionFlag"
  let present ← bag.findD .bool "ConditionPresent" true
  let _ ← fireOnFlag children flag present

/-- Calls the children with `Probability` chances in ten thousand. -/
def byChance (children : List (Child σ)) : PassM σ Unit := do
  let probability ← (← get).bag.require .int "Probability"
  let _ ← fireByChance children probability

/-- The phase of a name in a configuration. -/
def phaseNamed (name : String) : Except FeatureError Phase :=
  match Phase.parse? name with
  | some phase => pure phase
  | none => throw (invalid ("unknown phase `" ++ name ++ "`"))

/-- Calls the children in the `Phases` listed. -/
def inPhases (children : List (Child σ)) : PassM σ Unit := do
  let p ← get
  let names ← p.bag.require .texts "Phases"
  let phases ← (names.mapM phaseNamed : Except FeatureError (List Phase))
  if phases.contains p.state.outcome.phase then fireAll children

/-- Calls the children so many times. -/
def times (children : List (Child σ)) : Nat → PassM σ Unit
  | 0 => pure ()
  | count + 1 => do
    fireAll children
    times children count

/-- Calls the children `Count` times, or as often as a number drawn from `Counts` says. -/
def repeated (d : Definition) (children : List (Child σ)) : PassM σ Unit := do
  let p ← get
  let count ← match ← p.bag.find .positions "Counts" with
    | some counts => do
      let weights ← p.bag.find .weights "CountWeights"
      let index ← (pick weights counts.length : PlanM σ (Fin counts.length))
      note d ⟨p.state.outcome, Payload.repeats (counts.get index)⟩
      pure (counts.get index)
    | none => p.bag.require .nat "Count"
  times children count

end Branch

end SlotOutcome
