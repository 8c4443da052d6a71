import SlotOutcome.Random.Choice
import SlotOutcome.Round.State

/-!
# Plans

A feature that calls no other feature reads the state and its bag, draws, and either fails or
says what is to change. It does not change anything itself. So when it fails, only the random
source has moved, and when it changes nothing it has nothing to note in the ledger.

A choice whose possibilities come from the configuration is made here. Weights that allow no
choice are an error of the configuration and not of the random source.

## Main definitions

* `PlanM`: computations that draw and may fail.
* `Change`, `RoundState.perform`: what a feature did, and doing it.
* `chooseIndex`, `pick`, `pickFrom`, `chance`: choices.
-/

namespace SlotOutcome

/-- A computation of a feature that draws from a source of type `σ` and may fail. -/
abbrev PlanM (σ : Type) := ExceptT FeatureError (StateM σ)

instance : MonadLift (Except ParamError) (Except FeatureError) :=
  ⟨Except.mapError fun e => .config (.param e)⟩

instance : MonadLift (Except ConfigError) (Except FeatureError) := ⟨Except.mapError .config⟩

instance : MonadLift (Except DataError) (Except FeatureError) := ⟨Except.mapError .data⟩

instance {σ : Type} : MonadLift (DrawM σ) (PlanM σ) := ⟨ExceptT.adapt .draw⟩

/-- A configuration that does not fit. -/
def invalid (text : String) : FeatureError := .config (.invalid text)

/-- What a feature did: the outcome that it leaves, and the payload of its ledger entry. -/
structure Change where
  outcome : Outcome
  payload : Json

/-- The state after what the feature of a definition did. -/
def RoundState.perform (s : RoundState) (d : Definition) : Option Change → RoundState
  | none => s
  | some change => s.withOutcome (change.outcome.record d change.payload)

/-! ### Choices -/

variable {σ : Type} [RandomSource σ]

/-- The error of a choice by weights of the configuration. -/
def weightError : DrawError → FeatureError
  | .zeroWeight => invalid ("bad weights: " ++ DrawError.zeroWeight.message)
  | .weightOverflow => invalid ("bad weights: " ++ DrawError.weightOverflow.message)
  | e => .draw e

/-- An index drawn in proportion to its weight. -/
def chooseIndex (weights : List Nat) : PlanM σ (Fin weights.length) :=
  ExceptT.adapt weightError (weightedIndex weights)

/-- One of `len` indices, by weights if there are any. -/
def pick (weights : Option (List Nat)) (len : Nat) : PlanM σ (Fin len) :=
  match weights with
  | some weights =>
    if h : weights.length = len then return (← chooseIndex weights).cast h
    else throw (invalid (toString weights.length ++ " weights for " ++ toString len ++ " choices"))
  | none =>
    if len = 0 then throw (invalid "nothing to choose from")
    else (drawBelow len : DrawM σ (Fin len))

/-- One of several values of a bag, by weights if it holds any; or the single value that stands
for them. -/
def pickFrom {α : Type} (bag : Bag) (type : ParamType α) (listType : ParamType (List α))
    (single several weights : String) : PlanM σ α := do
  match ← bag.find listType several with
  | some values =>
    let i ← pick (← bag.find .weights weights) values.length
    pure (values.get i)
  | none => bag.require type single

/-- Whether an event happens that has so many chances in ten thousand. -/
def chance (probability : Int) : PlanM σ Bool := do
  let value : Fin 10000 ← (drawBelow 10000 : DrawM σ (Fin 10000))
  return (value.val : Int) < probability

end SlotOutcome
