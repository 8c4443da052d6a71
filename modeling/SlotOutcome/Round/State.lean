import SlotOutcome.Decimal.Layout
import SlotOutcome.Round.Outcome

/-!
# The state of a round

A state is the outcome so far together with what stands around it: the stake, the evaluator that
pays wins, and links to other states.

```text
  previous round ── stateful ──┐            ┌── chain: step 1, step 2, …
  previous step ── stateless ──┤            │   (computed, not yet revealed)
                               ▼            │
                     ┌──────────────────────┐
                     │      RoundState      │
                     └──────────────────────┘
```

The links backwards are snapshots, which have no links backwards themselves, so history does not
pile up. The links of the chain have none either, and what follows a link is kept by the state
that holds the chain.

## Main definitions

* `RoundState`, `ReplayInfo`, `Evaluator`.
* `RoundState.snapshot`, `RoundState.linkStateful`, `RoundState.linkStateless`.
* `RoundState.setChain`, `RoundState.takeNext`, `RoundState.links`.
* `RoundState.nextRound`, `RoundState.nextStep`, `RoundState.adopt`.
* `RoundState.report`: the audit record.
-/

namespace SlotOutcome

/-- Where a state stands in a replayed sequence of steps. -/
inductive ReplayPhase where
  | play
  | replay
  | continue
  | abort
deriving DecidableEq, Repr

namespace ReplayPhase

/-- Every replay phase. -/
def all : List ReplayPhase := [play, replay, .continue, abort]

/-- The name of a replay phase. -/
def name : ReplayPhase → String
  | play => "play"
  | replay => "replay"
  | .continue => "continue"
  | abort => "abort"

/-- The replay phase of an exact name. -/
def ofName? (name : String) : Option ReplayPhase := all.find? (·.name == name)

end ReplayPhase

/-- Where a state stands in a replayed sequence, whether it goes on, and how many steps have been
revealed. -/
structure ReplayInfo where
  phase : ReplayPhase
  continueFlag : Bool
  tries : UInt32
deriving DecidableEq, Repr

namespace ReplayInfo

/-- Outside a replayed sequence. -/
def start : ReplayInfo := ⟨.play, false, 0⟩

/-- The information as a record. -/
def toTree (r : ReplayInfo) : Tree :=
  .record [("Phase", .ofString r.phase.name), ("ContinueFlag", .bool r.continueFlag),
    ("Tries", .ofNat r.tries.toNat)]

end ReplayInfo

/-- The wins of a grid under the paytable of a name. -/
abbrev Evaluator := Grid → Option String → List Win

/-- The state of a round, or of one step of it. -/
structure RoundState where
  outcome : Outcome
  stake : Float
  replay : ReplayInfo
  /-- The name of the paytable that wins are paid by. -/
  paytable : Option String
  evaluator : Option Evaluator
  /-- The previous round. -/
  stateful : Option RoundState
  /-- The previous step of this round. -/
  stateless : Option RoundState
  /-- The steps to be revealed, in their order. -/
  chain : List RoundState

namespace RoundState

/-- A state in which nothing has happened, on a grid of the given shape. -/
def fresh (reels rows : Nat) : RoundState where
  outcome := .blank reels rows
  stake := 1.0
  replay := .start
  paytable := none
  evaluator := none
  stateful := none
  stateless := none
  chain := []

instance : Inhabited RoundState := ⟨fresh 0 0⟩

variable (s : RoundState)

/-- The state with another outcome. -/
def withOutcome (o : Outcome) : RoundState := { s with outcome := o }

/-- The state with a grid that has just landed. -/
def withGrid (g : Grid) : RoundState :=
  s.withOutcome { s.outcome with sourceGrid := g, grid := g }

/-- The key of the current stake in the stateful memory: three decimal places. -/
def stakeKey : String := fixedText 3 s.stake

/-! ### Links -/

/-- The state without its links backwards. -/
def snapshot : RoundState := { s with stateful := none, stateless := none }

/-- The state linked to a previous round. -/
def linkStateful (previous : RoundState) : RoundState :=
  { s with stateful := some previous.snapshot }

/-- The state linked to a previous step. -/
def linkStateless (previous : RoundState) : RoundState :=
  { s with stateless := some previous.snapshot }

/-- A state as a link of a chain: without any links of its own. -/
def asLink : RoundState := { s.snapshot with chain := [] }

/-- The state with other steps to be revealed. -/
def setChain (links : List RoundState) : RoundState := { s with chain := links.map asLink }

/-- The state without steps to be revealed. -/
def clearChain : RoundState := { s with chain := [] }

/-- The state without its chain, and the first link with the rest of the chain. -/
def takeNext : RoundState × Option RoundState :=
  match s.chain with
  | [] => (s, none)
  | link :: rest => (s.clearChain, some { link with chain := rest })

/-- Each link of a chain, with the links after it. -/
def linksOf : List RoundState → List RoundState
  | [] => []
  | link :: rest => { link with chain := rest } :: linksOf rest

/-- Each link of the chain of a state, with the links after it. -/
def links : List RoundState := linksOf s.chain

/-- The state of the next round: a blank grid of the same shape, linked back to this state. -/
def nextRound : RoundState :=
  { fresh s.outcome.grid.reels s.outcome.grid.rows with
    outcome :=
      { Outcome.blank s.outcome.grid.reels s.outcome.grid.rows with
        phase := s.outcome.nextPhase.getD .base
        freespins := s.outcome.freespins }
    stake := s.stake
    evaluator := s.evaluator
    paytable := s.paytable
    stateful := some s.snapshot }

/-- The state of the next step of the same round: it starts from the grid that this step ends
with and keeps the link to the previous round. -/
def nextStep : RoundState :=
  { s.nextRound with
    outcome :=
      { Outcome.blank s.outcome.grid.reels s.outcome.grid.rows with
        sourceGrid := s.outcome.grid
        grid := s.outcome.grid
        strips := s.outcome.strips
        stops := s.outcome.stops
        reelset := s.outcome.reelset
        phase := s.outcome.nextPhase.getD s.outcome.phase
        freespins := s.outcome.freespins
        multiplier := s.outcome.multiplier
        cascade := s.outcome.cascade }
    stateful := s.stateful
    stateless := some s.snapshot }

/-- The state with the outcome of a step that was computed before. -/
def adopt (step : RoundState) : RoundState := { s with outcome := step.outcome }

/-- Whether the sequence of steps has been ended early. -/
def aborted : Bool := s.replay.phase == .abort

/-! ### The ledger and the wins -/

/-- The state with an entry of a definition added to the ledger. -/
def record (d : Definition) (data : Json) : RoundState := s.withOutcome (s.outcome.record d data)

/-- The entries of features of a type. -/
def featuresOf (tag : String) : List Entry := s.outcome.ledger.filter (·.tag == tag)

/-- The latest entry of a feature of a type. -/
def lastFeature? (tag : String) : Option Entry :=
  s.outcome.ledger.reverse.find? (·.tag == tag)

/-- The sum of the win multipliers. No wins sum to the positive zero. -/
def totalWin : Float := winSum s.outcome.wins + 0.0

/-! ### The audit record -/

/-- The audit record of the outcome: neither links nor strips. -/
def report : Tree :=
  let o := s.outcome
  let text := fun t : Option String => (t.map Tree.ofString).getD .null
  .record [
    ("SourceGrid", o.sourceGrid.toTree),
    ("Grid", o.grid.toTree),
    ("Stops", .ofNats o.stops),
    ("Reelset", text o.reelset),
    ("Ledger", .arr (o.ledger.map Entry.toTree)),
    ("Wins", .arr (o.wins.map Win.toTree)),
    ("Phase", .ofString o.phase.name),
    ("NextPhase", text (o.nextPhase.map Phase.name)),
    ("Freespins", .ofNat o.freespins.toNat),
    ("Multiplier", (Json.ofFloat o.multiplier).toTree),
    ("Cascade", o.cascade.toTree),
    ("Replay", s.replay.toTree),
    ("Chain", .ofNat s.chain.length)]

/-- The written form of the audit record. -/
def reportText : String := s.report.text

end RoundState

end SlotOutcome
