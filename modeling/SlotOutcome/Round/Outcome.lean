import SlotOutcome.Definition
import SlotOutcome.Grid

/-!
# The outcome of a step

What the features of a round write down while they run: grids, stops, wins, counters, and the
ledger that says which feature did what. A step of a round that was computed ahead of time is
revealed by taking over its outcome as a whole.

## Main definitions

* `Phase`, `Win`, `Entry`, `CascadeInfo`.
* `Outcome`, `Outcome.record`.
-/

namespace SlotOutcome

/-- The phase of a game that a step belongs to. -/
inductive Phase where
  | init
  | base
  | freespin
  | cascade
  | respin
  | bonus
deriving DecidableEq, Repr

namespace Phase

/-- Every phase. -/
def all : List Phase := [init, base, freespin, cascade, respin, bonus]

/-- The name of a phase. -/
def name : Phase → String
  | init => "init"
  | base => "base"
  | freespin => "freespin"
  | cascade => "cascade"
  | respin => "respin"
  | bonus => "bonus"

/-- The phase of an exact name. -/
def ofName? (name : String) : Option Phase := all.find? (·.name == name)

/-- The phase of a name in which the case of ASCII letters does not matter. -/
def parse? (text : String) : Option Phase := ofName? (text.map Char.toLower)

end Phase

/-- A win: what the evaluator found, or what a prize feature added. -/
structure Win where
  label : String
  multiplier : Float
  symbols : List Symbol
  positions : List Nat
deriving DecidableEq

namespace Win

/-- The win as a record. -/
def toTree (w : Win) : Tree :=
  .record [
    ("Label", .ofString w.label),
    ("Multiplier", (Json.ofFloat w.multiplier).toTree),
    ("Symbols", .arr (w.symbols.map fun s => .ofInt s.toInt)),
    ("Positions", .ofNats w.positions)]

end Win

/-- The sum of the multipliers of wins, in their order. The empty sum is the negative zero, which
added to any double leaves it as it is. -/
def winSum (wins : List Win) : Float := wins.foldl (fun sum w => sum + w.multiplier) (-0.0)

/-- A ledger entry: what a feature did. -/
structure Entry where
  /-- The id of the definition. -/
  id : UInt32
  /-- The tag of the definition. -/
  tag : String
  /-- The payload. -/
  data : Json

namespace Entry

/-- The entry as a record. -/
def toTree (e : Entry) : Tree :=
  .record [("Id", .ofNat e.id.toNat), ("Type", .ofString e.tag), ("Data", e.data.toTree)]

/-- Equality of entries in which the two zeros of a double are equal. -/
def same (e e' : Entry) : Bool := e.id == e'.id && e.tag == e'.tag && e.data.same e'.data

end Entry

/-- How far a sequence of cascades has come. -/
structure CascadeInfo where
  step : UInt32
  /-- The cells that the last cascade removed. -/
  removed : List Nat
deriving DecidableEq, Repr

namespace CascadeInfo

/-- The record before any cascade. -/
def start : CascadeInfo := ⟨0, []⟩

/-- The information as a record. -/
def toTree (c : CascadeInfo) : Tree :=
  .record [("Step", .ofNat c.step.toNat), ("Removed", .ofNats c.removed)]

end CascadeInfo

/-- What the features of a step have written down. -/
structure Outcome where
  /-- The symbols as they landed. -/
  sourceGrid : Grid
  /-- The symbols after the features. -/
  grid : Grid
  /-- The strips that the reels run on. -/
  strips : List (List Symbol)
  /-- Where on its strip each reel shows its top row. -/
  stops : List Nat
  /-- The name of the chosen reel set. -/
  reelset : Option String
  ledger : List Entry
  wins : List Win
  phase : Phase
  /-- The phase that the next step is to have. -/
  nextPhase : Option Phase
  freespins : UInt32
  multiplier : Float
  cascade : CascadeInfo

namespace Outcome

/-- The outcome of a step in which nothing has happened, on a grid of the given shape. -/
def blank (reels rows : Nat) : Outcome where
  sourceGrid := .blank reels rows
  grid := .blank reels rows
  strips := []
  stops := []
  reelset := none
  ledger := []
  wins := []
  phase := .base
  nextPhase := none
  freespins := 0
  multiplier := 1.0
  cascade := .start

/-- The outcome with an entry of a definition added to the ledger. -/
def record (o : Outcome) (d : Definition) (data : Json) : Outcome :=
  { o with ledger := o.ledger ++ [⟨d.id, d.tag, data⟩] }

end Outcome

end SlotOutcome
