import SlotOutcome.Error
import SlotOutcome.Json.Record
import SlotOutcome.Random.Pool
import SlotOutcome.Text.Blank

/-!
# Settings of an engine

Whether operators may override outcomes, and how the pool of generators is set up. Settings are
read from texts, where everything may be left out, and a variable of the environment can switch
the developer mode afterwards.

## Main definitions

* `Settings`, `Settings.default`, `Settings.ofText`, `Settings.text`.
* `Settings.override`.
-/

namespace SlotOutcome

/-- The settings of an engine. -/
structure Settings where
  /-- Whether operator overrides among the parameters of a round count. -/
  developerMode : Bool
  pool : PoolSettings
deriving DecidableEq, Repr

namespace PoolSettings

/-- The names of the fields, in their order. -/
def fieldNames : List String := ["initial_size", "exercise_interval_ms", "exercise_draws"]

/-- The record of pool settings. -/
def toTree (p : PoolSettings) : Tree :=
  .record [("initial_size", .ofNat p.initialSize),
    ("exercise_interval_ms", .ofNat p.exerciseInterval), ("exercise_draws", .ofNat p.exerciseDraws)]

/-- The pool settings that a record describes. -/
def ofTree? (t : Tree) : Option PoolSettings := do
  match ← t.fields? false fieldNames with
  | [size, interval, draws] =>
    some {
      initialSize := ← size.elim (some default.initialSize) (Tree.toNatBelow? UInt64.size)
      exerciseInterval :=
        ← interval.elim (some default.exerciseInterval) (Tree.toNatBelow? UInt64.size)
      exerciseDraws := ← draws.elim (some default.exerciseDraws) (Tree.toNatBelow? UInt32.size) }
  | _ => none

end PoolSettings

namespace Settings

/-- Settings when nothing is said. -/
def default : Settings := ⟨false, .default⟩

/-- The names of the fields, in their order. -/
def fieldNames : List String := ["developer_mode", "pool"]

/-- The written form of settings. -/
def text (s : Settings) : String :=
  (Tree.record [("developer_mode", .bool s.developerMode), ("pool", s.pool.toTree)]).text

/-- The settings that a record describes. -/
def ofTree? (t : Tree) : Option Settings := do
  match ← t.fields? false fieldNames with
  | [mode, pool] =>
    some {
      developerMode := ← mode.elim (some default.developerMode) Tree.toBool?
      pool := ← pool.elim (some default.pool) PoolSettings.ofTree? }
  | _ => none

/-- The settings that a JSON text describes. -/
def ofText (s : String) : Except FeatureError Settings :=
  match (Tree.ofString? s).bind ofTree? with
  | some settings => .ok settings
  | none => .error (.serialization "malformed settings")

/-! ### Overrides -/

/-- The variable that switches the developer mode. -/
def developerModeVariable : String := "RGS_DEVELOPER_MODE"

/-- The truth value of a word; blanks around it and the case of ASCII letters do not matter. -/
def flag? (text : String) : Option Bool :=
  let word := String.ofList ((trimBlanks text.toList).map Char.toLower)
  if ["1", "true", "yes", "on"].contains word then some true
  else if ["0", "false", "no", "off"].contains word then some false
  else none

/-- The settings with the developer mode that a variable asks for. Words that are no truth value
are ignored. -/
def override (s : Settings) (value : Option String) : Settings :=
  match value.bind flag? with
  | some mode => { s with developerMode := mode }
  | none => s

end Settings

end SlotOutcome
