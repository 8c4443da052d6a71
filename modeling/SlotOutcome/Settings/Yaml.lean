import SlotOutcome.Settings
import SlotOutcome.Yaml.Reading

/-!
# Settings in YAML texts

## Main definitions

* `Settings.ofYaml`.
-/

namespace SlotOutcome

open Yaml

/-- The pool settings that a node describes. -/
def PoolSettings.ofNode (d : Document) (node : Node Nat) : Reading PoolSettings := do
  let natural (bound default : Nat) (field : Option (Node Nat)) : Reading Nat :=
    field.elim (pure default) fun node => do (← d.scalar node).toNatBelow? bound
  match ← d.fields fieldNames node with
  | [size, interval, draws] =>
    return {
      initialSize := ← natural UInt64.size default.initialSize size
      exerciseInterval := ← natural UInt64.size default.exerciseInterval interval
      exerciseDraws := ← natural UInt32.size default.exerciseDraws draws }
  | _ => failure

namespace Settings

/-- The settings that a node describes. -/
def ofNode (d : Document) (node : Node Nat) : Reading Settings := do
  match ← d.fields fieldNames node with
  | [mode, pool] =>
    return {
      developerMode := ← mode.elim (pure default.developerMode) fun node => do
        (← d.scalar node).toBool?
      pool := ← pool.elim (pure default.pool) (PoolSettings.ofNode d) }
  | _ => failure

/-- The settings that a YAML text describes. -/
def ofYaml (s : String) : Except FeatureError Settings :=
  match (Document.ofText? s).bind fun d => d.read? (ofNode d d.root) with
  | some settings => .ok settings
  | none => .error (.serialization "malformed settings")

end Settings

end SlotOutcome
