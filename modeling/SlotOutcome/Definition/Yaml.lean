import SlotOutcome.Definition
import SlotOutcome.Yaml.Reading

/-!
# Feature definitions in YAML texts

## Main definitions

* `Definition.ofYaml`.
-/

namespace SlotOutcome

namespace Definition

open Yaml

/-- The definition that a node describes, in which collections nest at most `depth` deep. A type is
required. -/
def ofNode (d : Document) : Nat → Node Nat → Reading Definition
  | 0, _ => failure
  | depth + 1, node => do
    match ← d.fields fieldNames node with
    | [id, tag, params, features] =>
      let id ← id.elim (pure 0) fun node => do (← d.scalar node).toNatBelow? UInt32.size
      let tag ← tag.elim failure d.scalar
      let params ← params.elim (pure .nil) (d.bag depth)
      let features ← features.elim (pure []) fun node => do
        match ← d.items node, depth with
        | none, _ => pure []
        | some items, depth + 1 => items.mapM (ofNode d depth)
        | some _, 0 => failure
      return ⟨.ofNat id, tag.text, params, features⟩
    | _ => failure

/-- The definition that a YAML text describes. -/
def ofYaml (s : String) : Except FeatureError Definition :=
  match (Document.ofText? s).bind fun d => d.read? (ofNode d nestingLimit d.root) with
  | some definition => .ok definition
  | none => .error (.serialization "malformed definition")

end Definition

end SlotOutcome
