import SlotOutcome.Yaml.Document
import SlotOutcome.Yaml.Schema

/-!
# Reading values off a YAML document

A value is read off the tree of a document from its root. Whoever reads says what kind of value a
node has to hold, and an alias is replaced by the node that it stands for, as often as the
allowance of the document admits. What nobody asks for is not read. Collections nest at most
`nestingLimit` deep, aliases replaced.

## Main definitions

* `Reading`, `Document.read?`.
* `Document.resolve`, `Document.scalar`, `Document.items`, `Document.fields`: one node.
* `Document.json`, `Document.bag`: values of any shape.
-/

namespace SlotOutcome

namespace Yaml

/-- How deep the collections of a document may nest. -/
def nestingLimit : Nat := 128

/-- A reading that may fail; the state is how many aliases may still be followed. -/
abbrev Reading := StateT Nat Option

namespace Document

/-- The result of a reading of a whole document. -/
def read? {α : Type} (d : Document) (reading : Reading α) : Option α := reading.run' d.allowance

/-- The node itself, or what it is an alias of. -/
def resolve (d : Document) : Node Nat → Reading (Node Nat)
  | .alias target => do
    let allowance ← get
    if allowance = 0 then failure
    set (allowance - 1)
    d.target? target
  | node => pure node

/-- The scalar that a node has to be. -/
def scalar (d : Document) (node : Node Nat) : Reading Scalar := do
  match ← d.resolve node with
  | .scalar _ scalar => pure scalar
  | _ => failure

/-- The items of a node that has to be a sequence, or nothing if nothing is written for it. -/
def items (d : Document) (node : Node Nat) : Reading (Option (List (Node Nat))) := do
  match ← d.resolve node with
  | .seq _ _ items => return some items
  | .scalar _ scalar => if scalar.isEmpty then return none else failure
  | _ => failure

/-- The pairs of a node that has to be a mapping, or nothing if nothing is written for it. -/
def pairs (d : Document) (node : Node Nat) : Reading (Option (List (Node Nat × Node Nat))) := do
  match ← d.resolve node with
  | .map _ _ pairs => return some pairs.toList
  | .scalar _ scalar => if scalar.isEmpty then return none else failure
  | _ => failure

/-- The value of a field in a list of keys and values. A field has at most one. -/
def only (name : String) (members : List (String × Node Nat)) : Reading (Option (Node Nat)) :=
  match members.filter fun member => member.1 == name with
  | [] => pure none
  | [member] => pure (some member.2)
  | _ => failure

/-- The values of the named fields of a node that has to be a mapping, in the order of the names; a
field that is left out has no value. Other fields are skipped. -/
def fields (d : Document) (names : List String) (node : Node Nat) :
    Reading (List (Option (Node Nat))) := do
  let pairs := (← d.pairs node).getD []
  let members ← pairs.mapM fun (key, value) => return ((← d.scalar key).text, value)
  names.mapM fun name => only name members

/-- The members of an object whose values `read` reads. Of the values of a repeated key the last
counts. -/
def members (d : Document) (read : Node Nat → Reading Json) (pairs : List (Node Nat × Node Nat)) :
    Reading (Members none) := do
  let fields ← pairs.mapM fun (key, value) => return ((← d.scalar key).text, ← read value)
  return .ofList fields

/-- The value of a node of any kind, in which collections nest at most `depth` deep. -/
def json (d : Document) : Nat → Node Nat → Reading Json
  | depth, node => do
    match ← d.resolve node, depth with
    | .scalar _ scalar, _ => scalar.toJson?
    | .seq _ tag items, depth + 1 =>
      if isForeign tag then failure
      return .arr (← items.mapM (json d depth))
    | .map _ tag pairs, depth + 1 =>
      if isForeign tag then failure
      return .obj (← d.members (json d depth) pairs.toList)
    | _, _ => failure

/-- The object that a node has to be, in which collections nest at most `depth` deep; nothing at all
counts as no members. -/
def bag (d : Document) (depth : Nat) (node : Node Nat) : Reading (Members none) := do
  match ← d.pairs node, depth with
  | none, _ => return .nil
  | some pairs, depth + 1 => d.members (d.json depth) pairs
  | some _, 0 => failure

end Document

end Yaml

end SlotOutcome
