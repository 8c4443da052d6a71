import SlotOutcome.Yaml.Node

/-!
# Anchors and aliases of a YAML text

Anchors are numbered: an anchor gets as its number how many names of anchors came before it, its
own included if it is not new. An alias stands for the last node of the text whose anchor has the
number that the name of the alias has where it is written. So an alias may lie inside the node it
stands for, and a text may describe a tree that is larger than any; `Document.allowance` limits
how many aliases are followed.

## Main definitions

* `Node.number?`: the numbering of anchors and aliases.
* `Document`, `Document.ofText?`, `Document.target?`, `Document.allowance`.
-/

namespace SlotOutcome

namespace Yaml

/-- The names of anchors and their numbers. -/
abbrev Anchors := List (String × Nat)

/-- The anchors with one more name, or with a new number for one. -/
def Anchors.insert (anchors : Anchors) (name : String) : Anchors :=
  (name, anchors.length) :: anchors.filter fun anchor => anchor.1 != name

/-- The number of the anchor of a node, if it has one, and the anchors after it. -/
def Anchors.number (anchors : Anchors) : Option String → Option Nat × Anchors
  | none => (none, anchors)
  | some name => (some anchors.length, anchors.insert name)

mutual

/-- The node with numbers for names, and the anchors behind it. An alias needs an anchor in front
of it. -/
def Node.number? (anchors : Anchors) : Node String → Option (Node Nat × Anchors)
  | .alias name => do some (.alias (← anchors.lookup name), anchors)
  | .scalar anchor scalar =>
    let (anchor, anchors) := anchors.number anchor
    some (.scalar anchor scalar, anchors)
  | .seq anchor tag items => do
    let (anchor, anchors) := anchors.number anchor
    let (items, anchors) ← numberItems? anchors items
    some (.seq anchor tag items, anchors)
  | .map anchor tag pairs => do
    let (anchor, anchors) := anchors.number anchor
    let (pairs, anchors) ← pairs.number? anchors
    some (.map anchor tag pairs, anchors)

/-- `Node.number?` item by item. -/
def numberItems? (anchors : Anchors) : List (Node String) → Option (List (Node Nat) × Anchors)
  | [] => some ([], anchors)
  | item :: rest => do
    let (item, anchors) ← item.number? anchors
    let (rest, anchors) ← numberItems? anchors rest
    some (item :: rest, anchors)

/-- `Node.number?` pair by pair, each key before its value. -/
def Pairs.number? (anchors : Anchors) : Pairs String → Option (Pairs Nat × Anchors)
  | .nil => some (.nil, anchors)
  | .cons key value rest => do
    let (key, anchors) ← key.number? anchors
    let (value, anchors) ← value.number? anchors
    let (rest, anchors) ← rest.number? anchors
    some (.cons key value rest, anchors)

end

variable {α : Type}

mutual

/-- The nodes with an anchor, in the order of the text. -/
def Node.anchored : Node α → List (α × Node α)
  | .alias _ => []
  | .scalar anchor scalar => (anchor.map fun a => (a, .scalar anchor scalar)).toList
  | .seq anchor tag items =>
    (anchor.map fun a => (a, .seq anchor tag items)).toList ++ anchoredItems items
  | .map anchor tag pairs =>
    (anchor.map fun a => (a, .map anchor tag pairs)).toList ++ pairs.anchored

/-- `Node.anchored` item by item. -/
def anchoredItems : List (Node α) → List (α × Node α)
  | [] => []
  | item :: rest => item.anchored ++ anchoredItems rest

/-- `Node.anchored` pair by pair. -/
def Pairs.anchored : Pairs α → List (α × Node α)
  | .nil => []
  | .cons key value rest => key.anchored ++ value.anchored ++ rest.anchored

end

mutual

/-- The size of a node: one for a scalar or an alias, and two for the ends of a collection. -/
def Node.size : Node α → Nat
  | .alias _ => 1
  | .scalar _ _ => 1
  | .seq _ _ items => 2 + sizeOfItems items
  | .map _ _ pairs => 2 + pairs.size

/-- `Node.size` summed over items. -/
def sizeOfItems : List (Node α) → Nat
  | [] => 0
  | item :: rest => item.size + sizeOfItems rest

/-- `Node.size` summed over pairs. -/
def Pairs.size : Pairs α → Nat
  | .nil => 0
  | .cons key value rest => key.size + value.size + rest.size

end

/-- The tree of a text, and what its aliases stand for. -/
structure Document where
  root : Node Nat
  /-- The nodes with an anchor by their numbers, the last of the text first. -/
  targets : List (Nat × Node Nat)

namespace Document

/-- The document of a tree. -/
def ofNode? (root : Node String) : Option Document := do
  let (root, _) ← root.number? []
  some ⟨root, root.anchored.reverse⟩

/-- The document of a text. -/
def ofText? (s : String) : Option Document := do
  ofNode? (← Node.ofTokens? (← Token.scan? s))

/-- The node that an alias with a number stands for. -/
def target? (d : Document) (number : Nat) : Option (Node Nat) := d.targets.lookup number

/-- How many times aliases may be followed when a document is read. -/
def allowance (d : Document) : Nat := 100 * d.root.size

end Document

end Yaml

end SlotOutcome
