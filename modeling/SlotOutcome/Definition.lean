import SlotOutcome.Bag
import SlotOutcome.Json.Record

/-!
# Feature definitions

A game is a tree of feature definitions. A definition names the type of its feature by a tag and
has an id, default parameters and child definitions; what the children are for is up to the
feature. Definitions are read from JSON texts (here) and from YAML texts
(`SlotOutcome.Definition.Yaml`), and written as JSON.

## Main definitions

* `Definition`, `Definition.nodes`, `Definition.find?`.
* `Definition.toTree`, `Definition.ofTree?`, `Definition.ofText`.
* `Definition.same`: equality up to the sign of zero in parameters.
-/

namespace SlotOutcome

/-- A node of the feature tree of a game. -/
structure Definition where
  id : UInt32
  /-- The tag that names the type of the feature. -/
  tag : String
  /-- The default parameters. -/
  params : Bag
  /-- The child definitions. -/
  features : List Definition

instance : Inhabited Definition := ⟨⟨0, "", .nil, []⟩⟩

namespace Definition

/-- A definition without parameters and children. -/
def leaf (id : UInt32) (tag : String) : Definition := ⟨id, tag, .nil, []⟩

/-- The definition with other default parameters. -/
def withParams (d : Definition) (params : Bag) : Definition := { d with params := params }

/-- The definition with one more default parameter. -/
def withParam (d : Definition) (key : String) (value : Json) : Definition :=
  { d with params := d.params.insert key value }

/-- The definition with one more child, after the others. -/
def withChild (d : Definition) (child : Definition) : Definition :=
  { d with features := d.features ++ [child] }

mutual

/-- The definition and all its descendants, each before its children. -/
def nodes : Definition → List Definition
  | d@⟨_, _, _, features⟩ => d :: nodesOf features

/-- The definitions of a list and all their descendants. -/
def nodesOf : List Definition → List Definition
  | [] => []
  | d :: rest => nodes d ++ nodesOf rest

end

/-- The first node with an id. -/
def find? (d : Definition) (id : UInt32) : Option Definition := d.nodes.find? (·.id == id)

/-- The tags of the tree, in the order of their first nodes, each once. -/
def tags (d : Definition) : List String := (d.nodes.map Definition.tag).eraseDups

mutual

/-- Equality of trees in which the two zeros of a double parameter are equal. -/
def same : Definition → Definition → Bool
  | ⟨id, tag, params, features⟩, ⟨id', tag', params', features'⟩ =>
    id == id' && tag == tag' && Json.sameMembers params params' && sameAll features features'

/-- `Definition.same` child by child. -/
def sameAll : List Definition → List Definition → Bool
  | [], [] => true
  | d :: rest, d' :: rest' => same d d' && sameAll rest rest'
  | _, _ => false

end

mutual

/-- The record of a definition; empty parameters and children are left out. -/
def toTree : Definition → Tree
  | ⟨id, tag, params, features⟩ =>
    .record ([("Id", .ofNat id.toNat), ("Type", .ofString tag)] ++
      (if params.isEmpty then [] else [("Params", (Json.obj params).toTree)]) ++
      (match features with
        | [] => []
        | d :: rest => [("Features", .arr (toTree d :: toTrees rest))]))

/-- The records of definitions. -/
def toTrees : List Definition → List Tree
  | [] => []
  | d :: rest => toTree d :: toTrees rest

end

/-- The written form of a definition. -/
def text (d : Definition) : String := d.toTree.text

/-- The names of the fields, in their order. -/
def fieldNames : List String := ["Id", "Type", "Params", "Features"]

/-- The definition that a record describes, if its containers nest at most `depth` deep. A type is
required. -/
def ofTree? : Nat → Tree → Option Definition
  | 0, _ => none
  | depth + 1, t => do
    match ← t.fields? false fieldNames with
    | [id, tag, params, features] =>
      let id ← id.elim (some 0) Tree.toUInt32?
      let tag ← (← tag).toText?
      let params ← params.elim (some .nil) fun t => do (← t.toJson? depth).toBag?
      let features ← features.elim (some []) fun t => do
        let items ← t.items?
        match depth with
        | 0 => none
        | depth + 1 => items.mapM (ofTree? depth)
      some ⟨id, tag, params, features⟩
    | _ => none

/-- The definition that a JSON text describes. -/
def ofText (s : String) : Except FeatureError Definition :=
  match (Tree.ofString? s).bind (ofTree? containerLimit) with
  | some d => .ok d
  | none => .error (.serialization "malformed definition")

end Definition

end SlotOutcome
