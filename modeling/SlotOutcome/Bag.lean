import SlotOutcome.Error
import SlotOutcome.Grid
import SlotOutcome.Json.Tree
import SlotOutcome.Text.Quoted

/-!
# Parameter bags

A bag holds the parameters of a feature: JSON values under keys. It is read through parameter
types, each of which says what values it accepts and how an error message calls it. A missing
key and a value of another type are errors, and nothing is defaulted silently.

Bags meet in two ways. `Bag.extend` copies every member of one bag into another; `Bag.overlay`
is the bag that a feature runs with: the defaults of its definition with everything that its
caller holds on top.

## Main definitions

* `Bag`, `Bag.extend`, `Bag.overlay`.
* `ParamType`, `Bag.find`, `Bag.require`: typed reads.
* `Bag.isCollate`: whether a caller wants the bags of its features written back.
-/

namespace SlotOutcome

/-- A bag of parameters. -/
abbrev Bag := Members none

namespace Bag

/-- The bag without parameters. -/
def empty : Bag := .nil

/-- Every member of `other` copied into the bag, replacing what the bag holds under its key. -/
def extend (bag other : Bag) : Bag :=
  other.toList.foldl (fun b field => b.insert field.1 field.2) bag

/-- The defaults with every member of the caller's bag on top. -/
def overlay (defaults caller : Bag) : Bag := defaults.extend caller

end Bag

/-! ### Keys with a fixed meaning -/

namespace Key

/-- When `true` in a caller's bag, the bags of the features it calls are written back. -/
def collate : String := "Collate"

/-- The pending memory of the current stake. -/
def statefulStash : String := "__StatefulMap"

/-- The pending memory of the current round. -/
def statelessStash : String := "__StatelessMap"

/-- Operator overrides start with this, and count in developer mode only. -/
def forceStem : String := "Force"

/-- A fixed seed for the whole round. -/
def forceSeed : String := "ForceSeed"

/-- The cell that a trigger found. -/
def position : String := "Position"

/-- The cells that a trigger found. -/
def positions : String := "Positions"

end Key

/-! ### Typed reads -/

/-- How an error message describes a value. -/
def Json.description : Json → String
  | .null => "null"
  | .bool b => "bool " ++ toString b
  | .num n => "number " ++ String.ofList n.chars
  | .str s => "string " ++ quoted s
  | .arr items => "list of " ++ toString items.length
  | .obj _ => "bag"

/-- The integer of a value, if it fits 64 bits with a sign. -/
def Json.toInt? : Json → Option Int
  | .num n => n.toInt?.filter (· < 0x8000000000000000)
  | _ => none

/-- The natural number of a value. -/
def Json.toNat? : Json → Option Nat
  | .num n => (n.toInt?.filter (0 ≤ ·)).map Int.toNat
  | _ => none

/-- The symbol id of a value. -/
def Json.toSymbol? (j : Json) : Option Symbol := j.toInt?.bind Symbol.ofInt?

/-- The double nearest to the number of a value. -/
def Json.toFloat? : Json → Option Float
  | .num n => some n.toFloat
  | _ => none

/-- The truth value of a value. -/
def Json.toBool? : Json → Option Bool
  | .bool b => some b
  | _ => none

/-- The text of a value. -/
def Json.toText? : Json → Option String
  | .str s => some s
  | _ => none

/-- The bag of a value. -/
def Json.toBag? : Json → Option Bag
  | .obj members => some members
  | _ => none

/-- The items of a list, each read in the same way. -/
def Json.toList? {α : Type} (item : Json → Option α) : Json → Option (List α)
  | .arr items => items.mapM item
  | _ => none

/-- A type of parameter: what an error message calls it, and how its values are read. -/
structure ParamType (α : Type) where
  name : String
  read : Json → Option α

namespace ParamType

/-- An integer. -/
def int : ParamType Int := ⟨"int", Json.toInt?⟩

/-- A count, an index or a position. -/
def nat : ParamType Nat := ⟨"non-negative int", Json.toNat?⟩

/-- A symbol id. -/
def symbol : ParamType Symbol := ⟨"symbol id", Json.toSymbol?⟩

/-- A number of either kind, read as a double. -/
def float : ParamType Float := ⟨"float", Json.toFloat?⟩

/-- A truth value. -/
def bool : ParamType Bool := ⟨"bool", Json.toBool?⟩

/-- A text. -/
def text : ParamType String := ⟨"string", Json.toText?⟩

/-- Integers. -/
def ints : ParamType (List Int) := ⟨"int list", Json.toList? Json.toInt?⟩

/-- Symbol ids. -/
def symbols : ParamType (List Symbol) := ⟨"symbol list", Json.toList? Json.toSymbol?⟩

/-- Linear grid positions. -/
def positions : ParamType (List Nat) := ⟨"position list", Json.toList? Json.toNat?⟩

/-- Weights of a choice. -/
def weights : ParamType (List Nat) := ⟨"weight list", Json.toList? Json.toNat?⟩

/-- Doubles. -/
def floats : ParamType (List Float) := ⟨"float list", Json.toList? Json.toFloat?⟩

/-- Texts. -/
def texts : ParamType (List String) := ⟨"string list", Json.toList? Json.toText?⟩

/-- Lists of integers: reel strips, patterns. -/
def intLists : ParamType (List (List Int)) :=
  ⟨"list of int lists", Json.toList? (Json.toList? Json.toInt?)⟩

/-- A bag inside a bag. -/
def bag : ParamType Bag := ⟨"bag", Json.toBag?⟩

/-- Bags inside a bag. -/
def bags : ParamType (List Bag) := ⟨"list of bags", Json.toList? Json.toBag?⟩

end ParamType

/-- The bag of a value that should be one. -/
def Bag.ofJson (j : Json) : Except ParamError Bag :=
  match j with
  | .obj members => .ok members
  | other => .error (.mismatch "<root>" ParamType.bag.name other.description)

namespace Bag

variable {α : Type}

/-- The parameter of a key, if the bag has one. -/
def find (bag : Bag) (type : ParamType α) (key : String) : Except ParamError (Option α) :=
  match bag.get? key with
  | none => .ok none
  | some value =>
    match type.read value with
    | some a => .ok (some a)
    | none => .error (.mismatch key type.name value.description)

/-- The parameter of a key that has to be there. -/
def require (bag : Bag) (type : ParamType α) (key : String) : Except ParamError α := do
  match ← bag.find type key with
  | some a => pure a
  | none => throw (.missing key)

/-- The parameter of a key, or a default. -/
def findD (bag : Bag) (type : ParamType α) (key : String) (default : α) : Except ParamError α := do
  return (← bag.find type key).getD default

/-- Whether the bags of called features are written back into this one. -/
def isCollate (bag : Bag) : Except ParamError Bool := bag.findD .bool Key.collate false

end Bag

end SlotOutcome
