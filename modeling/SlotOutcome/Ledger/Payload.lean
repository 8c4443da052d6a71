import SlotOutcome.Bag
import SlotOutcome.Json.Record

/-!
# Ledger payloads

A feature that changed the round notes what it did as a payload: a record whose fields and their
types are fixed by the type of the feature, or a bag of memory. This file lists the shapes, next
to the functions that fill them.

A payload is kept as a JSON value. Reading one from a text checks it against its shape and gives
it the normal form of the shape: a record as an object, and a number in a field for doubles as a
double.

## Main definitions

* `FieldType`, `Shape`: what a payload may hold.
* `Shape.ofTree?`, `Shape.ofBytes?`: reading a payload of a shape.
* `Payload.painted` and its like: the payloads of the features, each beside its `Shape`.
-/

namespace SlotOutcome

/-- The type of a field of a payload. -/
inductive FieldType where
  /-- A count, an index or a position. -/
  | nat
  /-- Counts, indices or positions. -/
  | nats
  /-- A counter of 32 bits. -/
  | counter
  /-- A symbol id. -/
  | symbol
  /-- A signed integer of 64 bits. -/
  | int
  /-- A double; integers are accepted. -/
  | float
  | bool
  | text
deriving DecidableEq, Repr

/-- What a payload may hold. -/
inductive Shape where
  /-- Nothing: features of the type never record. -/
  | nothing
  /-- Any bag. -/
  | memory
  /-- A record with exactly these fields. -/
  | record (fields : List (String × FieldType))
deriving DecidableEq, Repr

/-- The value of a field, in the normal form of its type. -/
def FieldType.ofTree? (depth : Nat) (t : Tree) : FieldType → Option Json
  | nat => (t.toNatBelow? UInt64.size).map .ofNat
  | nats =>
    match depth with
    | 0 => none
    | _ + 1 => do
      let items ← t.items?
      some (.ofNats (← items.mapM fun item => item.toNatBelow? UInt64.size))
  | counter => (t.toNatBelow? UInt32.size).map .ofNat
  | symbol => (t.toInt?.filter fun i : Int => -0x80000000 ≤ i ∧ i < 0x80000000).map .ofInt
  | int => (t.toInt?.filter fun i : Int => i < 0x8000000000000000).map .ofInt
  | float => t.toNumber?.map fun n => .ofFloat n.toFloat
  | bool => t.toBool?.map .bool
  | text => t.toText?.map .str

namespace Shape

/-- The payload of a tree whose containers nest at most `depth` deep, in the normal form of the
shape. -/
def ofTree? (depth : Nat) (t : Tree) : Shape → Option Json
  | nothing =>
    match t with
    | .null => some .null
    | _ => none
  | memory => do some (.obj (← (← t.toJson? depth).toBag?))
  | record fields =>
    match depth with
    | 0 => none
    | depth + 1 => do
      let values ← t.fields? true (fields.map Prod.fst)
      let payload ← (fields.zip values).mapM fun (field, value) => do
        some (field.1, ← field.2.ofTree? depth (← value))
      some (.ofFields payload)

/-- The payload of a text given by its bytes, in the normal form of the shape. -/
def ofBytes? (bytes : List UInt8) (shape : Shape) : Option Json := do
  shape.ofTree? containerLimit (← Tree.ofBytes? bytes)

end Shape

/-! ### The payloads of the features -/

/-- Which child was chosen. -/
def Shape.choice : Shape := .record [("Index", .nat)]

/-- The payload of `Shape.choice`. -/
def Payload.choice (index : Nat) : Json := .ofFields [("Index", .ofNat index)]

/-- How often children are repeated. -/
def Shape.repeats : Shape := .record [("Count", .nat)]

/-- The payload of `Shape.repeats`. -/
def Payload.repeats (count : Nat) : Json := .ofFields [("Count", .ofNat count)]

/-- Where the reels stopped. -/
def Shape.stops : Shape := .record [("Stops", .nats)]

/-- The payload of `Shape.stops`. -/
def Payload.stops (stops : List Nat) : Json := .ofFields [("Stops", .ofNats stops)]

/-- Which reel set was chosen. -/
def Shape.reelset : Shape := .record [("Name", .text), ("Index", .nat)]

/-- The payload of `Shape.reelset`. -/
def Payload.reelset (name : String) (index : Nat) : Json :=
  .ofFields [("Name", .str name), ("Index", .ofNat index)]

/-- A block of cells painted with one symbol. -/
def Shape.tile : Shape :=
  .record [("X", .nat), ("Y", .nat), ("W", .nat), ("H", .nat), ("TileId", .symbol)]

/-- The payload of `Shape.tile`. -/
def Payload.tile (x y w h : Nat) (tile : Symbol) : Json :=
  .ofFields [("X", .ofNat x), ("Y", .ofNat y), ("W", .ofNat w), ("H", .ofNat h),
    ("TileId", .ofInt tile.toInt)]

/-- Cells painted with one symbol around a cell that caused it. -/
def Shape.expansion : Shape :=
  .record [("Position", .nat), ("Positions", .nats), ("TileId", .symbol)]

/-- The payload of `Shape.expansion`. -/
def Payload.expansion (position : Nat) (positions : List Nat) (tile : Symbol) : Json :=
  .ofFields [("Position", .ofNat position), ("Positions", .ofNats positions),
    ("TileId", .ofInt tile.toInt)]

/-- Reels painted with one symbol. -/
def Shape.expandedReels : Shape := .record [("Reels", .nats), ("TileId", .symbol)]

/-- The payload of `Shape.expandedReels`. -/
def Payload.expandedReels (reels : List Nat) (tile : Symbol) : Json :=
  .ofFields [("Reels", .ofNats reels), ("TileId", .ofInt tile.toInt)]

/-- Cells painted with one symbol. -/
def Shape.painted : Shape := .record [("Positions", .nats), ("TileId", .symbol)]

/-- The payload of `Shape.painted`. -/
def Payload.painted (positions : List Nat) (tile : Symbol) : Json :=
  .ofFields [("Positions", .ofNats positions), ("TileId", .ofInt tile.toInt)]

/-- A pattern of cells painted with one symbol. -/
def Shape.pattern : Shape := .record [("Index", .nat), ("Positions", .nats), ("TileId", .symbol)]

/-- The payload of `Shape.pattern`. -/
def Payload.pattern (index : Nat) (positions : List Nat) (tile : Symbol) : Json :=
  .ofFields [("Index", .ofNat index), ("Positions", .ofNats positions),
    ("TileId", .ofInt tile.toInt)]

/-- A cascade step and the cells it removed. -/
def Shape.cascade : Shape := .record [("Step", .counter), ("Removed", .nats)]

/-- The payload of `Shape.cascade`. -/
def Payload.cascade (step : UInt32) (removed : List Nat) : Json :=
  .ofFields [("Step", .ofNat step.toNat), ("Removed", .ofNats removed)]

/-- The cells that fired a trigger. -/
def Shape.triggered : Shape := .record [("Positions", .nats), ("Count", .nat)]

/-- The payload of `Shape.triggered`. -/
def Payload.triggered (positions : List Nat) : Json :=
  .ofFields [("Positions", .ofNats positions), ("Count", .ofNat positions.length)]

/-- Free spins granted, and how many there are now. -/
def Shape.award : Shape := .record [("Spins", .nat), ("Total", .counter)]

/-- The payload of `Shape.award`. -/
def Payload.award (spins : Nat) (total : UInt32) : Json :=
  .ofFields [("Spins", .ofNat spins), ("Total", .ofNat total.toNat)]

/-- How many wins an evaluation found, and the sum of their multipliers. -/
def Shape.evaluated : Shape := .record [("Count", .nat), ("Total", .float)]

/-- The payload of `Shape.evaluated`. -/
def Payload.evaluated (count : Nat) (total : Float) : Json :=
  .ofFields [("Count", .ofNat count), ("Total", .ofFloat total)]

/-- A factor of the round multiplier, and the multiplier after it. -/
def Shape.multiplied : Shape := .record [("Multiplier", .float), ("Total", .float)]

/-- The payload of `Shape.multiplied`. -/
def Payload.multiplied (multiplier total : Float) : Json :=
  .ofFields [("Multiplier", .ofFloat multiplier), ("Total", .ofFloat total)]

/-- The round multiplier applied to wins, and how many of them. -/
def Shape.applied : Shape := .record [("Multiplier", .float), ("Wins", .nat)]

/-- The payload of `Shape.applied`. -/
def Payload.applied (multiplier : Float) (wins : Nat) : Json :=
  .ofFields [("Multiplier", .ofFloat multiplier), ("Wins", .ofNat wins)]

/-- A prize. -/
def Shape.prize : Shape := .record [("Label", .text), ("Multiplier", .float)]

/-- The payload of `Shape.prize`. -/
def Payload.prize (label : String) (multiplier : Float) : Json :=
  .ofFields [("Label", .str label), ("Multiplier", .ofFloat multiplier)]

/-- A scatter win. -/
def Shape.scatter : Shape := .record [("Count", .nat), ("Multiplier", .float)]

/-- The payload of `Shape.scatter`. -/
def Payload.scatter (count : Nat) (multiplier : Float) : Json :=
  .ofFields [("Count", .ofNat count), ("Multiplier", .ofFloat multiplier)]

/-- A counter after it moved. -/
def Shape.count : Shape := .record [("Key", .text), ("Value", .int), ("Reached", .bool)]

/-- The payload of `Shape.count`. -/
def Payload.count (key : String) (value : Int) (reached : Bool) : Json :=
  .ofFields [("Key", .str key), ("Value", .ofInt value), ("Reached", .bool reached)]

/-- Cells restored, and cells remembered for later. -/
def Shape.sticky : Shape := .record [("Applied", .nats), ("Positions", .nats), ("TileId", .symbol)]

/-- The payload of `Shape.sticky`. -/
def Payload.sticky (applied positions : List Nat) (tile : Symbol) : Json :=
  .ofFields [("Applied", .ofNats applied), ("Positions", .ofNats positions),
    ("TileId", .ofInt tile.toInt)]

end SlotOutcome
