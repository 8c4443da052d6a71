import SlotOutcome.Decimal.Rounding

/-!
# JSON values in normal form

Parameters and ledger payloads are JSON values of any shape. Two values are the same exactly when
they are equal as terms: a number keeps its kind, and the members of an object stand in strictly
increasing order of their keys. The order is part of the type: `Members above` holds members
whose keys all come after the key `above`, so that an object with a repeated key or with keys out
of order cannot be written down.

Keys are compared by code points, which is the order of their UTF-8 bytes.

## Main definitions

* `Number`: an integer of 64 bits, signed or not, or a finite double.
* `Json`, `Members`: values, and the members of an object.
* `Members.get?`, `Members.insertAbove`, `Members.erase`, `Members.filter`: the map operations.
* `Json.same`: equality of values up to the sign of zero.
-/

namespace SlotOutcome

/-- A JSON number. The kinds are kept apart: `2` and `2.0` are different numbers. -/
inductive Number where
  /-- An integer that fits 64 bits, with a sign or without. -/
  | int (value : Int) (bounds : -0x8000000000000000 ≤ value ∧ value < 0x10000000000000000)
  /-- A finite double. -/
  | float (value : FiniteFloat)
deriving DecidableEq

namespace Number

/-- An integer as a number, if it fits 64 bits. -/
def ofInt? (i : Int) : Option Number :=
  if h : -0x8000000000000000 ≤ i ∧ i < 0x10000000000000000 then some (int i h) else none

/-- An integer as a number; one that does not fit 64 bits is taken modulo `2 ^ 64`. -/
def ofInt (i : Int) : Number :=
  if h : -0x8000000000000000 ≤ i ∧ i < 0x10000000000000000 then int i h
  else int (i % 0x10000000000000000) (by omega)

/-- The integer of a number of integer kind. -/
def toInt? : Number → Option Int
  | int i _ => some i
  | float _ => none

/-- The double nearest to a number. -/
def toFloat : Number → Float
  | int i _ => (Decimal.round ⟨decide (i < 0), i.natAbs, 0⟩).elim 0 FiniteFloat.toFloat
  | float x => x.toFloat

/-- Equality of kind and of the number denoted. -/
def same : Number → Number → Bool
  | int i _, int j _ => i == j
  | float x, float y => x.sameNumber y
  | _, _ => false

end Number

/-- The key comes after the bound, if there is a bound. -/
def Above : Option String → String → Prop
  | none, _ => True
  | some bound, key => bound < key

instance : (above : Option String) → (key : String) → Decidable (Above above key)
  | none, _ => isTrue trivial
  | some bound, key => inferInstanceAs (Decidable (bound < key))

mutual

/-- A JSON value in normal form. -/
inductive Json where
  | null
  | bool (value : Bool)
  | num (value : Number)
  | str (value : String)
  | arr (items : List Json)
  | obj (members : Members none)

/-- Object members in increasing order of their keys, all of them after `above`. -/
inductive Members : Option String → Type where
  | nil {above : Option String} : Members above
  | cons {above : Option String} (key : String) (value : Json) (isAbove : Above above key)
      (rest : Members (some key)) : Members above

end

instance : Inhabited Json := ⟨.null⟩

instance (above : Option String) : Inhabited (Members above) := ⟨.nil⟩

namespace Members

variable {above : Option String}

/-- The value of a key. -/
def get? : {above : Option String} → Members above → String → Option Json
  | _, nil, _ => none
  | _, cons k v _ rest, key => if key = k then some v else rest.get? key

/-- Whether a key has a value. -/
def contains (m : Members above) (key : String) : Bool := (m.get? key).isSome

/-- Keys and values, in the order of the keys. -/
def toList : {above : Option String} → Members above → List (String × Json)
  | _, nil => []
  | _, cons k v _ rest => (k, v) :: rest.toList

/-- The keys, in increasing order. -/
def keys (m : Members above) : List String := m.toList.map Prod.fst

/-- How many members there are. -/
def size (m : Members above) : Nat := m.toList.length

/-- Whether there are no members. -/
def isEmpty : Members above → Bool
  | nil => true
  | cons .. => false

/-- Members after one key are members after any earlier bound. -/
def lower {bound : String} (h : Above above bound) : Members (some bound) → Members above
  | nil => nil
  | cons k v above' rest => cons k v
      (match above, h with
        | none, _ => trivial
        | some _, h => String.lt_trans h above') rest

/-- Members with one more member, or with the value of a key replaced. -/
def insertAbove (key : String) (value : Json) :
    {above : Option String} → Members above → Above above key → Members above
  | _, nil, h => cons key value h nil
  | _, cons k v hk rest, h =>
    if key = k then cons k value hk rest
    else if hlt : key < k then cons key value h (cons k v hlt rest)
    else if hgt : k < key then cons k v hk (rest.insertAbove key value hgt)
    else cons k v hk rest

/-- Members without a key. -/
def erase (key : String) : {above : Option String} → Members above → Members above
  | _, nil => nil
  | _, cons k v hk rest => if key = k then rest.lower hk else cons k v hk (rest.erase key)

/-- The members whose keys satisfy a predicate. -/
def filter (p : String → Bool) : {above : Option String} → Members above → Members above
  | _, nil => nil
  | _, cons k v hk rest =>
    if p k then cons k v hk (rest.filter p) else (rest.filter p).lower hk

/-- Object members with one more member, or with the value of a key replaced. -/
def insert (m : Members none) (key : String) (value : Json) : Members none :=
  m.insertAbove key value trivial

/-- Object members from a list of keys and values; the last value of a key counts. -/
def ofList (fields : List (String × Json)) : Members none :=
  fields.foldl (fun m field => m.insert field.1 field.2) nil

end Members

namespace Json

/-- The object with the given fields; the last value of a key counts. -/
def ofFields (fields : List (String × Json)) : Json := obj (.ofList fields)

/-- An integer; see `Number.ofInt`. -/
def ofInt (i : Int) : Json := num (.ofInt i)

/-- A natural number; see `Number.ofInt`. -/
def ofNat (n : Nat) : Json := num (.ofInt n)

/-- A double; infinities and NaN have no number and become null. -/
def ofFloat (x : Float) : Json :=
  match FiniteFloat.ofFloat? x with
  | some x => num (.float x)
  | none => null

/-- A list of natural numbers. -/
def ofNats (ns : List Nat) : Json := arr (ns.map ofNat)

/-- A list of texts. -/
def ofStrings (texts : List String) : Json := arr (texts.map str)

mutual

/-- Equality of values in which the two zeros of a double are equal. -/
def same : Json → Json → Bool
  | null, null => true
  | bool a, bool b => a == b
  | num a, num b => a.same b
  | str a, str b => a == b
  | arr a, arr b => sameItems a b
  | obj a, obj b => sameMembers a b
  | _, _ => false

/-- `Json.same` item by item. -/
def sameItems : List Json → List Json → Bool
  | [], [] => true
  | x :: xs, y :: ys => x.same y && sameItems xs ys
  | _, _ => false

/-- `Json.same` member by member. -/
def sameMembers :
    {above above' : Option String} → Members above → Members above' → Bool
  | _, _, .nil, .nil => true
  | _, _, .cons k v _ rest, .cons k' v' _ rest' => k == k' && v.same v' && sameMembers rest rest'
  | _, _, _, _ => false

end

end Json

end SlotOutcome
