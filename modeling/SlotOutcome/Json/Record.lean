import SlotOutcome.Json.Tree

/-!
# Records in JSON texts

A record type has named fields in a fixed order. Its text is an object with these names as keys,
in any order, or an array of the field values in their order. A field that is named twice is an
error. Members with other names are skipped unread, or refused where the record is strict.

## Main definitions

* `Tree.fields?`: the values of named fields.
* `Tree.toNat?`, `Tree.toInt?`, `Tree.toText?`, …: single values.
-/

namespace SlotOutcome

namespace Fields

/-- The value of a field in a list of members: `none` when the field is named more than once. -/
def only? (name : String) (members : List (Option String × Tree)) : Option (Option Tree) :=
  match members.filter (fun member => member.1 == some name) with
  | [] => some none
  | [member] => some (some member.2)
  | _ => none

end Fields

namespace Tree

/-- The values of the named fields of a record, in the order of the names; a field that is left
out has no value. -/
def fields? (strict : Bool) (names : List String) : Tree → Option (List (Option Tree))
  | arr items =>
    if items.length ≤ names.length then
      some (items.map some ++ List.replicate (names.length - items.length) none)
    else none
  | obj fields =>
    let members := fields.toList
    if members.all fun member =>
        member.1.any fun key => !strict || names.contains key then
      names.mapM fun name => Fields.only? name members
    else none
  | _ => none

/-- The items of an array. -/
def items? : Tree → Option (List Tree)
  | arr items => some items
  | _ => none

/-- The text of a string. -/
def toText? : Tree → Option String
  | str s => s
  | _ => none

/-- A truth value. -/
def toBool? : Tree → Option Bool
  | bool b => some b
  | _ => none

/-- A number, if its literal denotes one. -/
def toNumber? : Tree → Option Number
  | num n => n
  | _ => none

/-- The integer of a number of integer kind. -/
def toInt? (t : Tree) : Option Int := t.toNumber?.bind Number.toInt?

/-- A natural number below a bound. -/
def toNatBelow? (bound : Nat) (t : Tree) : Option Nat :=
  (t.toInt?.filter fun i : Int => 0 ≤ i ∧ i < bound).map Int.toNat

/-- An unsigned integer of 32 bits. -/
def toUInt32? (t : Tree) : Option UInt32 := (t.toNatBelow? UInt32.size).map UInt32.ofNat

end Tree

end SlotOutcome
