import SlotOutcome.Json.Token

/-!
# JSON texts as trees

`Tree` is a JSON text without its spaces: members stand in their written order, a key may be
repeated, and literals that denote nothing are kept (see `SlotOutcome.Json.Token`). Records with
named fields are written and read through it, as their fields have a written order of their own;
free values are read from it into `Json` (`Tree.toJson?`) and written through it (`Json.toTree`).

## Main definitions

* `Tree`, `Tree.tokens`, `Tree.text`: trees and their written form.
* `Tree.ofTokens?`, `Tree.ofBytes?`, `Tree.ofString?`: reading.
* `Tree.toJson?`, `Json.toTree`, `Json.text`: values as trees.
* `containerLimit`: how deep the containers of a text may nest.
-/

namespace SlotOutcome

mutual

/-- A JSON text without its spaces. -/
inductive Tree where
  | null
  | bool (value : Bool)
  | num (value : Option Number)
  | str (value : Option String)
  | arr (items : List Tree)
  | obj (fields : Fields)

/-- The members of an object in their written order. -/
inductive Fields where
  | nil
  | cons (key : Option String) (value : Tree) (rest : Fields)

end

instance : Inhabited Tree := ⟨.null⟩

namespace Fields

/-- Keys and values, in their written order. -/
def toList : Fields → List (Option String × Tree)
  | nil => []
  | cons key value rest => (key, value) :: rest.toList

/-- Members with the given keys. -/
def ofList : List (String × Tree) → Fields
  | [] => nil
  | (key, value) :: rest => cons (some key) value (ofList rest)

end Fields

/-! ### Writing -/

mutual

/-- The tokens of a tree. -/
def Tree.tokens : Tree → List Token
  | .null => [.null]
  | .bool b => [.bool b]
  | .num n => [.num n]
  | .str s => [.str s]
  | .arr items => .openArray :: itemTokens items
  | .obj fields => .openObject :: fieldTokens fields

/-- The tokens of the items of an array, with the closing bracket. -/
def itemTokens : List Tree → List Token
  | [] => [.closeArray]
  | item :: rest => item.tokens ++ moreItemTokens rest

/-- The tokens after an item of an array. -/
def moreItemTokens : List Tree → List Token
  | [] => [.closeArray]
  | item :: rest => .comma :: (item.tokens ++ moreItemTokens rest)

/-- The tokens of the members of an object, with the closing brace. -/
def fieldTokens : Fields → List Token
  | .nil => [.closeObject]
  | .cons key value rest => .str key :: .colon :: (value.tokens ++ moreFieldTokens rest)

/-- The tokens after a member of an object. -/
def moreFieldTokens : Fields → List Token
  | .nil => [.closeObject]
  | .cons key value rest =>
    .comma :: .str key :: .colon :: (value.tokens ++ moreFieldTokens rest)

end

/-- The written form of a tree, without spaces. -/
def Tree.text (t : Tree) : String := String.ofList (t.tokens.flatMap Token.chars)

/-- The record with the given fields, in this order. -/
def Tree.record (fields : List (String × Tree)) : Tree := .obj (.ofList fields)

/-- The tree of a string. -/
def Tree.ofString (s : String) : Tree := .str (some s)

/-- The tree of an integer; see `Number.ofInt`. -/
def Tree.ofInt (i : Int) : Tree := .num (some (.ofInt i))

/-- The tree of a natural number; see `Number.ofInt`. -/
def Tree.ofNat (n : Nat) : Tree := .num (some (.ofInt n))

/-- The tree of a list of natural numbers. -/
def Tree.ofNats (ns : List Nat) : Tree := .arr (ns.map .ofNat)

mutual

/-- The tree of a value. -/
def Json.toTree : Json → Tree
  | .null => .null
  | .bool b => .bool b
  | .num n => .num (some n)
  | .str s => .str (some s)
  | .arr items => .arr (Json.toTrees items)
  | .obj members => .obj members.toFields

/-- The trees of values. -/
def Json.toTrees : List Json → List Tree
  | [] => []
  | item :: rest => item.toTree :: Json.toTrees rest

/-- The members of an object as written. -/
def Members.toFields : {above : Option String} → Members above → Fields
  | _, .nil => .nil
  | _, .cons key value _ rest => .cons (some key) value.toTree rest.toFields

end

/-- The written form of a value: without spaces, members in the order of their keys. -/
def Json.text (j : Json) : String := j.toTree.text

/-! ### Reading -/

mutual

/-- The tree at the front of a list of tokens, and the tokens after it. -/
def Tree.parse : Nat → List Token → Option (Tree × List Token)
  | 0, _ => none
  | fuel + 1, tokens =>
    match tokens with
    | .null :: rest => some (.null, rest)
    | .bool b :: rest => some (.bool b, rest)
    | .num n :: rest => some (.num n, rest)
    | .str s :: rest => some (.str s, rest)
    | .openArray :: .closeArray :: rest => some (.arr [], rest)
    | .openArray :: rest => do
      let (items, rest) ← parseItems fuel rest
      some (.arr items, rest)
    | .openObject :: .closeObject :: rest => some (.obj .nil, rest)
    | .openObject :: rest => do
      let (fields, rest) ← parseFields fuel rest
      some (.obj fields, rest)
    | _ => none

/-- Items up to the closing bracket; there is at least one. -/
def parseItems : Nat → List Token → Option (List Tree × List Token)
  | 0, _ => none
  | fuel + 1, tokens => do
    let (item, rest) ← Tree.parse fuel tokens
    match rest with
    | .closeArray :: rest => some ([item], rest)
    | .comma :: rest => do
      let (items, rest) ← parseItems fuel rest
      some (item :: items, rest)
    | _ => none

/-- Members up to the closing brace; there is at least one. -/
def parseFields : Nat → List Token → Option (Fields × List Token)
  | 0, _ => none
  | fuel + 1, tokens =>
    match tokens with
    | .str key :: .colon :: rest => do
      let (value, rest) ← Tree.parse fuel rest
      match rest with
      | .closeObject :: rest => some (.cons key value .nil, rest)
      | .comma :: rest => do
        let (fields, rest) ← parseFields fuel rest
        some (.cons key value fields, rest)
      | _ => none
    | _ => none

end

namespace Tree

/-- The tree that a list of tokens spells. Every call takes a token or is the first on an item,
so two steps per token are enough. -/
def ofTokens? (tokens : List Token) : Option Tree :=
  match parse (2 * tokens.length + 1) tokens with
  | some (tree, []) => some tree
  | _ => none

/-- The tree of a text given by its bytes. -/
def ofBytes? (bytes : List UInt8) : Option Tree := (Token.scan bytes).bind ofTokens?

/-- The tree of a text. -/
def ofString? (s : String) : Option Tree := ofBytes? s.toUTF8.toList

end Tree

/-- How many containers of a text may stand inside one another. -/
def containerLimit : Nat := 127

mutual

/-- The value of a tree whose containers nest at most `depth` deep. Of the values of a repeated
key the last counts. -/
def Tree.toJson? : Tree → Nat → Option Json
  | .null, _ => some .null
  | .bool b, _ => some (.bool b)
  | .num n, _ => n.map .num
  | .str s, _ => s.map .str
  | .arr items, depth + 1 => (itemsToJson? items depth).map .arr
  | .obj fields, depth + 1 => (fieldsToJson? fields depth .nil).map .obj
  | .arr _, 0 => none
  | .obj _, 0 => none

/-- The values of the items of an array. -/
def itemsToJson? : List Tree → Nat → Option (List Json)
  | [], _ => some []
  | item :: rest, depth => do
    let value ← item.toJson? depth
    let values ← itemsToJson? rest depth
    some (value :: values)

/-- The members of an object, added to those that came before. -/
def fieldsToJson? : Fields → Nat → Members none → Option (Members none)
  | .nil, _, members => some members
  | .cons key value rest, depth, members => do
    let key ← key
    let value ← value.toJson? depth
    fieldsToJson? rest depth (members.insert key value)

end

/-- The value of a text. -/
def Json.ofString? (s : String) : Option Json := do
  (← Tree.ofString? s).toJson? containerLimit

end SlotOutcome
