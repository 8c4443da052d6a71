import SlotOutcome.Yaml.Token

/-!
# Nodes of a YAML text

A YAML text describes one tree of nodes: scalars, sequences, mappings and aliases. A node may have
an anchor, by which aliases refer to it, and a tag. This file reads the tree off the tokens of a
text. A node that is left out, such as the value of a key with nothing behind it, is the empty
scalar.

## Main definitions

* `Scalar`, `Node`, `Pairs`.
* `Node.parse`, `Node.ofTokens?`.
-/

namespace SlotOutcome

namespace Yaml

/-- A scalar with its tag, if it has one. -/
structure Scalar where
  tag : Option String
  style : Style
  text : String
deriving DecidableEq, Repr

/-- The scalar that stands for a node that is left out. -/
def Scalar.empty : Scalar := ⟨none, .plain, ""⟩

/-- Whether nothing is written for a scalar. -/
def Scalar.isEmpty (s : Scalar) : Bool := s.style == .plain && s.text.isEmpty

mutual

/-- A node; `α` is what anchors and aliases are known by. -/
inductive Node (α : Type) where
  | alias (target : α)
  | scalar (anchor : Option α) (scalar : Scalar)
  | seq (anchor : Option α) (tag : Option String) (items : List (Node α))
  | map (anchor : Option α) (tag : Option String) (pairs : Pairs α)

/-- The keys and values of a mapping, in the order of the text. -/
inductive Pairs (α : Type) where
  | nil
  | cons (key value : Node α) (rest : Pairs α)

end

namespace Pairs

variable {α : Type}

/-- The keys and values as a list. -/
def toList : Pairs α → List (Node α × Node α)
  | nil => []
  | cons key value rest => (key, value) :: rest.toList

end Pairs

/-- The handles of tags and what they stand for. -/
abbrev Handles := List (String × String)

/-- The handles that need no directive. -/
def Handles.standard : Handles := [("!", "!"), ("!!", "tag:yaml.org,2002:")]

/-- The tag that a handle and a suffix spell. A suffix without a handle is the tag itself. -/
def Handles.tag? (handles : Handles) (handle suffix : String) : Option String :=
  if handle.isEmpty then some suffix else (handles.lookup handle).map (· ++ suffix)

/-- The anchor and the tag of a node. -/
structure Marks where
  anchor : Option String
  tag : Option String

/-- The anchor and the tag at the front of a list of tokens: each at most once, in either order. -/
def Marks.parse? (handles : Handles) : List Token → Option (Marks × List Token)
  | .anchor name :: .tag handle suffix :: rest => do
    some (⟨some name, some (← handles.tag? handle suffix)⟩, rest)
  | .tag handle suffix :: .anchor name :: rest => do
    some (⟨some name, some (← handles.tag? handle suffix)⟩, rest)
  | .anchor name :: rest => some (⟨some name, none⟩, rest)
  | .tag handle suffix :: rest => do some (⟨none, some (← handles.tag? handle suffix)⟩, rest)
  | tokens => some (⟨none, none⟩, tokens)

/-- Where a node stands. -/
inductive Place where
  /-- Inside a flow collection, which holds no block collections. -/
  | flow
  /-- An item of a block sequence, or the whole text. -/
  | item
  /-- A key or value of a block mapping, which may be a sequence with the indentation of the
  mapping. -/
  | field
deriving DecidableEq, Repr

namespace Node

variable {α : Type}

/-- The node that is left out. -/
def empty : Node α := .scalar none .empty

/-- The node that `parse` reads, or the empty one if one of the tokens `stops` is next. -/
def orEmpty (stops : List Token) (parse : List Token → Option (Node α × List Token))
    (tokens : List Token) : Option (Node α × List Token) :=
  if tokens.head?.any stops.contains then some (empty, tokens) else parse tokens

mutual

/-- The node at the front of a list of tokens, and the tokens after it. The tag that is only an
exclamation mark says nothing of a scalar. -/
def parse (handles : Handles) :
    Nat → Place → List Token → Option (Node String × List Token)
  | 0, _, _ => none
  | _ + 1, _, .alias name :: rest => some (.alias name, rest)
  | fuel + 1, place, tokens => do
    let (⟨anchor, tag⟩, tokens) ← Marks.parse? handles tokens
    match place, tokens with
    | _, .scalar style text :: rest =>
      some (.scalar anchor ⟨if tag = some "!" then none else tag, style, text⟩, rest)
    | _, .openBracket :: rest => do
      let (items, rest) ← parseFlowItems handles fuel rest
      some (.seq anchor tag items, rest)
    | _, .openBrace :: rest => do
      let (pairs, rest) ← parseFlowPairs handles fuel rest
      some (.map anchor tag pairs, rest)
    | .field, .dash :: _ => do
      let (items, rest) ← parseItems handles true fuel tokens
      some (.seq anchor tag items, rest)
    | .item, .openItems :: rest | .field, .openItems :: rest => do
      let (items, rest) ← parseItems handles false fuel rest
      some (.seq anchor tag items, rest)
    | .item, .openFields :: rest | .field, .openFields :: rest => do
      let (pairs, rest) ← parsePairs handles fuel rest
      some (.map anchor tag pairs, rest)
    | _, tokens =>
      if anchor.isSome || tag.isSome then
        some (.scalar anchor { Scalar.empty with tag := tag }, tokens)
      else none

/-- The items of a block sequence; one with the indentation of the mapping around it has no token
for its end. -/
def parseItems (handles : Handles) (bare : Bool) :
    Nat → List Token → Option (List (Node String) × List Token)
  | 0, _ => none
  | fuel + 1, .dash :: rest => do
    let stops := if bare then [Token.dash, .key, .value, .closeBlock] else [.dash, .closeBlock]
    let (item, rest) ← orEmpty stops (parse handles fuel .item) rest
    let (items, rest) ← parseItems handles bare fuel rest
    some (item :: items, rest)
  | _ + 1, tokens =>
    if bare then some ([], tokens)
    else
      match tokens with
      | .closeBlock :: rest => some ([], rest)
      | _ => none

/-- The pairs of a block mapping. -/
def parsePairs (handles : Handles) : Nat → List Token → Option (Pairs String × List Token)
  | 0, _ => none
  | fuel + 1, .key :: rest => do
    let stops := [Token.key, .value, .closeBlock]
    let (key, rest) ← orEmpty stops (parse handles fuel .field) rest
    let (value, rest) ← match rest with
      | .value :: rest => orEmpty stops (parse handles fuel .field) rest
      | _ => some (empty, rest)
    let (pairs, rest) ← parsePairs handles fuel rest
    some (.cons key value pairs, rest)
  | _ + 1, .closeBlock :: rest => some (.nil, rest)
  | _ + 1, _ => none

/-- The items of a flow sequence. A key among them makes a mapping of one pair; if there is nothing
between the mark of the key and the next token, that token is skipped. -/
def parseFlowItems (handles : Handles) : Nat → List Token → Option (List (Node String) × List Token)
  | 0, _ => none
  | _ + 1, .closeBracket :: rest => some ([], rest)
  | fuel + 1, tokens => do
    let (item, rest) ← match tokens with
      | .key :: rest => do
        let (key, rest) ←
          if rest.head?.any [Token.value, .comma, .closeBracket].contains then
            some (empty, rest.tail)
          else parse handles fuel .flow rest
        let (value, rest) ← match rest with
          | .value :: rest => orEmpty [.comma, .closeBracket] (parse handles fuel .flow) rest
          | _ => some (empty, rest)
        some (.map none none (.cons key value .nil), rest)
      | _ => parse handles fuel .flow tokens
    match rest with
    | .closeBracket :: rest => some ([item], rest)
    | .comma :: rest => do
      let (items, rest) ← parseFlowItems handles fuel rest
      some (item :: items, rest)
    | _ => none

/-- The pairs of a flow mapping. A key may stand without the mark of a key, and then it has no
value. -/
def parseFlowPairs (handles : Handles) : Nat → List Token → Option (Pairs String × List Token)
  | 0, _ => none
  | _ + 1, .closeBrace :: rest => some (.nil, rest)
  | fuel + 1, tokens => do
    let (key, value, rest) ← match tokens with
      | .key :: rest => do
        let (key, rest) ← orEmpty [.value, .comma, .closeBrace] (parse handles fuel .flow) rest
        let (value, rest) ← match rest with
          | .value :: rest => orEmpty [.comma, .closeBrace] (parse handles fuel .flow) rest
          | _ => some (empty, rest)
        some (key, value, rest)
      | _ => do
        let (key, rest) ← parse handles fuel .flow tokens
        some (key, empty, rest)
    match rest with
    | .closeBrace :: rest => some (.cons key value .nil, rest)
    | .comma :: rest => do
      let (pairs, rest) ← parseFlowPairs handles fuel rest
      some (.cons key value pairs, rest)
    | _ => none

end

/-- The node that a list of tokens starts with. Every call takes a token or is the first on an
item, so two steps per token are enough. -/
def first? (handles : Handles) (tokens : List Token) : Option (Node String × List Token) :=
  parse handles (2 * tokens.length + 1) .item tokens

/-- The directives at the front of a list of tokens: the handles that they declare, added to those
declared before. A version may be named once, and it is 1.1 or 1.2; a handle may be declared
once. -/
def directives? (version : Bool) (handles : Handles) : List Token → Option (Handles × List Token)
  | .version major minor :: rest =>
    if version || major != 1 || (minor != 1 && minor != 2) then none
    else directives? true handles rest
  | .handle handle stem :: rest =>
    if (handles.lookup handle).isSome then none
    else directives? version ((handle, stem) :: handles) rest
  | tokens => some (handles, tokens)

/-- Whether a token stands before or between documents. -/
def isOutside : Token → Bool
  | .version _ _ | .handle _ _ | .documentStart | .documentEnd => true
  | _ => false

/-- The tree that the tokens of a text describe. The empty text describes the empty scalar, and a
text of several documents describes no tree. -/
def ofTokens? (tokens : List Token) : Option (Node String) := do
  let (node, rest) ← match tokens with
    | [] => some (empty, [])
    | .version _ _ :: _ | .handle _ _ :: _ | .documentStart :: _ => do
      let (handles, rest) ← directives? false [] tokens
      match rest with
      | .documentStart :: rest =>
        if rest.head?.all isOutside then some (empty, rest)
        else first? (handles ++ Handles.standard) rest
      | _ => none
    | _ => first? Handles.standard tokens
  if rest.all (· == .documentEnd) then some node else none

end Node

end Yaml

end SlotOutcome
