import SlotOutcome.Yaml.Scalar

/-!
# Tokens of a YAML text

Splitting a YAML text into tokens also makes its layout explicit: where a block collection starts
and ends, there is a token for it, and the key of a member has one too, although no character of
the text says so before the colon behind it.

So a token that could turn out to be a key is remembered together with its place among the
tokens. When a colon follows, the tokens for the key, and for the block mapping that it may start,
are put in front of it after the fact. A key has to end in its line and within 1024 characters.

## Main definitions

* `Token`, `Token.scan?`.
* `Lexer`: how far the splitting of a text has come.
-/

namespace SlotOutcome

namespace Yaml

/-- A token of a YAML text. -/
inductive Token where
  /-- The version that a directive names. -/
  | version (major minor : Nat)
  /-- A handle for tags, and what it stands for. -/
  | handle (handle stem : String)
  | documentStart
  | documentEnd
  /-- The start of a block sequence. -/
  | openItems
  /-- The start of a block mapping. -/
  | openFields
  /-- The end of a block collection. -/
  | closeBlock
  | openBracket
  | closeBracket
  | openBrace
  | closeBrace
  | comma
  /-- The dash before an item of a block sequence. -/
  | dash
  /-- A key follows. -/
  | key
  /-- The value of a key follows. -/
  | value
  | alias (name : String)
  | anchor (name : String)
  | tag (handle suffix : String)
  | scalar (style : Style) (text : String)
deriving DecidableEq, Repr

/-- A place among the tokens where a key may start. -/
structure KeyStart where
  /-- Whether it has to be a key, because it starts a line of a block mapping. -/
  required : Bool
  /-- How many tokens come before it. -/
  place : Nat
  index : Nat
  line : Nat
  column : Nat

/-- How far the splitting of a text has come. -/
structure Lexer where
  rest : List Glyph
  /-- The tokens so far, the latest first. -/
  tokens : List Token
  /-- The columns of the open block collections, the innermost first. -/
  indents : List Nat
  /-- Where a key may start on the current level of flow collections. -/
  start : Option KeyStart
  /-- The same for the levels outside. -/
  outer : List (Option KeyStart)
  /-- Whether a key may start here. -/
  keyAllowed : Bool

namespace Lexer

/-- Whether the lexer is inside a flow collection. -/
def inFlow (l : Lexer) : Bool := !l.outer.isEmpty

/-- The least column that lies within the innermost block collection as a continuation. -/
def margin (l : Lexer) : Nat :=
  match l.indents with
  | [] => 0
  | column :: _ => column + 1

/-- The lexer with one more token. -/
def emit (l : Lexer) (t : Token) : Lexer := { l with tokens := t :: l.tokens }

/-- The lexer without the next characters. -/
def skip (l : Lexer) (count : Nat) : Lexer := { l with rest := l.rest.drop count }

/-- The lexer with a token put behind the first `place` ones. -/
def insertAt (l : Lexer) (place : Nat) (t : Token) : Lexer :=
  let later := l.tokens.length - place
  { l with tokens := l.tokens.take later ++ t :: l.tokens.drop later }

/-- Opens a block collection at a column, unless the lexer is inside one that reaches as far or
inside a flow collection. -/
def openBlock (l : Lexer) (column place : Nat) (t : Token) : Lexer :=
  if l.inFlow || column < l.margin then l
  else { l.insertAt place t with indents := column :: l.indents }

/-- Closes the block collections further right than a column. -/
def closeBlocks (l : Lexer) (column : Nat) : Lexer :=
  if l.inFlow then l
  else
    let closed := l.indents.takeWhile (column < ·)
    { l with
      tokens := closed.map (fun _ => .closeBlock) ++ l.tokens
      indents := l.indents.drop closed.length }

/-- Closes all block collections. -/
def closeAllBlocks (l : Lexer) : Lexer :=
  if l.inFlow then l
  else { l with tokens := l.indents.map (fun _ => .closeBlock) ++ l.tokens, indents := [] }

/-- Gives up the place where a key may start, which fails if one has to. -/
def dropStart (l : Lexer) : Option Lexer :=
  if l.start.any KeyStart.required then none else some { l with start := none }

/-- Remembers that a key may start at a character. -/
def saveStart (l : Lexer) (g : Glyph) : Option Lexer := do
  if !l.keyAllowed then return l
  let l ← l.dropStart
  return { l with
    start := some {
      required := !l.inFlow && l.margin == g.column + 1
      place := l.tokens.length
      index := g.index
      line := g.line
      column := g.column } }

/-- Whether a key that starts there would have to have ended before a character. -/
def isStale (g : Glyph) (start : KeyStart) : Bool :=
  start.line < g.line || start.index + 1024 < g.index

/-- Gives up a start that is stale, which fails if a key has to start there. -/
def freshen (g : Glyph) : Option KeyStart → Option (Option KeyStart)
  | none => some none
  | some start =>
    if isStale g start then (if start.required then none else some none) else some (some start)

/-- Gives up all starts that are stale. -/
def dropStale (l : Lexer) (g : Glyph) : Option Lexer := do
  let start ← freshen g l.start
  let outer ← l.outer.mapM (freshen g)
  return { l with start := start, outer := outer }

/-- The text behind white space, comments and line breaks, and whether a key may start there. A
tab is no white space where a key may start in a block. -/
def skipBlanks (inFlow : Bool) : (inComment keyAllowed : Bool) → List Glyph → Bool × List Glyph
  | _, keyAllowed, [] => (keyAllowed, [])
  | inComment, keyAllowed, g :: rest =>
    if isBreak g.char then skipBlanks inFlow false (keyAllowed || !inFlow) rest
    else if isEnd g.char then (keyAllowed, g :: rest)
    else if inComment then skipBlanks inFlow true keyAllowed rest
    else if g.char = '#' then skipBlanks inFlow true keyAllowed rest
    else if g.char = ' ' then skipBlanks inFlow false keyAllowed rest
    else if g.char = '\t' && (inFlow || !keyAllowed) then skipBlanks inFlow false keyAllowed rest
    else if g.char = byteOrderMark && g.column = 0 then skipBlanks inFlow false keyAllowed rest
    else (keyAllowed, g :: rest)

/-! ### Names, tags and directives -/

/-- A character of a name. -/
def isNameChar (c : Char) : Bool := c.isAlphanum || c == '_' || c == '-'

/-- The characters at the front of a text that satisfy a predicate. -/
def takeText (p : Char → Bool) (gs : List Glyph) : String × List Glyph :=
  let (taken, rest) := gs.span fun g => p g.char
  (String.ofList (taken.map Glyph.char), rest)

/-- The name of an anchor or alias at the front of a text. -/
def scanName? (gs : List Glyph) : Option (String × List Glyph) :=
  let (name, rest) := takeText isNameChar gs
  let next := front rest
  if name.isEmpty then none
  else if endsWord next || ['?', ':', ',', ']', '\x7d', '%', '@', '`'].contains next then
    some (name, rest)
  else none

/-- A character that may stand in the text of a tag; the brackets and the comma only in a verbatim
one. -/
def isTagChar (verbatim : Bool) (c : Char) : Bool :=
  isNameChar c ||
    [';', '/', '?', ':', '@', '&', '=', '+', '$', '.', '%', '!', '~', '*', '\'', '(',
      ')'].contains c ||
    (verbatim && [',', '[', ']'].contains c)

/-- The bytes of the text of a tag at the front of a text. A percent sign and two hexadecimal digits
stand for a byte. -/
def tagBytes? (verbatim : Bool) : List Glyph → Option (List UInt8 × List Glyph)
  | a :: b :: c :: rest =>
    if a.char = '%' then do
      let byte := (← hexValue? b.char) * 16 + (← hexValue? c.char)
      let (bytes, rest) ← tagBytes? verbatim rest
      some (UInt8.ofNat byte :: bytes, rest)
    else if isTagChar verbatim a.char then do
      let (bytes, rest) ← tagBytes? verbatim (b :: c :: rest)
      some (String.utf8EncodeChar a.char ++ bytes, rest)
    else some ([], a :: b :: c :: rest)
  | a :: rest =>
    if a.char = '%' then none
    else if isTagChar verbatim a.char then do
      let (bytes, rest) ← tagBytes? verbatim rest
      some (String.utf8EncodeChar a.char ++ bytes, rest)
    else some ([], a :: rest)
  | [] => some ([], [])

/-- The text of a tag at the front of a text. -/
def scanTagText? (verbatim : Bool) (gs : List Glyph) : Option (String × List Glyph) := do
  let (bytes, rest) ← tagBytes? verbatim gs
  some (← String.fromUTF8? ⟨bytes.toArray⟩, rest)

/-- A handle of tags at the front of a text, which is an exclamation mark, and a name and another
one behind it or not. -/
def scanHandle? : List Glyph → Option (String × List Glyph)
  | g :: rest =>
    if g.char = '!' then
      let (name, rest) := takeText isNameChar rest
      if front rest = '!' then some ("!" ++ name ++ "!", rest.tail) else some ("!" ++ name, rest)
    else none
  | [] => none

/-- The tag at the front of a text: verbatim, with a named handle, or with the plain one. The tag
that is only an exclamation mark has no handle. -/
def scanTag? (inFlow : Bool) (gs : List Glyph) : Option (Token × List Glyph) := do
  let (token, rest) ←
    if front gs.tail = '<' then do
      let (text, rest) ← scanTagText? true (gs.drop 2)
      if text.isEmpty || front rest != '>' then none
      else some (.tag "" text, rest.tail)
    else do
      let (handle, rest) ← scanHandle? gs
      if handle != "!" && handle.endsWith "!" then do
        let (suffix, rest) ← scanTagText? false rest
        if suffix.isEmpty then none else some (.tag handle suffix, rest)
      else do
        let (more, rest) ← scanTagText? false rest
        let suffix := (handle.drop 1).toString ++ more
        some (if suffix.isEmpty then .tag "" "!" else .tag "!" suffix, rest)
  if endsWord (front rest) || (inFlow && front rest == ',') then some (token, rest) else none

/-- A number of a version at the front of a text, of at most nine digits. -/
def scanVersionNumber? (gs : List Glyph) : Option (Nat × List Glyph) := do
  let (digits, rest) := takeText Char.isDigit gs
  if 9 < digits.length then none else some (← digits.toNat?, rest)

/-- The text behind white space. -/
def skipSpaces (gs : List Glyph) : List Glyph := gs.dropWhile fun g => isSpace g.char

/-- The directive at the front of a text, behind its percent sign, and the text behind its line. -/
def scanDirective? (gs : List Glyph) : Option (Token × List Glyph) := do
  let (name, rest) := takeText isNameChar gs
  if !endsWord (front rest) then none
  let (token, rest) ← match name with
    | "YAML" => do
      let (major, rest) ← scanVersionNumber? (skipSpaces rest)
      if front rest != '.' then none
      let (minor, rest) ← scanVersionNumber? rest.tail
      some (.version major minor, rest)
    | "TAG" => do
      let (handle, rest) ← scanHandle? (skipSpaces rest)
      if handle != "!" && !handle.endsWith "!" then none
      if !isSpace (front rest) then none
      let (stem, rest) ← scanTagText? true (skipSpaces rest)
      if stem.isEmpty || !endsWord (front rest) then none
      some (.handle handle stem, rest)
    | _ => none
  some (token, ← skipLineEnd? rest)

/-! ### One token after another -/

/-- A token that stands for a whole node, or for a part of one that may start a key. -/
def node (l : Lexer) (g : Glyph) (scan : Option (Token × List Glyph)) : Option Lexer := do
  let l ← l.saveStart g
  let (token, rest) ← scan
  return { l.emit token with rest := rest, keyAllowed := false }

/-- A token that opens a flow collection. -/
def openFlow (l : Lexer) (g : Glyph) (t : Token) : Option Lexer := do
  let l ← l.saveStart g
  let l := (l.emit t).skip 1
  return { l with start := none, outer := l.start :: l.outer, keyAllowed := true }

/-- A token that closes a flow collection. -/
def closeFlow (l : Lexer) (t : Token) : Option Lexer := do
  let l ← l.dropStart
  let l := (l.emit t).skip 1
  match l.outer with
  | [] => return { l with keyAllowed := false }
  | start :: outer => return { l with start := start, outer := outer, keyAllowed := false }

/-- An indicator in a block that may start a collection of its own at its column. -/
def blockIndicator (l : Lexer) (g : Glyph) (opening : Token) : Option Lexer :=
  if l.inFlow then some l
  else if l.keyAllowed then some (l.openBlock g.column l.tokens.length opening)
  else none

/-- The dash of an item. -/
def dash (l : Lexer) (g : Glyph) : Option Lexer := do
  let l ← l.blockIndicator g .openItems
  let l ← l.dropStart
  return { (l.emit .dash).skip 1 with keyAllowed := true }

/-- The question mark of a key. -/
def key (l : Lexer) (g : Glyph) : Option Lexer := do
  let l ← l.blockIndicator g .openFields
  let l ← l.dropStart
  return { (l.emit .key).skip 1 with keyAllowed := !l.inFlow }

/-- The colon of a value. If a key may have started before it, one has. -/
def value (l : Lexer) (g : Glyph) : Option Lexer := do
  match l.start with
  | some start =>
    let l := l.insertAt start.place .key
    let l := l.openBlock start.column start.place .openFields
    return { (l.emit .value).skip 1 with start := none, keyAllowed := false }
  | none =>
    let l ← l.blockIndicator g .openFields
    return { (l.emit .value).skip 1 with keyAllowed := !l.inFlow }

/-- A directive or a document marker: it stands outside all collections. -/
def topLevel (l : Lexer) (t : Token) (rest : List Glyph) : Option Lexer := do
  let l ← l.closeAllBlocks.dropStart
  return { l.emit t with rest := rest, keyAllowed := false }

/-- A block scalar. -/
def blockScalar (l : Lexer) (literal : Bool) : Option Lexer := do
  let l ← l.dropStart
  let (text, rest) ← scanBlock literal l.margin l.rest.tail
  let style := if literal then Style.literal else .folded
  return { l.emit (.scalar style (String.ofList text)) with rest := rest, keyAllowed := true }

/-- A quoted scalar. -/
def quotedScalar (l : Lexer) (g : Glyph) (single : Bool) : Option Lexer :=
  let style := if single then Style.singleQuoted else .doubleQuoted
  l.node g ((scanQuoted single l.rest.tail).map fun (text, rest) =>
    (.scalar style (String.ofList text), rest))

/-- A plain scalar. -/
def plainScalar (l : Lexer) (g : Glyph) : Option Lexer := do
  let l ← l.saveStart g
  let scan ← scanPlain ⟨l.inFlow, l.margin⟩ l.rest
  return { l.emit (.scalar .plain (String.ofList scan.text)) with
    rest := scan.rest, keyAllowed := scan.broken }

/-- The indicators that no plain scalar starts with. -/
def isIndicator (c : Char) : Bool :=
  ['-', '?', ':', ',', '[', ']', '\x7b', '\x7d', '#', '&', '*', '!', '|', '>', '\'', '"', '%', '@',
    '`'].contains c

/-- Whether a plain scalar starts with a character that another one follows. -/
def startsPlain (inFlow : Bool) (c next : Char) : Bool :=
  !(endsWord c || isIndicator c) || (c == '-' && !isSpace next) ||
    (!inFlow && (c == '?' || c == ':') && !endsWord next)

/-- The token at a character that is neither white space nor the end of the text. -/
def token (l : Lexer) (g : Glyph) : Option Lexer :=
  let next := front l.rest.tail
  if g.column = 0 ∧ g.char = '%' then do
    let (t, rest) ← scanDirective? l.rest.tail
    l.topLevel t rest
  else if g.column = 0 ∧ startsMarker '-' l.rest then l.topLevel .documentStart (l.rest.drop 3)
  else if g.column = 0 ∧ startsMarker '.' l.rest then l.topLevel .documentEnd (l.rest.drop 3)
  else if g.char = '[' then l.openFlow g .openBracket
  else if g.char = '\x7b' then l.openFlow g .openBrace
  else if g.char = ']' then l.closeFlow .closeBracket
  else if g.char = '\x7d' then l.closeFlow .closeBrace
  else if g.char = ',' then do
    let l ← l.dropStart
    return { (l.emit .comma).skip 1 with keyAllowed := true }
  else if g.char = '-' ∧ endsWord next then l.dash g
  else if g.char = '?' ∧ (l.inFlow ∨ endsWord next) then l.key g
  else if g.char = ':' ∧ (l.inFlow ∨ endsWord next) then l.value g
  else if g.char = '*' then l.node g ((scanName? l.rest.tail).map fun n => (.alias n.1, n.2))
  else if g.char = '&' then l.node g ((scanName? l.rest.tail).map fun n => (.anchor n.1, n.2))
  else if g.char = '!' then l.node g (scanTag? l.inFlow l.rest)
  else if g.char = '|' ∧ !l.inFlow then l.blockScalar true
  else if g.char = '>' ∧ !l.inFlow then l.blockScalar false
  else if g.char = '\'' then l.quotedScalar g true
  else if g.char = '"' then l.quotedScalar g false
  else if startsPlain l.inFlow g.char next then l.plainScalar g
  else none

/-- The tokens of a text that needs at most `fuel` steps. -/
def run : Nat → Lexer → Option (List Token)
  | 0, _ => none
  | fuel + 1, l =>
    let (keyAllowed, rest) := skipBlanks l.inFlow false l.keyAllowed l.rest
    match rest with
    | [] => none
    | g :: _ => do
      let l ← { l with rest := rest, keyAllowed := keyAllowed }.dropStale g
      let l := l.closeBlocks g.column
      if isEnd g.char then return (← l.closeAllBlocks.dropStart).tokens.reverse
      run fuel (← l.token g)

end Lexer

/-- The tokens of a text. Every step but the last takes a character. -/
def Token.scan? (s : String) : Option (List Token) := do
  let gs ← Glyph.ofText? s
  Lexer.run (gs.length + 1) ⟨gs, [], [], none, [], true⟩

end Yaml

end SlotOutcome
