import SlotOutcome.Yaml.Glyph

/-!
# Scalars of a YAML text

A scalar is a text that is written in one of five styles. In the flow styles (plain and quoted)
line breaks are folded: a single one counts as a space, and of several the first is dropped. In
the block styles lines are kept as they are (literal) or folded (folded), and a header says how
far the lines are indented and what becomes of the last line breaks.

## Main definitions

* `Style`, `Gap`: the five styles; white space between words.
* `scanPlain`, `scanQuoted`, `scanBlock`: the scalar at the front of a text.
-/

namespace SlotOutcome

namespace Yaml

/-- How a scalar is written. -/
inductive Style where
  | plain
  | singleQuoted
  | doubleQuoted
  | literal
  | folded
deriving DecidableEq, Repr

/-- White space between two words of a flow scalar. -/
inductive Gap where
  /-- Spaces and tabs within a line. -/
  | spaces (spaces : List Char)
  /-- Line breaks: the first, which is missing if it was escaped, and the others. -/
  | breaks (first : Option Char) (more : List Char)

namespace Gap

/-- The gap with a space or a tab added; after a line break these are dropped. -/
def addSpace (c : Char) : Gap → Gap
  | spaces cs => spaces (cs ++ [c])
  | breaks first more => breaks first more

/-- The gap with a line break added. -/
def addBreak (c : Char) : Gap → Gap
  | spaces _ => breaks (some c) []
  | breaks first more => breaks first (more ++ [c])

/-- What a gap counts as. -/
def folded : Gap → List Char
  | spaces cs => cs
  | breaks none more => more
  | breaks (some '\n') [] => [' ']
  | breaks (some '\n') more => more
  | breaks (some c) more => c :: more

/-- Whether a gap goes over a line. -/
def isBroken : Gap → Bool
  | spaces _ => false
  | breaks .. => true

end Gap

/-! ### Plain scalars -/

/-- The characters that end a plain scalar inside a flow collection. -/
def isFlowIndicator (c : Char) : Bool :=
  c == ',' || c == '[' || c == ']' || c == '\x7b' || c == '\x7d'

/-- A plain scalar, whether a line break was skipped after it, and the text behind it. -/
structure PlainScan where
  text : List Char
  broken : Bool
  rest : List Glyph

/-- Where a plain scalar is written: inside a flow collection or not, and the least column of its
further lines in a block. -/
structure PlainContext where
  inFlow : Bool
  margin : Nat

/-- Whether a colon stands where a flow collection does not allow it. -/
def PlainContext.strayColon (k : PlainContext) (c next : Char) : Bool :=
  k.inFlow && c == ':' && (isFlowIndicator next || next == '?')

/-- Whether a plain scalar ends before a character. -/
def PlainContext.ends (k : PlainContext) (c next : Char) : Bool :=
  (c == ':' && endsWord next) || (k.inFlow && isFlowIndicator c)

mutual

/-- The rest of a plain scalar inside a word; `text` is what was read of it, the last character
first. -/
def plainWord (k : PlainContext) (text : List Char) : List Glyph → Option PlainScan
  | [] => some ⟨text, false, []⟩
  | g :: rest =>
    if isSpace g.char then plainGap k text (.spaces [g.char]) rest
    else if isBreak g.char then plainGap k text (.breaks (some g.char) []) rest
    else if isEnd g.char then some ⟨text, false, g :: rest⟩
    else if k.strayColon g.char (front rest) then none
    else if k.ends g.char (front rest) then some ⟨text, false, g :: rest⟩
    else plainWord k (g.char :: text) rest

/-- The rest of a plain scalar after a word and a gap. -/
def plainGap (k : PlainContext) (text : List Char) (gap : Gap) : List Glyph → Option PlainScan
  | [] => some ⟨text, gap.isBroken, []⟩
  | g :: rest =>
    let stop : PlainScan := ⟨text, gap.isBroken, g :: rest⟩
    if isSpace g.char then
      if gap.isBroken && g.char == '\t' && g.column < k.margin then none
      else plainGap k text (gap.addSpace g.char) rest
    else if isBreak g.char then plainGap k text (gap.addBreak g.char) rest
    else if !k.inFlow && g.column < k.margin then some stop
    else if atDocumentMarker (g :: rest) || g.char == '#' || isEnd g.char then some stop
    else if k.strayColon g.char (front rest) then none
    else if k.ends g.char (front rest) then some stop
    else plainWord k (g.char :: (gap.folded.reverse ++ text)) rest

end

/-- The plain scalar at the front of a text. -/
def scanPlain (k : PlainContext) (gs : List Glyph) : Option PlainScan :=
  (plainWord k [] gs).map fun scan => { scan with text := scan.text.reverse }

/-! ### Quoted scalars -/

/-- The value of a hexadecimal digit. -/
def hexValue? (c : Char) : Option Nat :=
  if '0' ≤ c ∧ c ≤ '9' then some (c.toNat - '0'.toNat)
  else if 'a' ≤ c ∧ c ≤ 'f' then some (c.toNat - 'a'.toNat + 10)
  else if 'A' ≤ c ∧ c ≤ 'F' then some (c.toNat - 'A'.toNat + 10)
  else none

/-- What a backslash and a character stand for: a character, or one that so many hexadecimal
digits give. -/
def escape? : Char → Option (Char ⊕ Nat)
  | '0' => some (.inl '\x00')
  | 'a' => some (.inl '\x07')
  | 'b' => some (.inl '\x08')
  | 't' => some (.inl '\t')
  | '\t' => some (.inl '\t')
  | 'n' => some (.inl '\n')
  | 'v' => some (.inl '\x0b')
  | 'f' => some (.inl '\x0c')
  | 'r' => some (.inl '\r')
  | 'e' => some (.inl '\x1b')
  | ' ' => some (.inl ' ')
  | '"' => some (.inl '"')
  | '/' => some (.inl '/')
  | '\\' => some (.inl '\\')
  | 'N' => some (.inl '\u0085')
  | '_' => some (.inl '\u00a0')
  | 'L' => some (.inl '\u2028')
  | 'P' => some (.inl '\u2029')
  | 'x' => some (.inr 2)
  | 'u' => some (.inr 4)
  | 'U' => some (.inr 8)
  | _ => none

/-- Where the reading of a quoted scalar stands. -/
inductive QuotedMode where
  | word
  | gap (gap : Gap)
  /-- After a backslash. -/
  | escape
  /-- Inside the hexadecimal digits of a character: how many are left, and their value so far. -/
  | hex (left value : Nat)
  /-- After a single quote. -/
  | quote

/-- The character of a code point. -/
def charOfCode? (code : Nat) : Option Char :=
  if code.isValidChar then some (Char.ofNat code) else none

/-- The rest of a quoted scalar whose opening quote was read, and the text behind its closing
quote; `text` is what was read of it, the last character first. -/
def quotedFrom (single : Bool) :
    QuotedMode → List Char → List Glyph → Option (List Char × List Glyph)
  | .quote, text, [] => some (text, [])
  | _, _, [] => none
  | mode, text, g :: rest =>
    let c := g.char
    /- A character of a word. -/
    let inWord (text : List Char) : Option (List Char × List Glyph) :=
      if isEnd c then none
      else if isSpace c then quotedFrom single (.gap (.spaces [c])) text rest
      else if isBreak c then quotedFrom single (.gap (.breaks (some c) [])) text rest
      else if single && c == '\'' then quotedFrom single .quote text rest
      else if !single && c == '"' then some (text, rest)
      else if !single && c == '\\' then quotedFrom single .escape text rest
      else quotedFrom single .word (c :: text) rest
    match mode with
    | .word => inWord text
    | .gap gap =>
      if isSpace c then quotedFrom single (.gap (gap.addSpace c)) text rest
      else if isBreak c then quotedFrom single (.gap (gap.addBreak c)) text rest
      else if atDocumentMarker (g :: rest) then none
      else inWord (gap.folded.reverse ++ text)
    | .escape =>
      if isBreak c then quotedFrom single (.gap (.breaks none [])) text rest
      else
        match escape? c with
        | some (.inl c) => quotedFrom single .word (c :: text) rest
        | some (.inr digits) => quotedFrom single (.hex digits 0) text rest
        | none => none
    | .hex left value =>
      match hexValue? c with
      | none => none
      | some digit =>
        let value := value * 16 + digit
        if left ≤ 1 then
          match charOfCode? value with
          | some c => quotedFrom single .word (c :: text) rest
          | none => none
        else quotedFrom single (.hex (left - 1) value) text rest
    | .quote =>
      if c = '\'' then quotedFrom single .word (c :: text) rest else some (text, g :: rest)

/-- The quoted scalar at the front of a text whose opening quote was read. -/
def scanQuoted (single : Bool) (gs : List Glyph) : Option (List Char × List Glyph) :=
  (quotedFrom single .word [] gs).map fun scan => (scan.1.reverse, scan.2)

/-! ### Block scalars -/

/-- What becomes of the line breaks at the end of a block scalar. -/
inductive Chomping where
  /-- None is kept. -/
  | strip
  /-- The first is kept. -/
  | clip
  /-- All are kept. -/
  | keep
deriving DecidableEq, Repr

/-- The header of a block scalar. -/
structure BlockHeader where
  chomping : Chomping
  /-- How much further than its parent the scalar is indented, if the header says so. -/
  increment : Option Nat

/-- The chomping that a character asks for. -/
def chomping? : Char → Option Chomping
  | '+' => some .keep
  | '-' => some .strip
  | _ => none

/-- The indentation that a character asks for. -/
def increment? (c : Char) : Option Nat :=
  if '1' ≤ c ∧ c ≤ '9' then some (c.toNat - '0'.toNat) else none

/-- The header at the front of a text, in one order or the other. -/
def blockHeader : List Glyph → BlockHeader × List Glyph
  | g :: rest =>
    match chomping? g.char, increment? g.char with
    | some chomping, _ =>
      match rest with
      | d :: rest' =>
        match increment? d.char with
        | some n => (⟨chomping, some n⟩, rest')
        | none => (⟨chomping, none⟩, rest)
      | [] => (⟨chomping, none⟩, [])
    | none, some n =>
      match rest with
      | s :: rest' =>
        match chomping? s.char with
        | some chomping => (⟨chomping, some n⟩, rest')
        | none => (⟨.clip, some n⟩, rest)
      | [] => (⟨.clip, some n⟩, [])
    | none, none => (⟨.clip, none⟩, g :: rest)
  | [] => (⟨.clip, none⟩, [])

/-- The text behind the end of a line that holds nothing but white space and a comment. -/
def skipLineEnd? (gs : List Glyph) : Option (List Glyph) :=
  let gs := gs.dropWhile fun g => isSpace g.char
  let gs := if front gs == '#' then gs.dropWhile fun g => !endsLine g.char else gs
  if isBreak (front gs) then some gs.tail
  else if endsLine (front gs) then some gs
  else none

/-- The empty lines before the first line of a block scalar whose header says nothing about its
indentation: their breaks, the greatest column reached, and the text behind them. -/
def leadingLines (breaks : List Char) (widest : Nat) :
    List Glyph → Option (List Char × Nat × List Glyph)
  | [] => some (breaks, widest, [])
  | g :: rest =>
    if g.char = ' ' then leadingLines breaks widest rest
    else if g.char = '\t' then none
    else if isBreak g.char then leadingLines (breaks ++ [g.char]) (max widest g.column) rest
    else some (breaks, max widest g.column, g :: rest)

/-- Where the reading of a block scalar stands. -/
inductive BlockMode where
  /-- In a line; `blank` tells whether it starts with white space. -/
  | line (blank : Bool)
  /-- Between lines: the break that ended the last line, the breaks after it, and whether that line
  starts with white space. -/
  | between (first : Option Char) (more : List Char) (blank : Bool)

/-- The lines of a block scalar. -/
structure BlockScan where
  text : List Char
  /-- The break that ends the last line. -/
  first : Option Char
  /-- The breaks after it. -/
  more : List Char
  rest : List Glyph

/-- The break between two lines: folded into a space if neither starts with white space. -/
def joinLines (literal : Bool) (first : Option Char) (more : List Char) (blank : Bool) :
    List Char :=
  if !literal && first == some '\n' && !blank then
    if more.isEmpty then [' '] else more
  else first.toList ++ more

/-- The rest of a block scalar whose lines are indented to a column; `text` is what was read of
it, the last character first. -/
def blockFrom (literal : Bool) (indent : Nat) :
    BlockMode → List Char → List Glyph → Option BlockScan
  | .line _, text, [] => some ⟨text, none, [], []⟩
  | .between first more _, text, [] => some ⟨text, first, more, []⟩
  | .line blank, text, g :: rest =>
    if isBreak g.char then blockFrom literal indent (.between (some g.char) [] blank) text rest
    else if isEnd g.char then some ⟨text, none, [], g :: rest⟩
    else blockFrom literal indent (.line blank) (g.char :: text) rest
  | .between first more blank, text, g :: rest =>
    if isSpace g.char && g.column < indent then
      if g.char = '\t' then none
      else blockFrom literal indent (.between first more blank) text rest
    else if isBreak g.char then
      blockFrom literal indent (.between first (more ++ [g.char]) blank) text rest
    else if g.column ≠ indent ∨ isEnd g.char then some ⟨text, first, more, g :: rest⟩
    else
      let starts := isSpace g.char
      let join := joinLines literal first more (blank || starts)
      blockFrom literal indent (.line starts) (g.char :: (join.reverse ++ text)) rest

/-- What is kept of the breaks at the end. -/
def BlockScan.tail (scan : BlockScan) : Chomping → List Char
  | .strip => []
  | .clip => scan.first.toList
  | .keep => scan.first.toList ++ scan.more

/-- The block scalar at the front of a text whose indicator was read; `margin` is the least column
that its lines can be indented to. -/
def scanBlock (literal : Bool) (margin : Nat) (gs : List Glyph) :
    Option (List Char × List Glyph) := do
  let (header, gs) := blockHeader gs
  let gs ← skipLineEnd? gs
  let (breaks, indent, gs) ← match header.increment with
    | some n => some ([], (margin - 1) + n, gs)
    | none => do
      let (breaks, widest, gs) ← leadingLines [] 0 gs
      some (breaks, max widest (max margin 1), gs)
  let scan ← blockFrom literal indent (.between none breaks false) [] gs
  some (scan.text.reverse ++ scan.tail header.chomping, scan.rest)

end Yaml

end SlotOutcome
