/-!
# The characters of a YAML text

The layout of a YAML text carries meaning, so every character is kept together with its place. All
line breaks but the two of Unicode's own are read as the line feed, and a text ends with a mark
that stands for no character of it.

## Main definitions

* `Glyph`, `Glyph.ofText?`.
* `isSpace`, `isBreak`, `isEnd`, `endsWord`: classes of characters.
-/

namespace SlotOutcome

namespace Yaml

/-- A character and where it stands. -/
structure Glyph where
  char : Char
  /-- How many characters stand before it in the text. -/
  index : Nat
  line : Nat
  /-- How many characters stand before it in its line. -/
  column : Nat
deriving DecidableEq, Repr

/-- The mark after the last character. A text does not contain it. -/
def endMark : Char := '\x00'

/-- The character that may announce a Unicode text. -/
def byteOrderMark : Char := '\ufeff'

/-- A space or a tab. -/
def isSpace (c : Char) : Bool := c == ' ' || c == '\t'

/-- A line break, once the others are read as the line feed. -/
def isBreak (c : Char) : Bool := c == '\n' || c == '\u2028' || c == '\u2029'

/-- The end of the text. -/
def isEnd (c : Char) : Bool := c == endMark

/-- A character that ends a line or the text. -/
def endsLine (c : Char) : Bool := isBreak c || isEnd c

/-- A character that ends a word. -/
def endsWord (c : Char) : Bool := isSpace c || endsLine c

/-- Whether a text may contain a character: no control characters but tab and line breaks. -/
def isAllowed (c : Char) : Bool :=
  let n := c.toNat
  n == 0x09 || n == 0x0a || n == 0x0d || (0x20 ≤ n && n ≤ 0x7e) || n == 0x85 ||
    (0xa0 ≤ n && n != 0xfffe && n != 0xffff)

namespace Glyph

/-- The characters of a text from a place on. -/
def placed (index line column : Nat) : List Char → List Glyph
  | [] => [⟨endMark, index, line, column⟩]
  | '\r' :: '\n' :: rest => ⟨'\n', index, line, column⟩ :: placed (index + 2) (line + 1) 0 rest
  | c :: rest =>
    if c = '\r' ∨ c = '\u0085' ∨ isBreak c then
      ⟨if isBreak c then c else '\n', index, line, column⟩ :: placed (index + 1) (line + 1) 0 rest
    else ⟨c, index, line, column⟩ :: placed (index + 1) line (column + 1) rest

/-- The characters of a text, if it may contain them. -/
def ofText? (s : String) : Option (List Glyph) :=
  let cs := s.toList
  if cs.all isAllowed then some (placed 0 0 0 cs) else none

end Glyph

/-- The first character of the rest of a text. -/
def front : List Glyph → Char
  | [] => endMark
  | g :: _ => g.char

/-- Whether the rest of a text starts with a character three times, and then a word ends: a line
of this form starts or ends a document. -/
def startsMarker (c : Char) : List Glyph → Bool
  | a :: b :: d :: rest => a.char == c && b.char == c && d.char == c && endsWord (front rest)
  | _ => false

/-- Whether a document starts or ends here. -/
def atDocumentMarker (gs : List Glyph) : Bool :=
  match gs with
  | g :: _ => g.column == 0 && (startsMarker '-' gs || startsMarker '.' gs)
  | [] => false

end Yaml

end SlotOutcome
