import SlotOutcome.Decimal.Layout
import SlotOutcome.Json.Basic

/-!
# Tokens of a JSON text

A JSON text is a sequence of bytes. This file splits it into tokens and writes tokens as text.

A literal can be well formed and still denote nothing: a number beyond the doubles, or a string
whose escapes or bytes spell no text. Whether that matters depends on who reads it, as a member
that nobody asks for is skipped unread. So the token of such a literal carries `none`, and a text
is refused here only for its form.

## Main definitions

* `Token`: punctuation, keywords and literals.
* `Token.chars`: the written form of a token, without spaces.
* `Token.next?`, `Token.scan`: the first token of a text, and all of them.

## Implementation notes

Bytes are read as characters below `256`; only those of ASCII have a meaning outside strings, and
inside strings bytes are kept as they are until the whole literal is known.
-/

namespace SlotOutcome

/-- A token of a JSON text. -/
inductive Token where
  | openObject
  | closeObject
  | openArray
  | closeArray
  | comma
  | colon
  | null
  | bool (value : Bool)
  /-- A number literal; `none` when it is too large for a double. -/
  | num (value : Option Number)
  /-- A string literal; `none` when it spells no text. -/
  | str (value : Option String)
deriving DecidableEq

/-! ### Number literals -/

/-- A decimal digit. -/
def isDigitByte (b : UInt8) : Bool := decide (48 ≤ b ∧ b ≤ 57)

/-- The natural number written by decimal digits, most significant first. -/
def natOfDigits (digits : List UInt8) : Nat :=
  digits.foldl (fun n b => 10 * n + (b.toNat - 48)) 0

/-- The parts of a number literal: sign, digits before and after the point, exponent. -/
structure NumberLiteral where
  negative : Bool
  whole : List UInt8
  fraction : Option (List UInt8)
  exponent : Option Int

namespace NumberLiteral

/-- The decimal that a literal denotes. -/
def toDecimal (l : NumberLiteral) : Decimal :=
  let fraction := l.fraction.getD []
  ⟨l.negative, natOfDigits (l.whole ++ fraction), l.exponent.getD 0 - fraction.length⟩

/-- The integer that a literal without point and exponent denotes, if it fits 64 bits. The literal
`-0` is no integer: it is the negative zero of the doubles. -/
def toInt? (l : NumberLiteral) : Option Number :=
  match l.fraction, l.exponent with
  | none, none =>
    let n := natOfDigits l.whole
    if l.negative then (if n = 0 then none else Number.ofInt? (-n)) else Number.ofInt? n
  | _, _ => none

/-- The number that a literal denotes: an integer where it can be one, else the nearest double. -/
def toNumber? (l : NumberLiteral) : Option Number :=
  l.toInt?.or (l.toDecimal.round.map .float)

/-- The exponent part at the front of a text: `e` or `E`, a sign or none, and digits. An `e` that
no digits follow makes the literal ill formed. -/
def scanExponent : List UInt8 → Option (Option Int × List UInt8)
  | b :: rest =>
    if b = 101 ∨ b = 69 then
      let (negative, rest) := match rest with
        | 43 :: rest => (false, rest)
        | 45 :: rest => (true, rest)
        | rest => (false, rest)
      match rest.span isDigitByte with
      | ([], _) => none
      | (digits, rest) =>
        let n : Int := natOfDigits digits
        some (some (if negative then -n else n), rest)
    else some (none, b :: rest)
  | [] => some (none, [])

/-- The fraction at the front of a text: a point and digits. -/
def scanFraction : List UInt8 → Option (Option (List UInt8) × List UInt8)
  | 46 :: rest =>
    match rest.span isDigitByte with
    | ([], _) => none
    | (digits, rest) => some (some digits, rest)
  | rest => some (none, rest)

/-- The number literal at the front of a text. A first digit zero stands alone. -/
def scan? (text : List UInt8) : Option (NumberLiteral × List UInt8) := do
  let (negative, text) := match text with
    | 45 :: rest => (true, rest)
    | text => (false, text)
  let (whole, text) ← match text.span isDigitByte with
    | ([], _) => none
    | (48 :: digit :: more, rest) => some ([48], digit :: more ++ rest)
    | (digits, rest) => some (digits, rest)
  let (fraction, text) ← scanFraction text
  let (exponent, text) ← scanExponent text
  some (⟨negative, whole, fraction, exponent⟩, text)

end NumberLiteral

/-- The written form of a number. -/
def Number.chars : Number → List Char
  | .int i _ =>
    if i < 0 then '-' :: decimalDigits i.natAbs else decimalDigits i.natAbs
  | .float x => x.text

/-! ### String literals -/

/-- What stands between the quotes of a string literal: a byte, or a code unit of sixteen bits
given by its four hexadecimal digits. -/
inductive StringPiece where
  | byte (b : UInt8)
  | unit (u : Nat)

/-- The value of a hexadecimal digit of either case. -/
def hexDigit? (b : UInt8) : Option Nat :=
  if 48 ≤ b ∧ b ≤ 57 then some (b.toNat - 48)
  else if 97 ≤ b ∧ b ≤ 102 then some (b.toNat - 87)
  else if 65 ≤ b ∧ b ≤ 70 then some (b.toNat - 55)
  else none

/-- The byte that an escape of one letter stands for. -/
def escapedByte? (b : UInt8) : Option UInt8 :=
  match Char.ofNat b.toNat with
  | '"' => some 34
  | '\\' => some 92
  | '/' => some 47
  | 'b' => some 8
  | 'f' => some 12
  | 'n' => some 10
  | 'r' => some 13
  | 't' => some 9
  | _ => none

namespace StringPiece

/-- The pieces of a string literal whose opening quote has been read, and the text after its
closing quote. Control characters have to be escaped. -/
def scan? : List UInt8 → Option (List StringPiece × List UInt8)
  | [] => none
  | 34 :: rest => some ([], rest)
  | 92 :: 117 :: a :: b :: c :: d :: rest => do
    let unit := ((← hexDigit? a) * 16 + (← hexDigit? b)) * 256 +
      (← hexDigit? c) * 16 + (← hexDigit? d)
    let (pieces, rest) ← scan? rest
    some (.unit unit :: pieces, rest)
  | 92 :: e :: rest => do
    let b ← escapedByte? e
    let (pieces, rest) ← scan? rest
    some (.byte b :: pieces, rest)
  | b :: rest => do
    guard (32 ≤ b ∧ b ≠ 92)
    let (pieces, rest) ← scan? rest
    some (.byte b :: pieces, rest)

/-- The UTF-8 bytes of the code point with a given number. -/
def bytesOfCode (code : Nat) : List UInt8 := String.utf8EncodeChar (Char.ofNat code)

/-- The bytes that pieces spell. The two halves of a surrogate pair have to stand together and in
order. -/
def bytes? : List StringPiece → Option (List UInt8)
  | [] => some []
  | .byte b :: rest => (bytes? rest).map (b :: ·)
  | .unit u :: rest =>
    if u < 0xd800 ∨ 0xdfff < u then (bytes? rest).map (bytesOfCode u ++ ·)
    else match rest with
      | .unit v :: rest =>
        if u < 0xdc00 ∧ 0xdc00 ≤ v ∧ v ≤ 0xdfff then
          (bytes? rest).map (bytesOfCode (0x10000 + (u - 0xd800) * 0x400 + (v - 0xdc00)) ++ ·)
        else none
      | _ => none

/-- The text that pieces spell, if their bytes are well-formed UTF-8. -/
def text? (pieces : List StringPiece) : Option String := do
  String.fromUTF8? (ByteArray.mk (← bytes? pieces).toArray)

end StringPiece

/-- The hexadecimal digits of a number below sixteen. -/
def lowerHexDigit (n : Nat) : Char := Nat.digitChar n

/-- The written form of a character inside a string literal. -/
def escapedChar (c : Char) : List Char :=
  if c = '"' then ['\\', '"']
  else if c = '\\' then ['\\', '\\']
  else if 32 ≤ c.toNat then [c]
  else match c.toNat with
    | 8 => ['\\', 'b']
    | 9 => ['\\', 't']
    | 10 => ['\\', 'n']
    | 12 => ['\\', 'f']
    | 13 => ['\\', 'r']
    | n => ['\\', 'u', '0', '0', lowerHexDigit (n / 16), lowerHexDigit (n % 16)]

/-- The written form of a text as a string literal. -/
def stringChars (s : String) : List Char := '"' :: (s.toList.flatMap escapedChar ++ ['"'])

/-! ### Tokens -/

namespace Token

/-- The written form of a token. A literal that denotes nothing is written as one that does not. -/
def chars : Token → List Char
  | openObject => ['\x7b']
  | closeObject => ['\x7d']
  | openArray => ['[']
  | closeArray => [']']
  | comma => [',']
  | colon => [':']
  | null => ['n', 'u', 'l', 'l']
  | bool true => ['t', 'r', 'u', 'e']
  | bool false => ['f', 'a', 'l', 's', 'e']
  | num (some n) => n.chars
  | num none => ['1', 'e', '9', '9', '9']
  | str (some s) => stringChars s
  | str none => ['"', '\\', 'u', 'd', '8', '0', '0', '"']

/-- White space between tokens. -/
def isBlankByte (b : UInt8) : Bool := b == 32 || b == 9 || b == 10 || b == 13

/-- The token at the front of a text that starts with no white space. -/
def next? (text : List UInt8) : Option (Token × List UInt8) :=
  match text with
  | [] => none
  | b :: rest =>
    match Char.ofNat b.toNat with
    | '\x7b' => some (openObject, rest)
    | '\x7d' => some (closeObject, rest)
    | '[' => some (openArray, rest)
    | ']' => some (closeArray, rest)
    | ',' => some (comma, rest)
    | ':' => some (colon, rest)
    | 'n' => if rest.take 3 = [117, 108, 108] then some (null, rest.drop 3) else none
    | 't' => if rest.take 3 = [114, 117, 101] then some (bool true, rest.drop 3) else none
    | 'f' =>
      if rest.take 4 = [97, 108, 115, 101] then some (bool false, rest.drop 4) else none
    | '"' => do
      let (pieces, rest) ← StringPiece.scan? rest
      some (str (StringPiece.text? pieces), rest)
    | _ => do
      let (literal, rest) ← NumberLiteral.scan? text
      some (num literal.toNumber?, rest)

/-- The tokens of a text that needs at most `fuel` steps. -/
def scanFrom : Nat → List UInt8 → Option (List Token)
  | 0, _ => none
  | fuel + 1, text =>
    match text.dropWhile isBlankByte with
    | [] => some []
    | text => do
      let (token, rest) ← next? text
      let tokens ← scanFrom fuel rest
      some (token :: tokens)

/-- The tokens of a text. Every step takes a byte, so a step per byte is enough. -/
def scan (text : List UInt8) : Option (List Token) := scanFrom (text.length + 1) text

end Token

end SlotOutcome
