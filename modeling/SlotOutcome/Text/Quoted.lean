import SlotOutcome.Text.Unprintable

/-!
# Quoted texts in error messages

An error message shows a text between double quotes, with escapes for the quote, the backslash
and everything that would not be seen: line ends, tabs and the zero character by a letter or
digit, other unprintable characters by their hexadecimal number.

## Main definitions

* `quotedChar`, `quoted`.
-/

namespace SlotOutcome

/-- A character as it stands in a quoted text. -/
def quotedChar (c : Char) : List Char :=
  if c = '"' then ['\\', '"']
  else if c = '\\' then ['\\', '\\']
  else if c = '\n' then ['\\', 'n']
  else if c = '\r' then ['\\', 'r']
  else if c = '\t' then ['\\', 't']
  else if c.toNat = 0 then ['\\', '0']
  else if c.toNat < 32 ∨ isUnprintable c.toNat then
    ['\\', 'u', '\x7b'] ++ Nat.toDigits 16 c.toNat ++ ['\x7d']
  else [c]

/-- A text between double quotes. -/
def quoted (s : String) : String := String.ofList ('"' :: (s.toList.flatMap quotedChar ++ ['"']))

end SlotOutcome
