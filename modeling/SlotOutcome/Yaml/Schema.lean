import SlotOutcome.Json.Basic
import SlotOutcome.Yaml.Node

/-!
# What YAML scalars denote

Where any value may stand, a plain scalar denotes null, a truth value or a number if it is written
like one, and else a text. A tag can ask for one of these kinds, and a scalar in another style
denotes a text. Where a value of a known type has to stand, the type decides how the scalar is
read.

## Main definitions

* `natural?`, `negative?`, `double?`: numbers.
* `Scalar.toJson?`, `Scalar.toBool?`, `Scalar.toNatBelow?`.
-/

namespace SlotOutcome

namespace Yaml

/-! ### Integers -/

/-- The value of a digit in a base of at most sixteen. -/
def digitValue? (base : Nat) (c : Char) : Option Nat := (hexValue? c).filter (· < base)

/-- The natural number that digits of a base spell; there is at least one. -/
def digits? (base : Nat) : List Char → Option Nat
  | [] => none
  | cs => cs.foldlM (fun n c => (digitValue? base c).map (n * base + ·)) 0

/-- The base that a letter behind a leading zero asks for. -/
def base? : Char → Option Nat
  | 'x' => some 16
  | 'o' => some 8
  | 'b' => some 2
  | _ => none

/-- The natural number of digits with the mark of a base. -/
def basedDigits? : List Char → Option Nat
  | '0' :: letter :: rest => do digits? (← base? letter) rest
  | _ => none

/-- Whether digits could be a number, but start with a zero. -/
def hasLeadingZero : List Char → Bool
  | '0' :: c :: rest => (c :: rest).all Char.isDigit
  | _ => false

/-- The natural number of a text without sign: with the mark of a base, or decimal without leading
zeros. -/
def magnitude? (cs : List Char) : Option Nat :=
  (basedDigits? cs).or (if hasLeadingZero cs then none else digits? 10 cs)

/-- The text without a plus sign in front. -/
def withoutPlus : List Char → List Char
  | '+' :: rest => rest
  | cs => cs

/-- The natural number that a text denotes. -/
def natural? (cs : List Char) : Option Nat := magnitude? (withoutPlus cs)

/-- The integer that a text with a minus sign denotes. -/
def negative? : List Char → Option Int
  | '-' :: rest => (magnitude? rest).map fun n => -(n : Int)
  | _ => none

/-! ### Doubles -/

/-- The exponent at the end of a text: none, or a letter, a sign or not, and digits. -/
def exponent? : List Char → Option Int
  | [] => some 0
  | letter :: rest =>
    if letter = 'e' ∨ letter = 'E' then
      match rest with
      | '-' :: digits => (digits? 10 digits).map fun n => -(n : Int)
      | digits => (digits? 10 (withoutPlus digits)).map fun n => (n : Int)
    else none

/-- The decimal of a text without sign: digits with a point among them or not, and an exponent. -/
def decimal? (minus : Bool) (cs : List Char) : Option Decimal := do
  let (whole, rest) := cs.span Char.isDigit
  let (fraction, rest) := match rest with
    | '.' :: rest => rest.span Char.isDigit
    | _ => ([], rest)
  let digits ← digits? 10 (whole ++ fraction)
  some ⟨minus, digits, (← exponent? rest) - fraction.length⟩

/-- The finite double that a text denotes. -/
def finite? : List Char → Option FiniteFloat
  | '-' :: rest => do (← decimal? true rest).round
  | cs => do (← decimal? false (withoutPlus cs)).round

/-- The words for an infinity and for what is not a number. -/
def isInfinite (cs : List Char) : Bool := [".inf", ".Inf", ".INF"].contains (String.ofList cs)

/-- The value of a text that denotes a double. An infinity or what is not a number is null. -/
def double? (cs : List Char) : Option Json :=
  let unsigned := match cs with
    | '-' :: rest => rest
    | cs => withoutPlus cs
  if isInfinite unsigned then some .null
  else if [".nan", ".NaN", ".NAN"].contains (String.ofList cs) then some .null
  else (finite? cs).map fun x => .num (.float x)

/-! ### Values of any kind -/

/-- The words for null. -/
def isNullWord (text : String) : Bool := ["null", "Null", "NULL", "~"].contains text

/-- The truth value that a word denotes. -/
def bool? (text : String) : Option Bool :=
  if ["true", "True", "TRUE"].contains text then some true
  else if ["false", "False", "FALSE"].contains text then some false
  else none

/-- The integer that a text denotes, if it is one of at most 128 bits. Larger ones are no integers
but may be doubles. -/
def integer? (text : String) : Option Int :=
  let cs := text.toList
  ((natural? cs).filter (· < 1 <<< 128)).elim
    ((negative? cs).filter fun i => i.natAbs ≤ 1 <<< 127)
    fun n => some n

/-- The value of an integer, which has to fit 64 bits. -/
def ofInteger? (i : Int) : Option Json := (Number.ofInt? i).map .num

/-- The value that an untagged plain scalar denotes. -/
def plainValue? (text : String) : Option Json :=
  if text.isEmpty || isNullWord text then some .null
  else
    match bool? text, integer? text with
    | some b, _ => some (.bool b)
    | none, some i => ofInteger? i
    | none, none =>
      let digits := match text.toList with
        | '-' :: rest => rest
        | cs => withoutPlus cs
      if hasLeadingZero digits then some (.str text)
      else some ((double? text.toList).getD (.str text))

/-- The tag of a kind of values. -/
def kindTag (kind : String) : String := "tag:yaml.org,2002:" ++ kind

/-- Whether a tag is one of an application's own. There are no such values. -/
def isForeign (tag : Option String) : Bool := tag.any fun t => t.startsWith "!"

namespace Scalar

/-- The value that a scalar denotes where any value may stand. -/
def toJson? (s : Scalar) : Option Json :=
  match s.tag with
  | none => if s.style = .plain then plainValue? s.text else some (.str s.text)
  | some tag =>
    if isForeign tag then none
    else if tag = kindTag "null" then if isNullWord s.text then some .null else none
    else if tag = kindTag "bool" then (bool? s.text).map .bool
    else if tag = kindTag "int" then (integer? s.text).bind ofInteger?
    else if tag = kindTag "float" then double? s.text.toList
    else some (.str s.text)

/-- Whether a scalar may denote a value of a kind: if it is plain, or literal and tagged so. -/
def mayDenote (s : Scalar) (kind : String) : Bool :=
  s.style == .plain || (s.style == .literal && s.tag == some (kindTag kind))

/-- The truth value that a scalar denotes. -/
def toBool? (s : Scalar) : Option Bool := if s.mayDenote "bool" then bool? s.text else none

/-- The natural number below a bound that a scalar denotes. -/
def toNatBelow? (bound : Nat) (s : Scalar) : Option Nat :=
  if s.mayDenote "int" then (natural? s.text.toList).filter (· < bound) else none

end Scalar

end Yaml

end SlotOutcome
