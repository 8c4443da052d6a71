import SlotOutcome.Decimal.Shortest

/-!
# Written forms of doubles

Two forms are used. `FiniteFloat.text` is the one of numbers in JSON texts: the shortest digits,
in positional notation near one and in scientific notation elsewhere. `fixedText` is the one of
memory keys: a fixed number of places after the point, the exact value rounded to them.

## Main definitions

* `Decimal.text`, `FiniteFloat.text`, `fixedText`.
-/

namespace SlotOutcome

/-- The decimal digits of a natural number, most significant first. -/
def decimalDigits (n : Nat) : List Char := Nat.toDigits 10 n

/-- Where positional notation ends: the least and the greatest scientific exponent written with
a point between the digits, and not with an exponent. -/
def positionalExponents : Int × Int := (-5, 15)

/-- Digits with a point after the first `places` of them; at least one digit stands on each side. -/
def positional (digits : List Char) (places : Int) : List Char :=
  if places ≤ 0 then '0' :: '.' :: List.replicate (-places).toNat '0' ++ digits
  else if digits.length ≤ places.toNat then
    digits ++ List.replicate (places.toNat - digits.length) '0' ++ ['.', '0']
  else digits.take places.toNat ++ '.' :: digits.drop places.toNat

/-- Digits with a point after the first, if more follow, and a signed exponent without padding. -/
def scientific (digits : List Char) (exponent : Int) : List Char :=
  (match digits with
    | [] => []
    | [d] => [d]
    | d :: rest => d :: '.' :: rest) ++
  'e' :: (if exponent < 0 then '-' else '+') :: decimalDigits exponent.natAbs

/-- The written form of a decimal without trailing zeros. -/
def Decimal.text (d : Decimal) : List Char :=
  let digits := decimalDigits d.digits
  let exponent := d.exponent + digits.length - 1
  let magnitude :=
    if positionalExponents.1 ≤ exponent ∧ exponent ≤ positionalExponents.2 then
      positional digits (exponent + 1)
    else scientific digits exponent
  if d.negative then '-' :: magnitude else magnitude

/-- The shortest written form of a finite double: `1.0`, `0.00001`, `1e+16`, `9.9e-6`, `-0.0`. -/
def FiniteFloat.text (x : FiniteFloat) : List Char := x.shortest.text

/-- A natural number of units of `10 ^ -places`, written with its point. -/
def placed (places units : Nat) : List Char :=
  decimalDigits (units / Nat.pow 10 places) ++ '.' ::
    (let tail := decimalDigits (units % Nat.pow 10 places)
     List.replicate (places - tail.length) '0' ++ tail)

/-- A double rounded to a fixed number of places: the exact value is rounded, and a half goes to
the even digit. The sign stays when the digits round to zero. -/
def fixedText (places : Nat) (x : Float) : String :=
  match FiniteFloat.ofFloat? x with
  | some x =>
    let (num, den) := x.quotientAt (-(places : Int))
    let magnitude := placed places (roundHalfEven num den)
    String.ofList (if x.negative then '-' :: magnitude else magnitude)
  | none => if x.isNaN then "NaN" else if x < 0 then "-inf" else "inf"

end SlotOutcome
