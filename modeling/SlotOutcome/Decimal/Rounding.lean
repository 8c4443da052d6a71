/-!
# Decimals and the doubles nearest to them

A decimal literal denotes a rational number `± digits · 10 ^ exponent`; the game keeps numbers as
doubles. This file reads the one as the other, in exact arithmetic on natural numbers.

* `FiniteFloat` is the type of doubles that are neither infinite nor a NaN: those that a number
  in a text can denote.
* `FiniteFloat.significand` and `FiniteFloat.scale` read a finite double as `m · 2 ^ q`.
* `nearestMagnitude` is the bit pattern of the double nearest to a positive quotient, a quotient
  half way between two doubles going to the one with the even pattern.
* `Decimal.round` is the double nearest to a decimal, or nothing when that decimal is at or
  beyond half a unit above the largest finite double.

## Main definitions

* `FiniteFloat`, `Decimal`, `Decimal.round`.
-/

namespace SlotOutcome

/-- How many significands an exponent has: `2 ^ 52`. -/
abbrev binade : Nat := 0x10000000000000

/-- The sign bit of a pattern: `2 ^ 63`. -/
abbrev signBit : Nat := 0x8000000000000000

/-- A double that is neither infinite nor a NaN. -/
structure FiniteFloat where
  /-- The double itself. -/
  toFloat : Float
  /-- It denotes a real number. -/
  isFinite : toFloat.isFinite = true
deriving DecidableEq

namespace FiniteFloat

/-- The finite double with the given bits, when these are the bits of one. -/
def ofBits? (bits : UInt64) : Option FiniteFloat :=
  if h : (Float.ofBits bits).isFinite = true then some ⟨Float.ofBits bits, h⟩ else none

/-- A double, when it is finite. -/
def ofFloat? (x : Float) : Option FiniteFloat :=
  if h : x.isFinite = true then some ⟨x, h⟩ else none

/-- The bit pattern, as a natural number. -/
def pattern (x : FiniteFloat) : Nat := x.toFloat.toBits.toNat

/-- The sign bit; it also tells the two zeros apart. -/
def negative (x : FiniteFloat) : Bool := decide (signBit ≤ x.pattern)

/-- The exponent field of the pattern. -/
def exponentField (x : FiniteFloat) : Nat := x.pattern / binade % 2048

/-- The integer `m` of the reading `m · 2 ^ q`. -/
def significand (x : FiniteFloat) : Nat :=
  if x.exponentField = 0 then x.pattern % binade else binade + x.pattern % binade

/-- The exponent `q` of the reading `m · 2 ^ q`. -/
def scale (x : FiniteFloat) : Int :=
  if x.exponentField = 0 then -1074 else (x.exponentField : Int) - 1075

/-- Whether the double is one of the two zeros. -/
def isZero (x : FiniteFloat) : Bool := x.significand == 0

/-- Equality of the numbers denoted: the two zeros are equal. -/
def sameNumber (x y : FiniteFloat) : Bool := x == y || (x.isZero && y.isZero)

end FiniteFloat

/-- The quotient of two natural numbers rounded to the nearest one, a half going to the even
neighbour. -/
def roundHalfEven (num den : Nat) : Nat :=
  let floor := num / den
  let twice := 2 * (num % den)
  if twice < den then floor
  else if den < twice then floor + 1
  else if floor % 2 = 0 then floor else floor + 1

/-- The power of two by which a double near the positive quotient `num / den` counts: the
largest `q` with `2 ^ (q + 52)` at most the quotient, but never below `-1074`. -/
def unitExponent (num den : Nat) : Int :=
  let guess : Int := (num.log2 : Int) - den.log2
  let reaches : Bool :=
    if 0 ≤ guess then den <<< guess.toNat ≤ num else den ≤ num <<< (-guess).toNat
  max (-1074) ((if reaches then guess else guess - 1) - 52)

/-- The magnitude bits of the double nearest to the positive quotient `num / den`. The pattern
counts doubles upwards from zero, so that a significand rounded up to `2 ^ 53` is the pattern
of the next power of two. -/
def nearestMagnitude (num den : Nat) : Nat :=
  let q := unitExponent num den
  let units := if 0 ≤ q then roundHalfEven num (den <<< q.toNat)
    else roundHalfEven (num <<< (-q).toNat) den
  (q + 1074).toNat * binade + units

/-- The decimal number `± digits · 10 ^ exponent`. -/
structure Decimal where
  negative : Bool
  digits : Nat
  exponent : Int
deriving DecidableEq, Repr

namespace Decimal

/-- The pattern of positive infinity: the first that is no finite magnitude. -/
def infinityPattern : Nat := 2047 * binade

/-- The finite double with the given sign and magnitude bits. -/
def ofMagnitude? (negative : Bool) (magnitude : Nat) : Option FiniteFloat :=
  if magnitude < infinityPattern then
    FiniteFloat.ofBits? (UInt64.ofNat (if negative then signBit + magnitude else magnitude))
  else none

/-- The double nearest to a decimal, if it is finite. The two early answers are exact, as
`10 ^ 1` exceeds `2 ^ 3`; they keep a literal with a huge exponent from building a huge power. -/
def round (d : Decimal) : Option FiniteFloat :=
  if d.digits = 0 then ofMagnitude? d.negative 0
  else if 0 ≤ d.exponent then
    if 1024 ≤ d.digits.log2 + 3 * d.exponent.toNat then none
    else ofMagnitude? d.negative (nearestMagnitude (d.digits * Nat.pow 10 d.exponent.toNat) 1)
  else if d.digits.log2 + 1077 ≤ 3 * (-d.exponent).toNat then ofMagnitude? d.negative 0
  else ofMagnitude? d.negative (nearestMagnitude d.digits (Nat.pow 10 (-d.exponent).toNat))

end Decimal

end SlotOutcome
