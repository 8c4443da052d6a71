import SlotOutcome.Decimal.Rounding

/-!
# The shortest decimal that reads back

The text of a double shows the fewest digits that still denote it. For one digit, two digits and
so on, the decimals next to the double on that grid are read back with `Decimal.round`; the first
grid on which one of the two gives the double again is taken, and of two hits the nearer, a tie
going to the even digit. Seventeen digits are always enough.

## Main definitions

* `FiniteFloat.decade`: the power of ten just below the magnitude.
* `FiniteFloat.shortest`: the shortest decimal that reads back, without trailing zeros.
-/

namespace SlotOutcome

/-- The number of decimal digits of a natural number; zero has none. -/
def digitCount (n : Nat) : Nat := if n = 0 then 0 else (Nat.toDigits 10 n).length

namespace FiniteFloat

/-- Numerator and denominator of the magnitude in units of `10 ^ p`. -/
def quotientAt (x : FiniteFloat) (p : Int) : Nat × Nat :=
  ((x.significand <<< x.scale.toNat) * Nat.pow 10 (-p).toNat,
    (1 <<< (-x.scale).toNat) * Nat.pow 10 p.toNat)

/-- The exponent of the largest power of ten that does not exceed a positive magnitude. -/
def decade (x : FiniteFloat) : Int :=
  let (num, den) := x.quotientAt 0
  if den ≤ num then (digitCount (num / den) : Int) - 1
  else -(digitCount ((den - 1) / num) : Int)

/-- The decimal on the grid of `10 ^ p` that reads back as `x`, if the grid has one: the nearer
of the two neighbours that do, a tie going to the even digit. -/
def hitAt? (x : FiniteFloat) (p : Int) : Option Decimal :=
  let (num, den) := x.quotientAt p
  let below : Decimal := ⟨x.negative, num / den, p⟩
  let above : Decimal := ⟨x.negative, num / den + 1, p⟩
  match decide (below.round = some x), decide (above.round = some x) with
  | true, true => if roundHalfEven num den = num / den then some below else some above
  | true, false => some below
  | false, true => some above
  | false, false => none

/-- The first hit on grids of one more digit each, from the grid of `10 ^ p` on. -/
def firstHit? (x : FiniteFloat) : Nat → Int → Option Decimal
  | 0, _ => none
  | fuel + 1, p => (x.hitAt? p).or (firstHit? x fuel (p - 1))

end FiniteFloat

/-- A decimal without the trailing zeros of its digits; `fuel` bounds their number. -/
def Decimal.trimmed : Nat → Decimal → Decimal
  | 0, d => d
  | fuel + 1, d =>
    if d.digits ≠ 0 ∧ d.digits % 10 = 0 then
      trimmed fuel ⟨d.negative, d.digits / 10, d.exponent + 1⟩
    else d

/-- The decimal that writes the magnitude in full: every double has a finite decimal expansion. -/
def FiniteFloat.exact (x : FiniteFloat) : Decimal :=
  if 0 ≤ x.scale then ⟨x.negative, x.significand <<< x.scale.toNat, 0⟩
  else ⟨x.negative, x.significand * Nat.pow 5 (-x.scale).toNat, x.scale⟩

/-- The shortest decimal that reads back as the double, without trailing zeros. -/
def FiniteFloat.shortest (x : FiniteFloat) : Decimal :=
  if x.isZero then ⟨x.negative, 0, 0⟩
  else (x.firstHit? 17 x.decade |>.getD x.exact).trimmed 18

end SlotOutcome
