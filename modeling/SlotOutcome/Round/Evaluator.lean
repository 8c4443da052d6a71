import SlotOutcome.Round.State

/-!
# Evaluators

Two evaluators: one that knows the wins of each paytable by heart, and one that pays runs of a
symbol along the top row, starting at the first reel.
-/

namespace SlotOutcome

namespace Evaluator

/-- Pays the wins listed under the name of the paytable, whatever the grid shows. Without a
paytable the name is empty. -/
def listed (wins : List (String × List Win)) : Evaluator :=
  fun _ paytable => (wins.lookup (paytable.getD "")).getD []

/-- The symbols of the top row, the first reel first. -/
def topRow (g : Grid) : List Symbol := g.toReels.filterMap List.head?

/-- The symbol that a line pays for, and how many reels it runs over. A wild symbol stands for
any other. -/
def run? (wild : Symbol) (line : List Symbol) : Option (Symbol × Nat) :=
  (line.find? (· != wild)).map fun symbol =>
    (symbol, (line.takeWhile fun s => s == symbol || s == wild).length)

/-- Pays the top row if its run is at least three reels long, as many times as it is long. -/
def topLine (wild : Symbol) : Evaluator := fun g paytable =>
  match run? wild (topRow g) with
  | some (symbol, length) =>
    if length < 3 then []
    else [{
      label := paytable.getD "line" ++ " " ++ toString symbol.toInt ++ "x" ++ toString length
      multiplier := Float.ofNat length
      symbols := [symbol]
      positions := (List.range length).map fun reel => linearPosition g.rows reel 0 }]
  | none => []

end Evaluator

end SlotOutcome
