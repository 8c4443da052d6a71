import SlotOutcome.Ledger.Payload
import SlotOutcome.Strip

/-!
# Cascades

A cascade removes the cells of the wins. On each reel the symbols that stay fall down, and as
many symbols as were removed come in from the strip above the stop, which moves up with them.

```text
  strip       column    removed     column    strip
    a                                 a    ◄── a   new stop
    b   stop ──► b        b           c        b
    c            c                    d        c
    d            d                             d
```
-/

namespace SlotOutcome

namespace Cascade

/-- A column after a cascade, and the stop of its strip. -/
structure Refill where
  positions : List Nat
  column : List Symbol
  stop : Nat

/-- The stop so many places further up the strip. -/
def raise (stop gone length : Nat) : Nat := (stop + length - gone % length) % length

/-- The refill of a reel with a known strip. Without removed cells there is none. -/
def refill (g : Grid) (removed : List Nat) (reel : Nat) (symbols : List Symbol) (stop : Nat) :
    Except DataError (Option Refill) := do
  let positions ← g.reelPositions reel
  let stay := positions.filter fun p => !removed.contains p
  let gone := positions.length - stay.length
  if gone = 0 then return none
  match Strip.ofList? symbols with
  | none => throw (.malformed ("reel " ++ toString reel ++ " has an empty strip"))
  | some strip =>
    if strip.length ≤ stop then
      throw (.malformed ("reel " ++ toString reel ++ " stop " ++ toString stop ++
        " outside strip of " ++ toString strip.length))
    let stop := raise stop gone strip.length
    return some ⟨positions, strip.window stop gone ++ (← stay.mapM g.get), stop⟩

/-- The grid with the column of a refill written. -/
def Refill.write (g : Grid) (r : Refill) : Grid :=
  (r.positions.zip r.column).foldl (fun g cell => g.write cell.1 cell.2) g

/-- Removes the cells of the wins, refills the reels and asks for a cascade step. -/
def run (s : RoundState) : Except FeatureError (Option Change) := do
  let o := s.outcome
  let removed := ascending (o.wins.flatMap Win.positions)
  if removed.isEmpty then return none
  if o.strips.length ≠ o.grid.reels ∨ o.stops.length ≠ o.grid.reels then
    throw (.logic "cascade needs the reel strips and stops of the grid")
  removed.forM fun p => (o.grid.check p : Except FeatureError Unit)
  let refills ← ((o.strips.zip o.stops).zipIdx.mapM fun ((strip, stop), reel) =>
    refill o.grid removed reel strip stop : Except DataError (List (Option Refill)))
  let step := o.cascade.step + 1
  return some {
    outcome := { o with
      grid := (refills.filterMap id).foldl Refill.write o.grid
      stops := List.zipWith (fun refill stop => (refill.map Refill.stop).getD stop) refills o.stops
      cascade := ⟨step, removed⟩
      nextPhase := some .cascade }
    payload := Payload.cascade step removed }

end Cascade

end SlotOutcome
