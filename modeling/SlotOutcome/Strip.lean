import SlotOutcome.Round.Plan

/-!
# Reel strips

A reel shows a window of a strip of symbols. The strip is read cyclically: below its last symbol
comes its first one again, also when the window is higher than the strip is long. Since a strip
is never empty, every place on it shows a symbol.

## Main definitions

* `Strip`, `Strip.symbol`, `Strip.window`.
* `Strip.ofInts`, `Strip.allOfInts`: strips from a configuration.
-/

namespace SlotOutcome

/-- A strip of symbols. -/
structure Strip where
  symbols : List Symbol
  ne_nil : symbols ≠ []

namespace Strip

/-- The strip of symbols, if there are any. -/
def ofList? (symbols : List Symbol) : Option Strip :=
  if h : symbols = [] then none else some ⟨symbols, h⟩

variable (strip : Strip)

/-- How many symbols the strip has. -/
def length : Nat := strip.symbols.length

/-- A strip has a symbol. -/
theorem length_pos : 0 < strip.length := List.length_pos_iff.mpr strip.ne_nil

/-- The symbol at a place, counted on around the strip. -/
def symbol (place : Nat) : Symbol :=
  strip.symbols.get ⟨place % strip.length, Nat.mod_lt _ strip.length_pos⟩

/-- The symbols from a stop down. -/
def window (stop rows : Nat) : List Symbol :=
  (List.range rows).map fun row => strip.symbol (stop + row)

/-- The strip of a reel in a configuration. -/
def ofInts (reel : Nat) (ids : List Int) : Except FeatureError Strip := do
  let symbols ← ids.mapM fun id =>
    match Symbol.ofInt? id with
    | some symbol => pure symbol
    | none =>
      throw (invalid ("symbol " ++ toString id ++ " on reel " ++ toString reel ++
        " out of range"))
  match ofList? symbols with
  | some strip => pure strip
  | none => throw (invalid ("reel " ++ toString reel ++ " has an empty strip"))

/-- The strips of a configuration. -/
def allOfInts (strips : List (List Int)) : Except FeatureError (List Strip) :=
  strips.zipIdx.mapM fun (ids, reel) => ofInts reel ids

end Strip

end SlotOutcome
