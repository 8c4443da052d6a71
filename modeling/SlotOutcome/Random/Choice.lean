import SlotOutcome.Random.Source

/-!
# Random choices

Choices are made from uniform draws: a weighted choice of an index takes one draw below the sum
of the weights, and a sample without replacement takes one draw per item, each below the number
of items that are left.

## Main definitions

* `indexAt`: the index whose share of a weight sum holds a draw.
* `weightedIndex`, `sample`, `permutation`.
-/

namespace SlotOutcome

variable {σ : Type} [RandomSource σ]

/-- The sum of weights. -/
def weightSum (weights : List Nat) : Nat := weights.foldr (· + ·) 0

/-- The first index at which the weights up to and including it exceed the draw. -/
def indexAt : (weights : List Nat) → Nat → Option (Fin weights.length)
  | [], _ => none
  | weight :: rest, value =>
    if value < weight then some ⟨0, Nat.zero_lt_succ _⟩
    else (indexAt rest (value - weight)).map Fin.succ

/-- An index drawn in proportion to its weight. The weights have to sum to a positive number of
64 bits; otherwise nothing is drawn. -/
def weightedIndex (weights : List Nat) : DrawM σ (Fin weights.length) := do
  let total := weightSum weights
  if UInt64.size ≤ total then throw .weightOverflow
  if total = 0 then throw .zeroWeight
  let value ← draw total
  match indexAt weights value with
  | some index => pure index
  | none => throw .zeroWeight

/-- Items drawn one after another without replacement, in the order drawn. -/
def sampleExactly {α : Type} : Nat → List α → DrawM σ (List α)
  | 0, _ => pure []
  | count + 1, items => do
    let i ← drawBelow items.length
    let rest ← sampleExactly count (items.eraseIdx i)
    pure (items.get i :: rest)

/-- Items drawn without replacement, at most all of them. -/
def sample {α : Type} (items : List α) (count : Nat) : DrawM σ (List α) :=
  sampleExactly (min count items.length) items

/-- All items, drawn without replacement. -/
def permutation {α : Type} (items : List α) : DrawM σ (List α) := sample items items.length

end SlotOutcome
