/-!
# Sources of random draws

Every random decision of a round is a uniform draw from a range `0, …, n - 1`, asked of a random
source. A source is any state that can answer such a request; it may also refuse one.

* `Script` replays draws that were recorded earlier. A value that does not fit the range asked
  for is refused and stays where it is, so that a script never stands for another round.
* `Recording` passes requests on to another source and notes the draws that it hands out.

## Main definitions

* `DrawError`, `DrawM`, `RandomSource`: refusals, computations that draw, sources.
* `Generator`: sources that are made from a seed.
* `drawBelow`: a draw together with the proof that it is in range.
* `Script`, `Recording`.
-/

namespace SlotOutcome

/-- Why a draw fails. -/
inductive DrawError where
  /-- No entropy to seed a generator from. -/
  | entropy (reason : String)
  /-- A draw from no possibilities. -/
  | emptyRange
  /-- A weighted choice without any positive weight. -/
  | zeroWeight
  /-- Weights whose sum does not fit 64 bits. -/
  | weightOverflow
  /-- A script has no draw left, after so many. -/
  | scriptExhausted (after : Nat)
  /-- The next draw of a script does not fit the range. -/
  | scriptMismatch (value range : Nat)
  /-- A source broke its contract and answered outside the range. -/
  | outOfRange (value range : Nat)
deriving DecidableEq, Repr

/-- The text of a failed draw. -/
def DrawError.message : DrawError → String
  | entropy reason => "OS entropy source failed: " ++ reason
  | emptyRange => "cannot draw from an empty range"
  | zeroWeight => "weights are empty or sum to zero"
  | weightOverflow => "weight sum overflows u64"
  | scriptExhausted after =>
    "scripted draw sequence exhausted after " ++ toString after ++ " draws"
  | scriptMismatch value range =>
    "scripted draw " ++ toString value ++ " is outside range 0.." ++ toString range
  | outOfRange value range =>
    "draw " ++ toString value ++ " is outside range 0.." ++ toString range

/-- A computation that draws from a source of type `σ`. The source moves on also when the
computation fails. -/
abbrev DrawM (σ : Type) := ExceptT DrawError (StateM σ)

/-- A state that answers requests for draws. -/
class RandomSource (σ : Type) where
  /-- A draw from `0, …, n - 1`. -/
  draw (n : Nat) : DrawM σ Nat

export RandomSource (draw)

/-- A type of generators: sources that are made from a seed and can throw words away. Whatever is
done with a generator, its seed stays the same. A generator need not store it. -/
class Generator (γ : Type) extends RandomSource γ where
  Seed : Type
  /-- The generator of a seed. -/
  ofSeed : Seed → γ
  seed : γ → Seed
  /-- The generator after so many words were thrown away. -/
  skip : γ → Nat → γ
  seed_ofSeed (s : Seed) : seed (ofSeed s) = s
  seed_draw (g : γ) (n : Nat) : seed ((draw n : DrawM γ Nat) g).2 = seed g
  seed_skip (g : γ) (count : Nat) : seed (skip g count) = seed g

/-- A draw from `0, …, n - 1` with the proof that it is one. Sources in this library always pass
the check. -/
def drawBelow {σ : Type} [RandomSource σ] (n : Nat) : DrawM σ (Fin n) := do
  let value ← draw n
  if h : value < n then pure ⟨value, h⟩ else throw (.outOfRange value n)

/-- Recorded draws, read from the front. -/
structure Script where
  /-- How many draws have been read. -/
  consumed : Nat
  /-- The draws still to come. -/
  pending : List Nat
deriving DecidableEq, Repr

namespace Script

/-- The script of the given draws. -/
def ofDraws (draws : List Nat) : Script := ⟨0, draws⟩

/-- The next draw. A draw that is refused is not read. -/
def next (n : Nat) (s : Script) : Except DrawError Nat × Script :=
  if n = 0 then (.error .emptyRange, s)
  else match s.pending with
    | [] => (.error (.scriptExhausted s.consumed), s)
    | value :: rest =>
      if value < n then (.ok value, ⟨s.consumed + 1, rest⟩)
      else (.error (.scriptMismatch value n), s)

end Script

instance : RandomSource Script where
  draw n := Script.next n

/-- Another source, and the draws that it has handed out. -/
structure Recording (σ : Type) where
  inner : σ
  draws : List Nat

namespace Recording

variable {σ : Type}

/-- A source with nothing recorded yet. -/
def start (inner : σ) : Recording σ := ⟨inner, []⟩

/-- A script that repeats what was recorded. -/
def toScript (r : Recording σ) : Script := .ofDraws r.draws

/-- The next draw of the source inside; refusals leave no record. -/
def next [RandomSource σ] (n : Nat) (r : Recording σ) : Except DrawError Nat × Recording σ :=
  match (draw n : DrawM σ Nat) r.inner with
  | (.ok value, inner) => (.ok value, ⟨inner, r.draws ++ [value]⟩)
  | (.error e, inner) => (.error e, ⟨inner, r.draws⟩)

end Recording

instance {σ : Type} [RandomSource σ] : RandomSource (Recording σ) where
  draw n := Recording.next n

end SlotOutcome
