import SlotOutcome.Random.Source

/-!
# The pool of generators

Rounds that run at the same time each need a generator of their own. The pool keeps generators in
slots; a round checks one out and returns it later, and when all are checked out the pool grows
by one. Each generator is seeded from the entropy of the system.

A slot is taken by setting its flag, and its generator leaves it only after that. Idle generators
are exercised now and then: a random number of words is thrown away, so that nobody who sees the
draws of a round knows where its generator stands.

## Main definitions

* `Pool`, `Pool.start`, `Pool.get`, `Pool.put`, `Pool.exercise`, `Pool.shutdown`.
* `Pool.size`, `Pool.inUse`: what the pool counts.
-/

namespace SlotOutcome

/-- How a pool is set up. -/
structure PoolSettings where
  /-- Generators seeded at the start. -/
  initialSize : Nat
  /-- Milliseconds between two passes over the idle generators; zero for none. -/
  exerciseInterval : Nat
  /-- The most words that a pass throws away on one generator. -/
  exerciseDraws : Nat
deriving DecidableEq, Repr

/-- Eight generators, exercised four times a second. -/
def PoolSettings.default : PoolSettings := ⟨8, 250, 16⟩

namespace Pool

/-- A place for a generator. -/
structure Slot (γ : Type) where
  /-- Set while somebody owns the generator. -/
  inUse : Bool
  generator : Option γ
deriving DecidableEq, Repr

namespace Slot

variable {γ : Type}

/-- A slot with a generator that nobody owns. -/
def idle (generator : γ) : Slot γ := ⟨false, some generator⟩

/-- A slot whose generator was handed out. -/
def checkedOut : Slot γ := ⟨true, none⟩

/-- The generator of a slot that nobody owns, and the slot without it. -/
def acquire? : Slot γ → Option (γ × Slot γ)
  | ⟨false, some generator⟩ => some (generator, checkedOut)
  | _ => none

variable [Generator γ]

/-- A generator with a random number of words thrown away, at least one and at most so many. -/
def burn (most : Nat) (generator : γ) : γ :=
  match (draw (max most 1) : DrawM γ Nat) generator with
  | (.ok count, generator) => Generator.skip generator (count + 1)
  | (.error _, generator) => generator

/-- A slot with its generator exercised, unless somebody owns it. -/
def exercise (most : Nat) (slot : Slot γ) : Slot γ :=
  match slot.acquire? with
  | some (generator, _) => idle (burn most generator)
  | none => slot

end Slot

/-- A generator on loan, and the number of its slot. -/
structure Loan (γ : Type) where
  slot : Nat
  generator : γ
deriving DecidableEq, Repr

/-- The first generator that nobody owns, and the slots after it was taken. -/
def takeFirst {γ : Type} : List (Slot γ) → Option (Loan γ × List (Slot γ))
  | [] => none
  | slot :: rest =>
    match slot.acquire? with
    | some (generator, slot) => some (⟨0, generator⟩, slot :: rest)
    | none =>
      (takeFirst rest).map fun (loan, rest) => (⟨loan.slot + 1, loan.generator⟩, slot :: rest)

end Pool

/-- A pool of generators. -/
structure Pool (γ : Type) [Generator γ] where
  /-- The seeds that the system provides, one after another. -/
  entropy : Nat → Generator.Seed γ
  slots : List (Pool.Slot γ)
  /-- How many generators were seeded. -/
  created : Nat
  /-- How many times a generator was exercised. -/
  exercised : Nat
  /-- The most words that passes in the background throw away, while there are such passes. -/
  background : Option Nat

namespace Pool

variable {γ : Type} [Generator γ]

/-- A new pool. -/
def start (entropy : Nat → Generator.Seed γ) (settings : PoolSettings) : Pool γ where
  entropy := entropy
  slots := (List.range settings.initialSize).map fun i => .idle (Generator.ofSeed (entropy i))
  created := settings.initialSize
  exercised := 0
  background := if settings.exerciseInterval = 0 then none else some (max settings.exerciseDraws 1)

variable (pool : Pool γ)

/-- How many slots there are. -/
def size : Nat := pool.slots.length

/-- How many slots are owned by somebody. -/
def inUse : Nat := pool.slots.countP Slot.inUse

/-- Lends a generator: the first idle one, or a new one. -/
def get : Loan γ × Pool γ :=
  match takeFirst pool.slots with
  | some (loan, slots) => (loan, { pool with slots := slots })
  | none =>
    (⟨pool.size, Generator.ofSeed (pool.entropy pool.created)⟩,
      { pool with slots := pool.slots ++ [.checkedOut], created := pool.created + 1 })

/-- Takes a generator back. -/
def put (loan : Loan γ) : Pool γ :=
  { pool with slots := pool.slots.set loan.slot (.idle loan.generator) }

/-- Exercises every idle generator, and answers how many. -/
def exercise (most : Nat) : Nat × Pool γ :=
  let count := pool.slots.countP fun slot => slot.acquire?.isSome
  (count, { pool with
    slots := pool.slots.map (Slot.exercise most)
    exercised := pool.exercised + count })

/-- A pass in the background, while there are any. -/
def backgroundPass : Pool γ :=
  match pool.background with
  | some most => (pool.exercise most).2
  | none => pool

/-- Ends the passes in the background. -/
def shutdown : Pool γ := { pool with background := none }

end Pool

end SlotOutcome
