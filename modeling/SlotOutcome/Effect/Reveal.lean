import SlotOutcome.Round.Pass

/-!
# Revealing a sequence of steps

One call computes a whole sequence of steps ahead of time, and the calls after it reveal the
steps one by one. The steps still to be revealed are the chain of the state; the next round finds
them at its link to the previous one.

```text
                  chain of the previous round empty      … not empty
  play            computes a sequence                    does nothing
  replay          does nothing                           reveals the first link
  continue        goes on while the chain and the tries last, and else drops the chain
  abort           drops the chain
```
-/

namespace SlotOutcome

namespace Reveal

variable {σ : Type} (children : List (Child σ))

/-- The first step that the previous round left to be revealed, with those after it and the number
of steps revealed so far. -/
def pending (s : RoundState) : Option (RoundState × List RoundState × UInt32) :=
  match s.stateful with
  | none => none
  | some previous =>
    match previous.chain with
    | [] => none
    | link :: rest => some (link, rest, previous.replay.tries)

/-- The follow-on steps after a step, at most so many. An aborted step is the last one. Each starts
with the same bag. -/
def followOn (bag : Bag) : Nat → RoundState → PassM σ (List RoundState)
  | 0, _ => pure []
  | count + 1, previous => do
    let step ← onStep { previous.nextStep with replay := .start } bag (fireAll children)
    if step.aborted then return [step]
    return step :: (← followOn bag count step)

/-- Computes a sequence of `Steps` steps, unless there are steps to be revealed. The first one is
the state itself, and the others become its chain. -/
def play : PassM σ Unit := do
  let p ← get
  if (pending p.state).isSome then return
  let steps ← p.bag.findD .nat "Steps" 1
  modifyState fun s => { s with replay := .start, chain := [] }
  fireAll children
  let first := (← get).state
  if first.aborted then return
  let links ← followOn children p.bag (steps - 1) first
  modifyState (·.setChain links)

/-- Reveals the first of the steps to be revealed, keeps the others as the chain of the state, and
calls the children. -/
def replay : PassM σ Unit := do
  match pending (← get).state with
  | none => pure ()
  | some (link, rest, tries) =>
    modifyState fun s =>
      { s.adopt link with chain := rest, replay := ⟨.replay, false, tries + 1⟩ }
    fireAll children

/-- Goes on and calls the children while steps are left and fewer than `Tries` were revealed. Else
what is left is dropped. -/
def goOn : PassM σ Unit := do
  let p ← get
  let ceiling ← p.bag.require .nat "Tries"
  let goesOn := !p.state.chain.isEmpty && p.state.replay.tries.toNat < ceiling
  if goesOn then
    modifyState fun s =>
      { s with replay := { s.replay with phase := .continue, continueFlag := true } }
    fireAll children
  else
    modifyState fun s => { s with chain := [], replay := { s.replay with continueFlag := false } }

/-- Ends the sequence early, drops what is left of it, and calls the children. -/
def abort : PassM σ Unit := do
  modifyState fun s =>
    { s with chain := [], replay := { s.replay with phase := .abort, continueFlag := false } }
  fireAll children

end Reveal

end SlotOutcome
