import SlotOutcome.Round.Plan

/-!
# Passes

A pass runs the features of a game over a state. It carries the random source, the state, and the
bag of the feature that is calling, and it remembers which features were triggered and with which
bags they ran.

A feature runs with a bag of its own: the defaults of its definition with the caller's bag on
top. What it writes there is lost when it is done, unless the caller collates; then its bag
becomes the caller's.

```text
  caller's bag ──overlay──► bag of the feature ──► the feature and the features it calls
       ▲                                                      │
       └───────────────── if the caller collates ─────────────┘
```

## Main definitions

* `Pass`, `PassM`, `Visit`.
* `withBag`, `onStep`: a part of a pass with another bag, or on another state.
* `visit`: a feature at work.
* `fireAll`, `fireWhere`, `fireAt`, `fireNamed`, `fireDrawn`, `fireOnFlag`, `fireByChance`: the
  ways to call child features.
-/

namespace SlotOutcome

/-- A feature at work. -/
structure Visit where
  /-- The definitions above the one of the feature, the outermost first. -/
  above : List Definition
  node : Definition
  /-- The bag that the feature starts with. -/
  bag : Bag

/-- How far a pass has come. -/
structure Pass (σ : Type) where
  source : σ
  /-- The features that were triggered, the latest first. -/
  visits : List Visit
  state : RoundState
  /-- The bag of the feature that is calling. -/
  bag : Bag

namespace Pass

variable {σ : Type}

/-- A pass in which nothing has been triggered. -/
def start (source : σ) (state : RoundState) (bag : Bag) : Pass σ := ⟨source, [], state, bag⟩

/-- How many features were triggered. -/
def triggered (p : Pass σ) : Nat := p.visits.length

end Pass

/-- A part of a pass. What it did stays done also when it fails. -/
abbrev PassM (σ : Type) := ExceptT FeatureError (StateM (Pass σ))

variable {σ : Type}

instance : MonadLift (PlanM σ) (PassM σ) where
  monadLift m := fun p => let (r, source) := m p.source; (r, { p with source := source })

/-- Changes the state. -/
def modifyState (f : RoundState → RoundState) : PassM σ Unit :=
  modify fun p => { p with state := f p.state }

/-- Changes the bag of the feature that is calling. -/
def modifyBag (f : Bag → Bag) : PassM σ Unit := modify fun p => { p with bag := f p.bag }

/-- Notes what the feature of a definition did. -/
def note (d : Definition) (change : Change) : PassM σ Unit :=
  modifyState fun s => s.perform d (some change)

/-- Makes a plan for the state and the bag and carries it out. -/
def carryOut (d : Definition) (plan : RoundState → Bag → PlanM σ (Option Change)) :
    PassM σ Unit := do
  let p ← get
  let change ← (plan p.state p.bag : PlanM σ (Option Change))
  modifyState fun s => s.perform d change

/-! ### Bags and steps of their own -/

/-- Runs a part of a pass with another bag and answers that bag as it was left. The bag of the
pass stays, also after an error. -/
def withBag (bag : Bag) (m : PassM σ Unit) : PassM σ Bag := fun p =>
  let (r, p') := m { p with bag := bag }
  (r.map fun _ => p'.bag, { p' with bag := p.bag })

/-- Runs a part of a pass on another state with another bag and answers that state as it was left.
State and bag of the pass stay, also after an error. -/
def onStep (state : RoundState) (bag : Bag) (m : PassM σ Unit) : PassM σ RoundState := fun p =>
  let (r, p') := m { p with state := state, bag := bag }
  (r.map fun _ => p'.state, { p' with state := p.state, bag := p.bag })

/-- Marks the errors that leave the feature of a definition. -/
def inFeature {α : Type} (d : Definition) (m : PassM σ α) : PassM σ α :=
  ExceptT.adapt (·.leaving d.tag d.id) m

/-- The feature of a definition at work, with a bag of its own. -/
def visit (above : List Definition) (d : Definition) (work : PassM σ Unit) : PassM σ Unit := do
  let caller := (← get).bag
  let collate ← caller.isCollate
  let bag := d.params.overlay caller
  modify fun p => { p with visits := ⟨above, d, bag⟩ :: p.visits }
  let left ← withBag bag work
  if collate then modifyBag fun _ => left

/-! ### Calling child features -/

/-- A child of a definition: what it says, and triggering it. -/
structure Child (σ : Type) where
  node : Definition
  trigger : PassM σ Unit

variable (children : List (Child σ))

/-- Triggers every child in turn. -/
def fireAll : PassM σ Unit := children.forM Child.trigger

/-- Triggers in turn the children that a predicate selects by index and definition, and by the
state and the bag when their turn comes. -/
def fireWhere (select : Nat → Definition → RoundState → Bag → Bool) : PassM σ Unit :=
  children.zipIdx.forM fun (child, index) => do
    let p ← get
    if select index child.node p.state p.bag then child.trigger

/-- Triggers the child at an index. -/
def fireAt (index : Nat) : PassM σ Unit :=
  match children[index]? with
  | some child => child.trigger
  | none =>
    throw (invalid ("child index " ++ toString index ++ " out of " ++ toString children.length ++
      " children"))

/-- Triggers children in the order of their names in a list. The catalog names them all in their
own order; of two equal names the first one counts. -/
def fireNamed (order catalog : List String) : PassM σ Unit :=
  order.forM fun name =>
    match catalog.idxOf? name with
    | some index => fireAt children index
    | none => throw (.config (.unresolvedName name))

/-- Triggers a child drawn by weights if there are any, and answers its index. -/
def fireDrawn [RandomSource σ] (weights : Option (List Nat)) : PassM σ Nat := do
  let index ← (pick weights children.length : PlanM σ (Fin children.length))
  fireAt children index
  return index

/-- Triggers every child if a key is in the bag, or if it is not, as `present` says. -/
def fireOnFlag (flag : String) (present : Bool) : PassM σ Bool := do
  let fire := (← get).bag.contains flag == present
  if fire then fireAll children
  return fire

/-- Triggers every child by chance. -/
def fireByChance [RandomSource σ] (probability : Int) : PassM σ Bool := do
  let fire ← (chance probability : PlanM σ Bool)
  if fire then fireAll children
  return fire

end SlotOutcome
