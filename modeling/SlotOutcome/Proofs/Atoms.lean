import Mathlib.Tactic.Common
import SlotOutcome.Effect.Run

/-!
# The atoms of a pass

A feature is made of atoms and of calls to other features. An atom reads the state and the bag,
draws, and then sets state and bag at once; when it fails only the source of the draws has moved.
Features that call no others are a single atom. This file names the atoms of every type of
feature and rewrites the features in terms of them.

## Main definitions

* `atomic`: a part of a pass that is one atom.
* `Effect.leaf?`: the plan of a feature that calls no others.
* `Atom`: the atoms of each type of feature, over two sources at once.

## Main results

* `Effect.run_leaf`: a feature with a plan is one atom.
* `repeated_eq`, `reelset_eq`, `byCount_eq`, `byCell_eq`, `replay_eq`, `goOn_eq`: some of the
  others begin with one.
-/

namespace SlotOutcome

/-! ### Computations with a state that may fail -/

section Run

variable {ε s α β : Type}

theorem bind_run (m : ExceptT ε (StateM s) α) (f : α → ExceptT ε (StateM s) β) (x : s) :
    (m >>= f) x = match m x with
      | (.ok a, y) => f a y
      | (.error e, y) => (.error e, y) := by
  change (ExceptT.bindCont f (m x).1) (m x).2 = _
  rcases m x with ⟨r | r, y⟩ <;> rfl

/-- A sequence succeeds exactly when both of its parts do. -/
theorem bind_run_eq_ok {m : ExceptT ε (StateM s) α} {f : α → ExceptT ε (StateM s) β} {x z : s}
    {b : β} : (m >>= f) x = (.ok b, z) ↔ ∃ a y, m x = (.ok a, y) ∧ f a y = (.ok b, z) := by
  rw [bind_run]
  rcases m x with ⟨e | a, y⟩
  · constructor
    · rintro h
      cases h
    · rintro ⟨a, y, h, -⟩
      cases h
  · constructor
    · exact fun h => ⟨a, y, rfl, h⟩
    · rintro ⟨a', y', h, hf⟩
      cases h
      exact hf

/-- Reading a parameter, or any other computation without effects, leaves the state as it is. -/
theorem liftM_run {ε' : Type} [MonadLiftT (Except ε') (Except ε)] (x : Except ε' α) (y : s) :
    (liftM x : ExceptT ε (StateM s) α) y = ((liftM x : Except ε α), y) := by
  change (liftM (liftM x : Except ε α) : ExceptT ε (StateM s) α) y = _
  rcases (liftM x : Except ε α) with e | a <;> rfl

theorem liftM_bind_run {ε' : Type} [MonadLiftT (Except ε') (Except ε)] {x : Except ε' α} {a : α}
    (h : (liftM x : Except ε α) = .ok a) (f : α → ExceptT ε (StateM s) β) (y : s) :
    ((liftM x : ExceptT ε (StateM s) α) >>= f) y = f a y := by
  rw [bind_run, liftM_run, h]

theorem liftM_run_eq_ok {ε' : Type} [MonadLiftT (Except ε') (Except ε)] {x : Except ε' α} {a : α}
    {y z : s} : (liftM x : ExceptT ε (StateM s) α) y = (.ok a, z) ↔
      (liftM x : Except ε α) = .ok a ∧ z = y := by
  rw [liftM_run, Prod.mk.injEq, @eq_comm _ y]

@[simp] theorem lift_param_ok (a : α) :
    (liftM (Except.ok a : Except ParamError α) : Except FeatureError α) = .ok a := rfl

end Run

variable {σ τ : Type} {α : Type}

/-! ### Atoms -/

/-- A part of a pass that reads state and bag, draws, and then sets state and bag at once. -/
def atomic (act : RoundState → Bag → PlanM σ (α × RoundState × Bag)) : PassM σ α := fun p =>
  match act p.state p.bag p.source with
  | (.ok (a, state, bag), source) =>
    (.ok a, { p with source := source, state := state, bag := bag })
  | (.error e, source) => (.error e, { p with source := source })

namespace Act

/-- An atom that draws and changes nothing. -/
def draws (plan : PlanM σ α) : RoundState → Bag → PlanM σ (α × RoundState × Bag) :=
  fun s bag => do return (← plan, s, bag)

/-- An atom that changes the state. -/
def moves (f : RoundState → RoundState) : RoundState → Bag → PlanM σ (Unit × RoundState × Bag) :=
  fun s bag => pure ((), f s, bag)

/-- The atom of a feature that calls no others. -/
def carries (d : Definition) (plan : RoundState → Bag → PlanM σ (Option Change × Bag)) :
    RoundState → Bag → PlanM σ (Unit × RoundState × Bag) := fun s bag => do
  let (change, left) ← plan s bag
  return ((), s.perform d change, left)

/-- An atom that notes something in the ledger. -/
def notes (d : Definition) (payload : Json) :
    RoundState → Bag → PlanM σ (Unit × RoundState × Bag) :=
  moves fun s => s.perform d (some ⟨s.outcome, payload⟩)

/-- How often a repeating feature calls its children; a drawn number is noted. -/
def counts [RandomSource σ] (d : Definition) :
    RoundState → Bag → PlanM σ (Nat × RoundState × Bag) := fun s bag => do
  match ← bag.find .positions "Counts" with
  | some counts =>
    let weights ← bag.find .weights "CountWeights"
    let index ← pick weights counts.length
    return (counts.get index,
      s.perform d (some ⟨s.outcome, Payload.repeats (counts.get index)⟩), bag)
  | none => return (← bag.require .nat "Count", s, bag)

/-- The choice of a set of strips. -/
def chooses [RandomSource σ] (d : Definition) :
    RoundState → Bag → PlanM σ (Unit × RoundState × Bag) := fun s bag => do
  let sets ← bag.require .bags "Reelsets"
  let weights ← (sets.mapM fun set => set.require .nat "Weight" : Except ParamError (List Nat))
  let index ← pick (some weights) sets.length
  let name ← (sets.get index).require .text "Name"
  let strips ← (sets.get index).require .intLists "Reels"
  return ((),
    s.perform d (some ⟨{ s.outcome with reelset := some name }, Payload.reelset name index⟩),
    bag.insert "Reels" (.arr (strips.map fun strip => .arr (strip.map .ofInt))))

/-- The search of a trigger that counts, and whether it found enough. -/
def counting (d : Definition) : RoundState → Bag → PlanM σ (Bool × RoundState × Bag) :=
  fun s bag => do
    let sought ← Trigger.symbols bag
    let least ← bag.require .nat "MinCount"
    let positions := s.outcome.grid.positionsWhere sought.contains
    if positions.length < least ∨ positions.isEmpty then return (false, s, bag)
    let left := (bag.insert Key.positions (.ofNats positions)).insert "TriggerCount"
      (.ofNat positions.length)
    return (true, s.perform d (some ⟨s.outcome, Payload.triggered positions⟩), left)

/-- The search of a trigger that calls its children for each cell, and the cells. -/
def seeking (d : Definition) : RoundState → Bag → PlanM σ (List Nat × RoundState × Bag) :=
  fun s bag => do
    let sought ← Trigger.symbols bag
    let positions := s.outcome.grid.positionsWhere sought.contains
    if positions.isEmpty then return ([], s, bag)
    return (positions, s.perform d (some ⟨s.outcome, Payload.triggered positions⟩), bag)

/-- The state in which a new sequence of steps begins. -/
def begun (s : RoundState) : RoundState := { s with replay := .start, chain := [] }

/-- Taking over the first of the steps to be revealed, if there is one. -/
def reveals : RoundState → Bag → PlanM σ (Bool × RoundState × Bag) := fun s bag =>
  match Reveal.pending s with
  | none => pure (false, s, bag)
  | some (link, rest, tries) =>
    pure (true, { s.adopt link with chain := rest, replay := ⟨.replay, false, tries + 1⟩ }, bag)

/-- The decision whether the next steps will be revealed too. -/
def decides : RoundState → Bag → PlanM σ (Bool × RoundState × Bag) := fun s bag => do
  let ceiling ← bag.require .nat "Tries"
  if !s.chain.isEmpty && s.replay.tries.toNat < ceiling then
    return (true,
      { s with replay := { s.replay with phase := .continue, continueFlag := true } }, bag)
  return (false, { s with chain := [], replay := { s.replay with continueFlag := false } }, bag)

/-- The state after its sequence was ended early. -/
def ended (s : RoundState) : RoundState :=
  { s with chain := [], replay := { s.replay with phase := .abort, continueFlag := false } }

end Act

/-- The plan of a feature that keeps its bag. -/
def keepingBag (plan : RoundState → Bag → PlanM σ (Option Change)) :
    RoundState → Bag → PlanM σ (Option Change × Bag) :=
  fun s bag => do return (← plan s bag, bag)

/-- The plan of a feature that calls no others. -/
def Effect.leaf? [RandomSource σ] :
    Effect → Option (RoundState → Bag → PlanM σ (Option Change × Bag))
  | setParams => some fun _ bag =>
      (do return (none, ← Remember.setParams bag) : Except FeatureError (Option Change × Bag))
  | reelStops => some (keepingBag Spin.reels)
  | tileExpansion => some (keepingBag fun s bag => Paint.tile s bag)
  | expandingWild => some (keepingBag fun s bag => Paint.expandAround s bag)
  | expandingSymbols => some (keepingBag fun s bag => Paint.expandReels s bag)
  | replaceTile => some (keepingBag fun s bag => Paint.replace s bag)
  | randomWilds => some (keepingBag Paint.randomWilds)
  | mysterySymbol => some (keepingBag Paint.mystery)
  | applyPattern => some (keepingBag Paint.pattern)
  | cascade => some (keepingBag fun s _ => Cascade.run s)
  | awardFreespins => some (keepingBag Pay.freespins)
  | evaluateWins => some (keepingBag fun s bag => Pay.evaluate s bag)
  | multiplier => some (keepingBag Pay.multiply)
  | applyMultiplier => some (keepingBag fun s bag => Pay.applyMultiplier s bag)
  | instantPrize => some (keepingBag Pay.prize)
  | scatterPay => some (keepingBag fun s bag => Pay.scatter s bag)
  | counter => some fun s bag => Remember.counter s bag
  | stickySymbols => some fun s bag => Remember.sticky s bag
  | statefulMap => some (keepingBag fun s bag => Remember.statefulMap s bag)
  | statelessMap => some (keepingBag fun s bag => Remember.statelessMap s bag)
  | _ => none

/-- The atoms of each type of feature, each over two sources. -/
inductive Atom [RandomSource σ] [RandomSource τ] (d : Definition) :
    Effect → {α : Type} → (RoundState → Bag → PlanM σ (α × RoundState × Bag)) →
      (RoundState → Bag → PlanM τ (α × RoundState × Bag)) → Prop
  | leaf {e : Effect} {plan : RoundState → Bag → PlanM σ (Option Change × Bag)}
      {plan' : RoundState → Bag → PlanM τ (Option Change × Bag)} (h : e.leaf? = some plan)
      (h' : e.leaf? = some plan') : Atom d e (Act.carries d plan) (Act.carries d plan')
  | chance (probability : Int) : Atom d .probabilityActivator
      (Act.draws (chance probability)) (Act.draws (chance probability))
  | pick (weights : Option (List Nat)) (len : Nat) : Atom d .weightedActivator
      (Act.draws (pick weights len)) (Act.draws (pick weights len))
  | choice (index : Nat) : Atom d .weightedActivator (Act.notes d (Payload.choice index))
      (Act.notes d (Payload.choice index))
  | counts : Atom d .repeatActivator (Act.counts d) (Act.counts d)
  | chooses : Atom d .weightedReelset (Act.chooses d) (Act.chooses d)
  | counting : Atom d .countTrigger (Act.counting d) (Act.counting d)
  | seeking : Atom d .symbolTrigger (Act.seeking d) (Act.seeking d)
  | begun : Atom d .play (Act.moves Act.begun) (Act.moves Act.begun)
  | chained (links : List RoundState) : Atom d .play (Act.moves (·.setChain links))
      (Act.moves (·.setChain links))
  | reveals : Atom d .replay Act.reveals Act.reveals
  | decides : Atom d .replayContinue Act.decides Act.decides
  | ended : Atom d .replayAbort (Act.moves Act.ended) (Act.moves Act.ended)

/-- Either of the two sources may come first. -/
theorem Atom.symm [RandomSource σ] [RandomSource τ] {d : Definition} {e : Effect}
    {act : RoundState → Bag → PlanM σ (α × RoundState × Bag)}
    {act' : RoundState → Bag → PlanM τ (α × RoundState × Bag)} (h : Atom d e act act') :
    Atom d e act' act := by
  cases h with
  | leaf h h' => exact .leaf h' h
  | _ => constructor

/-! ### Features in terms of atoms -/

theorem liftM_eq_atomic (plan : PlanM σ α) :
    (liftM plan : PassM σ α) = atomic (Act.draws plan) := by
  funext p
  change ((plan p.source).1, { p with source := (plan p.source).2 }) = _
  rcases h : plan p.source with ⟨r | a, source⟩ <;> simp [atomic, Act.draws, bind_run, h]; rfl

theorem get_bind_run (f : Pass σ → PassM σ α) (p : Pass σ) : (get >>= f) p = f p p := rfl

theorem carryOut_eq_atomic (d : Definition) (plan : RoundState → Bag → PlanM σ (Option Change)) :
    carryOut d plan = atomic (Act.carries d (keepingBag plan)) := by
  funext p
  rw [carryOut, get_bind_run, liftM_eq_atomic, bind_run]
  simp only [atomic, Act.draws, Act.carries, keepingBag, bind_run]
  rcases plan p.state p.bag p.source with ⟨e | change, source⟩ <;> rfl

theorem remember_eq_atomic (d : Definition)
    (plan : RoundState → Bag → Except FeatureError (Option Change × Bag)) :
    remember d plan = atomic (σ := σ) (Act.carries d fun s bag => plan s bag) := by
  funext p
  rw [remember, get_bind_run, bind_run]
  simp only [atomic, Act.carries]
  rcases plan p.state p.bag with e | ⟨change, left⟩ <;> rfl

theorem atomic_bind_run {β : Type} (act : RoundState → Bag → PlanM σ (α × RoundState × Bag))
    (f : α → PassM σ β) (p : Pass σ) :
    (atomic act >>= f) p = match act p.state p.bag p.source with
      | (.ok (a, state, bag), source) => f a { p with source := source, state := state, bag := bag }
      | (.error e, source) => (.error e, { p with source := source }) := by
  rw [bind_run, atomic]
  rcases act p.state p.bag p.source with ⟨e | ⟨a, state, bag⟩, source⟩ <;> rfl

/-- When an atom fails, only the source has moved. -/
theorem atomic_run_error {act : RoundState → Bag → PlanM σ (α × RoundState × Bag)}
    {p q : Pass σ} {error : FeatureError} (h : atomic act p = (.error error, q)) :
    ∃ source, q = { p with source := source } := by
  rw [atomic] at h
  rcases hact : act p.state p.bag p.source with ⟨e | ⟨a, s, bag⟩, source⟩ <;> rw [hact] at h <;>
    cases h
  exact ⟨source, rfl⟩

theorem liftM_plan_run (plan : PlanM σ α) (p : Pass σ) :
    (liftM plan : PassM σ α) p = ((plan p.source).1, { p with source := (plan p.source).2 }) := rfl

/-- What a plan has done when it was carried out. -/
theorem carryOut_run_ok {d : Definition} {plan : RoundState → Bag → PlanM σ (Option Change)}
    {p q : Pass σ} : carryOut d plan p = (.ok (), q) ↔ ∃ change x,
      plan p.state p.bag p.source = (.ok change, x) ∧
        q = { p with source := x, state := p.state.perform d change } := by
  rw [carryOut, get_bind_run, bind_run, liftM_plan_run]
  rcases plan p.state p.bag p.source with ⟨e | change, x⟩
  · constructor
    · nofun
    · rintro ⟨change, y, h, -⟩
      cases h
  · constructor
    · intro h
      cases h
      exact ⟨change, x, rfl, rfl⟩
    · rintro ⟨change', y, h, rfl⟩
      cases h
      rfl

/-- What a plan that changes the bag has done when it was carried out. -/
theorem remember_run_ok {d : Definition}
    {plan : RoundState → Bag → Except FeatureError (Option Change × Bag)} {p q : Pass σ} :
    remember d plan p = (.ok (), q) ↔ ∃ change left, plan p.state p.bag = .ok (change, left) ∧
      q = { p with state := p.state.perform d change, bag := left } := by
  rw [remember, get_bind_run, bind_run, liftM_run]
  rcases plan p.state p.bag with e | ⟨change, left⟩
  · constructor
    · nofun
    · rintro ⟨change, left, h, -⟩
      cases h
  · constructor
    · intro h
      cases h
      exact ⟨change, left, rfl, rfl⟩
    · rintro ⟨change', left', h, rfl⟩
      cases h
      rfl

theorem repeated_eq [RandomSource σ] (d : Definition) (children : List (Child σ)) :
    Branch.repeated d children = atomic (Act.counts d) >>= Branch.times children := by
  funext p
  rw [Branch.repeated, get_bind_run, atomic_bind_run, Act.counts]
  rcases p.bag.find .positions "Counts" with e | _ | counts
  · rfl
  · rcases p.bag.require .nat "Count" with e | count <;> rfl
  · rcases p.bag.find .weights "CountWeights" with e | weights
    · rfl
    · simp only [bind_run, liftM_run, lift_param_ok, liftM_plan_run]
      rcases pick weights counts.length p.source with ⟨e | index, source⟩ <;> rfl

theorem reelset_eq [RandomSource σ] (d : Definition) (children : List (Child σ)) :
    Spin.reelset d children = atomic (Act.chooses d) >>= fun _ => fireAll children := by
  funext p
  rw [Spin.reelset, get_bind_run, atomic_bind_run, Act.chooses]
  rcases p.bag.require .bags "Reelsets" with e | sets
  · rfl
  simp only [bind_run, liftM_run, lift_param_ok, liftM_plan_run]
  generalize (sets.mapM fun set => set.require .nat "Weight" : Except ParamError (List Nat)) = read
  rcases read with e | weights
  · rfl
  simp only [lift_param_ok]
  rcases pick (some weights) sets.length p.source with ⟨e | index, source⟩
  · rfl
  dsimp only
  rcases sets[index].require .text "Name" with e | name
  · rfl
  rcases sets[index].require .intLists "Reels" with e | strips <;> rfl

theorem byCount_eq (d : Definition) (children : List (Child σ)) :
    Trigger.byCount d children =
      atomic (Act.counting d) >>= fun found => if found then fireAll children else pure () := by
  funext p
  rw [Trigger.byCount, get_bind_run, atomic_bind_run, Act.counting]
  rcases Trigger.symbols p.bag with e | sought
  · rfl
  rcases p.bag.require .nat "MinCount" with e | least
  · rfl
  simp only [bind_run, liftM_run, lift_param_ok]
  split <;> rfl

theorem byCell_eq (d : Definition) (children : List (Child σ)) :
    Trigger.byCell d children =
      atomic (Act.seeking d) >>= fun positions => positions.forM (Trigger.atCell children) := by
  funext p
  rw [Trigger.byCell, get_bind_run, atomic_bind_run, Act.seeking]
  rcases Trigger.symbols p.bag with e | sought
  · rfl
  simp only [bind_run, liftM_run, lift_param_ok]
  split <;> rfl

theorem replay_eq (children : List (Child σ)) :
    Reveal.replay children =
      atomic Act.reveals >>= fun found => if found then fireAll children else pure () := by
  funext p
  rw [Reveal.replay, get_bind_run, atomic_bind_run, Act.reveals]
  rcases Reveal.pending p.state with _ | ⟨link, rest, tries⟩ <;> rfl

theorem goOn_eq (children : List (Child σ)) :
    Reveal.goOn children =
      atomic Act.decides >>= fun goesOn => if goesOn then fireAll children else pure () := by
  funext p
  rw [Reveal.goOn, get_bind_run, atomic_bind_run, Act.decides]
  rcases p.bag.require .nat "Tries" with e | ceiling
  · rfl
  simp only [bind_run, liftM_run, lift_param_ok]
  split <;> rfl

/-- A feature that calls no others is one atom. -/
theorem Effect.run_leaf [RandomSource σ] {e : Effect} {d : Definition} {children : List (Child σ)}
    {plan : RoundState → Bag → PlanM σ (Option Change × Bag)} (h : e.leaf? = some plan) :
    e.run d children = atomic (Act.carries d plan) := by
  cases e <;> simp only [Effect.leaf?, Option.some.injEq, reduceCtorEq] at h <;> subst h <;>
    simp only [Effect.run, settle, carryOut_eq_atomic, remember_eq_atomic]

theorem get_note_eq_atomic (d : Definition) (payload : Json) :
    (do let p ← get; note d ⟨p.state.outcome, payload⟩ : PassM σ Unit) =
      atomic (Act.notes d payload) := rfl

end SlotOutcome
