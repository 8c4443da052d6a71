import SlotOutcome.Proofs.Results

/-!
# What atoms change

A feature that does not deal with sequences of steps makes at most one change: it leaves another
outcome with one more entry in the ledger. This file lists the changes that each type of feature may
make, and reads off that all of them leave the ledger of the outcome before as it is.

## Main definitions

* `Effect.Makes`: the changes that each type of feature may make.
* `Effect.isSequel`: the types of features that deal with sequences of steps.

## Main results

* `Effect.leaf?_makes`: the plans of features make these changes.
* `Atom.makes`, `Atom.exists_change`, `Atom.sequel_frame`: an atom makes at most one change, or it
  deals with a sequence of steps and leaves the outcome, unless it takes over a step.
-/

namespace SlotOutcome

/-! ### The changes of each type of feature -/

/-- Every listed position is one of the grid. -/
def Grid.Bounds (g : Grid) (positions : List Nat) : Prop := ∀ p ∈ positions, p < g.len

/-- The outcome with a symbol at the listed positions of the working grid. -/
def Outcome.covered (o : Outcome) (positions : List Nat) (symbol : Symbol) : Outcome :=
  { o with grid := o.grid.writeAll positions symbol }

/-- The outcome with more wins. -/
def Outcome.withWins (o : Outcome) (wins : List Win) : Outcome := { o with wins := o.wins ++ wins }

/-- The changes that features of a type may make to the outcome of a state. -/
inductive Effect.Makes (s : RoundState) : Effect → Change → Prop
  | choice (index : Nat) : Makes s .weightedActivator ⟨s.outcome, Payload.choice index⟩
  | repeats (count : Nat) : Makes s .repeatActivator ⟨s.outcome, Payload.repeats count⟩
  | stops {strips : List Strip} {stops : List Nat} {rows : Nat} {grid : Grid}
      (hgrid : Grid.ofReels (List.zipWith (fun strip stop => strip.window stop rows) strips stops) =
        .ok grid) :
    Makes s .reelStops ⟨{ s.outcome with
      sourceGrid := grid
      grid := grid
      strips := strips.map Strip.symbols
      stops := stops }, Payload.stops stops⟩
  | reelset (name : String) (index : Nat) :
    Makes s .weightedReelset ⟨{ s.outcome with reelset := some name }, Payload.reelset name index⟩
  | tile {x y w h : Nat} {positions : List Nat} {id : Symbol} (hx : x < UInt64.size)
      (hy : y < UInt64.size) (hw : w < UInt64.size) (hh : h < UInt64.size)
      (hblock : Paint.block s.outcome.grid x y w h = .ok positions) :
    Makes s .tileExpansion ⟨s.outcome.covered positions id, Payload.tile x y w h id⟩
  | expansion {position : Nat} {positions : List Nat} {id : Symbol}
      (hbounds : s.outcome.grid.Bounds positions) :
    Makes s .expandingWild
      ⟨s.outcome.covered positions id, Payload.expansion position positions id⟩
  | expandedReels {reels : List Nat} {positions : List (List Nat)} {id : Symbol}
      (hpositions : reels.mapM s.outcome.grid.reelPositions = .ok positions) :
    Makes s .expandingSymbols
      ⟨s.outcome.covered positions.flatten id, Payload.expandedReels reels id⟩
  | replaced {positions : List Nat} {id : Symbol} (hbounds : s.outcome.grid.Bounds positions) :
    Makes s .replaceTile ⟨s.outcome.covered positions id, Payload.painted positions id⟩
  | dropped {positions : List Nat} {id : Symbol} (hbounds : s.outcome.grid.Bounds positions) :
    Makes s .randomWilds ⟨s.outcome.covered positions id, Payload.painted positions id⟩
  | unveiled {positions : List Nat} {id : Symbol} (hbounds : s.outcome.grid.Bounds positions) :
    Makes s .mysterySymbol ⟨s.outcome.covered positions id, Payload.painted positions id⟩
  | pattern {index : Nat} {positions : List Nat} {id : Symbol}
      (hbounds : s.outcome.grid.Bounds positions) :
    Makes s .applyPattern ⟨s.outcome.covered positions id, Payload.pattern index positions id⟩
  | cascade {removed : List Nat} {refills : List (Option Cascade.Refill)}
      (hremoved : ascending (s.outcome.wins.flatMap Win.positions) = removed)
      (hbounds : s.outcome.grid.Bounds removed)
      (hstrips : s.outcome.strips.length = s.outcome.grid.reels)
      (hstops : s.outcome.stops.length = s.outcome.grid.reels)
      (hrefills : List.Forall₂ (fun cell refill =>
        Cascade.refill s.outcome.grid removed cell.2 cell.1.1 cell.1.2 = .ok refill)
        (s.outcome.strips.zip s.outcome.stops).zipIdx refills) :
    Makes s .cascade ⟨{ s.outcome with
      grid := (refills.filterMap id).foldl Cascade.Refill.write s.outcome.grid
      stops := List.zipWith (fun refill stop => (refill.map Cascade.Refill.stop).getD stop) refills
        s.outcome.stops
      cascade := ⟨s.outcome.cascade.step + 1, removed⟩
      nextPhase := some .cascade }, Payload.cascade (s.outcome.cascade.step + 1) removed⟩
  | counted (positions : List Nat) :
    Makes s .countTrigger ⟨s.outcome, Payload.triggered positions⟩
  | found (positions : List Nat) :
    Makes s .symbolTrigger ⟨s.outcome, Payload.triggered positions⟩
  | award {spins : Nat} (hspins : spins < UInt32.size) :
    Makes s .awardFreespins ⟨{ s.outcome with
      freespins := Pay.addSpins s.outcome.freespins (UInt32.ofNat spins)
      nextPhase := some .freespin },
      Payload.award spins (Pay.addSpins s.outcome.freespins (UInt32.ofNat spins))⟩
  | evaluated {evaluator : Evaluator} {wins : List Win} {paytable : Option String}
      (hevaluator : s.evaluator = some evaluator)
      (hwins : evaluator s.outcome.grid paytable = wins) :
    Makes s .evaluateWins
      ⟨s.outcome.withWins wins, Payload.evaluated wins.length (winSum wins)⟩
  | multiplied {factor : Float} (hfactor : factor.isFinite = true) :
    Makes s .multiplier ⟨{ s.outcome with multiplier := s.outcome.multiplier * factor },
      Payload.multiplied factor (s.outcome.multiplier * factor)⟩
  | applied {wilds : Option (List Nat)} {affected : Nat}
      (haffected : s.outcome.wins.countP (Pay.touches wilds) = affected) :
    Makes s .applyMultiplier ⟨{ s.outcome with
      wins := s.outcome.wins.map fun win =>
        if Pay.touches wilds win then Pay.scale s.outcome.multiplier win else win },
      Payload.applied s.outcome.multiplier affected⟩
  | prize {label : String} {multiplier : Float} (hmultiplier : multiplier.isFinite = true) :
    Makes s .instantPrize ⟨s.outcome.withWins [⟨label, multiplier, [], []⟩],
      Payload.prize label multiplier⟩
  | scatter {symbol : Symbol} {positions : List Nat} {multiplier : Float}
      (hmultiplier : multiplier.isFinite = true) :
    Makes s .scatterPay ⟨s.outcome.withWins [⟨"Scatter", multiplier, [symbol], positions⟩],
      Payload.scatter positions.length multiplier⟩
  | count {key : String} {value : Int} {reached : Bool}
      (hvalue : -0x8000000000000000 ≤ value ∧ value < 0x8000000000000000) :
    Makes s .counter ⟨s.outcome, Payload.count key value reached⟩
  | sticky {applied : List Nat} {id : Symbol} (hbounds : s.outcome.grid.Bounds applied) :
    Makes s .stickySymbols ⟨s.outcome.covered applied id,
      Payload.sticky applied ((s.outcome.covered applied id).grid.positionsOf id) id⟩
  | statefulMap (memory : Bag) : Makes s .statefulMap ⟨s.outcome, .obj memory⟩
  | statelessMap (memory : Bag) : Makes s .statelessMap ⟨s.outcome, .obj memory⟩

/-- A plan makes a change of its type of feature, or none. -/
def Effect.MakesOnly (e : Effect) (s : RoundState) (change : Option Change) : Prop :=
  ∀ c ∈ change, e.Makes s c

theorem Effect.makesOnly_none (e : Effect) (s : RoundState) : e.MakesOnly s none :=
  fun _ hc => nomatch hc

theorem Effect.Makes.only {e : Effect} {s : RoundState} {c : Change} (h : e.Makes s c) :
    e.MakesOnly s (some c) := by
  intro c' hc
  cases hc
  exact h

/-! ### The values that plans read -/

theorem ParamType.nat_ensures : ParamType.nat.Ensures (· < UInt64.size) := by
  intro value n hread
  change value.toNat? = some n at hread
  rcases value with _ | _ | (⟨i, hi⟩ | x) | _ | _ | _ <;>
    simp [Json.toNat?, Number.toInt?] at hread
  have hsize : UInt64.size = 0x10000000000000000 := rfl
  omega

theorem Number.isFinite_toFloat (n : Number) : n.toFloat.isFinite = true := by
  rcases n with ⟨i, hi⟩ | x
  · rw [Number.toFloat]
    rcases Decimal.round ⟨decide (i < 0), i.natAbs, 0⟩ with _ | x
    · decide +kernel
    · exact x.isFinite
  · exact x.isFinite

theorem ParamType.float_ensures : ParamType.float.Ensures (·.isFinite = true) := by
  intro value x hread
  change value.toFloat? = some x at hread
  rcases value with _ | _ | n | _ | _ | _ <;> cases hread
  exact n.isFinite_toFloat

section Plans

variable {σ : Type} (s : RoundState) (bag : Bag)

theorem check_yields (g : Grid) (p : Nat) : Yields (fun _ => p < g.len) (g.check p) := by
  unfold Grid.check
  split
  · next h => exact .pure h
  · exact .throw _

theorem setAll_yields (g : Grid) (positions : List Nat) (symbol : Symbol) :
    Yields (fun g' => g' = g.writeAll positions symbol ∧ g.Bounds positions)
      (g.setAll positions symbol) :=
  .bind (.forM_all (check_yields g) positions) fun _ h => .pure ⟨rfl, h⟩

theorem Grid.setAll_of_bounds {g : Grid} {positions : List Nat} (h : g.Bounds positions)
    (symbol : Symbol) : g.setAll positions symbol = .ok (g.writeAll positions symbol) := by
  have hchecked : positions.forM g.check = .ok () := forM_eq_ok.mpr fun p hp => if_pos (h p hp)
  rw [setAll, hchecked]
  rfl

theorem cover_yields (o : Outcome) (positions : List Nat) (symbol : Symbol) :
    Yields (fun o' => o' = o.covered positions symbol ∧ o.grid.Bounds positions)
      (Paint.cover o positions symbol) := by
  refine .bind (setAll_yields o.grid positions symbol) fun grid ⟨hgrid, hbounds⟩ => .pure ?_
  exact ⟨by rw [hgrid]; rfl, hbounds⟩

variable {s} in
/-- Covering cells and noting it. -/
theorem cover_makes {e : Effect} {positions : List Nat} {symbol : Symbol} {payload : Json}
    (h : s.outcome.grid.Bounds positions →
      e.Makes s ⟨s.outcome.covered positions symbol, payload⟩) :
    Yields (e.MakesOnly s)
      (do return some ⟨← Paint.cover s.outcome positions symbol, payload⟩ :
        Except FeatureError (Option Change)) := by
  refine .bind (.lift_data (cover_yields s.outcome positions symbol)) fun o ho => .pure ?_
  rw [ho.1]
  exact (h ho.2).only

theorem tile_makes : Yields (Effect.tileExpansion.MakesOnly s) (Paint.tile s bag) := by
  have hnat {key : String} : Yields (· < UInt64.size)
      (liftM (bag.require .nat key) : Except FeatureError Nat) :=
    .lift_param (Bag.require_yields ParamType.nat_ensures)
  refine .bind hnat fun x hx => .bind hnat fun y hy => .bind hnat fun w hw => ?_
  refine .bind hnat fun h hh => .after fun id => .guarded fun _ => .after fun _ => ?_
  exact .bind (.lift_data (yields_eq _)) fun positions hblock =>
    cover_makes fun _ => .tile hx hy hw hh hblock

theorem expandAround_makes :
    Yields (Effect.expandingWild.MakesOnly s) (Paint.expandAround s bag) := by
  refine .after fun position => .after fun positions => .after fun id => .after fun _ => ?_
  exact cover_makes .expansion

theorem expandReels_makes :
    Yields (Effect.expandingSymbols.MakesOnly s) (Paint.expandReels s bag) := by
  refine .after fun id => .after fun columns => .ite (.pure (Effect.makesOnly_none _ s)) ?_
  exact .bind (.lift_data (yields_eq _)) fun positions hpositions =>
    cover_makes fun _ => .expandedReels hpositions

theorem replace_makes : Yields (Effect.replaceTile.MakesOnly s) (Paint.replace s bag) := by
  refine .after fun source => .after fun target => .ite (.pure (Effect.makesOnly_none _ s)) ?_
  exact cover_makes .replaced

theorem cascade_makes : Yields (Effect.cascade.MakesOnly s) (Cascade.run s) := by
  refine .ite (.pure (Effect.makesOnly_none _ s)) (.guarded fun hshape => ?_)
  obtain ⟨hstrips, hstops⟩ := not_or.mp hshape
  refine .bind (.forM_all (fun p => .lift_data (check_yields _ p)) _) fun _ hbounds => ?_
  refine .bind (.lift_data (.mapM _ _)) fun refills hrefills => .pure (Effect.Makes.only ?_)
  exact .cascade rfl hbounds (not_not.mp hstrips) (not_not.mp hstops) hrefills

theorem evaluate_makes : Yields (Effect.evaluateWins.MakesOnly s) (Pay.evaluate s bag) := by
  unfold Pay.evaluate
  rcases hevaluator : s.evaluator with _ | evaluator
  · exact .throw _
  · refine .after fun paytable => .ite (.pure (Effect.makesOnly_none _ s)) ?_
    exact .pure (Effect.Makes.evaluated hevaluator rfl).only

theorem applyMultiplier_makes :
    Yields (Effect.applyMultiplier.MakesOnly s) (Pay.applyMultiplier s bag) := by
  refine .ite (.pure (Effect.makesOnly_none _ s)) (.after fun wild => ?_)
  exact .ite (.pure (Effect.makesOnly_none _ s)) (.pure (Effect.Makes.applied rfl).only)

theorem scatter_makes : Yields (Effect.scatterPay.MakesOnly s) (Pay.scatter s bag) := by
  refine .after fun symbol => .bind (P := fun pays => ∀ pay ∈ pays, pay.isFinite = true) ?_ ?_
  · exact .lift_param (Bag.require_yields (.list ParamType.float_ensures))
  refine fun pays hpays => .after fun least => .ite (.pure (Effect.makesOnly_none _ s)) ?_
  split
  · exact .pure (Effect.makesOnly_none _ s)
  · next multiplier hpay =>
    refine .ite (.pure (Effect.makesOnly_none _ s)) (.pure (Effect.Makes.only ?_))
    exact .scatter (hpays _ (List.mem_of_getElem? hpay))

theorem statefulMap_makes :
    Yields (Effect.statefulMap.MakesOnly s) (Remember.statefulMap s bag) := by
  refine .after fun namespaces => .after fun stash => ?_
  rcases stash with _ | map <;>
    exact .after fun current => .ite (.pure (Effect.makesOnly_none _ s))
      (.pure (Effect.Makes.statefulMap _).only)

theorem statelessMap_makes :
    Yields (Effect.statelessMap.MakesOnly s) (Remember.statelessMap s bag) := by
  refine .after fun current => ?_
  exact .ite (.pure (Effect.makesOnly_none _ s)) (.pure (Effect.Makes.statelessMap _).only)

theorem setParams_makes : Yields (fun result => Effect.setParams.MakesOnly s result.1)
    (do return (none, ← Remember.setParams bag) : Except FeatureError (Option Change × Bag)) :=
  .after fun _ => .pure (Effect.makesOnly_none _ s)

theorem counter_makes :
    Yields (fun result => Effect.counter.MakesOnly s result.1) (Remember.counter s bag) := by
  refine .after fun channel => .after fun key => .after fun symbol => ?_
  -- Six ways lead through the optional reads; the change is the same on all of them.
  rcases symbol with _ | symbol <;>
    refine .after fun increment => .after fun map => .after fun count => .after fun target => ?_ <;>
    refine .ite (.after fun reset => ?_) (.after fun reset => ?_) <;>
    refine .ite (.after fun flag => ?_) (.after fun flag => ?_) <;>
    exact .ite (.pure (Effect.makesOnly_none _ s))
      (.pure (Effect.Makes.count (Remember.addWithin_bounds _ _)).only)

theorem sticky_makes :
    Yields (fun result => Effect.stickySymbols.MakesOnly s result.1) (Remember.sticky s bag) := by
  refine .after fun id => .after fun channel => .after fun key => .after fun map => ?_
  refine .after fun applied => .bind (.lift_data (setAll_yields _ applied id)) ?_
  rintro grid ⟨rfl, hbounds⟩
  exact .ite (.pure (Effect.makesOnly_none _ s)) (.pure (Effect.Makes.sticky hbounds).only)

theorem keepingBag_yields {P : Option Change → Prop}
    {plan : RoundState → Bag → PlanM σ (Option Change)} (h : Yields P (plan s bag)) :
    Yields (fun result => P result.1) (keepingBag plan s bag) :=
  .bind h fun _ h => .pure h

variable {s} in
/-- Covering cells after a draw. -/
theorem cover_makes_of_draw {e : Effect} {positions : List Nat} {symbol : Symbol} {payload : Json}
    (h : s.outcome.grid.Bounds positions →
      e.Makes s ⟨s.outcome.covered positions symbol, payload⟩) :
    Yields (e.MakesOnly s)
      (do return some ⟨← Paint.cover s.outcome positions symbol, payload⟩ :
        PlanM σ (Option Change)) := by
  refine .bind (.lift_plan (.lift_data (cover_yields s.outcome positions symbol))) fun o ho => ?_
  rw [ho.1]
  exact .pure (h ho.2).only

variable [RandomSource σ]

theorem reels_makes :
    Yields (Effect.reelStops.MakesOnly s) (Spin.reels s bag : PlanM σ (Option Change)) := by
  refine .after fun listed => .after fun strips => .after fun rows => .guarded fun _ => ?_
  refine .after fun forced => ?_
  rcases forced with _ | stops <;>
    exact .after fun stops => .bind (.lift_plan (.lift_data (yields_eq _))) fun grid hgrid =>
      .pure (Effect.Makes.stops hgrid).only

theorem randomWilds_makes :
    Yields (Effect.randomWilds.MakesOnly s)
      (Paint.randomWilds s bag : PlanM σ (Option Change)) := by
  refine .after fun id => .after fun exclude => .after fun count => ?_
  refine .ite (.pure (Effect.makesOnly_none _ s)) (.after fun positions => ?_)
  exact cover_makes_of_draw .dropped

theorem mystery_makes :
    Yields (Effect.mysterySymbol.MakesOnly s) (Paint.mystery s bag : PlanM σ (Option Change)) := by
  refine .after fun hidden => .after fun symbols => .after fun weights => ?_
  refine .ite (.pure (Effect.makesOnly_none _ s)) (.after fun index => ?_)
  exact cover_makes_of_draw .unveiled

theorem pattern_makes :
    Yields (Effect.applyPattern.MakesOnly s) (Paint.pattern s bag : PlanM σ (Option Change)) := by
  refine .after fun patterns => .after fun weights => .after fun id => .after fun index => ?_
  exact .after fun positions => cover_makes_of_draw .pattern

theorem spinCount_yields (spins : Nat) :
    Yields (fun count => spins < UInt32.size ∧ count = UInt32.ofNat spins)
      (Pay.spinCount spins) := by
  unfold Pay.spinCount
  split
  · next h => exact .pure ⟨h, rfl⟩
  · exact .throw _

theorem freespins_makes :
    Yields (Effect.awardFreespins.MakesOnly s) (Pay.freespins s bag : PlanM σ (Option Change)) := by
  refine .after fun spins => .ite (.pure (Effect.makesOnly_none _ s)) ?_
  refine .bind (.lift_plan (spinCount_yields spins)) ?_
  rintro count ⟨hspins, rfl⟩
  exact .pure (Effect.Makes.award hspins).only

theorem multiply_makes :
    Yields (Effect.multiplier.MakesOnly s) (Pay.multiply s bag : PlanM σ (Option Change)) :=
  .bind (pickFrom_yields ParamType.float_ensures (.list ParamType.float_ensures))
    fun _ hfactor => .pure (Effect.Makes.multiplied hfactor).only

theorem prize_makes :
    Yields (Effect.instantPrize.MakesOnly s) (Pay.prize s bag : PlanM σ (Option Change)) := by
  refine .bind (pickFrom_yields ParamType.float_ensures (.list ParamType.float_ensures)) ?_
  refine fun multiplier hmultiplier => .after fun label => ?_
  exact .ite (.pure (Effect.makesOnly_none _ s)) (.pure (Effect.Makes.prize hmultiplier).only)

/-- The plans of features make the changes of their types. -/
theorem Effect.leaf?_makes {e : Effect} {plan : RoundState → Bag → PlanM σ (Option Change × Bag)}
    (h : e.leaf? = some plan) : Yields (fun result => e.MakesOnly s result.1) (plan s bag) := by
  cases e <;> simp only [Effect.leaf?, Option.some.injEq, reduceCtorEq] at h <;> subst h
  case setParams => exact .lift_plan (setParams_makes s bag)
  case counter => exact .lift_plan (counter_makes s bag)
  case stickySymbols => exact .lift_plan (sticky_makes s bag)
  case reelStops => exact keepingBag_yields s bag (reels_makes s bag)
  case tileExpansion => exact keepingBag_yields s bag (.lift_plan (tile_makes s bag))
  case expandingWild =>
    exact keepingBag_yields s bag (.lift_plan (expandAround_makes s bag))
  case expandingSymbols =>
    exact keepingBag_yields s bag (.lift_plan (expandReels_makes s bag))
  case replaceTile => exact keepingBag_yields s bag (.lift_plan (replace_makes s bag))
  case randomWilds => exact keepingBag_yields s bag (randomWilds_makes s bag)
  case mysterySymbol => exact keepingBag_yields s bag (mystery_makes s bag)
  case applyPattern => exact keepingBag_yields s bag (pattern_makes s bag)
  case cascade => exact keepingBag_yields s bag (.lift_plan (cascade_makes s))
  case awardFreespins => exact keepingBag_yields s bag (freespins_makes s bag)
  case evaluateWins => exact keepingBag_yields s bag (.lift_plan (evaluate_makes s bag))
  case multiplier => exact keepingBag_yields s bag (multiply_makes s bag)
  case applyMultiplier =>
    exact keepingBag_yields s bag (.lift_plan (applyMultiplier_makes s bag))
  case instantPrize => exact keepingBag_yields s bag (prize_makes s bag)
  case scatterPay => exact keepingBag_yields s bag (.lift_plan (scatter_makes s bag))
  case statefulMap => exact keepingBag_yields s bag (.lift_plan (statefulMap_makes s bag))
  case statelessMap =>
    exact keepingBag_yields s bag (.lift_plan (statelessMap_makes s bag))

end Plans

/-! ### Atoms -/

/-- The types of features that deal with sequences of steps. -/
def Effect.isSequel : Effect → Bool
  | play => true
  | replay => true
  | replayContinue => true
  | replayAbort => true
  | _ => false

theorem Effect.isSequel_of_leaf? {σ : Type} [RandomSource σ] {e : Effect}
    {plan : RoundState → Bag → PlanM σ (Option Change × Bag)} (h : e.leaf? = some plan) :
    e.isSequel = false := by
  cases e <;> first | rfl | cases h

section Atoms

variable {σ τ : Type} [RandomSource σ] [RandomSource τ] {d : Definition} {e : Effect} {α : Type}
  {act : RoundState → Bag → PlanM σ (α × RoundState × Bag)}
  {act' : RoundState → Bag → PlanM τ (α × RoundState × Bag)}

/-- The results of an atom that makes at most one change, one of the given type of feature. -/
def MakesChange (s : RoundState) (d : Definition) (e : Effect) (result : α × RoundState × Bag) :
    Prop :=
  ∃ change, e.MakesOnly s change ∧ result.2.1 = s.perform d change

theorem makesChange_none (s : RoundState) (d : Definition) (e : Effect) (a : α) (bag : Bag) :
    MakesChange s d e (a, s, bag) := ⟨none, e.makesOnly_none s, rfl⟩

theorem Effect.Makes.noted {s : RoundState} {c : Change} (h : e.Makes s c) (d : Definition) (a : α)
    (bag : Bag) : MakesChange s d e (a, s.perform d (some c), bag) := ⟨some c, h.only, rfl⟩

/-- A feature that does not deal with sequences of steps makes at most one change with each of its
atoms. -/
theorem Atom.makes (h : Atom d e act act') (he : e.isSequel = false) (s : RoundState) (bag : Bag) :
    Yields (MakesChange s d e) (act s bag) := by
  cases h with
  | leaf h _ =>
    refine .bind (Effect.leaf?_makes s bag h) fun result hmakes => ?_
    exact .pure ⟨result.1, hmakes, rfl⟩
  | chance _ | pick _ _ => exact .after fun _ => .pure (makesChange_none s d _ _ bag)
  | choice index => exact .pure (Effect.Makes.noted (.choice index) d _ bag)
  | counts =>
    refine .after fun counts => ?_
    rcases counts with _ | counts
    · exact .after fun _ => .pure (makesChange_none s d _ _ bag)
    · exact .after fun _ => .after fun _ => .pure (Effect.Makes.noted (.repeats _) d _ bag)
  | chooses =>
    refine .after fun sets => .after fun weights => .after fun index => ?_
    refine .after fun name => .after fun strips => ?_
    exact .pure (Effect.Makes.noted (.reelset _ _) d _ _)
  | counting =>
    refine .after fun sought => .after fun least => ?_
    exact .ite (.pure (makesChange_none s d _ _ bag))
      (.pure (Effect.Makes.noted (.counted _) d _ _))
  | seeking =>
    refine .after fun sought => ?_
    exact .ite (.pure (makesChange_none s d _ _ bag))
      (.pure (Effect.Makes.noted (.found _) d _ bag))
  | begun | chained _ | reveals | decides | ended => cases he

/-! ### Changes and the ledger -/

/-- A change leaves the ledger of the outcome before it. -/
def KeepsLedger (s : RoundState) (change : Option Change) : Prop :=
  ∀ c ∈ change, c.outcome.ledger = s.outcome.ledger

theorem Effect.MakesOnly.keepsLedger {s : RoundState} {change : Option Change}
    (h : e.MakesOnly s change) : KeepsLedger s change := by
  intro c hc
  cases h c hc <;> rfl

/-- A feature that does not deal with sequences of steps makes at most one change with each of its
atoms, and leaves the ledger before it. -/
theorem Atom.exists_change (h : Atom d e act act') (he : e.isSequel = false) (s : RoundState)
    (bag : Bag) : Yields (fun result => ∃ change, KeepsLedger s change ∧
      result.2.1 = s.perform d change) (act s bag) := by
  intro result hresult
  obtain ⟨change, hmakes, hstate⟩ := h.makes he s bag result hresult
  exact ⟨change, hmakes.keepsLedger, hstate⟩

/-- A feature that deals with sequences of steps, but takes over none, leaves the outcome. -/
theorem Atom.sequel_frame (hatom : Atom d e act act')
    (hsequel : e.isSequel = true) (he : e ≠ .replay) {s s' : RoundState} {bag bag' : Bag} {x x' : σ}
    {a : α} (hrun : act s bag x = (.ok (a, s', bag'), x')) :
    s'.stake = s.stake ∧ s'.stateful = s.stateful ∧ s'.outcome = s.outcome := by
  cases hatom with
  | leaf h _ => exact absurd hsequel (by rw [Effect.isSequel_of_leaf? h]; exact Bool.false_ne_true)
  | begun | chained _ | ended =>
    cases hrun
    exact ⟨rfl, rfl, rfl⟩
  | reveals => exact absurd rfl he
  | decides =>
    obtain ⟨ceiling, y, -, hrun⟩ := bind_run_eq_ok.mp hrun
    split at hrun <;> cases hrun <;> exact ⟨rfl, rfl, rfl⟩
  | chance _ | pick _ _ | choice _ | counts | chooses | counting | seeking => cases hsequel

end Atoms

end SlotOutcome
