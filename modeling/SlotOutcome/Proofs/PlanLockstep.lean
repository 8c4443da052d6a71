import SlotOutcome.Proofs.Causes

/-!
# Plans in lockstep

A plan draws only by single draws below a positive number and by choices of a weighted index, and
what else it raises are errors of its own. So whatever sequencing keeps and these satisfy holds of
all plans, and of all atoms of a pass. This file carries that out for relations between plans over
two sources.

## Main definitions

* `PlanLockstep`: a relation between plans that sequencing keeps and draws satisfy.

## Main results

* `weightedIndex_eq`: what a weighted choice does.
* `PlanLockstep.atom`: the atoms of every feature are related.
-/

namespace SlotOutcome

/-! ### Draws as parts of plans -/

section Adapt

variable {ε ε' s α β : Type} (f : ε → ε')

theorem adapt_run (m : ExceptT ε (StateM s) α) (x : s) :
    (ExceptT.adapt f m : ExceptT ε' (StateM s) α) x = ((m x).1.mapError f, (m x).2) := rfl

/-- Changing the errors of a sequence is changing those of its parts. -/
theorem adapt_bind (m : ExceptT ε (StateM s) α) (g : α → ExceptT ε (StateM s) β) :
    (ExceptT.adapt f (m >>= g) : ExceptT ε' (StateM s) β) =
      ExceptT.adapt f m >>= fun a => ExceptT.adapt f (g a) := by
  funext x
  rw [adapt_run, bind_run, bind_run, adapt_run]
  rcases m x with ⟨e | a, y⟩ <;> rfl

end Adapt

/-- A weighted choice either finds fault with the weights or makes one draw. -/
theorem weightedIndex_eq {σ : Type} [RandomSource σ] (weights : List Nat) :
    (weightedIndex weights : DrawM σ (Fin weights.length)) =
      if UInt64.size ≤ weightSum weights then throw .weightOverflow
      else if weightSum weights = 0 then throw .zeroWeight
      else draw (weightSum weights) >>= fun value =>
        (indexAt weights value).elim (throw .zeroWeight) pure := by
  unfold weightedIndex
  dsimp only
  split
  · rfl
  split
  · rfl
  refine bind_congr fun value => ?_
  rcases indexAt weights value with _ | index <;> rfl

/-- A relation between plans over two sources that sequencing keeps and draws satisfy. -/
structure PlanLockstep (σ τ : Type) [RandomSource σ] [RandomSource τ] where
  Rel : {α : Type} → PlanM σ α → PlanM τ α → Prop
  pure : ∀ {α : Type} (a : α), Rel (pure a) (pure a)
  throw : ∀ {α : Type} {e : FeatureError}, e.IsOwn → Rel (throw e : PlanM σ α) (throw e)
  bind : ∀ {α β : Type} {m : PlanM σ α} {m' : PlanM τ α} {f : α → PlanM σ β} {f' : α → PlanM τ β},
    Rel m m' → (∀ a, Rel (f a) (f' a)) → Rel (m >>= f) (m' >>= f')
  below : ∀ {n : Nat}, 0 < n → Rel (liftM (drawBelow n : DrawM σ (Fin n)))
    (liftM (drawBelow n : DrawM τ (Fin n)))
  choose : ∀ weights : List Nat, Rel (chooseIndex weights) (chooseIndex weights)

namespace PlanLockstep

open FeatureError (IsOwn IsPlain)

variable {σ τ : Type} [RandomSource σ] [RandomSource τ] (P : PlanLockstep σ τ)

/-- A computation without draws is related to itself. -/
theorem liftOwn {ε α : Type} [MonadLiftT (Except ε) (Except FeatureError)] {x : Except ε α}
    (h : RaisesOnly IsOwn (liftM x : Except FeatureError α)) : P.Rel (liftM x) (liftM x) := by
  change P.Rel (liftM (liftM x : Except FeatureError α)) (liftM (liftM x : Except FeatureError α))
  rcases hx : (liftM x : Except FeatureError α) with e | a
  · exact P.throw (h e hx)
  · exact P.pure a

theorem lift {ε α : Type} [MonadLiftT (Except ε) (Except FeatureError)] {x : Except ε α}
    (h : RaisesOnly IsPlain (liftM x : Except FeatureError α)) : P.Rel (liftM x) (liftM x) :=
  P.liftOwn fun e he => (h e he).isOwn

theorem read {α : Type} (x : Except ParamError α) : P.Rel (liftM x) (liftM x) := P.lift (.param x)

theorem data {α : Type} (x : Except DataError α) : P.Rel (liftM x) (liftM x) := P.lift (.data x)

theorem ite {α : Type} (c : Prop) [Decidable c] {m n : PlanM σ α} {m' n' : PlanM τ α}
    (hm : P.Rel m m') (hn : P.Rel n n') : P.Rel (if c then m else n) (if c then m' else n') := by
  split
  · exact hm
  · exact hn

/-- A plan that goes on only if a condition does not hold. -/
theorem guarded {α : Type} (c : Prop) [Decidable c] {e : FeatureError} (he : e.IsOwn)
    {m : PlanM σ α} {m' : PlanM τ α} (h : P.Rel m m') :
    P.Rel (if c then MonadExcept.throw e >>= fun _ : PUnit => m else m)
      (if c then MonadExcept.throw e >>= fun _ : PUnit => m' else m') :=
  P.ite c (P.bind (P.throw he) fun _ => h) h

/-! ### Choices -/

theorem pick (weights : Option (List Nat)) (len : Nat) :
    P.Rel (SlotOutcome.pick weights len) (SlotOutcome.pick weights len) := by
  rcases weights with _ | weights
  · unfold SlotOutcome.pick
    dsimp only
    split
    · exact P.throw trivial
    · next hlen => exact P.below (Nat.pos_of_ne_zero hlen)
  · unfold SlotOutcome.pick
    dsimp only
    split
    · exact P.bind (P.choose weights) fun _ => P.pure _
    · exact P.throw trivial

theorem chance (probability : Int) :
    P.Rel (SlotOutcome.chance probability) (SlotOutcome.chance probability) :=
  P.bind (P.below (by decide)) fun _ => P.pure _

theorem pickFrom {α : Type} (bag : Bag) (type : ParamType α) (listType : ParamType (List α))
    (single several weights : String) :
    P.Rel (SlotOutcome.pickFrom bag type listType single several weights)
      (SlotOutcome.pickFrom bag type listType single several weights) := by
  refine P.bind (P.read _) fun values => ?_
  rcases values with _ | values
  · exact P.read _
  · exact P.bind (P.read _) fun weights => P.bind (P.pick _ _) fun i => P.pure _

/-- As long as there are items left to draw. -/
theorem sampleExactly {α : Type} (count : Nat) (items : List α) (h : count ≤ items.length) :
    P.Rel (liftM (SlotOutcome.sampleExactly count items : DrawM σ (List α)))
      (liftM (SlotOutcome.sampleExactly count items : DrawM τ (List α))) := by
  induction count generalizing items with
  | zero => exact P.pure []
  | succ count ih =>
    change P.Rel (ExceptT.adapt _ (_ >>= _)) (ExceptT.adapt _ (_ >>= _))
    rw [adapt_bind, adapt_bind]
    refine P.bind (P.below (Nat.lt_of_lt_of_le count.succ_pos h)) fun i => ?_
    rw [adapt_bind, adapt_bind]
    refine P.bind (ih _ ?_) fun rest => P.pure _
    rw [List.length_eraseIdx_of_lt i.isLt]
    exact Nat.le_sub_one_of_lt h

theorem drawStops (strips : List Strip) :
    P.Rel (liftM (Spin.drawStops strips : DrawM σ (List Nat)))
      (liftM (Spin.drawStops strips : DrawM τ (List Nat))) := by
  induction strips with
  | nil => exact P.pure []
  | cons strip rest ih =>
    unfold Spin.drawStops at ih ⊢
    rw [List.mapM_cons, List.mapM_cons]
    change P.Rel (ExceptT.adapt _ (_ >>= _)) (ExceptT.adapt _ (_ >>= _))
    rw [adapt_bind, adapt_bind, adapt_bind, adapt_bind]
    refine P.bind (P.bind (P.below strip.length_pos) fun stop => P.pure _) fun stop => ?_
    rw [adapt_bind, adapt_bind]
    exact P.bind ih fun stops => P.pure _

theorem tile (s : RoundState) (bag : Bag) :
    P.Rel (liftM (Paint.tile s bag)) (liftM (Paint.tile s bag)) := by
  refine P.liftOwn fun e he => ?_
  rcases tile_raises s bag e he with hplain | ⟨rfl, -⟩
  · exact hplain.isOwn
  · trivial

/-! ### Features that draw -/

theorem reels (s : RoundState) (bag : Bag) : P.Rel (Spin.reels s bag) (Spin.reels s bag) := by
  refine P.bind (P.read _) fun listed => ?_
  refine P.bind (P.lift (.mapM (fun strip => ofInts_raises _ _) _)) fun strips => ?_
  refine P.bind (P.read _) fun rows => P.guarded _ (e := invalid _) trivial ?_
  refine P.bind (P.read _) fun forced => ?_
  rcases forced with _ | stops
  · exact P.bind (P.drawStops strips) fun stops => P.bind (P.data _) fun grid => P.pure _
  · refine P.bind (P.lift (checkForced_raises _ _)) fun stops => ?_
    exact P.bind (P.data _) fun grid => P.pure _

theorem randomWilds (s : RoundState) (bag : Bag) :
    P.Rel (Paint.randomWilds s bag) (Paint.randomWilds s bag) := by
  refine P.bind (P.read _) fun id => P.bind (P.read _) fun exclude => ?_
  refine P.bind (P.pickFrom ..) fun count => P.ite _ (P.pure _) ?_
  refine P.bind (P.sampleExactly _ _ (Nat.min_le_right _ _)) fun positions => ?_
  exact P.bind (P.data _) fun outcome => P.pure _

theorem mystery (s : RoundState) (bag : Bag) :
    P.Rel (Paint.mystery s bag) (Paint.mystery s bag) := by
  refine P.bind (P.read _) fun hidden => P.bind (P.read _) fun symbols => ?_
  refine P.bind (P.read _) fun weights => P.ite _ (P.pure _) ?_
  exact P.bind (P.pick _ _) fun index => P.bind (P.data _) fun outcome => P.pure _

theorem pattern (s : RoundState) (bag : Bag) :
    P.Rel (Paint.pattern s bag) (Paint.pattern s bag) := by
  refine P.bind (P.read _) fun patterns => P.bind (P.read _) fun weights => ?_
  refine P.bind (P.read _) fun id => P.bind (P.pick _ _) fun index => ?_
  exact P.bind (P.data _) fun positions => P.bind (P.data _) fun outcome => P.pure _

theorem freespins (s : RoundState) (bag : Bag) :
    P.Rel (Pay.freespins s bag) (Pay.freespins s bag) := by
  refine P.bind (P.pickFrom ..) fun spins => P.ite _ (P.pure _) ?_
  exact P.bind (P.lift (spinCount_raises spins)) fun count => P.pure _

theorem multiply (s : RoundState) (bag : Bag) :
    P.Rel (Pay.multiply s bag) (Pay.multiply s bag) :=
  P.bind (P.pickFrom ..) fun _ => P.pure _

theorem prize (s : RoundState) (bag : Bag) : P.Rel (Pay.prize s bag) (Pay.prize s bag) := by
  refine P.bind (P.pickFrom ..) fun multiplier => P.bind (P.read _) fun label => ?_
  exact P.ite _ (P.pure _) (P.pure _)

/-! ### Atoms -/

theorem keepingBag {plan : RoundState → Bag → PlanM σ (Option Change)}
    {plan' : RoundState → Bag → PlanM τ (Option Change)}
    (h : ∀ s bag, P.Rel (plan s bag) (plan' s bag)) (s : RoundState) (bag : Bag) :
    P.Rel (SlotOutcome.keepingBag plan s bag) (SlotOutcome.keepingBag plan' s bag) :=
  P.bind (h s bag) fun _ => P.pure _

theorem leaf {e : Effect} {plan : RoundState → Bag → PlanM σ (Option Change × Bag)}
    {plan' : RoundState → Bag → PlanM τ (Option Change × Bag)} (h : e.leaf? = some plan)
    (h' : e.leaf? = some plan') (s : RoundState) (bag : Bag) :
    P.Rel (plan s bag) (plan' s bag) := by
  cases e <;> simp only [Effect.leaf?, Option.some.injEq, reduceCtorEq] at h h' <;>
    subst h <;> subst h'
  case reelStops => exact P.keepingBag P.reels s bag
  case randomWilds => exact P.keepingBag P.randomWilds s bag
  case mysterySymbol => exact P.keepingBag P.mystery s bag
  case applyPattern => exact P.keepingBag P.pattern s bag
  case awardFreespins => exact P.keepingBag P.freespins s bag
  case multiplier => exact P.keepingBag P.multiply s bag
  case instantPrize => exact P.keepingBag P.prize s bag
  case setParams => exact P.lift (setParams_raises bag)
  case counter => exact P.lift (counter_raises s bag)
  case stickySymbols => exact P.lift (sticky_raises s bag)
  case tileExpansion => exact P.keepingBag P.tile s bag
  case expandingWild => exact P.keepingBag (fun s bag => P.lift (expandAround_raises s bag)) s bag
  case expandingSymbols => exact P.keepingBag (fun s bag => P.lift (expandReels_raises s bag)) s bag
  case replaceTile => exact P.keepingBag (fun s bag => P.lift (replace_raises s bag)) s bag
  case cascade => exact P.keepingBag (fun s _ => P.lift (cascade_raises s)) s bag
  case evaluateWins => exact P.keepingBag (fun s bag => P.lift (evaluate_raises s bag)) s bag
  case applyMultiplier =>
    exact P.keepingBag (fun s bag => P.lift (applyMultiplier_raises s bag)) s bag
  case scatterPay => exact P.keepingBag (fun s bag => P.lift (scatter_raises s bag)) s bag
  case statefulMap => exact P.keepingBag (fun s bag => P.lift (statefulMap_raises s bag)) s bag
  case statelessMap => exact P.keepingBag (fun s bag => P.lift (statelessMap_raises s bag)) s bag

theorem counts (d : Definition) (s : RoundState) (bag : Bag) :
    P.Rel (Act.counts d s bag) (Act.counts d s bag) := by
  refine P.bind (P.read _) fun counts => ?_
  rcases counts with _ | counts
  · exact P.bind (P.read _) fun count => P.pure _
  · exact P.bind (P.read _) fun weights => P.bind (P.pick _ _) fun index => P.pure _

theorem chooses (d : Definition) (s : RoundState) (bag : Bag) :
    P.Rel (Act.chooses d s bag) (Act.chooses d s bag) := by
  refine P.bind (P.read _) fun sets => P.bind (P.read _) fun weights => ?_
  refine P.bind (P.pick _ _) fun index => P.bind (P.read _) fun name => ?_
  exact P.bind (P.read _) fun strips => P.pure _

theorem counting (d : Definition) (s : RoundState) (bag : Bag) :
    P.Rel (Act.counting d s bag) (Act.counting d s bag) := by
  refine P.bind (P.read _) fun sought => P.bind (P.read _) fun least => ?_
  exact P.ite _ (P.pure _) (P.pure _)

theorem seeking (d : Definition) (s : RoundState) (bag : Bag) :
    P.Rel (Act.seeking d s bag) (Act.seeking d s bag) := by
  refine P.bind (P.read _) fun sought => ?_
  exact P.ite _ (P.pure _) (P.pure _)

theorem reveals (s : RoundState) (bag : Bag) :
    P.Rel (Act.reveals s bag) (Act.reveals s bag) := by
  unfold Act.reveals
  rcases Reveal.pending s with _ | ⟨link, rest, tries⟩
  · exact P.pure _
  · exact P.pure _

theorem decides (s : RoundState) (bag : Bag) :
    P.Rel (Act.decides s bag) (Act.decides s bag) :=
  P.bind (P.read _) fun _ => P.ite _ (P.pure _) (P.pure _)

/-- The atoms of every feature are related. -/
theorem atom {d : Definition} {e : Effect} {α : Type}
    {act : RoundState → Bag → PlanM σ (α × RoundState × Bag)}
    {act' : RoundState → Bag → PlanM τ (α × RoundState × Bag)} (h : Atom d e act act')
    (s : RoundState) (bag : Bag) : P.Rel (act s bag) (act' s bag) := by
  cases h with
  | leaf h h' => exact P.bind (P.leaf h h' s bag) fun _ => P.pure _
  | chance probability => exact P.bind (P.chance probability) fun _ => P.pure _
  | pick weights len => exact P.bind (P.pick weights len) fun _ => P.pure _
  | choice index => exact P.pure _
  | counts => exact P.counts d s bag
  | chooses => exact P.chooses d s bag
  | counting => exact P.counting d s bag
  | seeking => exact P.seeking d s bag
  | begun => exact P.pure _
  | chained links => exact P.pure _
  | reveals => exact P.reveals s bag
  | decides => exact P.decides s bag
  | ended => exact P.pure _

end PlanLockstep

end SlotOutcome
