import SlotOutcome.Proofs.Atoms

/-!
# What features raise

The errors that a feature raises itself are causes: they carry no mark of a feature, since marks are
set when an error leaves a feature, and they do not say that a type is unknown, since tags are
looked up before a feature is set to work. A statement about every error of a computation is proved
part by part, as one about its results is.

## Main definitions

* `FeatureError.IsCause`, `FeatureError.IsOwn`, `FeatureError.IsPlain`: errors that a feature raises
  itself; those that are no refused draws; and those of them that are no lack of room.
* `FeatureError.IsCauseOf`: the errors that a type of features may raise.
* `Errors`, `RaisesOnly`: what holds of every error that a computation raises.

## Main results

* `RaisesOnly.bind`, `RaisesOnly.guarded`, `RaisesOnly.forM`: the errors of sequences and checks.
* `Effect.leaf?_raises`, `Atom.raises`: plans and atoms of features raise causes only.
-/

namespace SlotOutcome

/-- An error that a feature raises itself: it carries no mark, and it is not about a tag that names
no type. -/
def FeatureError.IsCause : FeatureError → Prop
  | config (.unknownType _) => False
  | inFeature _ _ _ => False
  | _ => True

/-- A cause that is not a refused draw. -/
def FeatureError.IsOwn (e : FeatureError) : Prop :=
  match e with
  | draw _ => False
  | e => e.IsCause

/-- A cause that is neither a refused draw nor a lack of room. -/
def FeatureError.IsPlain (e : FeatureError) : Prop :=
  match e with
  | capacity => False
  | e => e.IsOwn

/-- A bag with a block of more positions than a list can hold. -/
def Bag.LacksRoom (bag : Bag) : Prop :=
  ∃ w h, bag.require .nat "W" = .ok w ∧ bag.require .nat "H" = .ok h ∧ Paint.capacity < w * h

/-- A cause that a feature of a type may raise with a bag. There is a lack of room only for
blocks. -/
def FeatureError.IsCauseOf (effect : Effect) (bag : Bag) (e : FeatureError) : Prop :=
  e.IsCause ∧ (e.kind = .capacity → effect = .tileExpansion ∧ bag.LacksRoom)

theorem FeatureError.IsOwn.isCause {e : FeatureError} (h : e.IsOwn) : e.IsCause := by
  cases e with
  | draw e => exact h.elim
  | _ => exact h

theorem FeatureError.IsPlain.isOwn {e : FeatureError} (h : e.IsPlain) : e.IsOwn := by
  cases e with
  | capacity => exact h.elim
  | _ => exact h

theorem FeatureError.IsPlain.kind_ne {e : FeatureError} (h : e.IsPlain) : e.kind ≠ .capacity := by
  cases e with
  | capacity => exact h.elim
  | inFeature tag id e => exact h.elim
  | _ => nofun

theorem FeatureError.IsPlain.isCauseOf {e : FeatureError} (h : e.IsPlain) (effect : Effect)
    (bag : Bag) : e.IsCauseOf effect bag :=
  ⟨h.isOwn.isCause, fun hkind => absurd hkind h.kind_ne⟩

theorem FeatureError.IsOwn.kind_ne {e : FeatureError} (h : e.IsOwn) : e.kind ≠ .random := by
  cases e with
  | draw e => exact h.elim
  | inFeature tag id e => exact h.elim
  | _ => nofun

theorem FeatureError.IsCause.feature?_eq {e : FeatureError} (h : e.IsCause) :
    e.feature? = none := by
  cases e with
  | inFeature tag id e => exact h.elim
  | _ => rfl

theorem FeatureError.IsCause.ne_unknownType {e : FeatureError} (h : e.IsCause) (tag : String) :
    e ≠ .config (.unknownType tag) := by
  rintro rfl
  exact h

/-- An error without a mark is marked when it leaves a feature. -/
theorem FeatureError.leaving_of_feature?_eq {e : FeatureError} (h : e.feature? = none)
    (tag : String) (id : UInt32) : e.leaving tag id = .inFeature tag id e := by
  cases e with
  | inFeature tag' id' e => cases h
  | _ => rfl

/-- An error without a mark is its own cause. -/
theorem FeatureError.root_of_feature?_eq {e : FeatureError} (h : e.feature? = none) :
    e.root = e := by
  cases e with
  | inFeature tag id e => cases h
  | _ => rfl

/-! ### The errors of computations -/

/-- Computations that may fail, and the errors that they raise. -/
class Errors (ε : outParam Type) (m : Type → Type) [Monad m] [MonadExceptOf ε m] where
  Raises : {α : Type} → m α → ε → Prop
  of_pure : ∀ {α : Type} {a : α} {e : ε}, ¬Raises (pure a : m α) e
  of_throw : ∀ {α : Type} {e e' : ε}, Raises (throw e : m α) e' → e = e'
  of_bind : ∀ {α β : Type} {x : m α} {f : α → m β} {e : ε},
    Raises (x >>= f) e → Raises x e ∨ ∃ a, Raises (f a) e

instance {ε : Type} : Errors ε (Except ε) where
  Raises x e := x = .error e
  of_pure h := by cases h
  of_throw h := by
    cases h
    rfl
  of_bind {α β x f e} h := by
    rcases x with e' | a
    · cases h
      exact .inl rfl
    · exact .inr ⟨a, h⟩

instance {ε s : Type} : Errors ε (ExceptT ε (StateM s)) where
  Raises m e := ∃ x y, m x = (.error e, y)
  of_pure h := by
    obtain ⟨x, y, h⟩ := h
    cases h
  of_throw h := by
    obtain ⟨x, y, h⟩ := h
    cases h
    rfl
  of_bind {α β m f e} h := by
    obtain ⟨x, z, h⟩ := h
    rw [bind_run] at h
    rcases hm : m x with ⟨e' | a, y⟩ <;> rw [hm] at h
    · cases h
      exact .inl ⟨x, z, hm⟩
    · exact .inr ⟨a, y, z, h⟩

section RaisesOnly

variable {ε : Type} {m : Type → Type} [Monad m] [MonadExceptOf ε m] [Errors ε m] {α β : Type}

/-- Every error that a computation raises has a property. -/
def RaisesOnly (Q : ε → Prop) (x : m α) : Prop := ∀ e, Errors.Raises x e → Q e

variable {Q : ε → Prop}

theorem RaisesOnly.pure (a : α) : RaisesOnly Q (pure a : m α) := fun _ h => (Errors.of_pure h).elim

theorem RaisesOnly.throw {e : ε} (h : Q e) : RaisesOnly Q (throw e : m α) := by
  intro e' he
  rwa [← Errors.of_throw he]

theorem RaisesOnly.bind {x : m α} {f : α → m β} (hx : RaisesOnly Q x)
    (hf : ∀ a, RaisesOnly Q (f a)) : RaisesOnly Q (x >>= f) := by
  intro e he
  rcases Errors.of_bind he with he | ⟨a, he⟩
  · exact hx e he
  · exact hf a e he

/-- The second part may count on what the first part has answered. -/
theorem RaisesOnly.after {x : Except ε α} {f : α → Except ε β} (hx : RaisesOnly Q x)
    (hf : ∀ a, x = .ok a → RaisesOnly Q (f a)) : RaisesOnly Q (x >>= f) := by
  rcases x with e | a
  · intro e' he
    cases he
    exact hx e rfl
  · exact hf a rfl

theorem RaisesOnly.ite {c : Prop} [Decidable c] {x y : m α} (hx : RaisesOnly Q x)
    (hy : RaisesOnly Q y) : RaisesOnly Q (if c then x else y) := by
  split
  · exact hx
  · exact hy

/-- A check raises its own error. -/
theorem RaisesOnly.guarded {c : Prop} [Decidable c] {e : ε} {x : m α} (he : Q e)
    (hx : RaisesOnly Q x) :
    RaisesOnly Q (if c then (MonadExcept.throw e : m PUnit) >>= fun _ => x else x) :=
  .ite (.bind (.throw he) fun _ => hx) hx

theorem RaisesOnly.mapM [LawfulMonad m] {f : α → m β} (h : ∀ a, RaisesOnly Q (f a))
    (items : List α) : RaisesOnly Q (items.mapM f) := by
  induction items with
  | nil => exact .pure []
  | cons a items ih =>
    rw [List.mapM_cons]
    exact .bind (h a) fun b => .bind ih fun rest => .pure (b :: rest)

theorem RaisesOnly.forM {f : α → m PUnit} (h : ∀ a, RaisesOnly Q (f a)) (items : List α) :
    RaisesOnly Q (items.forM f) := by
  induction items with
  | nil => exact .pure _
  | cons a items ih => exact .bind (h a) fun _ => ih

end RaisesOnly

open FeatureError (IsCauseOf IsOwn IsPlain)

namespace RaisesOnly

variable {σ α : Type} {k : Effect} {bag : Bag}

/-- A parameter that cannot be read is an error of the feature's own. -/
theorem param (x : Except ParamError α) :
    RaisesOnly IsPlain (liftM x : Except FeatureError α) := by
  intro e he
  rcases x with e' | a <;> cases he
  trivial

/-- So is a position, a cell or a strip that is not what it should be. -/
theorem data (x : Except DataError α) :
    RaisesOnly IsPlain (liftM x : Except FeatureError α) := by
  intro e he
  rcases x with e' | a <;> cases he
  trivial

/-- A refused draw is a cause. -/
theorem draws (x : DrawM σ α) : RaisesOnly (IsCauseOf k bag) (liftM x : PlanM σ α) := by
  rintro e ⟨y, z, he⟩
  change ((x y).1.mapError FeatureError.draw, (x y).2) = _ at he
  rcases hx : x y with ⟨e' | a, z'⟩ <;> rw [hx] at he <;> cases he
  exact ⟨trivial, nofun⟩

/-- A computation without draws raises the same errors as a part of a plan. -/
theorem lift {ε : Type} [MonadLiftT (Except ε) (Except FeatureError)] {x : Except ε α}
    (h : RaisesOnly IsPlain (liftM x : Except FeatureError α)) :
    RaisesOnly (IsCauseOf k bag) (liftM x : PlanM σ α) := by
  rintro e ⟨y, z, he⟩
  rw [liftM_run] at he
  exact (h e (congrArg Prod.fst he)).isCauseOf k bag

end RaisesOnly

/-! ### Plans -/

section Plans

variable (s : RoundState) (bag : Bag)

/-- A block may be refused because there is no room for it. -/
theorem tile_raises :
    RaisesOnly (fun e => e.IsPlain ∨ e = .capacity ∧ bag.LacksRoom) (Paint.tile s bag) := by
  have hplain {α : Type} {x : Except FeatureError α} (h : RaisesOnly IsPlain x) :
      RaisesOnly (fun e => e.IsPlain ∨ e = .capacity ∧ bag.LacksRoom) x :=
    fun e he => .inl (h e he)
  have hread {α : Type} {x : Except ParamError α} {a : α}
      (h : (liftM x : Except FeatureError α) = .ok a) : x = .ok a := by
    rcases x with e | b <;> cases h
    rfl
  refine .bind (hplain (.param _)) fun x => .bind (hplain (.param _)) fun y => ?_
  refine .after (hplain (.param _)) fun w hw => .after (hplain (.param _)) fun h hh => ?_
  refine .bind (hplain (.param _)) fun id => .guarded (.inl trivial) ?_
  refine .bind ?_ fun _ =>
    hplain (.bind (.data _) fun positions => .bind (.data _) fun o => .pure _)
  unfold Paint.reserve
  split
  · exact .pure _
  · next hroom =>
    exact .throw (.inr ⟨rfl, w, h, hread hw, hread hh, Nat.lt_of_not_le hroom⟩)

theorem expandAround_raises : RaisesOnly IsPlain (Paint.expandAround s bag) := by
  refine .bind (.param _) fun position => .bind (.param _) fun positions => ?_
  refine .bind (.param _) fun id => .bind (.data _) fun cell => ?_
  exact .bind (.data _) fun o => .pure _

theorem expandReels_raises : RaisesOnly IsPlain (Paint.expandReels s bag) := by
  refine .bind (.param _) fun id => .bind (.data _) fun columns => .ite (.pure _) ?_
  exact .bind (.data _) fun positions => .bind (.data _) fun o => .pure _

theorem replace_raises : RaisesOnly IsPlain (Paint.replace s bag) := by
  refine .bind (.param _) fun source => .bind (.param _) fun target => .ite (.pure _) ?_
  exact .bind (.data _) fun o => .pure _

theorem cascade_raises : RaisesOnly IsPlain (Cascade.run s) := by
  refine .ite (.pure _) (.guarded trivial ?_)
  refine .bind (.forM (fun p => .data _) _) fun _ => .bind (.data _) fun refills => ?_
  exact .pure _

theorem evaluate_raises : RaisesOnly IsPlain (Pay.evaluate s bag) := by
  unfold Pay.evaluate
  rcases s.evaluator with _ | evaluator
  · exact .throw trivial
  · exact .bind (.param _) fun paytable => .ite (.pure _) (.pure _)

theorem applyMultiplier_raises : RaisesOnly IsPlain (Pay.applyMultiplier s bag) := by
  refine .ite (.pure _) (.bind (.param _) fun wild => ?_)
  exact .ite (.pure _) (.pure _)

theorem scatter_raises : RaisesOnly IsPlain (Pay.scatter s bag) := by
  refine .bind (.param _) fun symbol => .bind (.param _) fun pays => ?_
  refine .bind (.param _) fun least => .ite (.pure _) ?_
  split
  · exact .pure _
  · exact .ite (.pure _) (.pure _)

theorem spinCount_raises (spins : Nat) : RaisesOnly IsPlain (Pay.spinCount spins) :=
  .ite (.pure _) (.throw trivial)

theorem memory_raises (e : Entry) : RaisesOnly IsPlain e.memory := by
  unfold Entry.memory
  split
  · exact .pure _
  · exact .throw (m := Except FeatureError) trivial

theorem recorded_raises (c : Channel) : RaisesOnly IsPlain (c.recorded s) := by
  unfold Channel.recorded
  split
  · exact memory_raises _
  · exact .pure _

theorem statefulNamespaces_raises : RaisesOnly IsPlain (statefulNamespaces s) := by
  unfold statefulNamespaces
  split
  · exact recorded_raises _ _
  · exact .throw (m := Except FeatureError) trivial

theorem atStake_raises (namespaces : Bag) : RaisesOnly IsPlain (atStake s namespaces) :=
  .bind (.param _) fun _ => .pure _

theorem read_raises (c : Channel) : RaisesOnly IsPlain (c.read s bag) := by
  cases c with
  | stateful =>
    refine .bind (.param _) fun pending => ?_
    rcases pending with _ | map
    · exact .bind (statefulNamespaces_raises s) (atStake_raises s)
    · exact .pure _
  | stateless =>
    refine .bind (.param _) fun pending => ?_
    rcases pending with _ | map
    · rcases s.stateless with _ | previous
      · exact .pure _
      · exact recorded_raises previous _
    · exact .pure _

theorem channel_raises (key : String) (default : Channel) :
    RaisesOnly IsPlain (Remember.channel bag key default) := by
  refine .bind (.param _) fun name => ?_
  rcases name with _ | name
  · exact .pure _
  · dsimp only
    split
    · exact .pure _
    · exact .throw trivial

theorem counter_raises : RaisesOnly IsPlain (Remember.counter s bag) := by
  refine .bind (channel_raises bag _ _) fun channel => .bind (.param _) fun key => ?_
  refine .bind (.param _) fun symbol => ?_
  rcases symbol with _ | symbol <;>
    refine .bind (by first | exact .param _ | exact .pure _) fun increment => ?_ <;>
    refine .bind (read_raises s bag channel) fun map => ?_ <;>
    refine .bind (.param _) fun count => .bind (.param _) fun target => ?_ <;>
    refine .ite (.bind (.param _) fun reset => ?_) (.bind (.pure _) fun reset => ?_) <;>
    refine .ite (.bind (.param _) fun flag => ?_) (.bind (.pure _) fun flag => ?_) <;>
    exact .ite (.pure _) (.pure _)

theorem sticky_raises : RaisesOnly IsPlain (Remember.sticky s bag) := by
  refine .bind (.param _) fun id => .bind (channel_raises bag _ _) fun channel => ?_
  refine .bind (.param _) fun key => .bind (read_raises s bag channel) fun map => ?_
  refine .bind (.param _) fun applied => .bind (.data _) fun grid => ?_
  exact .ite (.pure _) (.pure _)

theorem statefulMap_raises : RaisesOnly IsPlain (Remember.statefulMap s bag) := by
  refine .bind (statefulNamespaces_raises s) fun namespaces => .bind (.param _) fun pending => ?_
  rcases pending with _ | map
  · exact .bind (atStake_raises s namespaces) fun current => .ite (.pure _) (.pure _)
  · exact .bind (.pure map) fun current => .ite (.pure _) (.pure _)

theorem statelessMap_raises : RaisesOnly IsPlain (Remember.statelessMap s bag) :=
  .bind (read_raises s bag .stateless) fun _ => .ite (.pure _) (.pure _)

theorem ofInts_raises (reel : Nat) (ids : List Int) :
    RaisesOnly IsPlain (Strip.ofInts reel ids) := by
  refine .bind (.mapM (fun id => ?_) ids) fun symbols => ?_
  · split
    · exact .pure _
    · exact .throw trivial
  · split
    · exact .pure _
    · exact .throw trivial

theorem phases_raises (names : List String) :
    RaisesOnly IsPlain (names.mapM Branch.phaseNamed : Except FeatureError (List Phase)) := by
  refine .mapM (fun name => ?_) names
  unfold Branch.phaseNamed
  split
  · exact .pure _
  · exact .throw trivial

theorem checkForced_raises (strips : List Strip) (stops : List Nat) :
    RaisesOnly IsPlain (Spin.checkForced strips stops) := by
  refine .guarded trivial ?_
  split
  · exact .throw trivial
  · exact .pure _

theorem setParams_raises : RaisesOnly IsPlain
    (do return (none, ← Remember.setParams bag) : Except FeatureError (Option Change × Bag)) :=
  .bind (.bind (.param _) fun _ => .pure _) fun _ => .pure _

variable {σ : Type} {k : Effect}

variable {s bag} in
theorem keepingBag_raises {plan : RoundState → Bag → PlanM σ (Option Change)}
    (h : RaisesOnly (IsCauseOf k bag) (plan s bag)) :
    RaisesOnly (IsCauseOf k bag) (keepingBag plan s bag) :=
  .bind h fun _ => .pure _

variable [RandomSource σ]

variable {bag} in
theorem chooseIndex_raises (weights : List Nat) :
    RaisesOnly (IsCauseOf k bag) (chooseIndex weights : PlanM σ (Fin weights.length)) := by
  rintro e ⟨x, y, he⟩
  change ((weightedIndex weights x).1.mapError weightError, (weightedIndex weights x).2) = _ at he
  rcases hx : weightedIndex weights x with ⟨e' | a, z'⟩ <;> rw [hx] at he <;> cases he
  cases e' <;> exact ⟨trivial, nofun⟩

variable {bag} in
theorem pick_raises (weights : Option (List Nat)) (len : Nat) :
    RaisesOnly (IsCauseOf k bag) (pick weights len : PlanM σ (Fin len)) := by
  rcases weights with _ | weights
  · exact .ite (.throw ⟨trivial, nofun⟩) (.draws _)
  · unfold pick
    dsimp only
    split
    · exact .bind (chooseIndex_raises weights) fun _ => .pure _
    · exact .throw ⟨trivial, nofun⟩

theorem pickFrom_raises {α : Type} (type : ParamType α) (listType : ParamType (List α))
    (single several weights : String) :
    RaisesOnly (IsCauseOf k bag)
      (pickFrom bag type listType single several weights : PlanM σ α) := by
  refine .bind (.lift (.param _)) fun values => ?_
  rcases values with _ | values
  · exact .lift (.param _)
  · exact .bind (.lift (.param _)) fun weights => .bind (pick_raises _ _) fun i => .pure _

theorem reels_raises :
    RaisesOnly (IsCauseOf k bag) (Spin.reels s bag : PlanM σ (Option Change)) := by
  refine .bind (.lift (.param _)) fun listed => ?_
  refine .bind (.lift (.mapM (fun strip => ofInts_raises _ _) _)) fun strips => ?_
  refine .bind (.lift (.param _)) fun rows => .guarded ⟨trivial, nofun⟩ ?_
  refine .bind (.lift (.param _)) fun forced => ?_
  rcases forced with _ | stops
  · exact .bind (.draws _) fun stops => .bind (.lift (.data _)) fun grid => .pure _
  · refine .bind (.lift (checkForced_raises _ _)) fun stops => ?_
    exact .bind (.lift (.data _)) fun grid => .pure _

theorem randomWilds_raises :
    RaisesOnly (IsCauseOf k bag) (Paint.randomWilds s bag : PlanM σ (Option Change)) := by
  refine .bind (.lift (.param _)) fun id => .bind (.lift (.param _)) fun exclude => ?_
  refine .bind (pickFrom_raises bag _ _ _ _ _) fun count => .ite (.pure _) ?_
  exact .bind (.draws _) fun positions => .bind (.lift (.data _)) fun o => .pure _

theorem mystery_raises :
    RaisesOnly (IsCauseOf k bag) (Paint.mystery s bag : PlanM σ (Option Change)) := by
  refine .bind (.lift (.param _)) fun hidden => .bind (.lift (.param _)) fun symbols => ?_
  refine .bind (.lift (.param _)) fun weights => .ite (.pure _) ?_
  exact .bind (pick_raises _ _) fun index => .bind (.lift (.data _)) fun o => .pure _

theorem pattern_raises :
    RaisesOnly (IsCauseOf k bag) (Paint.pattern s bag : PlanM σ (Option Change)) := by
  refine .bind (.lift (.param _)) fun patterns => .bind (.lift (.param _)) fun weights => ?_
  refine .bind (.lift (.param _)) fun id => .bind (pick_raises _ _) fun index => ?_
  exact .bind (.lift (.data _)) fun positions => .bind (.lift (.data _)) fun o => .pure _

theorem freespins_raises :
    RaisesOnly (IsCauseOf k bag) (Pay.freespins s bag : PlanM σ (Option Change)) := by
  refine .bind (pickFrom_raises bag _ _ _ _ _) fun spins => .ite (.pure _) ?_
  exact .bind (.lift (spinCount_raises spins)) fun count => .pure _

theorem multiply_raises :
    RaisesOnly (IsCauseOf k bag) (Pay.multiply s bag : PlanM σ (Option Change)) :=
  .bind (pickFrom_raises bag _ _ _ _ _) fun _ => .pure _

theorem prize_raises :
    RaisesOnly (IsCauseOf k bag) (Pay.prize s bag : PlanM σ (Option Change)) := by
  refine .bind (pickFrom_raises bag _ _ _ _ _) fun multiplier => ?_
  exact .bind (.lift (.param _)) fun label => .ite (.pure _) (.pure _)

/-- The plans of features raise causes only. -/
theorem Effect.leaf?_raises {e : Effect} {plan : RoundState → Bag → PlanM σ (Option Change × Bag)}
    (h : e.leaf? = some plan) : RaisesOnly (IsCauseOf e bag) (plan s bag) := by
  cases e <;> simp only [Effect.leaf?, Option.some.injEq, reduceCtorEq] at h <;> subst h
  case setParams => exact .lift (setParams_raises bag)
  case counter => exact .lift (counter_raises s bag)
  case stickySymbols => exact .lift (sticky_raises s bag)
  case reelStops => exact keepingBag_raises (reels_raises s bag)
  case tileExpansion =>
    refine keepingBag_raises ?_
    rintro e ⟨y, z, he⟩
    rw [liftM_run] at he
    rcases tile_raises s bag e (congrArg Prod.fst he) with hplain | ⟨rfl, hroom⟩
    · exact hplain.isCauseOf _ bag
    · exact ⟨trivial, fun _ => ⟨rfl, hroom⟩⟩
  case expandingWild => exact keepingBag_raises (.lift (expandAround_raises s bag))
  case expandingSymbols => exact keepingBag_raises (.lift (expandReels_raises s bag))
  case replaceTile => exact keepingBag_raises (.lift (replace_raises s bag))
  case randomWilds => exact keepingBag_raises (randomWilds_raises s bag)
  case mysterySymbol => exact keepingBag_raises (mystery_raises s bag)
  case applyPattern => exact keepingBag_raises (pattern_raises s bag)
  case cascade => exact keepingBag_raises (.lift (cascade_raises s))
  case awardFreespins => exact keepingBag_raises (freespins_raises s bag)
  case evaluateWins => exact keepingBag_raises (.lift (evaluate_raises s bag))
  case multiplier => exact keepingBag_raises (multiply_raises s bag)
  case applyMultiplier => exact keepingBag_raises (.lift (applyMultiplier_raises s bag))
  case instantPrize => exact keepingBag_raises (prize_raises s bag)
  case scatterPay => exact keepingBag_raises (.lift (scatter_raises s bag))
  case statefulMap => exact keepingBag_raises (.lift (statefulMap_raises s bag))
  case statelessMap => exact keepingBag_raises (.lift (statelessMap_raises s bag))

end Plans

/-! ### Atoms -/

section Atoms

variable {σ τ : Type} [RandomSource σ] [RandomSource τ] {k : Effect}

theorem counts_raises (d : Definition) (s : RoundState) (bag : Bag) :
    RaisesOnly (IsCauseOf k bag) (Act.counts d s bag : PlanM σ (Nat × RoundState × Bag)) := by
  refine .bind (.lift (.param _)) fun counts => ?_
  rcases counts with _ | counts
  · exact .bind (.lift (.param _)) fun count => .pure _
  · exact .bind (.lift (.param _)) fun weights => .bind (pick_raises _ _) fun index => .pure _

theorem chooses_raises (d : Definition) (s : RoundState) (bag : Bag) :
    RaisesOnly (IsCauseOf k bag) (Act.chooses d s bag : PlanM σ (Unit × RoundState × Bag)) := by
  refine .bind (.lift (.param _)) fun sets => .bind (.lift (.param _)) fun weights => ?_
  refine .bind (pick_raises _ _) fun index => .bind (.lift (.param _)) fun name => ?_
  exact .bind (.lift (.param _)) fun strips => .pure _

/-- The atoms of features raise causes only. -/
theorem Atom.raises {d : Definition} {e : Effect} {α : Type}
    {act : RoundState → Bag → PlanM σ (α × RoundState × Bag)}
    {act' : RoundState → Bag → PlanM τ (α × RoundState × Bag)} (hatom : Atom d e act act')
    (s : RoundState) (bag : Bag) : RaisesOnly (IsCauseOf e bag) (act s bag) := by
  cases hatom with
  | leaf h _ => exact .bind (Effect.leaf?_raises s bag h) fun _ => .pure _
  | chance _ => exact .bind (.bind (.draws _) fun _ => .pure _) fun _ => .pure _
  | pick weights len => exact .bind (pick_raises weights len) fun _ => .pure _
  | choice _ | begun | chained _ | ended => exact .pure _
  | counts => exact counts_raises d s bag
  | chooses => exact chooses_raises d s bag
  | counting =>
    refine .bind (.lift (.param _)) fun sought => .bind (.lift (.param _)) fun least => ?_
    exact .ite (.pure _) (.pure _)
  | seeking => exact .bind (.lift (.param _)) fun sought => .ite (.pure _) (.pure _)
  | reveals =>
    unfold Act.reveals
    split
    · exact .pure _
    · exact .pure _
  | decides => exact .bind (.lift (.param _)) fun ceiling => .ite (.pure _) (.pure _)

end Atoms

end SlotOutcome
