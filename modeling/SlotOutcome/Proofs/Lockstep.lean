import Mathlib.Data.List.Forall2
import SlotOutcome.Proofs.Causes
import SlotOutcome.Proofs.Trees

/-!
# Passes in lockstep

Many statements about passes compare two runs of the same tree: over two sources, or under two
ways to hand bags to children. Others follow one run only. They all have the same proof: the
statement is kept by the sequencing of parts, it holds of the atoms, and then it holds of every
feature whose children it holds of, and so of every tree. This file carries that proof out once.

## Main definitions

* `Lockstep`: a relation between parts of passes that sequencing keeps.
* `Lockstep.Children`: children that are related one by one.
* `BagLockstep`: such relations, one for each bag that a part may have looked at.

## Main results

* `BagLockstep.run`, `Lockstep.run`: features with related children are related if their atoms are.
* `Lockstep.trigger`: trees are related if their atoms and their nodes are.
-/

namespace SlotOutcome

/-- A relation between parts of passes that sequencing keeps. -/
structure Lockstep (σ τ : Type) where
  Rel : {α : Type} → PassM σ α → PassM τ α → Prop
  pure : ∀ {α : Type} (a : α), Rel (pure a) (pure a)
  throw : ∀ {α : Type} {e : FeatureError}, e.IsPlain → Rel (throw e : PassM σ α) (throw e)
  bind : ∀ {α β : Type} {m : PassM σ α} {m' : PassM τ α} {f : α → PassM σ β} {f' : α → PassM τ β},
    Rel m m' → (∀ a, Rel (f a) (f' a)) → Rel (m >>= f) (m' >>= f')
  /-- Both sides may look at the state and the bag, where they see the same. -/
  view : ∀ {α : Type} {f : Pass σ → PassM σ α} {f' : Pass τ → PassM τ α},
    (∀ p p', p.state = p'.state → p.bag = p'.bag → Rel (f p) (f' p')) → Rel (get >>= f) (get >>= f')

namespace Lockstep

variable {σ τ : Type} (L : Lockstep σ τ)

/-- Children that are related one by one. -/
def Children : List (Child σ) → List (Child τ) → Prop :=
  List.Forall₂ fun c c' => c.node = c'.node ∧ L.Rel c.trigger c'.trigger

variable {children : List (Child σ)} {children' : List (Child τ)}

/-- A computation without effects is related to itself. -/
theorem lift {ε α : Type} [MonadLiftT (Except ε) (Except FeatureError)] {x : Except ε α}
    (h : RaisesOnly FeatureError.IsPlain (liftM x : Except FeatureError α)) :
    L.Rel (liftM x) (liftM x) := by
  change L.Rel (liftM (liftM x : Except FeatureError α)) (liftM (liftM x : Except FeatureError α))
  rcases hx : (liftM x : Except FeatureError α) with e | a
  · exact L.throw (h e hx)
  · exact L.pure a

/-- Reading a parameter is related to itself. -/
theorem read {α : Type} (x : Except ParamError α) : L.Rel (liftM x) (liftM x) := L.lift (.param x)

theorem ite {α : Type} (c : Prop) [Decidable c] {m n : PassM σ α} {m' n' : PassM τ α}
    (hm : L.Rel m m') (hn : L.Rel n n') : L.Rel (if c then m else n) (if c then m' else n') := by
  split
  · exact hm
  · exact hn

theorem forM {ι : Type} {f : ι → PassM σ PUnit} {f' : ι → PassM τ PUnit}
    (h : ∀ i, L.Rel (f i) (f' i)) (items : List ι) : L.Rel (items.forM f) (items.forM f') := by
  induction items with
  | nil => exact L.pure _
  | cons i rest ih => exact L.bind (h i) fun _ => ih

/-! ### The ways to call children -/

theorem fireAll (h : L.Children children children') :
    L.Rel (SlotOutcome.fireAll children) (SlotOutcome.fireAll children') := by
  induction h with
  | nil => exact L.pure _
  | cons hc _ ih => exact L.bind hc.2 fun _ => ih

theorem fireWhere (h : L.Children children children')
    (select : Nat → Definition → RoundState → Bag → Bool) :
    L.Rel (SlotOutcome.fireWhere children select) (SlotOutcome.fireWhere children' select) := by
  unfold SlotOutcome.fireWhere
  generalize 0 = start
  induction h generalizing start with
  | nil => exact L.pure _
  | @cons c c' rest rest' hc _ ih =>
    refine L.bind ?_ fun _ => ih (start + 1)
    refine L.view fun p p' hstate hbag => ?_
    rw [hstate, hbag, hc.1]
    exact L.ite _ hc.2 (L.pure _)

theorem fireAt (h : L.Children children children') (index : Nat) :
    L.Rel (SlotOutcome.fireAt children index) (SlotOutcome.fireAt children' index) := by
  unfold SlotOutcome.fireAt
  rw [h.length_eq]
  rcases Nat.lt_or_ge index children'.length with hlt | hge
  · have hlt' : index < children.length := by rwa [h.length_eq]
    rw [List.getElem?_eq_getElem hlt, List.getElem?_eq_getElem hlt']
    exact (h.get hlt' hlt).2
  · have hge' : children.length ≤ index := by rwa [h.length_eq]
    rw [List.getElem?_eq_none hge, List.getElem?_eq_none hge']
    exact L.throw trivial

theorem fireNamed (h : L.Children children children') (order catalog : List String) :
    L.Rel (SlotOutcome.fireNamed children order catalog)
      (SlotOutcome.fireNamed children' order catalog) := by
  refine L.forM (fun name => ?_) order
  rcases catalog.idxOf? name with _ | index
  · exact L.throw trivial
  · exact L.fireAt h index

theorem fireOnFlag (h : L.Children children children') (flag : String) (present : Bool) :
    L.Rel (SlotOutcome.fireOnFlag children flag present)
      (SlotOutcome.fireOnFlag children' flag present) := by
  refine L.view fun p p' _ hbag => ?_
  rw [hbag]
  dsimp only
  exact L.ite _ (L.bind (L.fireAll h) fun _ => L.pure _) (L.pure _)

/-! ### Features without atoms -/

theorem filtered (h : L.Children children children') :
    L.Rel (Branch.filtered children) (Branch.filtered children') := by
  refine L.view fun p p' _ hbag => ?_
  rw [hbag]
  exact L.bind (L.read _) fun indices => L.fireWhere h _

theorem ordered (h : L.Children children children') :
    L.Rel (Branch.ordered children) (Branch.ordered children') := by
  refine L.view fun p p' _ hbag => ?_
  simp only [hbag, h.length_eq]
  refine L.bind (L.read _) fun names => L.bind (L.read _) fun order => ?_
  have hnamed := L.fireNamed h order names
  exact L.ite _ (L.bind (L.throw trivial) fun _ => hnamed) hnamed

theorem conditional (h : L.Children children children') :
    L.Rel (Branch.conditional children) (Branch.conditional children') := by
  refine L.view fun p p' _ hbag => ?_
  simp only [hbag]
  refine L.bind (L.read _) fun flag => L.bind (L.read _) fun present => ?_
  exact L.bind (L.fireOnFlag h flag present) fun _ => L.pure _

theorem inPhases (h : L.Children children children') :
    L.Rel (Branch.inPhases children) (Branch.inPhases children') := by
  refine L.view fun p p' hstate hbag => ?_
  rw [hstate, hbag]
  refine L.bind (L.read _) fun names => L.bind (L.lift (phases_raises names)) fun phases => ?_
  exact L.ite _ (L.fireAll h) (L.pure _)

theorem times (h : L.Children children children') (count : Nat) :
    L.Rel (Branch.times children count) (Branch.times children' count) := by
  induction count with
  | zero => exact L.pure _
  | succ count ih => exact L.bind (L.fireAll h) fun _ => ih

/-- The steps after a step, if a step of its own keeps the relation. -/
theorem followOn (h : L.Children children children') {bag : Bag}
    (hstep : ∀ (previous : RoundState) {m : PassM σ Unit} {m' : PassM τ Unit}, L.Rel m m' →
      L.Rel (onStep { previous.nextStep with replay := .start } bag m)
        (onStep { previous.nextStep with replay := .start } bag m'))
    (count : Nat) (previous : RoundState) :
    L.Rel (Reveal.followOn children bag count previous)
      (Reveal.followOn children' bag count previous) := by
  induction count generalizing previous with
  | zero => exact L.pure _
  | succ count ih =>
    refine L.bind (hstep previous (L.fireAll h)) fun step => ?_
    exact L.ite _ (L.pure _) (L.bind (ih step) fun _ => L.pure _)

/-! ### Features with atoms -/

variable [RandomSource σ] [RandomSource τ] {d : Definition} {e : Effect}

private theorem fireDrawn_eq (weights : Option (List Nat)) {n : Nat} (h : children.length = n) :
    SlotOutcome.fireDrawn children weights = (do
      let index ← (pick weights n : PlanM σ (Fin n))
      SlotOutcome.fireAt children index
      return index) := by
  subst h
  rfl

/-- The atoms of a feature are related. -/
def Atoms (d : Definition) (e : Effect) : Prop :=
  ∀ {α : Type} {act : RoundState → Bag → PlanM σ (α × RoundState × Bag)}
    {act' : RoundState → Bag → PlanM τ (α × RoundState × Bag)},
    Atom d e act act' → L.Rel (atomic act) (atomic act')

theorem fireDrawn (h : L.Children children children') (hatoms : L.Atoms d .weightedActivator)
    (weights : Option (List Nat)) :
    L.Rel (SlotOutcome.fireDrawn children weights) (SlotOutcome.fireDrawn children' weights) := by
  rw [fireDrawn_eq weights h.length_eq, fireDrawn_eq weights rfl, liftM_eq_atomic, liftM_eq_atomic]
  refine L.bind (hatoms (.pick weights _)) fun index => ?_
  exact L.bind (L.fireAt h index) fun _ => L.pure _

theorem fireByChance (h : L.Children children children')
    (hatoms : L.Atoms d .probabilityActivator) (probability : Int) :
    L.Rel (SlotOutcome.fireByChance children probability)
      (SlotOutcome.fireByChance children' probability) := by
  unfold SlotOutcome.fireByChance
  rw [liftM_eq_atomic, liftM_eq_atomic]
  refine L.bind (hatoms (.chance probability)) fun fire => ?_
  dsimp only
  exact L.ite _ (L.bind (L.fireAll h) fun _ => L.pure _) (L.pure _)

theorem weighted (h : L.Children children children') (hatoms : L.Atoms d .weightedActivator) :
    L.Rel (Branch.weighted d children) (Branch.weighted d children') := by
  have hnote (index : Nat) : L.Rel
      (do let p ← get; note d ⟨p.state.outcome, Payload.choice index⟩)
      (do let p ← get; note d ⟨p.state.outcome, Payload.choice index⟩) := by
    rw [get_note_eq_atomic, get_note_eq_atomic]
    exact hatoms (.choice _)
  refine L.view fun p p' _ hbag => ?_
  simp only [hbag]
  refine L.bind (L.read _) fun forced => ?_
  rcases forced with _ | forced
  · exact L.bind (L.read _) fun weights => L.bind (L.fireDrawn h hatoms weights) hnote
  · exact L.bind (L.fireAt h forced) fun _ => L.bind (L.pure _) hnote

theorem byChance (h : L.Children children children')
    (hatoms : L.Atoms d .probabilityActivator) :
    L.Rel (Branch.byChance children) (Branch.byChance children') := by
  refine L.view fun p p' _ hbag => ?_
  rw [hbag]
  refine L.bind (L.read _) fun probability => ?_
  exact L.bind (L.fireByChance h hatoms probability) fun _ => L.pure _

end Lockstep

/-! ### Relations that know the bag -/

/-- Relations between parts of passes, one for each bag that a part may have looked at before. -/
structure BagLockstep (σ τ : Type) where
  after : Bag → Lockstep σ τ
  /-- A part that looks at the bag goes on knowing it. -/
  look : ∀ {bag : Bag} {α : Type} {f : Pass σ → PassM σ α} {f' : Pass τ → PassM τ α},
    (∀ p p', p.state = p'.state → p.bag = p'.bag → (after p.bag).Rel (f p) (f' p')) →
      (after bag).Rel (get >>= f) (get >>= f')

/-- The bag for the children of a trigger, when it has found a cell and the cells of its reel. -/
def cellBag (bag : Bag) (position : Nat) (positions : List Nat) : Bag :=
  (bag.insert Key.position (.ofNat position)).insert Key.positions (.ofNats positions)

namespace BagLockstep

variable {σ τ : Type} (L : BagLockstep σ τ) {children : List (Child σ)} {children' : List (Child τ)}

/-- A relation that holds whatever bag was looked at. -/
def always : Lockstep σ τ where
  Rel m m' := ∀ bag, (L.after bag).Rel m m'
  pure a bag := (L.after bag).pure a
  throw he bag := (L.after bag).throw he
  bind h hf bag := (L.after bag).bind (h bag) fun a => hf a bag
  view h bag := (L.after bag).view fun p p' hstate hbag => h p p' hstate hbag bag

theorem children_of_always (h : L.always.Children children children') (bag : Bag) :
    (L.after bag).Children children children' :=
  h.imp fun _ _ hc => ⟨hc.1, hc.2 bag⟩

theorem atCell (h : ∀ bag, (L.after bag).Children children children')
    (hbag : ∀ (bag : Bag) (position : Nat) (positions : List Nat) {m : PassM σ Unit}
      {m' : PassM τ Unit}, (L.after bag).Rel m m' →
        (L.after bag).Rel (withBag (cellBag bag position positions) m)
          (withBag (cellBag bag position positions) m'))
    (bag : Bag) (position : Nat) :
    (L.after bag).Rel (Trigger.atCell children position) (Trigger.atCell children' position) := by
  refine L.look fun p p' hstate hb => ?_
  rw [hstate, hb]
  refine (L.after _).bind ((L.after _).lift (.data _)) fun cell => ?_
  refine (L.after _).bind ((L.after _).lift (.data _)) fun positions => ?_
  exact (L.after _).bind (hbag _ position positions ((L.after _).fireAll (h _))) fun _ =>
    (L.after _).pure _

variable [RandomSource σ] [RandomSource τ] {d : Definition} {e : Effect}

theorem play (h : ∀ bag, (L.after bag).Children children children')
    (hatoms : ∀ bag, (L.after bag).Atoms d .play)
    (hstep : ∀ (bag : Bag) (previous : RoundState) {m : PassM σ Unit} {m' : PassM τ Unit},
      (L.after bag).Rel m m' →
        (L.after bag).Rel (onStep { previous.nextStep with replay := .start } bag m)
          (onStep { previous.nextStep with replay := .start } bag m'))
    (bag : Bag) : (L.after bag).Rel (Reveal.play children) (Reveal.play children') := by
  refine L.look fun p p' hstate hbag => ?_
  rw [hstate, hbag]
  refine (L.after _).ite _ ((L.after _).pure _) ?_
  refine (L.after _).bind ((L.after _).read _) fun steps => ?_
  refine (L.after _).bind (hatoms _ .begun) fun _ => ?_
  refine (L.after _).bind ((L.after _).fireAll (h _)) fun _ => ?_
  refine (L.after _).view fun q q' hfirst _ => ?_
  simp only [hfirst]
  refine (L.after _).ite _ ((L.after _).pure _) ?_
  exact (L.after _).bind ((L.after _).followOn (h _) (hstep _) _ _) fun links =>
    hatoms _ (.chained links)

/-- Features with related children are related if their atoms are. Two types of features ask for
more: one gives its children a bag of their own, and one computes steps. -/
theorem run (h : ∀ bag, (L.after bag).Children children children')
    (hatoms : ∀ bag, (L.after bag).Atoms d e)
    (hbag : e = .symbolTrigger → ∀ (bag : Bag) (position : Nat) (positions : List Nat)
      {m : PassM σ Unit} {m' : PassM τ Unit}, (L.after bag).Rel m m' →
        (L.after bag).Rel (withBag (cellBag bag position positions) m)
          (withBag (cellBag bag position positions) m'))
    (hstep : e = .play →
      ∀ (bag : Bag) (previous : RoundState) {m : PassM σ Unit} {m' : PassM τ Unit},
        (L.after bag).Rel m m' →
          (L.after bag).Rel (onStep { previous.nextStep with replay := .start } bag m)
            (onStep { previous.nextStep with replay := .start } bag m'))
    (bag : Bag) : (L.after bag).Rel (e.run d children) (e.run d children') := by
  have hfire : (L.after bag).Rel (fireAll children) (fireAll children') :=
    (L.after bag).fireAll (h bag)
  have hthen (fire : Bool) : (L.after bag).Rel (if fire then fireAll children else pure ())
      (if fire then fireAll children' else pure ()) :=
    (L.after bag).ite _ hfire ((L.after bag).pure _)
  cases e
  case activator => exact hfire
  case filterActivator => exact (L.after bag).filtered (h bag)
  case orderedActivator => exact (L.after bag).ordered (h bag)
  case weightedActivator => exact (L.after bag).weighted (h bag) (hatoms bag)
  case conditionalActivator => exact (L.after bag).conditional (h bag)
  case probabilityActivator => exact (L.after bag).byChance (h bag) (hatoms bag)
  case phaseActivator => exact (L.after bag).inPhases (h bag)
  case repeatActivator =>
    simp only [Effect.run, repeated_eq]
    exact (L.after bag).bind (hatoms bag .counts) fun count => (L.after bag).times (h bag) count
  case weightedReelset =>
    simp only [Effect.run, reelset_eq]
    exact (L.after bag).bind (hatoms bag .chooses) fun _ => hfire
  case countTrigger =>
    simp only [Effect.run, byCount_eq]
    exact (L.after bag).bind (hatoms bag .counting) hthen
  case symbolTrigger =>
    simp only [Effect.run, byCell_eq]
    exact (L.after bag).bind (hatoms bag .seeking) fun positions =>
      (L.after bag).forM (L.atCell h (hbag rfl) bag) positions
  case play => exact L.play h hatoms (hstep rfl) bag
  case replay =>
    simp only [Effect.run, replay_eq]
    exact (L.after bag).bind (hatoms bag .reveals) hthen
  case replayContinue =>
    simp only [Effect.run, goOn_eq]
    exact (L.after bag).bind (hatoms bag .decides) hthen
  case replayAbort => exact (L.after bag).bind (hatoms bag .ended) fun _ => hfire
  all_goals
    rw [Effect.run_leaf rfl, Effect.run_leaf rfl]
    exact hatoms bag (.leaf rfl rfl)

end BagLockstep

namespace Lockstep

variable {σ τ : Type} (L : Lockstep σ τ) {children : List (Child σ)} {children' : List (Child τ)}
  [RandomSource σ] [RandomSource τ] {d : Definition} {e : Effect}

/-- Features with related children are related if their atoms are, and if the relation holds with
any other bag and on any other step. -/
theorem run (h : L.Children children children') (hatoms : L.Atoms d e)
    (hbag : e = .symbolTrigger → ∀ (bag : Bag) {m : PassM σ Unit} {m' : PassM τ Unit},
      L.Rel m m' → L.Rel (withBag bag m) (withBag bag m'))
    (hstep : e = .play →
      ∀ (previous : RoundState) (bag : Bag) {m : PassM σ Unit} {m' : PassM τ Unit},
        L.Rel m m' → L.Rel (onStep { previous.nextStep with replay := .start } bag m)
          (onStep { previous.nextStep with replay := .start } bag m')) :
    L.Rel (e.run d children) (e.run d children') :=
  (⟨fun _ => L, L.view⟩ : BagLockstep σ τ).run (fun _ => h) (fun _ => hatoms)
    (fun he bag _ _ => hbag he (cellBag bag _ _)) (fun he bag previous => hstep he previous bag)
    .empty

/-! ### Trees -/

omit [RandomSource σ] [RandomSource τ] in
/-- A node is related to itself if its feature is, whatever the registry makes of its tag. -/
theorem enter {registry : Registry} {above : List Definition} {work : Effect → PassM σ Unit}
    {work' : Effect → PassM τ Unit}
    (hunknown : ∀ error : ConfigError, L.Rel (MonadExcept.throw (.config error) : PassM σ Unit)
      (MonadExcept.throw (.config error)))
    (hvisit : ∀ bag, L.Rel (modify fun p => { p with visits := ⟨above, d, bag⟩ :: p.visits })
      (modify fun p => { p with visits := ⟨above, d, bag⟩ :: p.visits }))
    (hmodify : ∀ f : Bag → Bag, L.Rel (modifyBag f) (modifyBag f))
    (hbag : ∀ (bag : Bag) {m : PassM σ Unit} {m' : PassM τ Unit},
      L.Rel m m' → L.Rel (withBag bag m) (withBag bag m'))
    (hmark : ∀ {m : PassM σ Unit} {m' : PassM τ Unit},
      L.Rel m m' → L.Rel (inFeature d m) (inFeature d m'))
    (hwork : ∀ e, registry.create d.tag = .ok e → L.Rel (work e) (work' e)) :
    L.Rel (d.enter registry above work) (d.enter registry above work') := by
  refine hmark ?_
  rcases hcreate : registry.create d.tag with error | effect
  · exact hunknown error
  · change L.Rel (visit above d (work effect)) (visit above d (work' effect))
    refine L.view fun p p' _ hcaller => ?_
    rw [hcaller]
    refine L.bind (L.read _) fun collate => L.bind (hvisit _) fun _ => ?_
    refine L.bind (hbag _ (hwork effect hcreate)) fun left => ?_
    exact L.ite _ (hmodify _) (L.pure _)

omit [RandomSource τ] in
/-- Trees are related if their nodes are whenever their children are. On one side the tree is
triggered; the other side may be any way to run trees that goes down from node to node. -/
theorem trigger {registry : Registry} (Good : Definition → Prop)
    {node : List Definition → Definition → List (Child τ) → PassM τ Unit}
    (hnode : ∀ above d {children : List (Child σ)} {children' : List (Child τ)}, Good d →
      L.Children children children' →
        L.Rel (d.enter registry above fun e => e.run d children) (node above d children'))
    {below : List Definition → Definition → PassM τ Unit}
    (hbelow : ∀ above d, below above d =
      node above d (d.features.map fun c => ⟨c, below (above ++ [d]) c⟩))
    (d : Definition) (above : List Definition) (hgood : ∀ n ∈ d.nodes, Good n) :
    L.Rel (d.trigger registry above) (below above d) := by
  induction d using Definition.induction generalizing above with
  | node d ih =>
    rw [Definition.trigger_eq, hbelow]
    refine hnode above d (hgood d d.mem_nodes_self) ?_
    refine List.forall₂_map_left_iff.mpr (List.forall₂_map_right_iff.mpr ?_)
    refine List.forall₂_same.mpr fun c hc => ⟨rfl, ih c hc _ fun n hn => ?_⟩
    exact hgood n (Definition.mem_nodes_of_mem_features hc hn)

end Lockstep

end SlotOutcome
