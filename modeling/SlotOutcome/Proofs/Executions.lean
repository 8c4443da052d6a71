import SlotOutcome.Proofs.Lockstep
import SlotOutcome.Proofs.PlanLockstep

/-!
# Executions

A pass notes which features were set to work, but not which feature called which, nor which of them
failed. Here the pass runs with a record on the side that does: whenever a node is triggered, it
leaves an execution, with the executions that it called for below it. The record travels with the
random source, where no feature sees it, so the pass is the same with it as without.

```text
  definitions             executions of a pass
      A                        A
     / \                    /  |  \
    B   C (twice)          B   C   C ✗
```

## Main definitions

* `Execution`, `Execution.all`: a node at work, and all executions below one.
* `Watched`, `Definition.watch`: a source with a record, and a tree at work that keeps it.
* `Definition.Recorded`: what a node does to the pass and the record.
* `Trail`: statements about parts of passes and the executions that they called for.

## Main results

* `Definition.trigger_watched`: a pass with the record is that without, and leaves one execution.
* `Definition.recorded_enter`: a node is refused, or its feature is set to work.
* `Trail.lockstep`: what sequencing keeps, the ways to call children keep.
-/

namespace SlotOutcome

/-- One time that a node of a tree was triggered. -/
structure Execution where
  node : Definition
  /-- How the feature of the node was set to work, unless the node was refused before. -/
  visit : Option Visit
  before : RoundState
  /-- The executions that the node called for, in their order. -/
  calls : List Execution
  /-- The error that left the node, if it failed. -/
  error : Option FeatureError
  after : RoundState

namespace Execution

mutual

/-- An execution and all those below it, each before those that it called for. -/
def all : Execution → List Execution
  | x@⟨_, _, _, calls, _, _⟩ => x :: allOf calls

/-- The executions of a list and all those below them. -/
def allOf : List Execution → List Execution
  | [] => []
  | x :: rest => all x ++ allOf rest

end

theorem allOf_eq_flatMap : (xs : List Execution) → allOf xs = xs.flatMap all
  | [] => rfl
  | x :: rest => by rw [allOf, allOf_eq_flatMap rest, List.flatMap_cons]

theorem all_eq (x : Execution) : x.all = x :: x.calls.flatMap all := by
  obtain ⟨node, visit, before, calls, error, after⟩ := x
  rw [all, allOf_eq_flatMap]

/-- What holds of an execution whenever it holds of those that it called for holds of every one. -/
@[elab_as_elim]
theorem induction {motive : Execution → Prop}
    (execution : ∀ x, (∀ c ∈ x.calls, motive c) → motive x) (x : Execution) : motive x := by
  refine @Execution.rec motive (fun calls => ∀ c ∈ calls, motive c) ?_ ?_ ?_ x
  · intro node visit before calls error after ih
    exact execution ⟨node, visit, before, calls, error, after⟩ ih
  · intro c hc
    cases hc
  · intro first rest hfirst hrest c hc
    rcases List.mem_cons.mp hc with rfl | hc
    · exact hfirst
    · exact hrest c hc

end Execution

/-- The error of a part that failed. -/
def errorOf {α : Type} : Except FeatureError α → Option FeatureError
  | .ok _ => none
  | .error e => some e

/-! ### Passes with a record -/

/-- A source of draws that carries a record: the executions that the node at work has called for. -/
structure Watched (σ : Type) where
  inner : σ
  calls : List Execution

variable {σ : Type}

instance [RandomSource σ] : RandomSource (Watched σ) where
  draw n := fun w =>
    let (r, inner) := draw n w.inner
    (r, { w with inner := inner })

namespace Pass

/-- A pass with a record. -/
def watched (p : Pass σ) (calls : List Execution) : Pass (Watched σ) :=
  ⟨⟨p.source, calls⟩, p.visits, p.state, p.bag⟩

/-- A pass with another record. -/
def withCalls (p : Pass (Watched σ)) (calls : List Execution) : Pass (Watched σ) :=
  { p with source := { p.source with calls := calls } }

/-- A pass without its record. -/
def unwatched (p : Pass (Watched σ)) : Pass σ := ⟨p.source.inner, p.visits, p.state, p.bag⟩

end Pass

namespace Definition

/-- How a node is set to work for a caller with a bag, if it is. -/
def visit? (registry : Registry) (above : List Definition) (d : Definition) (caller : Bag) :
    Option Visit :=
  match registry.create d.tag, caller.isCollate with
  | .ok _, .ok _ => some ⟨above, d, d.params.overlay caller⟩
  | _, _ => none

/-- A node at work that begins a record of its own and leaves it, as one execution, in that of its
caller. -/
def recorded (registry : Registry) (above : List Definition) (d : Definition)
    (m : PassM (Watched σ) Unit) : PassM (Watched σ) Unit := fun p =>
  let (r, q) := m (p.withCalls [])
  let x : Execution :=
    ⟨d, d.visit? registry above p.bag, p.state, q.source.calls, errorOf r, q.state⟩
  (r, q.withCalls (p.source.calls ++ [x]))

section Watch

variable [RandomSource σ]

mutual

/-- A tree at work with a record of its executions. -/
def watch (registry : Registry) (above : List Definition) : Definition → PassM (Watched σ) Unit
  | ⟨id, tag, params, features⟩ =>
    let d : Definition := ⟨id, tag, params, features⟩
    let children := watchAll registry (above ++ [d]) features
    d.recorded registry above (inFeature d do
      let effect ← registry.create tag
      visit above d (effect.run d children))

/-- The children of a node, each at work with a record of its executions. -/
def watchAll (registry : Registry) (above : List Definition) :
    List Definition → List (Child (Watched σ))
  | [] => []
  | d :: rest => ⟨d, watch registry above d⟩ :: watchAll registry above rest

end

theorem watchAll_eq_map (registry : Registry) (above : List Definition) :
    (ds : List Definition) → (watchAll registry above ds : List (Child (Watched σ))) =
      ds.map fun c => ⟨c, c.watch registry above⟩
  | [] => by rw [watchAll, List.map_nil]
  | d :: rest => by rw [watchAll, watchAll_eq_map registry above rest, List.map_cons]

theorem watch_eq (registry : Registry) (above : List Definition) (d : Definition) :
    (d.watch registry above : PassM (Watched σ) Unit) =
      d.recorded registry above (d.enter registry above fun effect =>
        effect.run d (d.features.map fun c => ⟨c, c.watch registry (above ++ [d])⟩)) := by
  obtain ⟨id, tag, params, features⟩ := d
  rw [watch, watchAll_eq_map]
  rfl

end Watch

/-! ### What a node records -/

/-- A node is refused: its tag names no type, or its caller does not say clearly whether it
collates. -/
inductive Refused (registry : Registry) (d : Definition) (caller : Bag) : ConfigError → Prop
  | unknown {error : ConfigError} (hcreate : registry.create d.tag = .error error) :
      Refused registry d caller error
  | unread {e : Effect} {error : ParamError} (hcreate : registry.create d.tag = .ok e)
      (hcollate : caller.isCollate = .error error) : Refused registry d caller (.param error)

/-- What a node does to a pass with a record, and the execution that it leaves. -/
inductive Recorded (registry : Registry) (above : List Definition) (d : Definition)
    (work : Effect → PassM (Watched σ) Unit) (p : Pass (Watched σ)) :
    Except FeatureError Unit → Pass (Watched σ) → Execution → Prop
  | refused {error : ConfigError} (hrefused : Refused registry d p.bag error) :
      Recorded registry above d work p (.error (.inFeature d.tag d.id (.config error))) p
        ⟨d, none, p.state, [], some (.inFeature d.tag d.id (.config error)), p.state⟩
  | worked {e : Effect} {r : Except FeatureError Unit} {q : Pass (Watched σ)} (bag : Bag)
      (hcreate : registry.create d.tag = .ok e)
      (hwork : work e (d.entered above (p.withCalls [])) = (r, q)) :
      Recorded registry above d work p (r.mapError (·.leaving d.tag d.id)) { q with bag := bag }
        ⟨d, some ⟨above, d, d.params.overlay p.bag⟩, p.state, q.source.calls,
          errorOf (r.mapError (·.leaving d.tag d.id)), q.state⟩

/-- A node that is triggered is refused, or its feature is set to work on a record of its own. -/
theorem recorded_enter {registry : Registry} {above : List Definition} {d : Definition}
    {work : Effect → PassM (Watched σ) Unit} {p q : Pass (Watched σ)}
    {r : Except FeatureError Unit}
    (h : d.recorded registry above (d.enter registry above work) p = (r, q)) :
    ∃ q' x, Recorded registry above d work p r q' x ∧ q = q'.withCalls (p.source.calls ++ [x]) := by
  rcases hcreate : registry.create d.tag with error | e
  · rw [recorded, enter_run_unknown hcreate] at h
    cases h
    refine ⟨_, _, .refused (.unknown hcreate), ?_⟩
    simp only [visit?, hcreate]
    rfl
  rcases hcollate : p.bag.isCollate with error | collate
  · rw [recorded, enter_run_unread (p := p.withCalls []) hcreate hcollate] at h
    cases h
    refine ⟨_, _, .refused (.unread hcreate hcollate), ?_⟩
    simp only [visit?, hcreate, hcollate]
    rfl
  rcases hwork : work e (d.entered above (p.withCalls [])) with ⟨r', q'⟩
  rw [recorded, enter_run (p := p.withCalls []) hcreate hcollate hwork] at h
  cases h
  refine ⟨_, _, .worked (if r'.isOk && collate then q'.bag else p.bag) hcreate hwork, ?_⟩
  simp only [visit?, hcreate, hcollate]
  rfl

end Definition

/-! ### The same pass -/

/-- A part of a pass with a record does the same as one without. -/
def Watches {α : Type} (m : PassM σ α) (m' : PassM (Watched σ) α) : Prop :=
  ∀ p calls, ∃ calls', m' (p.watched calls) = ((m p).1, (m p).2.watched calls')

/-- Doing the same with a record, as a relation between parts of passes. -/
def watching (σ : Type) : Lockstep σ (Watched σ) where
  Rel := Watches
  pure _ _ calls := ⟨calls, rfl⟩
  throw _ _ calls := ⟨calls, rfl⟩
  bind {α β m m' f f'} h hf p calls := by
    obtain ⟨calls', hm⟩ := h p calls
    rw [bind_run, bind_run, hm]
    rcases m p with ⟨e | a, q⟩
    · exact ⟨calls', rfl⟩
    · exact hf a q calls'
  view h p calls := h p (p.watched calls) rfl rfl p calls

theorem withBag_watches (bag : Bag) {m : PassM σ Unit} {m' : PassM (Watched σ) Unit}
    (h : Watches m m') : Watches (withBag bag m) (withBag bag m') := by
  intro p calls
  obtain ⟨calls', hm⟩ := h { p with bag := bag } calls
  refine ⟨calls', ?_⟩
  change ((m' _).1.map _, { (m' _).2 with bag := p.bag }) = _
  rw [show m' { p.watched calls with bag := bag } = _ from hm]
  rfl

theorem onStep_watches (state : RoundState) (bag : Bag) {m : PassM σ Unit}
    {m' : PassM (Watched σ) Unit} (h : Watches m m') :
    Watches (onStep state bag m) (onStep state bag m') := by
  intro p calls
  obtain ⟨calls', hm⟩ := h { p with state := state, bag := bag } calls
  refine ⟨calls', ?_⟩
  change ((m' _).1.map _, { (m' _).2 with state := p.state, bag := p.bag }) = _
  rw [show m' { p.watched calls with state := state, bag := bag } = _ from hm]
  rfl

theorem inFeature_watches (d : Definition) {m : PassM σ Unit} {m' : PassM (Watched σ) Unit}
    (h : Watches m m') : Watches (inFeature d m) (inFeature d m') := by
  intro p calls
  obtain ⟨calls', hm⟩ := h p calls
  refine ⟨calls', ?_⟩
  rw [inFeature, inFeature, adapt_run, adapt_run, hm]

theorem recorded_watches {registry : Registry} {above : List Definition} (d : Definition)
    {m : PassM σ Unit} {m' : PassM (Watched σ) Unit} (h : Watches m m') :
    Watches m (d.recorded registry above m') := by
  intro p calls
  obtain ⟨calls', hm⟩ := h p []
  refine ⟨calls ++ [⟨d, d.visit? registry above p.bag, p.state, calls', errorOf (m p).1,
    (m p).2.state⟩], ?_⟩
  rw [Definition.recorded, show m' ((p.watched calls).withCalls []) = _ from hm]
  rfl

/-- A computation that draws leaves the record alone and does the same as without. -/
def SameDraws {ε α : Type} (m : ExceptT ε (StateM σ) α) (m' : ExceptT ε (StateM (Watched σ)) α) :
    Prop :=
  ∀ w, m' w = ((m w.inner).1, { w with inner := (m w.inner).2 })

theorem SameDraws.bind {ε α β : Type} {m : ExceptT ε (StateM σ) α}
    {m' : ExceptT ε (StateM (Watched σ)) α} {f : α → ExceptT ε (StateM σ) β}
    {f' : α → ExceptT ε (StateM (Watched σ)) β} (h : SameDraws m m')
    (hf : ∀ a, SameDraws (f a) (f' a)) : SameDraws (m >>= f) (m' >>= f') := by
  intro w
  rw [bind_run, bind_run, h w]
  rcases m w.inner with ⟨e | a, x⟩
  · rfl
  · exact hf a _

theorem SameDraws.adapt {ε ε' α : Type} {m : ExceptT ε (StateM σ) α}
    {m' : ExceptT ε (StateM (Watched σ)) α} (h : SameDraws m m') (f : ε → ε') :
    SameDraws (ExceptT.adapt f m) (ExceptT.adapt f m') := by
  intro w
  rw [adapt_run, adapt_run, h w]

variable [RandomSource σ]

theorem drawBelow_same (n : Nat) :
    SameDraws (drawBelow n : DrawM σ (Fin n)) (drawBelow n) := by
  have hdraw : SameDraws (draw n : DrawM σ Nat) (draw n) := fun _ => rfl
  refine hdraw.bind fun value w => ?_
  by_cases h : value < n
  · rw [dif_pos h, dif_pos h]
    rfl
  · rw [dif_neg h, dif_neg h]
    rfl

theorem weightedIndex_same (weights : List Nat) :
    SameDraws (weightedIndex weights : DrawM σ (Fin weights.length)) (weightedIndex weights) := by
  have hdraw : SameDraws (draw (weightSum weights) : DrawM σ Nat) (draw (weightSum weights)) :=
    fun _ => rfl
  rw [weightedIndex_eq, weightedIndex_eq]
  split
  · exact fun _ => rfl
  split
  · exact fun _ => rfl
  refine hdraw.bind fun value w => ?_
  rcases indexAt weights value with _ | index <;> rfl

/-- Draws with a record are those without. -/
def drawsWatched (σ : Type) [RandomSource σ] : PlanLockstep σ (Watched σ) where
  Rel := SameDraws
  pure _ _ := rfl
  throw _ _ := rfl
  bind := .bind
  below {n} _ := (drawBelow_same n).adapt FeatureError.draw
  choose weights := (weightedIndex_same weights).adapt weightError

/-- An atom calls for no executions. -/
theorem Atom.calls_eq {d : Definition} {e : Effect} {α : Type}
    {act : RoundState → Bag → PlanM σ (α × RoundState × Bag)}
    {act' : RoundState → Bag → PlanM (Watched σ) (α × RoundState × Bag)}
    (h : Atom d e act act') (s : RoundState) (bag : Bag) (w : Watched σ) :
    (act' s bag w).2.calls = w.calls := by
  rw [(drawsWatched σ).atom h s bag w]

omit [RandomSource σ] in
theorem atomic_watches {α : Type} {act : RoundState → Bag → PlanM σ (α × RoundState × Bag)}
    {act' : RoundState → Bag → PlanM (Watched σ) (α × RoundState × Bag)}
    (h : ∀ s bag, SameDraws (act s bag) (act' s bag)) :
    Watches (atomic act) (atomic act') := by
  intro p calls
  refine ⟨calls, ?_⟩
  have hact : act' p.state p.bag ⟨p.source, calls⟩ = _ := h p.state p.bag ⟨p.source, calls⟩
  rw [atomic, atomic, show act' (p.watched calls).state (p.watched calls).bag
    (p.watched calls).source = _ from hact]
  rcases act p.state p.bag p.source with ⟨e | ⟨a, s, bag⟩, x⟩ <;> rfl

namespace Definition

theorem watch_watches (registry : Registry) (d : Definition) (above : List Definition) :
    Watches (d.trigger registry above : PassM σ Unit) (d.watch registry above) := by
  refine (watching σ).trigger (fun _ => True)
    (fun above d _ children _ h => (?_ : Watches _
      (d.recorded registry above (d.enter registry above fun e => e.run d children))))
    (fun above d => watch_eq registry above d) d above fun _ _ => trivial
  refine recorded_watches d ?_
  refine (watching σ).enter (fun _ _ calls => ⟨calls, rfl⟩) (fun _ _ calls => ⟨calls, rfl⟩)
    (fun _ _ calls => ⟨calls, rfl⟩) (fun bag _ _ => withBag_watches bag)
    (fun h => inFeature_watches d h) fun e _ => ?_
  refine (watching σ).run h (fun hatom => ?_) (fun _ bag _ _ => withBag_watches bag)
    fun _ _ bag _ _ => onStep_watches _ bag
  exact atomic_watches fun s bag => (drawsWatched σ).atom hatom s bag

/-- A pass with a record does the same as one without, and its record grows by one execution of the
node that is triggered. -/
theorem trigger_watched {registry : Registry} {d : Definition} {above : List Definition}
    {p q : Pass σ} {r : Except FeatureError Unit} (h : d.trigger registry above p = (r, q))
    (calls : List Execution) :
    ∃ x, d.watch registry above (p.watched calls) = (r, q.watched (calls ++ [x])) ∧ x.node = d ∧
      x.before = p.state ∧ x.error = errorOf r ∧ x.after = q.state := by
  obtain ⟨calls', hwatch⟩ := d.watch_watches registry above p calls
  rw [h] at hwatch
  have hrecorded := hwatch
  rw [watch_eq] at hrecorded
  obtain ⟨q', x, hx, hq⟩ := recorded_enter hrecorded
  obtain rfl : calls' = calls ++ [x] := congrArg (fun q => q.source.calls) hq
  have hstate : q.state = q'.state := congrArg Pass.state hq
  refine ⟨x, hwatch, ?_⟩
  cases hx with
  | refused => exact ⟨rfl, rfl, rfl, hstate.symm⟩
  | worked => exact ⟨rfl, rfl, rfl, hstate.symm⟩

end Definition

/-! ### Statements about executions -/

/-- A statement about parts of passes: about the passes before and after a part, its error if it
failed, and the executions that it called for. It holds of parts that do nothing, and of one part
after another. -/
structure Trail (σ : Type) where
  Rel : Pass (Watched σ) → Option FeatureError → Pass (Watched σ) → List Execution → Prop
  done : ∀ p, Rel p none p []
  failed : ∀ p {e : FeatureError}, e.IsCause → Rel p (some e) p []
  trans : ∀ {p₁ p₂ p₃ error calls calls'}, Rel p₁ none p₂ calls → Rel p₂ error p₃ calls' →
    Rel p₁ error p₃ (calls ++ calls')

namespace Trail

omit [RandomSource σ]

variable (T : Trail σ)

/-- The statement holds of every run of a part, and the record grows by the executions that the part
called for. -/
def Keeps {α : Type} (m : PassM (Watched σ) α) : Prop :=
  ∀ p r q, m p = (r, q) → ∃ calls, q.source.calls = p.source.calls ++ calls ∧
    T.Rel p (errorOf r) q calls

/-- Keeping a statement, as a relation of any part with one that has a record. -/
def lockstep : Lockstep σ (Watched σ) where
  Rel _ m' := T.Keeps m'
  pure _ p r q hrun := by
    cases hrun
    exact ⟨[], (List.append_nil _).symm, T.done p⟩
  throw he p r q hrun := by
    cases hrun
    exact ⟨[], (List.append_nil _).symm, T.failed p he.isOwn.isCause⟩
  bind {α β m m' f f'} h hf p r q hrun := by
    rw [bind_run] at hrun
    rcases hm : m' p with ⟨e | a, p'⟩ <;> rw [hm] at hrun
    · cases hrun
      exact h p _ _ hm
    · obtain ⟨calls, hcalls, hrel⟩ := h p _ _ hm
      obtain ⟨calls', hcalls', hrel'⟩ := hf a p' r q hrun
      exact ⟨calls ++ calls', by rw [hcalls', hcalls, List.append_assoc], T.trans hrel hrel'⟩
  view h p r q hrun := h p.unwatched p rfl rfl p r q hrun

theorem children_keep {children : List (Child (Watched σ))}
    (h : ∀ c ∈ children, T.Keeps c.trigger) :
    ∃ children', T.lockstep.Children children' children :=
  ⟨children.map fun c => ⟨c.node, pure ()⟩,
    List.forall₂_map_left_iff.mpr (List.forall₂_same.mpr fun c hc => ⟨rfl, h c hc⟩)⟩

end Trail

end SlotOutcome
