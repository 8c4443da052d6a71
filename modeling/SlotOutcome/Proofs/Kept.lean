import SlotOutcome.Proofs.Lockstep

/-!
# What passes keep

A relation between the visits and the state before and after a part of a pass, if it holds of
parts that do nothing and of one part after another, holds of whole trees as soon as it holds of
the atoms.

## Main definitions

* `Kept`, `Kept.Keeps`: such relations, and the parts of passes that they hold of.

## Main results

* `Kept.enter_keeps`: a node keeps a relation if its feature does.
* `Kept.trigger_keeps`: a tree keeps a relation if the atoms of its nodes do.
-/

namespace SlotOutcome

/-- A relation between visits and state before and after a part of a pass. -/
structure Kept where
  Rel : List Visit → RoundState → List Visit → RoundState → Prop
  refl : ∀ v s, Rel v s v s
  trans : ∀ {v₁ s₁ v₂ s₂ v₃ s₃}, Rel v₁ s₁ v₂ s₂ → Rel v₂ s₂ v₃ s₃ → Rel v₁ s₁ v₃ s₃

namespace Kept

variable (K : Kept) {σ : Type}

/-- A part of a pass keeps the relation, also when it fails. -/
def Keeps {α : Type} (m : PassM σ α) : Prop :=
  ∀ p r q, m p = (r, q) → K.Rel p.visits p.state q.visits q.state

/-- The atoms of a feature keep the relation. -/
def AtomsKeep (σ : Type) [RandomSource σ] (d : Definition) (e : Effect) : Prop :=
  ∀ {α : Type} {act act' : RoundState → Bag → PlanM σ (α × RoundState × Bag)}, Atom d e act act' →
    ∀ s bag x a s' bag' x', act s bag x = (.ok (a, s', bag'), x') → ∀ v, K.Rel v s v s'

/-- Keeping a relation, as a relation of a part of a pass with any other. -/
def lockstep (σ : Type) : Lockstep σ σ where
  Rel m _ := K.Keeps m
  pure _ p r q hrun := by
    cases hrun
    exact K.refl _ _
  throw _ p r q hrun := by
    cases hrun
    exact K.refl _ _
  bind {α β m m' f f'} h hf p r q hrun := by
    rw [bind_run] at hrun
    rcases hm : m p with ⟨e | a, q'⟩ <;> rw [hm] at hrun
    · cases hrun
      exact h p _ _ hm
    · exact K.trans (h p _ _ hm) (hf a q' r q hrun)
  view h p r q hrun := h p p rfl rfl p r q hrun

theorem withBag_keeps (bag : Bag) {m : PassM σ Unit} (h : K.Keeps m) : K.Keeps (withBag bag m) := by
  intro p r q hrun
  cases hrun
  exact h { p with bag := bag } _ (m { p with bag := bag }).2 rfl

/-- A step has a state of its own, and the one of the pass stays. -/
theorem onStep_keeps (hstep : ∀ {v s v' s'}, K.Rel v s v' s' → ∀ t, K.Rel v t v' t)
    (state : RoundState) (bag : Bag) {m : PassM σ Unit} (h : K.Keeps m) :
    K.Keeps (onStep state bag m) := by
  intro p r q hrun
  cases hrun
  exact hstep (h { p with state := state, bag := bag } _ _ rfl) p.state

theorem atomic_keeps {α : Type} {act : RoundState → Bag → PlanM σ (α × RoundState × Bag)}
    (h : ∀ s bag x a s' bag' x', act s bag x = (.ok (a, s', bag'), x') → ∀ v, K.Rel v s v s') :
    K.Keeps (atomic act) := by
  intro p r q hrun
  rw [atomic] at hrun
  rcases hact : act p.state p.bag p.source with ⟨e | ⟨a, s, bag⟩, source⟩ <;>
    rw [hact] at hrun <;> cases hrun
  · exact K.refl _ _
  · exact h _ _ _ _ _ _ _ hact _

section Children

variable {children : List (Child σ)} (h : ∀ c ∈ children, K.Keeps c.trigger)

include h

theorem children_keep : (K.lockstep σ).Children children children :=
  List.forall₂_same.mpr fun c hc => ⟨rfl, h c hc⟩

theorem fireAll_keeps : K.Keeps (fireAll children) := (K.lockstep σ).fireAll (K.children_keep h)

/-- The steps after a step keep the relation if each of them does so on its own state. -/
theorem followOn_keeps (hstep : ∀ {v s v' s'}, K.Rel v s v' s' → ∀ t, K.Rel v t v' t) (bag : Bag)
    (count : Nat) (previous : RoundState) :
    K.Keeps (Reveal.followOn children bag count previous) :=
  (K.lockstep σ).followOn (K.children_keep h)
    (fun _ _ _ h => K.onStep_keeps hstep _ bag h) count previous

end Children

variable [RandomSource σ]

/-- A feature keeps the relation if its atoms and its children do. One that computes steps asks for
more, since steps have states of their own. -/
theorem run_keeps {d : Definition} {e : Effect} {children : List (Child σ)}
    (hchildren : ∀ c ∈ children, K.Keeps c.trigger) (hatoms : K.AtomsKeep σ d e)
    (hstep : e = .play → ∀ {v s v' s'}, K.Rel v s v' s' → ∀ t, K.Rel v t v' t) :
    K.Keeps (e.run d children) := by
  refine (K.lockstep σ).run (K.children_keep hchildren) (fun hatom => K.atomic_keeps (hatoms hatom))
    (fun _ bag _ _ h => K.withBag_keeps bag h) fun he previous bag _ _ h => ?_
  exact K.onStep_keeps (hstep he) _ bag h

omit [RandomSource σ] in
/-- A node keeps the relation if its feature does from the pass that it finds. -/
theorem enter_keeps_of_entered {registry : Registry} {above : List Definition} {d : Definition}
    {work : Effect → PassM σ Unit}
    (hwork : ∀ e, registry.create d.tag = .ok e → ∀ p r q,
      work e (d.entered above p) = (r, q) → K.Rel p.visits p.state q.visits q.state) :
    K.Keeps (d.enter registry above work) := by
  intro p r q hrun
  rcases hcreate : registry.create d.tag with error | e
  · rw [Definition.enter_run_unknown hcreate] at hrun
    cases hrun
    exact K.refl _ _
  rcases hcollate : p.bag.isCollate with error | collate
  · rw [Definition.enter_run_unread hcreate hcollate] at hrun
    cases hrun
    exact K.refl _ _
  rcases hfeature : work e (d.entered above p) with ⟨r', q'⟩
  rw [Definition.enter_run hcreate hcollate hfeature] at hrun
  cases hrun
  exact hwork e hcreate p r' q' hfeature

omit [RandomSource σ] in
/-- A node keeps the relation if its feature does and the visit itself does. -/
theorem enter_keeps {registry : Registry} {above : List Definition} {d : Definition}
    {work : Effect → PassM σ Unit}
    (hvisit : ∀ bag v s, K.Rel v s (⟨above, d, bag⟩ :: v) s)
    (hwork : ∀ e, registry.create d.tag = .ok e → K.Keeps (work e)) :
    K.Keeps (d.enter registry above work) :=
  K.enter_keeps_of_entered fun e hcreate p r q hrun =>
    K.trans (hvisit _ p.visits p.state) (hwork e hcreate (d.entered above p) r q hrun)

/-- A tree keeps the relation if the visits and the atoms of its nodes do. -/
theorem trigger_keeps {registry : Registry} (d : Definition)
    (hvisit : ∀ n ∈ d.nodes, ∀ above bag v s, K.Rel v s (⟨above, n, bag⟩ :: v) s)
    (hatoms : ∀ n ∈ d.nodes, ∀ e, registry.create n.tag = .ok e → K.AtomsKeep σ n e)
    (hstep : ∀ n ∈ d.nodes, registry.create n.tag = .ok .play →
      ∀ {v s v' s'}, K.Rel v s v' s' → ∀ t, K.Rel v t v' t) (above : List Definition) :
    K.Keeps (d.trigger registry above : PassM σ Unit) := by
  induction d using Definition.induction generalizing above with
  | node d ih =>
    rw [Definition.trigger_eq]
    have hself := d.mem_nodes_self
    refine K.enter_keeps (hvisit d hself above) fun e hcreate => ?_
    refine K.run_keeps (fun child hchild => ?_) (hatoms d hself e hcreate) fun he => ?_
    · obtain ⟨c, hc, rfl⟩ := List.mem_map.mp hchild
      have hbelow {n : Definition} (hn : n ∈ c.nodes) : n ∈ d.nodes :=
        Definition.mem_nodes_of_mem_features hc hn
      exact ih c hc (fun n hn => hvisit n (hbelow hn)) (fun n hn => hatoms n (hbelow hn))
        (fun n hn => hstep n (hbelow hn)) _
    · subst he
      exact hstep d hself hcreate

end Kept

end SlotOutcome
