import SlotOutcome.Proofs.Atoms
import SlotOutcome.Proofs.BagLaws
import SlotOutcome.Round.Run

/-!
# Triggering trees

A definition is triggered by entering it: its tag is looked up, its bag is laid over that of the
caller, and its feature runs with the triggers of its children. This file states that recursion as
one equation, and induction over definitions as one principle.

## Main definitions

* `Definition.enter`: a node of a tree at work, whatever its feature does.

## Main results

* `Definition.induction`: induction over trees.
* `Definition.trigger_eq`: what triggering a definition is.
* `Definition.enter_run`: how a node at work leaves the bag of its caller.
* `Definition.trigger_leaf_run`, `Definition.trigger_leaf_ok`, `Definition.trigger_leaf_iff`: what a
  node with a feature that calls no others has done.
* `Registry.create_builtin`, `Registry.tag_of_create_builtin`: the tags of the built-in types.
-/

namespace SlotOutcome

namespace Registry

private theorem lookup_map_swap {ι : Type} {f : ι → String} {key : String} {i : ι} :
    {items : List ι} → (items.map fun i => (f i, i)).lookup key = some i → f i = key
  | [], h => nomatch h
  | first :: rest, h => by
    have ih : (rest.map fun i => (f i, i)).lookup key = some i → f i = key := lookup_map_swap
    rw [List.map_cons, List.lookup_cons] at h
    split at h
    · next heq =>
      cases h
      exact (beq_iff_eq.mp heq).symm
    · exact ih h

theorem create_builtin (e : Effect) : builtin.create e.tag = .ok e := by
  cases e <;> rfl

/-- Only its own tag names a built-in type. -/
theorem tag_of_create_builtin {tag : String} {e : Effect} (h : builtin.create tag = .ok e) :
    e.tag = tag := by
  unfold create at h
  split at h
  · next hfind =>
    cases h
    exact lookup_map_swap hfind
  · cases h

/-- A tag names one built-in type at most. -/
theorem eq_of_create_builtin {tag : String} {e e' : Effect} (h : builtin.create tag = .ok e)
    (htag : tag = e'.tag) : e = e' := by
  rw [htag, create_builtin] at h
  exact (Except.ok.inj h).symm

end Registry

namespace Definition

/-- What holds of a definition whenever it holds of its children holds of every definition. -/
@[elab_as_elim]
theorem induction {motive : Definition → Prop}
    (node : ∀ d, (∀ c ∈ d.features, motive c) → motive d) (d : Definition) : motive d := by
  refine @Definition.rec motive (fun features => ∀ c ∈ features, motive c) ?_ ?_ ?_ d
  · intro id tag params features ih
    exact node ⟨id, tag, params, features⟩ ih
  · intro c hc
    cases hc
  · intro first rest hfirst hrest c hc
    rcases List.mem_cons.mp hc with rfl | hc
    · exact hfirst
    · exact hrest c hc

theorem nodesOf_eq_flatMap : (ds : List Definition) → nodesOf ds = ds.flatMap nodes
  | [] => rfl
  | d :: rest => by rw [nodesOf, nodesOf_eq_flatMap rest, List.flatMap_cons]

theorem nodes_eq (d : Definition) : d.nodes = d :: d.features.flatMap nodes := by
  obtain ⟨id, tag, params, features⟩ := d
  rw [nodes, nodesOf_eq_flatMap]

theorem mem_nodes_self (d : Definition) : d ∈ d.nodes := by
  rw [nodes_eq]
  exact List.mem_cons_self

/-- The nodes below a child are nodes of the tree. -/
theorem mem_nodes_of_mem_features {d c n : Definition} (hc : c ∈ d.features) (hn : n ∈ c.nodes) :
    n ∈ d.nodes := by
  rw [nodes_eq]
  exact List.mem_cons_of_mem _ (List.mem_flatMap.mpr ⟨c, hc, hn⟩)

section Trigger

variable {σ : Type}

/-- A node at work: what the feature does is given for each type that the tag may name. -/
def enter (registry : Registry) (above : List Definition) (d : Definition)
    (work : Effect → PassM σ Unit) : PassM σ Unit :=
  inFeature d do
    let effect ← registry.create d.tag
    visit above d (work effect)

/-- A pass as the feature of a node finds it: the node is noted as visited, and the bag is that of
the node with the bag of the caller on top. -/
def entered (d : Definition) (above : List Definition) (p : Pass σ) : Pass σ :=
  { p with
    visits := ⟨above, d, d.params.overlay p.bag⟩ :: p.visits
    bag := d.params.overlay p.bag }

theorem children_eq_map [RandomSource σ] (registry : Registry) (above : List Definition) :
    (ds : List Definition) → (children registry above ds : List (Child σ)) =
      ds.map fun c => ⟨c, c.trigger registry above⟩
  | [] => by rw [children, List.map_nil]
  | d :: rest => by rw [children, children_eq_map registry above rest, List.map_cons]

/-- Triggering a definition enters it and runs its feature with the triggers of its children. -/
theorem trigger_eq [RandomSource σ] (registry : Registry) (above : List Definition)
    (d : Definition) : (d.trigger registry above : PassM σ Unit) =
      d.enter registry above fun effect =>
        effect.run d (d.features.map fun c => ⟨c, c.trigger registry (above ++ [d])⟩) := by
  obtain ⟨id, tag, params, features⟩ := d
  rw [trigger, children_eq_map]
  rfl

/-- A node whose tag names no type fails before its feature is set to work. -/
theorem enter_run_unknown {registry : Registry} {above : List Definition} {d : Definition}
    {work : Effect → PassM σ Unit} {e : ConfigError} (h : registry.create d.tag = .error e)
    (p : Pass σ) :
    d.enter registry above work p = (.error ((FeatureError.config e).leaving d.tag d.id), p) := by
  rw [enter, h]
  rfl

/-- So does a node whose caller does not say clearly whether it collates. -/
theorem enter_run_unread {registry : Registry} {above : List Definition} {d : Definition}
    {work : Effect → PassM σ Unit} {e : Effect} {error : ParamError} {p : Pass σ}
    (h : registry.create d.tag = .ok e) (hcollate : p.bag.isCollate = .error error) :
    d.enter registry above work p =
      (.error ((FeatureError.config (.param error)).leaving d.tag d.id), p) := by
  rw [enter, h]
  change ((visit above d (work e) p).1.mapError _, (visit above d (work e) p).2) = _
  rw [visit, get_bind_run, hcollate]
  rfl

/-- The feature of a node works on the defaults of the node with the bag of the caller on top. What
it leaves there replaces that bag if it succeeds and the caller collates. -/
theorem enter_run {registry : Registry} {above : List Definition} {d : Definition}
    {work : Effect → PassM σ Unit} {e : Effect} {collate : Bool} {p : Pass σ}
    (h : registry.create d.tag = .ok e) (hcollate : p.bag.isCollate = .ok collate)
    {r : Except FeatureError Unit} {q : Pass σ}
    (hwork : work e (d.entered above p) = (r, q)) :
    d.enter registry above work p =
      (r.mapError (·.leaving d.tag d.id),
        { q with bag := if r.isOk && collate then q.bag else p.bag }) := by
  have hvisit : visit above d (work e) p =
      (r, { q with bag := if r.isOk && collate then q.bag else p.bag }) := by
    rw [visit, get_bind_run, hcollate, bind_run, liftM_run]
    change (withBag _ (work e) >>= _) _ = _
    unfold entered at hwork
    rw [bind_run, withBag, hwork]
    rcases r with e | ⟨⟩
    · rfl
    · cases collate <;> rfl
  rw [enter, h]
  change ((visit above d (work e) p).1.mapError _, (visit above d (work e) p).2) = _
  rw [hvisit]

/-- What a feature does for a caller that does not collate. -/
theorem enter_run_of_keepsToItself {registry : Registry} {above : List Definition} {d : Definition}
    {work : Effect → PassM σ Unit} {e : Effect} {p q : Pass σ} {r : Except FeatureError Unit}
    (h : registry.create d.tag = .ok e) (hbag : p.bag.KeepsToItself)
    (hwork : work e (d.entered above p) = (r, q)) :
    d.enter registry above work p =
      (r.mapError (·.leaving d.tag d.id), { q with bag := p.bag }) := by
  rw [enter_run h (Bag.isCollate_eq_false hbag) hwork, Bool.and_false]
  rfl

/-- What a node has done when it succeeds. -/
theorem enter_run_ok {registry : Registry} {above : List Definition} {d : Definition}
    {work : Effect → PassM σ Unit} {p q : Pass σ}
    (h : d.enter registry above work p = (.ok (), q)) :
    ∃ e collate q', registry.create d.tag = .ok e ∧ p.bag.isCollate = .ok collate ∧
      work e (d.entered above p) = (.ok (), q') ∧
      q = { q' with bag := if collate then q'.bag else p.bag } := by
  rcases hcreate : registry.create d.tag with e | e
  · rw [enter_run_unknown hcreate] at h
    cases h
  rcases hcollate : p.bag.isCollate with error | collate
  · rw [enter_run_unread hcreate hcollate] at h
    cases h
  rcases hrun : work e (d.entered above p) with ⟨r, q'⟩
  rw [enter_run hcreate hcollate hrun] at h
  rcases r with error | ⟨⟩ <;> cases h
  exact ⟨e, collate, q', rfl, rfl, hrun, rfl⟩

/-- What a node with a feature that calls no others has done when it succeeds: it has carried out
the plan that the feature made for the state and the bag of the node. -/
theorem trigger_leaf_ok [RandomSource σ] {above : List Definition} {d : Definition} {e : Effect}
    {plan : RoundState → Bag → PlanM σ (Option Change × Bag)} (hplan : e.leaf? = some plan)
    (htag : d.tag = e.tag) {p q : Pass σ} (h : d.trigger .builtin above p = (.ok (), q)) :
    ∃ change left, plan p.state (d.params.overlay p.bag) p.source = (.ok (change, left), q.source) ∧
      q.state = p.state.perform d change := by
  rw [trigger_eq] at h
  obtain ⟨e', collate, q', hcreate, -, hwork, rfl⟩ := enter_run_ok h
  obtain rfl : e' = e := Registry.eq_of_create_builtin hcreate htag
  rw [Effect.run_leaf hplan, atomic, Act.carries] at hwork
  rcases hrun : plan p.state (d.params.overlay p.bag) p.source with ⟨error | ⟨change, left⟩, x⟩
  · simp only [entered, bind_run, hrun] at hwork
    cases hwork
  · simp only [entered, bind_run, hrun] at hwork
    cases hwork
    exact ⟨change, left, rfl, rfl⟩

/-- What triggering a node with a feature that calls no others comes to. If its plan succeeds, it is
carried out, and the caller keeps its bag unless it collates. If not, the error is marked and the
state stays. -/
theorem trigger_leaf_run [RandomSource σ] {above : List Definition} {d : Definition} {e : Effect}
    {plan : RoundState → Bag → PlanM σ (Option Change × Bag)} (hplan : e.leaf? = some plan)
    (htag : d.tag = e.tag) {p : Pass σ} {collate : Bool}
    (hcollate : p.bag.isCollate = .ok collate) :
    d.trigger .builtin above p = match plan p.state (d.params.overlay p.bag) p.source with
      | (.ok (change, left), x) => (.ok (), ⟨x, (d.entered above p).visits,
          p.state.perform d change, if collate then left else p.bag⟩)
      | (.error error, x) => (.error (error.leaving d.tag d.id),
          ⟨x, (d.entered above p).visits, p.state, p.bag⟩) := by
  have hcreate : Registry.builtin.create d.tag = .ok e := htag ▸ Registry.create_builtin e
  have hrun : e.run d (d.features.map fun c => ⟨c, c.trigger .builtin (above ++ [d])⟩) =
      atomic (Act.carries d plan) := Effect.run_leaf hplan
  rw [trigger_eq]
  rcases hact : plan p.state (d.params.overlay p.bag) p.source with ⟨error | ⟨change, left⟩, x⟩
  · have hwork : atomic (Act.carries d plan) (d.entered above p) =
        (.error error, { d.entered above p with source := x }) := by
      simp only [atomic, Act.carries, entered, bind_run, hact]
    rw [enter_run hcreate hcollate (hrun ▸ hwork)]
    rfl
  · have hwork : atomic (Act.carries d plan) (d.entered above p) =
        (.ok (), ⟨x, (d.entered above p).visits, p.state.perform d change, left⟩) := by
      simp only [atomic, Act.carries, entered, bind_run, hact]
      rfl
    rw [enter_run hcreate hcollate (hrun ▸ hwork)]
    rfl

/-- What triggering a node with a feature that calls no others comes to, if it succeeds: the plan
is carried out, and the caller keeps its bag unless it collates. -/
theorem trigger_leaf_iff [RandomSource σ] {above : List Definition} {d : Definition} {e : Effect}
    {plan : RoundState → Bag → PlanM σ (Option Change × Bag)} (hplan : e.leaf? = some plan)
    (htag : d.tag = e.tag) {p q : Pass σ} {collate : Bool}
    (hcollate : p.bag.isCollate = .ok collate) :
    d.trigger .builtin above p = (.ok (), q) ↔ ∃ change left x,
      plan p.state (d.params.overlay p.bag) p.source = (.ok (change, left), x) ∧
        q = ⟨x, (d.entered above p).visits, p.state.perform d change,
          if collate then left else p.bag⟩ := by
  rw [trigger_leaf_run hplan htag hcollate]
  rcases plan p.state (d.params.overlay p.bag) p.source with ⟨error | ⟨change, left⟩, x⟩
  · constructor
    · intro h
      cases h
    · rintro ⟨change, left, x', h, -⟩
      cases h
  · constructor
    · intro h
      cases h
      exact ⟨change, left, x, rfl, rfl⟩
    · rintro ⟨change', left', x', h, rfl⟩
      cases h
      rfl

/-- A caller that does not collate has its bag back, also when the feature that it called failed. -/
theorem enter_bag_of_keepsToItself {registry : Registry} {above : List Definition} {d : Definition}
    {work : Effect → PassM σ Unit} {p : Pass σ} (h : p.bag.KeepsToItself) :
    (d.enter registry above work p).2.bag = p.bag := by
  rcases hcreate : registry.create d.tag with e | e
  · rw [enter_run_unknown hcreate]
  · rw [enter_run_of_keepsToItself hcreate h rfl]

end Trigger

end Definition

end SlotOutcome
