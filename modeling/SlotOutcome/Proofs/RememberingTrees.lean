import SlotOutcome.Proofs.ChildCalls
import SlotOutcome.Proofs.CounterMemory
import SlotOutcome.Proofs.ReadKeys
import SlotOutcome.Proofs.RoundMemory

/-!
# A feature and the one that writes its memory

A feature leaves a new memory pending in its bag. If the parent collates, the next child finds it
there and writes it to the ledger, where the next round or step looks for it.

```text
  parent (collates)
    ├─ feature    bag ──► plan ──► change of the state, and the memory pending in the bag
    └─ map        that bag     ──► entry of the memory
```

## Main definitions

* `remembering`: a tree of a parent that collates, a feature, and one that writes the memory.

## Main results

* `remembering_run`: the plans of both children are carried out, one after the other.
* `remembering_stateless`, `remembering_stateful`: a memory that is pending is written.
-/

namespace SlotOutcome

/-- A feature, and one that works with the bag that it leaves. -/
def remembering (id : UInt32) (c m : Definition) : Definition :=
  ⟨id, "Activator", collating, [c, m]⟩

theorem collates_collating : collating.Collates := rfl

section Pair

variable {σ : Type} [RandomSource σ] {c m : Definition}
  {plan : RoundState → Bag → Except FeatureError (Option Change × Bag)}
  {write : RoundState → Bag → Except FeatureError (Option Change)}

/-- Where both plans can be made, the second one for the state and the bag that the first one
leaves, they are carried out one after the other. -/
theorem remembering_run (e f : Effect)
    (hc : e.leaf? (σ := σ) = some fun s bag => liftM (plan s bag)) (hctag : c.tag = e.tag)
    (hm : f.leaf? (σ := σ) = some (keepingBag fun s bag => liftM (write s bag)))
    (hmtag : m.tag = f.tag) {s : RoundState} {change written : Option Change} {left : Bag}
    (hplan : plan s (c.params.overlay collating) = .ok (change, left)) (hleft : left.Collates)
    (hwrite : write (s.perform c change) (m.params.overlay left) = .ok written) (id : UInt32)
    (x : σ) : ∃ p, trigger .builtin (remembering id c m) x s .empty = (.ok (), p) ∧
      p.state = (s.perform c change).perform m written := by
  let d := remembering id c m
  let p₀ : Pass σ := d.entered [] (Pass.start x s .empty)
  -- The pass after the feature, and after the one that writes the memory.
  let p₁ : Pass σ := ⟨x, (c.entered [d] p₀).visits, s.perform c change, left⟩
  let p₂ : Pass σ := ⟨x, (m.entered [d] p₁).visits, (s.perform c change).perform m written,
    m.params.overlay left⟩
  have hfirst : c.trigger .builtin [d] p₀ = (.ok (), p₁) := by
    refine (Definition.trigger_leaf_iff hc hctag (Bag.isCollate_eq_true collates_collating)).mpr
      ⟨change, left, x, ?_, rfl⟩
    change (liftM (plan s (c.params.overlay collating)) : PlanM σ _) x = _
    rw [liftM_run, hplan]
    rfl
  have hsecond : m.trigger .builtin [d] p₁ = (.ok (), p₂) := by
    refine (Definition.trigger_leaf_iff hm hmtag (Bag.isCollate_eq_true hleft)).mpr
      ⟨written, m.params.overlay left, x, ?_, rfl⟩
    refine bind_run_eq_ok.mpr ⟨written, x, ?_, rfl⟩
    change (liftM (write (s.perform c change) (m.params.overlay left)) : PlanM σ _) x = _
    rw [liftM_run, hwrite]
    rfl
  have hwork : Effect.activator.run d (d.features.map fun c => ⟨c, c.trigger .builtin ([] ++ [d])⟩)
      (d.entered [] (Pass.start x s .empty)) = (.ok (), p₂) := by
    change fireAll [⟨c, c.trigger .builtin [d]⟩, ⟨m, m.trigger .builtin [d]⟩] p₀ = _
    rw [fireAll_cons, fireAll_cons]
    refine bind_run_eq_ok.mpr ⟨(), p₁, hfirst, ?_⟩
    exact bind_run_eq_ok.mpr ⟨(), p₂, hsecond, rfl⟩
  have hcaller : (Pass.start x s .empty).bag.isCollate = .ok false := rfl
  refine ⟨{ p₂ with bag := .empty }, ?_, rfl⟩
  rw [trigger, Definition.trigger_eq]
  exact Definition.enter_run (e := .activator) rfl hcaller hwork

end Pair

/-- The settings of a feature whose parent collates. -/
theorem agree_overlay_collating (defaults : Bag) {keys : List String} (h : Key.collate ∉ keys) :
    (defaults.overlay collating).Agree keys defaults := by
  intro key hkey
  have hne : key ≠ Key.collate := fun heq => h (heq ▸ hkey)
  rw [Bag.get?_overlay, collating, Members.get?_insert, if_neg hne]
  rfl

/-! ### Writing what is pending -/

/-- What is pending in the bag of a feature is pending for the next one too. -/
theorem pending_overlay_stash (channel : Channel) (defaults bag map : Bag) :
    channel.pending (defaults.overlay (channel.stash bag map)) = .ok (some map) := by
  have hstashed : (defaults.overlay (channel.stash bag map)).get? channel.stashKey =
      some (.obj map) := by
    rw [Bag.get?_overlay, Channel.stash, Members.get?_insert, if_pos rfl, Option.some_or]
  exact Bag.find_of_present hstashed rfl

/-- A parent that collates still does so when a memory is pending. -/
theorem collates_stash (channel : Channel) {bag : Bag} (h : bag.Collates) (map : Bag) :
    (channel.stash bag map).Collates := by
  have hkey : Key.collate ≠ channel.stashKey := by cases channel <;> decide
  rw [Bag.Collates, Channel.stash, Members.get?_insert, if_neg hkey]
  exact h

section Channels

variable {σ : Type} [RandomSource σ] {c m : Definition}
  {plan : RoundState → Bag → Except FeatureError (Option Change × Bag)} {s : RoundState}
  {change : Option Change} {map : Bag}

/-- A memory of the round that a feature leaves pending is written as it is. -/
theorem remembering_stateless (e : Effect)
    (hc : e.leaf? (σ := σ) = some fun s bag => liftM (plan s bag)) (hctag : c.tag = e.tag)
    (hm : m.tag = roundTag) (hplan : plan s (c.params.overlay collating) =
      .ok (change, Channel.stateless.stash (c.params.overlay collating) map))
    (hmap : map.isEmpty = false) (id : UInt32) (x : σ) :
    ∃ p, trigger .builtin (remembering id c m) x s .empty = (.ok (), p) ∧
      p.state = (s.perform c change).perform m (some ⟨(s.perform c change).outcome, .obj map⟩) := by
  have hleft := collates_stash .stateless (collates_collating.overlay c.params) map
  refine remembering_run e .statelessMap hc hctag rfl hm hplan hleft ?_ id x
  rw [statelessMap_plan, statelessMap, pending_overlay_stash]
  change Except.ok (ite _ _ _) = _
  rw [hmap]
  rfl

/-- A memory of the stakes that a feature leaves pending is written as that of the current stake. -/
theorem remembering_stateful (e : Effect)
    (hc : e.leaf? (σ := σ) = some fun s bag => liftM (plan s bag)) (hctag : c.tag = e.tag)
    (hm : m.tag = memoryTag) (hplan : plan s (c.params.overlay collating) =
      .ok (change, Channel.stateful.stash (c.params.overlay collating) map))
    {namespaces : Bag} (hnamespaces : statefulNamespaces s = .ok namespaces) (id : UInt32) (x : σ) :
    ∃ p, trigger .builtin (remembering id c m) x s .empty = (.ok (), p) ∧
      p.state = (s.perform c change).perform m (storing (s.perform c change) namespaces map) := by
  have hleft := collates_stash .stateful (collates_collating.overlay c.params) map
  have hlink : statefulNamespaces (s.perform c change) = .ok namespaces := by
    rw [← hnamespaces]
    rcases change with _ | change <;> rfl
  refine remembering_run e .statefulMap hc hctag rfl hm hplan hleft ?_ id x
  rw [rememberMap_eq, hlink, statefulMap_of_stash _ (pending_overlay_stash .stateful _ _ _)]
  rfl

end Channels

end SlotOutcome
