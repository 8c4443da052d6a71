import SlotOutcome.Proofs.BagWrites
import SlotOutcome.Proofs.Lockstep

/-!
# The two ways to hand bags to children

A feature runs with a copy of the caller's bag, and if the caller collates the copy replaces the
bag of the caller when the feature is done. A caller that does not collate has its bag back
whatever happens. A tree whose caller collates might as well run on a single bag that all its
features share: no copy is made, and each feature just adds the defaults that the bag lacks.

## Main definitions

* `Definition.share`: a tree at work on a single bag.
* `KeepCollating`: no feature that was triggered writes values under the key of collating.

## Main results

* `trigger_keeps_or_shares`: the two ways to hand bags to children.
-/

namespace SlotOutcome

/-! ### A single bag -/

namespace Definition

section Share

variable {σ : Type} [RandomSource σ]

mutual

/-- A tree at work on a single bag: each node adds those of its defaults that the bag lacks, and
then its feature and its children work on the same bag. -/
def share (registry : Registry) (above : List Definition) : Definition → PassM σ Unit
  | ⟨id, tag, params, features⟩ =>
    let d : Definition := ⟨id, tag, params, features⟩
    let children := shareAll registry (above ++ [d]) features
    inFeature d do
      let effect ← registry.create tag
      modify fun p => { p with
        visits := ⟨above, d, p.bag.addMissing params⟩ :: p.visits
        bag := p.bag.addMissing params }
      effect.run d children

/-- The children of a node at work on its bag. -/
def shareAll (registry : Registry) (above : List Definition) : List Definition → List (Child σ)
  | [] => []
  | d :: rest => ⟨d, share registry above d⟩ :: shareAll registry above rest

end

/-- A node at work on a single bag, for given children. -/
def shareNode (registry : Registry) (above : List Definition) (d : Definition)
    (children : List (Child σ)) : PassM σ Unit :=
  inFeature d do
    let effect ← registry.create d.tag
    modify fun p => { p with
      visits := ⟨above, d, p.bag.addMissing d.params⟩ :: p.visits
      bag := p.bag.addMissing d.params }
    effect.run d children

theorem shareAll_eq_map (registry : Registry) (above : List Definition) :
    (ds : List Definition) → (shareAll registry above ds : List (Child σ)) =
      ds.map fun c => ⟨c, c.share registry above⟩
  | [] => by rw [shareAll, List.map_nil]
  | d :: rest => by rw [shareAll, shareAll_eq_map registry above rest, List.map_cons]

theorem share_eq (registry : Registry) (above : List Definition) (d : Definition) :
    (d.share registry above : PassM σ Unit) = shareNode registry above d
      (d.features.map fun c => ⟨c, c.share registry (above ++ [d])⟩) := by
  obtain ⟨id, tag, params, features⟩ := d
  rw [share, shareAll_eq_map]
  rfl

/-- A node adds to the bag what it would have had below the bag. -/
theorem shareNode_run {registry : Registry} {above : List Definition} {d : Definition}
    {children : List (Child σ)} {e : Effect} {p q : Pass σ} {r : Except FeatureError Unit}
    (h : registry.create d.tag = .ok e) (hrun : e.run d children (d.entered above p) = (r, q)) :
    shareNode registry above d children p = (r.mapError (·.leaving d.tag d.id), q) := by
  rw [entered, Bag.overlay_eq_addMissing] at hrun
  rw [shareNode, h]
  change ((e.run d children _).1.mapError _, (e.run d children _).2) = _
  rw [hrun]

end Share

end Definition

/-! ### Collating bags stay so -/

/-- The parameters that a visit sets, if this is what its feature does. -/
def Visit.settings (registry : Registry) (v : Visit) : Option Bag :=
  match registry.create v.node.tag, v.bag.require .bag "Values" with
  | .ok .setParams, .ok values => some values
  | _, _ => none

theorem Visit.settings_eq {registry : Registry} {v : Visit} {values : Bag}
    (hcreate : registry.create v.node.tag = .ok .setParams)
    (hvalues : v.bag.require .bag "Values" = .ok values) : v.settings registry = some values := by
  rw [settings, hcreate, hvalues]

/-- No feature that was triggered set a parameter under the key of collating. -/
def KeepCollating (registry : Registry) (visits : List Visit) : Prop :=
  ∀ v ∈ visits, ∀ values ∈ v.settings registry, values.contains Key.collate = false

instance (registry : Registry) (visits : List Visit) : Decidable (KeepCollating registry visits) :=
  inferInstanceAs (Decidable (∀ v ∈ visits, ∀ values ∈ v.settings registry,
    values.contains Key.collate = false))

/-- Atoms leave a bag collating, except those that set parameters. A counter may be told to raise
the key of collating as its flag, but that is what the key is already. -/
theorem Atom.collates {σ τ : Type} [RandomSource σ] [RandomSource τ] {d : Definition} {e : Effect}
    {α : Type} {act : RoundState → Bag → PlanM σ (α × RoundState × Bag)}
    {act' : RoundState → Bag → PlanM τ (α × RoundState × Bag)} (hatom : Atom d e act act')
    (he : e ≠ .setParams) {bag : Bag} (h : bag.Collates) (s : RoundState) :
    Yields (fun result => result.2.2.Collates) (act s bag) := by
  intro result hresult
  unfold Bag.Collates
  rcases hatom.leaves s bag he result hresult Key.collate e.collate_not_mem_writes with
    heq | ⟨-, -, hraised⟩
  · rw [heq]
    exact h
  · exact hraised

/-! ### Sharing instead of copying -/

/-- Both sides of an atom over one source are the same. -/
theorem Atom.eq {σ : Type} [RandomSource σ] {d : Definition} {e : Effect} {α : Type}
    {act act' : RoundState → Bag → PlanM σ (α × RoundState × Bag)} (h : Atom d e act act') :
    act = act' := by
  cases h with
  | leaf hplan hplan' => rw [Option.some.inj (hplan.symm.trans hplan')]
  | _ => rfl

section Shared

variable {σ : Type} (registry : Registry)

/-- The second computation does the same as the first one wherever that succeeds from a collating
bag, if no feature triggered meanwhile interferes. -/
def Shares {α : Type} (m m' : PassM σ α) : Prop :=
  ∀ p a q, m p = (.ok a, q) → p.visits <:+ q.visits ∧
    (p.bag.Collates → KeepCollating registry q.visits → m' p = (.ok a, q) ∧ q.bag.Collates)

theorem KeepCollating.of_suffix {before after : List Visit} (h : before <:+ after)
    (hafter : KeepCollating registry after) : KeepCollating registry before :=
  fun v hv => hafter v (h.subset hv)

/-- Doing the same on one bag, as a relation between parts of passes. -/
def sharing : Lockstep σ σ where
  Rel := Shares registry
  pure a p b q hrun := by
    cases hrun
    exact ⟨List.suffix_rfl, fun hbag _ => ⟨rfl, hbag⟩⟩
  throw e p b q hrun := by cases hrun
  bind {α β m m' f f'} h hf p b q hrun := by
    obtain ⟨a, p', hm, hrun⟩ := bind_run_eq_ok.mp hrun
    obtain ⟨hsuffix, hfirst⟩ := h p a p' hm
    obtain ⟨hsuffix', hthen⟩ := hf a p' b q hrun
    refine ⟨hsuffix.trans hsuffix', fun hbag hkeep => ?_⟩
    obtain ⟨hm', hbag'⟩ := hfirst hbag (hkeep.of_suffix registry hsuffix')
    obtain ⟨hf', hbag''⟩ := hthen hbag' hkeep
    exact ⟨bind_run_eq_ok.mpr ⟨a, p', hm', hf'⟩, hbag''⟩
  view h p a q hrun := h p p rfl rfl p a q hrun

variable [RandomSource σ] {above : List Definition} {d : Definition}

theorem shares_atom {e : Effect} {α : Type}
    {act act' : RoundState → Bag → PlanM σ (α × RoundState × Bag)} (hatom : Atom d e act act')
    (he : e ≠ .setParams) : Shares registry (atomic act) (atomic act') := by
  obtain rfl := hatom.eq
  intro p a q hrun
  rcases hact : act p.state p.bag p.source with ⟨error | ⟨b, s, bag⟩, x⟩
  · rw [atomic, hact] at hrun
    cases hrun
  · have hleft (hbag : p.bag.Collates) : bag.Collates :=
      hatom.collates he hbag p.state _ ⟨p.source, x, hact⟩
    have hagain := hrun
    rw [atomic, hact] at hrun
    cases hrun
    exact ⟨List.suffix_rfl, fun hbag _ => ⟨hagain, hleft hbag⟩⟩

/-- Setting parameters copies them into the bag. -/
theorem setParams_run_ok {p q : Pass σ} {children : List (Child σ)}
    (hrun : Effect.setParams.run d children p = (.ok (), q)) :
    ∃ values, p.bag.require .bag "Values" = .ok values ∧
      q = { p with bag := p.bag.extend values } := by
  rw [Effect.run, remember, get_bind_run, Remember.setParams] at hrun
  rcases hvalues : p.bag.require .bag "Values" with e | values <;> rw [hvalues] at hrun <;>
    cases hrun
  exact ⟨values, rfl, rfl⟩

/-- A node of a collating caller shares the bag with it if its children share theirs. -/
theorem shares_node {children children' : List (Child σ)}
    (hd : registry.create d.tag ≠ .ok .symbolTrigger ∧ registry.create d.tag ≠ .ok .play)
    (hchildren : (sharing registry).Children children children') :
    Shares registry (d.enter registry above fun e => e.run d children)
      (Definition.shareNode registry above d children') := by
  intro p a q hrun
  obtain ⟨e, collate, q', hcreate, hcollate, hwork, rfl⟩ := Definition.enter_run_ok hrun
  by_cases he : e = .setParams
  · subst he
    obtain ⟨values, hvalues, rfl⟩ := setParams_run_ok hwork
    refine ⟨List.suffix_cons _ _, fun hbag hkeep => ?_⟩
    cases hcollate.symm.trans (Bag.isCollate_eq_true hbag)
    have habsent : values.get? Key.collate = none := by
      refine Option.not_isSome_iff_eq_none.mp (Bool.eq_false_iff.mp ?_)
      exact hkeep _ List.mem_cons_self values (Visit.settings_eq hcreate hvalues)
    have hleft : ((d.entered above p).bag.extend values).Collates := by
      unfold Bag.Collates
      rw [Bag.get?_extend, habsent, Option.none_or]
      exact hbag.overlay d.params
    have hwork' : Effect.setParams.run d children' (d.entered above p) =
        (.ok (), { d.entered above p with bag := (d.entered above p).bag.extend values }) := by
      rw [Effect.run, remember, get_bind_run, Remember.setParams, hvalues]
      rfl
    exact ⟨Definition.shareNode_run hcreate hwork', hleft⟩
  · have hfeature : Shares registry (e.run d children) (e.run d children') := by
      refine (sharing registry).run hchildren (fun hatom => shares_atom registry hatom he)
        (fun h => ?_) fun h => ?_
      · exact absurd (h ▸ hcreate) hd.1
      · exact absurd (h ▸ hcreate) hd.2
    obtain ⟨hsuffix, hshared⟩ := hfeature _ _ _ hwork
    refine ⟨(List.suffix_cons _ _).trans hsuffix, fun hbag hkeep => ?_⟩
    cases hcollate.symm.trans (Bag.isCollate_eq_true hbag)
    obtain ⟨hwork', hbag'⟩ := hshared (hbag.overlay d.params) hkeep
    exact ⟨Definition.shareNode_run hcreate hwork', hbag'⟩

/-- A tree of a collating caller shares the bag with it. -/
theorem trigger_shares (d : Definition)
    (hnodes : ∀ n ∈ d.nodes,
      registry.create n.tag ≠ .ok .symbolTrigger ∧ registry.create n.tag ≠ .ok .play)
    (above : List Definition) :
    Shares registry (d.trigger registry above : PassM σ Unit) (d.share registry above) :=
  (sharing registry).trigger _ (fun _ _ _ _ hn h => shares_node registry hn h)
    (Definition.share_eq registry) d above hnodes

end Shared

/-- The two ways to hand bags to children. A caller that does not collate has its bag back, whether
the tree succeeds or fails. Under a caller that collates, a tree that succeeds leaves the same
state, the same source and the same bag as it would on a single bag, if its features give no bags
of their own to their children and none that was triggered sets the key of collating. -/
theorem trigger_keeps_or_shares {σ : Type} [RandomSource σ] (registry : Registry) (d : Definition)
    (source : σ) (state : RoundState) (bag : Bag) :
    (bag.KeepsToItself → (trigger registry d source state bag).2.bag = bag) ∧
    (bag.Collates →
      (∀ n ∈ d.nodes,
        registry.create n.tag ≠ .ok .symbolTrigger ∧ registry.create n.tag ≠ .ok .play) →
      ∀ p, trigger registry d source state bag = (.ok (), p) → KeepCollating registry p.visits →
        d.share registry [] (Pass.start source state bag) = (.ok (), p)) := by
  constructor
  · intro hbag
    rw [trigger, Definition.trigger_eq]
    exact Definition.enter_bag_of_keepsToItself hbag
  · intro hbag hnodes p hrun hkeep
    exact ((trigger_shares registry d hnodes [] _ _ _ hrun).2 hbag hkeep).1

/-- Sets a parameter, and triggers free spins if it is set. -/
def flagged : Definition where
  id := 1
  tag := "Activator"
  params := .empty
  features := [
    ⟨2, "SetParams", Bag.empty.insert "Values" (.obj (Bag.empty.insert "Lucky" (.bool true))), []⟩,
    ⟨3, "ConditionalActivator", Bag.empty.insert "ConditionFlag" (.str "Lucky"),
      [⟨4, "AwardFreespins", Bag.empty.insert "Spins" (.ofNat 5), []⟩]⟩]

/-- The parameter that one feature sets is seen by the next one if the caller collates. -/
theorem trigger_keeps_or_shares_flagged :
    (trigger .builtin flagged (Script.ofDraws []) (.fresh 1 1) .empty).2.bag = .empty ∧
    ∃ p, trigger .builtin flagged (Script.ofDraws []) (.fresh 1 1)
        (Bag.empty.insert Key.collate (.bool true)) = (.ok (), p) ∧
      flagged.share .builtin [] (Pass.start (Script.ofDraws []) (.fresh 1 1)
        (Bag.empty.insert Key.collate (.bool true))) = (.ok (), p) ∧
      p.bag.contains "Lucky" = true ∧ p.state.outcome.freespins = 5 := by
  rcases hrun : trigger .builtin flagged (Script.ofDraws []) (.fresh 1 1)
    (Bag.empty.insert Key.collate (.bool true)) with ⟨r, p⟩
  have hr : (trigger .builtin flagged (Script.ofDraws []) (.fresh 1 1)
    (Bag.empty.insert Key.collate (.bool true))).1 = .ok () := by decide +kernel
  have hkeep : KeepCollating .builtin (trigger .builtin flagged (Script.ofDraws []) (.fresh 1 1)
    (Bag.empty.insert Key.collate (.bool true))).2.visits := by decide +kernel
  have hlucky : (trigger .builtin flagged (Script.ofDraws []) (.fresh 1 1)
    (Bag.empty.insert Key.collate (.bool true))).2.bag.contains "Lucky" = true := by decide +kernel
  have hspins : (trigger .builtin flagged (Script.ofDraws []) (.fresh 1 1)
    (Bag.empty.insert Key.collate (.bool true))).2.state.outcome.freespins = 5 := by decide +kernel
  rw [hrun] at hr hkeep hlucky hspins
  obtain rfl : r = .ok () := hr
  have hnodes : ∀ n ∈ flagged.nodes, Registry.builtin.create n.tag ≠ .ok .symbolTrigger ∧
      Registry.builtin.create n.tag ≠ .ok .play := by decide
  have hcollates : Bag.Collates (Bag.empty.insert Key.collate (.bool true)) := rfl
  exact ⟨(trigger_keeps_or_shares .builtin flagged _ _ _).1 (.inl rfl), p, rfl,
    (trigger_keeps_or_shares .builtin flagged _ _ _).2 hcollates hnodes p hrun hkeep, hlucky,
    hspins⟩

end SlotOutcome
