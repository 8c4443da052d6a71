import Mathlib.Data.List.Chain
import SlotOutcome.Engine
import SlotOutcome.Proofs.BagWrites
import SlotOutcome.Proofs.Lockstep

/-!
# What a parameter resolves to

A feature starts with the defaults of its definition, and the bag of its caller on top. Down a tree
this adds up: a parameter has the value of the request if that has one, and else that of the
outermost definition on the way from the root that has one. Features write into their bags while
they run, but what they write does not come back to a caller that does not collate, and the few that
call others after writing only say what they found. So the bag of a feature depends on the request
and on the definitions above it, and not on what has run before.

```text
  request            Bet = 2
     │ on top of
  root               Bet = 1   Rows = 3
     │ on top of
  child                        Rows = 4   Odds = 7
     ▼
  bag of the child   Bet = 2   Rows = 3   Odds = 7
```

## Main definitions

* `Key.found`: the keys under which features tell the others what they found.
* `resolve`: the value of a parameter for a feature at the end of a path.
* `Resolved`: the bag of a feature in which all parameters have these values.
* `keeping`: what a part of a pass keeps of its bag and of all visits.

## Main results

* `Definition.trigger_resolves`: what a tree keeps, for whatever caller.
* `trigger_resolved`: every feature that is triggered finds its parameters resolved.
-/

namespace SlotOutcome

/-- The keys under which a feature tells the features that it calls what it has found: cells and
their number, and strips. -/
def Key.found : List String := [Key.position, Key.positions, "TriggerCount", "Reels"]

/-- The definitions on the way from the root of the tree to a feature, the root first. -/
def Visit.path (v : Visit) : List Definition := v.above ++ [v.node]

/-- Definitions that lead from the root of a tree down, each to one of its children. -/
def Definition.IsPath (root : Definition) (path : List Definition) : Prop :=
  path.head? = some root ∧ path.IsChain fun d c => c ∈ d.features

/-- The value of a key for a feature that is called along a path: that of the request, or else that
of the first definition that has one. -/
def resolve (request : Bag) (path : List Definition) (key : String) : Option Json :=
  (request.get? key).or (path.findSome? (·.params.get? key))

/-- All parameters in the bag of a feature have the values that they resolve to along its path, but
for what was found on the way. -/
def Resolved (request : Bag) (path : List Definition) (bag : Bag) : Prop :=
  ∀ key ∉ Key.found, bag.get? key = resolve request path key

/-- A feature at the end of a path of the tree that finds its parameters resolved. -/
def Visit.IsResolved (root : Definition) (request : Bag) (v : Visit) : Prop :=
  root.IsPath v.path ∧ Resolved request v.path v.bag

/-! ### Paths -/

namespace Definition.IsPath

variable {root d c : Definition} {path : List Definition}

theorem self (d : Definition) : d.IsPath [d] := ⟨rfl, .singleton d⟩

/-- A path leads on to the children of its last definition. -/
theorem append (h : root.IsPath (path ++ [d])) (hc : c ∈ d.features) :
    root.IsPath (path ++ [d] ++ [c]) := by
  refine ⟨?_, h.2.append (.singleton c) fun x hx y hy => ?_⟩
  · rw [List.head?_append, h.1]
    rfl
  · rw [List.getLast?_append, List.getLast?_singleton, Option.some_or] at hx
    cases hx
    cases hy
    exact hc

/-- The definitions of a path are nodes of the tree. -/
theorem subset_nodes (h : root.IsPath path) : path ⊆ root.nodes := by
  induction path generalizing root with
  | nil => exact List.nil_subset _
  | cons first rest ih =>
    obtain ⟨hfirst, hchain⟩ := h
    cases hfirst
    refine List.cons_subset.mpr ⟨first.mem_nodes_self, ?_⟩
    rcases rest with _ | ⟨next, rest⟩
    · exact List.nil_subset _
    · obtain ⟨hnext, hrest⟩ := List.isChain_cons_cons.mp hchain
      exact fun n hn => mem_nodes_of_mem_features hnext (ih ⟨rfl, hrest⟩ hn)

end Definition.IsPath

/-! ### Resolved bags -/

section Bags

variable {request bag : Bag} {path : List Definition}

theorem resolve_append (path : List Definition) (d : Definition) (key : String) :
    resolve request (path ++ [d]) key = (resolve request path key).or (d.params.get? key) := by
  rw [resolve, resolve, List.findSome?_append, List.findSome?_singleton, Option.or_assoc]

/-- Before any definition, the request is all that counts. -/
theorem Resolved.start (request : Bag) : Resolved request [] request := fun key _ => by
  rw [resolve, List.findSome?_nil, Option.or_none]

/-- A definition with the bag of its caller on top. -/
theorem Resolved.overlay (h : Resolved request path bag) (d : Definition) :
    Resolved request (path ++ [d]) (d.params.overlay bag) := fun key hkey => by
  rw [Bag.get?_overlay, h key hkey, resolve_append]

/-- What was found is not resolved. -/
theorem Resolved.insert (h : Resolved request path bag) {key : String} (hkey : key ∈ Key.found)
    (value : Json) : Resolved request path (Members.insert bag key value) := by
  intro key' hkey'
  have hne : key' ≠ key := by
    rintro rfl
    exact hkey' hkey
  rw [Members.get?_insert, if_neg hne, h key' hkey']

/-- A caller that has its parameters resolved keeps its bag to itself if the request and all
definitions do. -/
theorem Resolved.keepsToItself (h : Resolved request path bag) (hrequest : request.KeepsToItself)
    (hpath : ∀ d ∈ path, d.params.KeepsToItself) : bag.KeepsToItself := by
  have hvalue : bag.get? Key.collate = resolve request path Key.collate := h _ (by decide)
  rw [Bag.KeepsToItself, hvalue, resolve]
  rcases hrequest with hnone | hfalse
  · rw [hnone, Option.none_or]
    rcases hfirst : path.findSome? (·.params.get? Key.collate) with _ | value
    · exact .inl hfirst
    · obtain ⟨d, hd, hparams⟩ := List.exists_of_findSome?_eq_some hfirst
      have hkeeps := hpath d hd
      rw [Bag.KeepsToItself, hparams] at hkeeps
      rwa [hfirst]
  · rw [hfalse]
    exact .inr rfl

end Bags

/-! ### What parts of passes keep -/

section Keeping

variable {σ : Type}

/-- Where a bag has a property, those of the pass and of another bag that it may come back to are
kept, and so is what holds of all visits. -/
def Preserves (Fits : Bag → Prop) (Noted : Visit → Prop) (other : Bag) {α : Type}
    (m : PassM σ α) : Prop :=
  ∀ p r q, m p = (r, q) → Fits other → Fits p.bag → (∀ v ∈ p.visits, Noted v) →
    Fits q.bag ∧ ∀ v ∈ q.visits, Noted v

variable {Fits : Bag → Prop} {Noted : Visit → Prop}

/-- Keeping a property of the bag and one of all visits, as a relation of a part of a pass with any
other. -/
def keeping (σ : Type) (Fits : Bag → Prop) (Noted : Visit → Prop) : BagLockstep σ σ where
  after other := {
    Rel := fun m _ => Preserves Fits Noted other m
    pure := fun a p r q hrun _ hbag hvisits => by
      cases hrun
      exact ⟨hbag, hvisits⟩
    throw := fun _ p r q hrun _ hbag hvisits => by
      cases hrun
      exact ⟨hbag, hvisits⟩
    bind := fun {α β m m' f f'} h hf p r q hrun hother hbag hvisits => by
      rw [bind_run] at hrun
      rcases hm : m p with ⟨e | a, p'⟩ <;> rw [hm] at hrun
      · cases hrun
        exact h p _ _ hm hother hbag hvisits
      · obtain ⟨hbag', hvisits'⟩ := h p _ _ hm hother hbag hvisits
        exact hf a p' r q hrun hother hbag' hvisits'
    view := fun h p r q hrun => h p p rfl rfl p r q hrun }
  look h p r q hrun _ hbag := h p p rfl rfl p r q hrun hbag hbag

namespace Preserves

variable {other : Bag} {m : PassM σ Unit}

/-- With another bag that has the property too, the pass goes on with its own one. -/
theorem withBag {bag : Bag} (hbag : Fits other → Fits bag) (h : Preserves Fits Noted other m) :
    Preserves Fits Noted other (withBag bag m) := by
  intro p r q hrun hother hp hvisits
  cases hrun
  exact ⟨hp, (h { p with bag := bag } _ _ rfl hother (hbag hother) hvisits).2⟩

/-- A step begins with the bag that may come back. -/
theorem onStep (state : RoundState) (h : Preserves Fits Noted other m) :
    Preserves Fits Noted other (onStep state other m) := by
  intro p r q hrun hother hp hvisits
  cases hrun
  exact ⟨hp, (h { p with state := state, bag := other } _ _ rfl hother hother hvisits).2⟩

theorem atomic {α : Type} {act : RoundState → Bag → PlanM σ (α × RoundState × Bag)}
    (h : ∀ s bag, Fits bag → Yields (fun result => Fits result.2.2) (act s bag)) :
    Preserves Fits Noted other (atomic act) := by
  intro p r q hrun _ hp hvisits
  rw [SlotOutcome.atomic] at hrun
  rcases hact : act p.state p.bag p.source with ⟨e | ⟨a, s, bag⟩, x⟩ <;> rw [hact] at hrun <;>
    cases hrun
  · exact ⟨hp, hvisits⟩
  · exact ⟨h p.state p.bag hp _ ⟨p.source, x, hact⟩, hvisits⟩

end Preserves

end Keeping

/-! ### Trees -/

section Trees

variable {σ : Type} [RandomSource σ] {root d : Definition} {request : Bag}

/-- Features that call others write only what they have found. -/
theorem Effect.writes_subset_found {e : Effect} (h : e.leaf? (σ := σ) = none) :
    e.writes ⊆ Key.found ∧ e ≠ .setParams ∧ e ≠ .counter := by
  cases e <;> first | decide | cases h

/-- A part of a pass that is called along a path gives the caller its bag back, and every feature
that it triggers finds its parameters resolved. -/
def Resolves (root : Definition) (request : Bag) (above : List Definition) (m : PassM σ Unit) :
    Prop :=
  ∀ p r q, m p = (r, q) → Resolved request above p.bag →
    (∀ v ∈ p.visits, v.IsResolved root request) →
      q.bag = p.bag ∧ ∀ v ∈ q.visits, v.IsResolved root request

/-- What a feature does that finds its parameters resolved, if its children are called along a path
that is longer by its definition. -/
theorem Effect.run_resolves {e : Effect} {path : List Definition} {children : List (Child σ)}
    (hchildren : ∀ c ∈ children, Resolves root request path c.trigger) {p q : Pass σ}
    {r : Except FeatureError Unit} (hrun : e.run d children p = (r, q))
    (hbag : Resolved request path p.bag) (hvisits : ∀ v ∈ p.visits, v.IsResolved root request) :
    ∀ v ∈ q.visits, v.IsResolved root request := by
  rcases hleaf : e.leaf? (σ := σ) with _ | plan
  · obtain ⟨hwrites, hsets, hcounts⟩ := Effect.writes_subset_found hleaf
    let L := keeping σ (Resolved request path) fun v => v.IsResolved root request
    have hrel : ∀ other, (L.after other).Rel (e.run d children) (e.run d children) := by
      refine L.run (fun bag => ?_) (fun bag α act act' hatom => ?_) ?_
        fun _ bag previous m m' h => Preserves.onStep _ h
      · refine List.forall₂_same.mpr fun c hc => ⟨rfl, fun p r q hrun _ hbag hvisits => ?_⟩
        obtain ⟨hback, hq⟩ := hchildren c hc p r q hrun hbag hvisits
        exact ⟨hback ▸ hbag, hq⟩
      · refine Preserves.atomic fun s bag hbag result hresult key hkey => ?_
        have hleaves := hatom.leaves s bag hsets result hresult
        rw [hleaves.get?_eq hcounts fun hmem => hkey (hwrites hmem), hbag key hkey]
      · intro _ bag position positions m m' h
        exact Preserves.withBag (fun hbag => (hbag.insert (by decide) _).insert (by decide) _) h
    exact (hrel p.bag p r q hrun hbag hbag hvisits).2
  · rw [Effect.run_leaf hleaf, atomic] at hrun
    rcases hact : Act.carries d plan p.state p.bag p.source with ⟨error | ⟨a, s, bag⟩, x⟩ <;>
      rw [hact] at hrun <;> cases hrun <;> exact hvisits

/-- A node that is called along a path by a caller that does not collate. -/
theorem Definition.trigger_resolves {registry : Registry} (hrequest : request.KeepsToItself)
    (hroot : ∀ n ∈ root.nodes, n.params.KeepsToItself) {above : List Definition}
    (hpath : root.IsPath (above ++ [d])) :
    Resolves root request above (d.trigger registry above : PassM σ Unit) := by
  induction d using Definition.induction generalizing above with
  | node d ih =>
    intro p r q hrun hbag hvisits
    have hkeeps : p.bag.KeepsToItself := hbag.keepsToItself hrequest fun n hn =>
      hroot n (hpath.subset_nodes (List.mem_append_left _ hn))
    have hchildren : ∀ c ∈ d.features.map fun c =>
        (⟨c, c.trigger registry (above ++ [d])⟩ : Child σ),
          Resolves root request (above ++ [d]) c.trigger := by
      intro child hchild
      obtain ⟨c, hc, rfl⟩ := List.mem_map.mp hchild
      exact ih c hc (hpath.append hc)
    rw [Definition.trigger_eq] at hrun
    rcases hcreate : registry.create d.tag with error | e
    · rw [Definition.enter_run_unknown hcreate] at hrun
      cases hrun
      exact ⟨rfl, hvisits⟩
    · rcases hwork : e.run d (d.features.map fun c => ⟨c, c.trigger registry (above ++ [d])⟩)
        (d.entered above p) with ⟨r', q'⟩
      rw [Definition.enter_run_of_keepsToItself hcreate hkeeps hwork] at hrun
      cases hrun
      have hentered : Resolved request (above ++ [d]) (d.entered above p).bag := hbag.overlay d
      have hdone : ∀ v ∈ q'.visits, v.IsResolved root request :=
        Effect.run_resolves hchildren hwork hentered
          (List.forall_mem_cons.mpr ⟨⟨hpath, hentered⟩, hvisits⟩)
      exact ⟨rfl, hdone⟩

/-- Every feature that a pass triggers is reached along a path of the tree, and finds its
parameters resolved along it, unless some bag asks to collate: a key has the value of the request,
or else that of the first definition on the path that has one, or none. So it is for every
repetition and every step, whatever ran before and however the pass ends. -/
theorem trigger_resolved {registry : Registry} {source : σ} {s : RoundState}
    {r : Except FeatureError Unit} {p : Pass σ} (hrequest : request.KeepsToItself)
    (hd : ∀ n ∈ d.nodes, n.params.KeepsToItself)
    (hrun : trigger registry d source s request = (r, p)) :
    ∀ v ∈ p.visits, d.IsPath v.path ∧
      ∀ key ∉ Key.found, v.bag.get? key = resolve request v.path key :=
  (Definition.trigger_resolves hrequest hd (.self d) _ _ _ hrun (.start request)
    fun _ hv => nomatch hv).2

/-- Two steps, each of which sets parameters and pays a prize twice. The prize is given at each
level of the tree, and the features beside the prize give it too. -/
def prizesAtAllLevels : Definition where
  id := 1
  tag := "Activator"
  params := Members.ofList [("Prize", .ofNat 1), ("Steps", .ofNat 2)]
  features := [
    ⟨2, "Play", Members.ofList [("Prize", .ofNat 2), ("Count", .ofNat 2)], [
      ⟨3, "RepeatActivator", Bag.empty.insert "Prize" (.ofNat 3), [
        ⟨4, "SetParams", Members.ofList [("Values", .obj (Members.ofList [("Prize", .ofNat 4)]))],
          []⟩,
        ⟨5, "InstantPrize", Bag.empty.insert "Prize" (.ofNat 5), []⟩]⟩]⟩]

/-- The prize is paid four times, each time the one of the outermost definition. -/
theorem trigger_resolved_prizes : ∃ p : Pass Script,
    trigger .builtin prizesAtAllLevels (Script.ofDraws []) (.fresh 1 1) .empty = (.ok (), p) ∧
      (p.visits.filter (·.node.tag == "InstantPrize")).length = 4 ∧
      ∀ v ∈ p.visits, v.bag.get? "Prize" = some (.ofNat 1) := by
  have hnone : ∀ n ∈ prizesAtAllLevels.nodes, (n.params.get? Key.collate).isNone = true := by
    decide +kernel
  have hpaid : (trigger .builtin prizesAtAllLevels (Script.ofDraws []) (.fresh 1 1) .empty).1 =
      .ok () ∧ ((trigger .builtin prizesAtAllLevels (Script.ofDraws []) (.fresh 1 1)
        .empty).2.visits.filter (·.node.tag == "InstantPrize")).length = 4 := by decide +kernel
  rcases hrun : trigger .builtin prizesAtAllLevels (Script.ofDraws []) (.fresh 1 1) .empty
    with ⟨r, p⟩
  rw [hrun] at hpaid
  obtain ⟨rfl, hcount⟩ := hpaid
  refine ⟨p, rfl, hcount, fun v hv => ?_⟩
  obtain ⟨⟨hroot, -⟩, hresolved⟩ := trigger_resolved (.inl rfl)
    (fun n hn => .inl (Option.isNone_iff_eq_none.mp (hnone n hn))) hrun v hv
  obtain ⟨rest, hpath⟩ := List.head?_eq_some_iff.mp hroot
  rw [hresolved "Prize" (by decide), hpath]
  rfl

end Trees

end SlotOutcome
