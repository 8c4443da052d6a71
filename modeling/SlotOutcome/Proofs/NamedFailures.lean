import SlotOutcome.Proofs.Executions

/-!
# Errors name the innermost feature that failed

When a pass fails, the failure can be followed down its executions: each of them failed because the
last one that it called for did, with the same error, until one is reached that called for none that
failed. The node of this one raised the error, and the error carries its tag and id and no other
mark.

```text
  A fails with e ──► C, the last that A called for, fails with e ──► E fails with e
                                                                     └─► D, F succeeded
```

## Main definitions

* `Execution.BlamedOn`: one execution failed because of another one.
* `Definition.Raises`: the errors that a node raises itself, as they leave it.

## Main results

* `Definition.watch_blames`: every failure is blamed on a node that raised it.
* `Definition.trigger_names_culprit`: the error names this node.
-/

namespace SlotOutcome

/-- An execution failed with an error because of another one. Either it is that one, and called for
none that failed; or it called for executions that succeeded and then for one that failed with the
same error because of that one. -/
inductive Execution.BlamedOn (e : FeatureError) : Execution → Execution → Prop
  | itself {x : Execution} (herror : x.error = some e) (hcalls : ∀ c ∈ x.calls, c.error = none) :
      BlamedOn e x x
  | call {x c y : Execution} {earlier : List Execution} (herror : x.error = some e)
      (hcalls : x.calls = earlier ++ [c]) (hearlier : ∀ b ∈ earlier, b.error = none)
      (hnode : c.node ∈ x.node.features) (h : BlamedOn e c y) : BlamedOn e x y

theorem Execution.BlamedOn.error_eq {e : FeatureError} {x y : Execution} (h : x.BlamedOn e y) :
    x.error = some e := by
  cases h <;> assumption

/-- The blame stays in the tree. -/
theorem Execution.BlamedOn.mem_nodes {e : FeatureError} {x y : Execution} (h : x.BlamedOn e y) :
    y.node ∈ x.node.nodes := by
  induction h with
  | itself => exact Definition.mem_nodes_self _
  | call _ _ _ hnode _ ih => exact Definition.mem_nodes_of_mem_features hnode ih

/-- The errors that a node raises itself, as they leave it: it was refused because of its tag, or
its feature raised a cause. -/
def Definition.Raises (registry : Registry) (d : Definition) (e : FeatureError) : Prop :=
  ∃ cause, e = .inFeature d.tag d.id cause ∧
    (cause.IsCause ∨ ∃ error, registry.create d.tag = .error error ∧ cause = .config error)

/-- How the executions that a part of a pass called for account for its error: all of them succeeded
and the error is a cause; or the last one failed with the error, because of one whose node raised
it. -/
inductive Blame (registry : Registry) : Option FeatureError → List Execution → Prop
  | succeeded {calls : List Execution} (hcalls : ∀ c ∈ calls, c.error = none) :
      Blame registry none calls
  | own {e : FeatureError} {calls : List Execution} (he : e.IsCause)
      (hcalls : ∀ c ∈ calls, c.error = none) : Blame registry (some e) calls
  | call {e : FeatureError} {earlier : List Execution} {c y : Execution}
      (hearlier : ∀ b ∈ earlier, b.error = none) (h : c.BlamedOn e y)
      (hraises : y.node.Raises registry e) : Blame registry (some e) (earlier ++ [c])

/-- Executions that succeeded before do not change the blame. -/
theorem Blame.after {registry : Registry} {error : Option FeatureError}
    {calls calls' : List Execution} (hcalls : ∀ c ∈ calls, c.error = none)
    (h : Blame registry error calls') : Blame registry error (calls ++ calls') := by
  cases h with
  | succeeded hcalls' => exact .succeeded (List.forall_mem_append.mpr ⟨hcalls, hcalls'⟩)
  | own he hcalls' => exact .own he (List.forall_mem_append.mpr ⟨hcalls, hcalls'⟩)
  | call hearlier h hraises =>
    rw [← List.append_assoc]
    exact .call (List.forall_mem_append.mpr ⟨hcalls, hearlier⟩) h hraises

/-- The failure of a single execution is its own, or that of one below it. -/
theorem Blame.single {registry : Registry} {e : FeatureError} {x y : Execution}
    (h : x.BlamedOn e y) (hraises : y.node.Raises registry e) : Blame registry (some e) [x] :=
  @Blame.call registry e [] x y (fun _ hb => nomatch hb) h hraises

/-- An execution that failed is to be blamed for the failure if it is the only one. -/
theorem Blame.blamedOn_of_single {registry : Registry} {e : FeatureError} {x : Execution}
    (hx : x.error = some e) (h : Blame registry (some e) [x]) :
    ∃ y, x.BlamedOn e y ∧ y.node.Raises registry e := by
  generalize hcalls : [x] = calls at h
  cases h with
  | own _ hsucceeded =>
    subst hcalls
    rw [hsucceeded x List.mem_cons_self] at hx
    cases hx
  | @call _ earlier c y _ h hraises =>
    have hlast : [] ++ [x] = earlier ++ [c] := hcalls
    obtain rfl : x = c := List.head_eq_of_cons_eq (List.append_inj' hlast rfl).2
    exact ⟨y, h, hraises⟩

variable {σ : Type} {registry : Registry}

/-- The blame for a part of a pass that calls for executions of some nodes only. -/
def blaming (σ : Type) (registry : Registry) (nodes : List Definition) : Trail σ where
  Rel _ error _ calls := (∀ c ∈ calls, c.node ∈ nodes) ∧ Blame registry error calls
  done _ := ⟨(fun _ hc => nomatch hc), .succeeded fun _ hc => nomatch hc⟩
  failed _ _ he := ⟨(fun _ hc => nomatch hc), .own he fun _ hc => nomatch hc⟩
  trans := by
    rintro p₁ p₂ p₃ error calls calls' ⟨hnodes, hblame⟩ ⟨hnodes', hblame'⟩
    refine ⟨List.forall_mem_append.mpr ⟨hnodes, hnodes'⟩, ?_⟩
    cases hblame with
    | succeeded hcalls => exact hblame'.after hcalls

theorem blaming_mono {nodes nodes' : List Definition} (h : nodes ⊆ nodes') {α : Type}
    {m : PassM (Watched σ) α} (hm : (blaming σ registry nodes).Keeps m) :
    (blaming σ registry nodes').Keeps m := by
  intro p r q hrun
  obtain ⟨calls, hcalls, hnodes, hblame⟩ := hm p r q hrun
  exact ⟨calls, hcalls, fun c hc => h (hnodes c hc), hblame⟩

section Parts

variable {nodes : List Definition} {m : PassM (Watched σ) Unit}

theorem blaming_withBag (bag : Bag) (h : (blaming σ registry nodes).Keeps m) :
    (blaming σ registry nodes).Keeps (withBag bag m) := by
  intro p r q hrun
  cases hrun
  obtain ⟨calls, hcalls, hnodes, hblame⟩ := h { p with bag := bag } _ _ rfl
  refine ⟨calls, hcalls, hnodes, ?_⟩
  rcases hm : (m { p with bag := bag }).1 with e | a <;> rw [hm] at hblame <;> exact hblame

theorem blaming_onStep (state : RoundState) (bag : Bag) (h : (blaming σ registry nodes).Keeps m) :
    (blaming σ registry nodes).Keeps (onStep state bag m) := by
  intro p r q hrun
  cases hrun
  obtain ⟨calls, hcalls, hnodes, hblame⟩ := h { p with state := state, bag := bag } _ _ rfl
  refine ⟨calls, hcalls, hnodes, ?_⟩
  rcases hm : (m { p with state := state, bag := bag }).1 with e | a <;> rw [hm] at hblame <;>
    exact hblame

theorem blaming_atomic [RandomSource σ] {d : Definition} {e : Effect} {α : Type}
    {act : RoundState → Bag → PlanM σ (α × RoundState × Bag)}
    {act' : RoundState → Bag → PlanM (Watched σ) (α × RoundState × Bag)}
    (hatom : Atom d e act act') : (blaming σ registry nodes).Keeps (atomic act') := by
  intro p r q hrun
  have hcalls := hatom.calls_eq p.state p.bag p.source
  rw [atomic] at hrun
  rcases hact : act' p.state p.bag p.source with ⟨e | ⟨a, s, bag⟩, w⟩ <;>
    rw [hact] at hrun hcalls <;> cases hrun
  · have he : e.IsCause := (hatom.symm.raises _ _ e ⟨_, _, hact⟩).1
    exact ⟨[], hcalls.trans (List.append_nil _).symm, (blaming σ registry nodes).failed p he⟩
  · exact ⟨[], hcalls.trans (List.append_nil _).symm, (blaming σ registry nodes).done p⟩

end Parts

/-- The failure of a node is blamed on it, or on one that its feature called for. -/
theorem blaming_recorded {above : List Definition} {d : Definition}
    {work : Effect → PassM (Watched σ) Unit}
    (hwork : ∀ e, (blaming σ registry d.features).Keeps (work e)) :
    (blaming σ registry [d]).Keeps
      (d.recorded registry above (d.enter registry above work)) := by
  intro p r q hrun
  obtain ⟨q', x, hx, rfl⟩ := Definition.recorded_enter hrun
  have hnode : ∀ c ∈ [x], c.node ∈ [d] := by
    refine List.forall_mem_singleton.mpr (List.mem_singleton.mpr ?_)
    cases hx <;> rfl
  refine ⟨[x], rfl, hnode, ?_⟩
  cases hx with
  | @refused error hrefused =>
    refine .single (.itself rfl fun _ hc => nomatch hc) ⟨_, rfl, ?_⟩
    cases hrefused with
    | unknown hcreate => exact .inr ⟨error, hcreate, rfl⟩
    | unread => exact .inl trivial
  | @worked e r q' bag hcreate hfeature =>
    obtain ⟨calls, hcalls, hnodes, hblame⟩ := hwork e _ _ _ hfeature
    have hcalls : q'.source.calls = calls := hcalls
    rcases r with error | ⟨⟩
    · cases hblame with
      | own he hsucceeded =>
        refine .single (.itself rfl (hcalls ▸ hsucceeded)) ⟨error, ?_, .inl he⟩
        exact FeatureError.leaving_of_feature?_eq he.feature?_eq _ _
      | @call _ earlier c y hearlier h hraises =>
        -- The error has its mark already and keeps it.
        have hleaving : error.leaving d.tag d.id = error := by
          obtain ⟨cause, rfl, -⟩ := hraises
          rfl
        have hc : c.node ∈ d.features := hnodes c (List.mem_append_right _ List.mem_cons_self)
        rw [Except.mapError, hleaving]
        exact .single (.call rfl hcalls hearlier hc h) hraises
    · exact .succeeded (List.forall_mem_singleton.mpr rfl)

variable [RandomSource σ]

/-- Every failure of a tree is blamed on a node that raised it. -/
theorem Definition.watch_blames (d : Definition) (above : List Definition) :
    (blaming σ registry [d]).Keeps (d.watch registry above) := by
  induction d using Definition.induction generalizing above with
  | node d ih =>
    rw [watch_eq]
    refine blaming_recorded fun e => ?_
    have hbelow : ∀ child ∈ d.features.map fun c => ⟨c, c.watch registry (above ++ [d])⟩,
        (blaming σ registry d.features).Keeps (Child.trigger child) := by
      intro child hchild
      obtain ⟨c, hc, rfl⟩ := List.mem_map.mp hchild
      exact blaming_mono (List.cons_subset.mpr ⟨hc, List.nil_subset _⟩) (ih c hc _)
    obtain ⟨children, hchildren⟩ := Trail.children_keep _ hbelow
    exact (blaming σ registry d.features).lockstep.run hchildren (fun hatom => blaming_atomic hatom)
      (fun _ bag _ _ h => blaming_withBag bag h) fun _ _ bag _ _ h => blaming_onStep _ bag h

/-- A tree that fails has an execution that is to blame, and its node raised the error. -/
theorem Definition.trigger_blamed {d : Definition} {above : List Definition} {p q : Pass σ}
    {e : FeatureError} (h : d.trigger registry above p = (.error e, q)) :
    ∃ x culprit, d.watch registry above (p.watched []) = (.error e, q.watched [x]) ∧ x.node = d ∧
      x.BlamedOn e culprit ∧ culprit.node.Raises registry e := by
  obtain ⟨x, hwatch, hnode, -, herror, -⟩ := trigger_watched h []
  obtain ⟨calls, hcalls, -, hblame⟩ := d.watch_blames above _ _ _ hwatch
  obtain rfl : [x] = calls := hcalls
  obtain ⟨culprit, hblamed, hraises⟩ := hblame.blamedOn_of_single herror
  exact ⟨x, culprit, hwatch, hnode, hblamed, hraises⟩

/-- The error of a tree that fails carries one mark, around an error without any. The mark is that
of a node of the tree: of one that was triggered and failed while none of those that it called for
did. All the executions above it, up to the one of the tree itself, failed with this very error,
each because the last one that it called for did. -/
theorem Definition.trigger_names_culprit (registry : Registry) (d : Definition)
    (above : List Definition) (p q : Pass σ) (e : FeatureError)
    (h : d.trigger registry above p = (.error e, q)) :
    ∃ x culprit cause, d.watch registry above (p.watched []) = (.error e, q.watched [x]) ∧
      x.node = d ∧ x.BlamedOn e culprit ∧ culprit.node ∈ d.nodes ∧
      e = .inFeature culprit.node.tag culprit.node.id cause ∧ cause.feature? = none ∧
      e.root = cause ∧ e.kind = cause.kind := by
  obtain ⟨x, culprit, hwatch, rfl, hblamed, cause, rfl, hcause⟩ := trigger_blamed h
  have hmark : cause.feature? = none := by
    rcases hcause with hcause | ⟨error, -, rfl⟩
    · exact hcause.feature?_eq
    · rfl
  exact ⟨x, culprit, cause, hwatch, rfl, hblamed, hblamed.mem_nodes, rfl, hmark,
    FeatureError.root_of_feature?_eq hmark, rfl⟩

/-- Replaces a symbol and then calls, twice, a feature that does not say by what to replace it. -/
def halfReplacement : Definition where
  id := 1
  tag := "Activator"
  params := .empty
  features := [
    ⟨2, "ReplaceTile",
      (Bag.empty.insert "ReplaceFrom" (.ofInt 1)).insert "ReplaceTo" (.ofInt 2), []⟩,
    ⟨3, "RepeatActivator", Bag.empty.insert "Count" (.ofNat 2),
      [⟨4, "ReplaceTile", Bag.empty.insert "ReplaceFrom" (.ofInt 1), []⟩]⟩]

/-- The feature at the bottom is to blame, and the root fails with its error. -/
theorem trigger_names_culprit_halfReplacement : ∃ (p q : Pass Script) (e : FeatureError)
    (x culprit : Execution), halfReplacement.trigger .builtin [] p = (.error e, q) ∧
      halfReplacement.watch .builtin [] (p.watched []) = (.error e, q.watched [x]) ∧
      x.error = some e ∧ x.BlamedOn e culprit ∧ culprit.node.tag = "ReplaceTile" ∧
      culprit.node.id = 4 ∧ e.kind = .configuration := by
  have he : (halfReplacement.trigger .builtin []
      (Pass.start (Script.ofDraws []) (.fresh 1 1) .empty)).1 =
        .error (.inFeature "ReplaceTile" 4 (.config (.param (.missing "ReplaceTo")))) := by
    decide +kernel
  rcases hrun : halfReplacement.trigger .builtin []
    (Pass.start (Script.ofDraws []) (.fresh 1 1) .empty) with ⟨r, q⟩
  rw [hrun] at he
  obtain rfl : r = _ := he
  obtain ⟨x, culprit, cause, hwatch, -, hblamed, -, hmark, -⟩ :=
    Definition.trigger_names_culprit .builtin halfReplacement [] _ q _ hrun
  obtain ⟨htag, hid, -⟩ := FeatureError.inFeature.inj hmark
  exact ⟨_, q, _, x, culprit, hrun, hwatch, hblamed.error_eq, hblamed, htag.symm, hid.symm, rfl⟩

end SlotOutcome
