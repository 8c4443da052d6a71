import SlotOutcome.Proofs.Cascades
import SlotOutcome.Proofs.GridViews
import SlotOutcome.Proofs.SingleHops

/-!
# The shapes of the grids of a round

Grids are copied in many places: a step starts on the grid that the step before ended with, a link
of a chain keeps the grids of its step, and revealing it takes them over. Features write single
cells of the grid that they find. Only a spin lands a grid of another shape, and its settings say
which: one reel for each strip, and as many rows as are to be shown.

```text
  start 5 × 3 ──pass──► 5 × 3 ──nextRound──► 5 × 3 ──spins 3 strips, 4 rows──► 3 × 4
                          │
                          └── chain: 5 × 3, 5 × 3, …
```

So the shape of every grid goes back to a grid at the start or to the settings of a spin, through
any number of passes, rounds, steps, links and reveals, and the grid has one cell for each reel and
row of that shape.

## Main definitions

* `RoundState.HasGrid`: the grids of a state and of all states that it is linked to.
* `Visit.Spins`: the shape that a visit of a feature that spins the reels asks for.
* `RoundState.ShowsOnly`, `SpinsOnly`: all grids and all spins have shapes of a kind.
* `shapeLaw`: a pass leaves shapes that it found or that its spins ask for.
* `RoundState.Reached`: the states that are reached from some others.

## Main results

* `shapeLaw.trigger_keeps`: a pass of any tree follows the law.
* `RoundState.Reached.showsOnly`: so do all ways to reach a state.
* `RoundState.Reached.grid_wellFormed`: the shape, the cells and the views of every grid.
-/

namespace SlotOutcome

/-! ### The grids of a state -/

/-- The grids of a state: its own two, those of the links of its chain, and those of the states that
it is linked back to. -/
inductive RoundState.HasGrid : RoundState → Grid → Prop
  | source (s : RoundState) : HasGrid s s.outcome.sourceGrid
  | working (s : RoundState) : HasGrid s s.outcome.grid
  | chain {s link : RoundState} {g : Grid} (hlink : link ∈ s.chain) (hg : link.HasGrid g) :
      HasGrid s g
  | linked {s t : RoundState} {g : Grid} (hlinked : s.LinkedTo t) (hg : t.HasGrid g) : HasGrid s g

/-- All grids of a state have a shape of a kind, given by reels and rows. -/
def RoundState.ShowsOnly (Q : ℕ → ℕ → Prop) (s : RoundState) : Prop :=
  ∀ g, s.HasGrid g → Q g.reels g.rows

/-- The shape that a feature asks for that spins the reels: a reel for each strip, and the rows that
are to be shown. Without reels there are no rows. -/
def Visit.Spins (visit : Visit) (reels rows : ℕ) : Prop :=
  visit.node.tag = "ReelStops" ∧ ∃ lists shown forced, Spin.Asks visit.bag lists shown forced ∧
    0 < shown ∧ reels = lists.length ∧ rows = if lists = [] then 0 else shown

/-- All spins among some visits ask for a shape of a kind. -/
def SpinsOnly (Q : ℕ → ℕ → Prop) (visits : List Visit) : Prop :=
  ∀ visit ∈ visits, ∀ reels rows, visit.Spins reels rows → Q reels rows

theorem SpinsOnly.of_subset {Q : ℕ → ℕ → Prop} {v v' : List Visit} (h : SpinsOnly Q v')
    (hsubset : v ⊆ v') : SpinsOnly Q v := fun visit hvisit => h visit (hsubset hvisit)

namespace RoundState

variable {Q : ℕ → ℕ → Prop} {s t previous link : RoundState}

/-- The grids of a state, part by part. -/
theorem showsOnly_iff : s.ShowsOnly Q ↔
    (Q s.outcome.sourceGrid.reels s.outcome.sourceGrid.rows ∧
      Q s.outcome.grid.reels s.outcome.grid.rows) ∧
    (∀ link ∈ s.chain, link.ShowsOnly Q) ∧ ∀ t, s.LinkedTo t → t.ShowsOnly Q := by
  constructor
  · intro h
    exact ⟨⟨h _ (.source s), h _ (.working s)⟩, fun link hlink g hg => h g (.chain hlink hg),
      fun t ht g hg => h g (.linked ht hg)⟩
  · rintro ⟨⟨hsource, hworking⟩, hchain, hlinked⟩ g hg
    cases hg with
    | source => exact hsource
    | working => exact hworking
    | chain hlink hg => exact hchain _ hlink g hg
    | linked ht hg => exact hlinked _ ht g hg

namespace ShowsOnly

theorem working (h : s.ShowsOnly Q) : Q s.outcome.grid.reels s.outcome.grid.rows :=
  h _ (.working s)

theorem of_mem_chain (h : s.ShowsOnly Q) (hlink : link ∈ s.chain) : link.ShowsOnly Q :=
  fun g hg => h g (.chain hlink hg)

theorem of_linkedTo (h : s.ShowsOnly Q) (ht : s.LinkedTo t) : t.ShowsOnly Q :=
  fun g hg => h g (.linked ht hg)

/-- A state with the grids of another one, or grids of their shapes, and with links that have shapes
of the kind. -/
theorem of_outcome (h : t.ShowsOnly Q)
    (hsource : s.outcome.sourceGrid.reels = t.outcome.sourceGrid.reels ∧
      s.outcome.sourceGrid.rows = t.outcome.sourceGrid.rows)
    (hworking : s.outcome.grid.reels = t.outcome.grid.reels ∧
      s.outcome.grid.rows = t.outcome.grid.rows)
    (hchain : ∀ link ∈ s.chain, link.ShowsOnly Q)
    (hlinked : ∀ t, s.LinkedTo t → t.ShowsOnly Q) : s.ShowsOnly Q := by
  obtain ⟨⟨hsource', hworking'⟩, -⟩ := showsOnly_iff.mp h
  refine showsOnly_iff.mpr ⟨⟨?_, ?_⟩, hchain, hlinked⟩
  · rwa [hsource.1, hsource.2]
  · rwa [hworking.1, hworking.2]

/-- A state with the outcome and the links backwards of another one, and another chain. -/
theorem withChain (h : t.ShowsOnly Q) (houtcome : s.outcome = t.outcome)
    (hlinked : ∀ u, s.LinkedTo u → t.LinkedTo u) (hchain : ∀ link ∈ s.chain, link.ShowsOnly Q) :
    s.ShowsOnly Q := by
  refine h.of_outcome ?_ ?_ hchain fun u hu => h.of_linkedTo (hlinked u hu) <;> rw [houtcome] <;>
    exact ⟨rfl, rfl⟩

protected theorem snapshot (h : s.ShowsOnly Q) : s.snapshot.ShowsOnly Q :=
  h.withChain rfl (fun u hu => absurd hu (s.isBare_snapshot.not_linkedTo u)) fun _ =>
    h.of_mem_chain

protected theorem asLink (h : s.ShowsOnly Q) : s.asLink.ShowsOnly Q :=
  h.withChain rfl (fun u hu => absurd hu (s.isBare_asLink.not_linkedTo u)) nofun

protected theorem setChain (h : s.ShowsOnly Q) {links : List RoundState}
    (hlinks : ∀ link ∈ links, link.ShowsOnly Q) : (s.setChain links).ShowsOnly Q := by
  refine h.withChain rfl (fun _ hu => hu) fun link hlink => ?_
  obtain ⟨step, hstep, rfl⟩ := List.mem_map.mp hlink
  exact (hlinks step hstep).asLink

protected theorem clearChain (h : s.ShowsOnly Q) : s.clearChain.ShowsOnly Q :=
  h.withChain rfl (fun _ hu => hu) nofun

protected theorem takeNext (h : s.ShowsOnly Q) : s.takeNext.1.ShowsOnly Q := by
  unfold takeNext
  split
  · exact h
  · exact h.clearChain

protected theorem taken (h : s.ShowsOnly Q) (hlink : s.takeNext.2 = some link) :
    link.ShowsOnly Q := by
  unfold takeNext at hlink
  split at hlink
  · cases hlink
  next first rest hchain =>
  cases hlink
  have hfirst : first.ShowsOnly Q := h.of_mem_chain (hchain ▸ List.mem_cons_self)
  refine hfirst.withChain rfl (fun _ hu => hu) fun link hlink => h.of_mem_chain ?_
  exact hchain ▸ List.mem_cons_of_mem _ hlink

protected theorem linkStateful (h : s.ShowsOnly Q) (hprevious : previous.ShowsOnly Q) :
    (s.linkStateful previous).ShowsOnly Q := by
  refine h.of_outcome ⟨rfl, rfl⟩ ⟨rfl, rfl⟩ (fun _ => h.of_mem_chain) ?_
  rintro t (⟨⟨⟩⟩ | hstateless)
  · exact hprevious.snapshot
  · exact h.of_linkedTo (.inr hstateless)

protected theorem linkStateless (h : s.ShowsOnly Q) (hprevious : previous.ShowsOnly Q) :
    (s.linkStateless previous).ShowsOnly Q := by
  refine h.of_outcome ⟨rfl, rfl⟩ ⟨rfl, rfl⟩ (fun _ => h.of_mem_chain) ?_
  rintro t (hstateful | ⟨⟨⟩⟩)
  · exact h.of_linkedTo (.inl hstateful)
  · exact hprevious.snapshot

/-- The grids of the next round have the shape of the working grid. -/
protected theorem nextRound (h : s.ShowsOnly Q) : s.nextRound.ShowsOnly Q := by
  refine showsOnly_iff.mpr ⟨⟨h.working, h.working⟩, nofun, ?_⟩
  rintro t (⟨⟨⟩⟩ | hstateless)
  · exact h.snapshot
  · cases hstateless

/-- The next step starts from the working grid. -/
protected theorem nextStep (h : s.ShowsOnly Q) : s.nextStep.ShowsOnly Q := by
  refine showsOnly_iff.mpr ⟨⟨h.working, h.working⟩, nofun, ?_⟩
  rintro t (hstateful | ⟨⟨⟩⟩)
  · exact h.of_linkedTo (.inl hstateful)
  · exact h.snapshot

/-- A state that takes over the outcome of a step has its grids. -/
protected theorem adopt (h : s.ShowsOnly Q) (hstep : link.ShowsOnly Q) :
    (s.adopt link).ShowsOnly Q :=
  hstep.of_outcome ⟨rfl, rfl⟩ ⟨rfl, rfl⟩ (fun _ => h.of_mem_chain) fun _ => h.of_linkedTo

end ShowsOnly

end RoundState

/-! ### What features do to the shapes -/

/-- Only a spin changes the shape of a grid. All other features write single cells. -/
theorem Effect.Makes.shape_eq {e : Effect} {s : RoundState} {c : Change} (h : e.Makes s c)
    (he : e ≠ .reelStops) : c.outcome.sourceGrid = s.outcome.sourceGrid ∧
      c.outcome.grid.reels = s.outcome.grid.reels ∧ c.outcome.grid.rows = s.outcome.grid.rows := by
  cases h with
  | stops _ => exact absurd rfl he
  | tile _ _ _ _ _ | expansion _ | expandedReels _ | replaced _ | dropped _ | unveiled _
  | pattern _ | sticky _ => exact ⟨rfl, Grid.reels_writeAll .., Grid.rows_writeAll ..⟩
  | cascade _ _ _ _ _ =>
    exact ⟨rfl, Cascade.reels_foldl_write .., Cascade.rows_foldl_write ..⟩
  | _ => exact ⟨rfl, rfl, rfl⟩

namespace RoundState.ShowsOnly

variable {Q : ℕ → ℕ → Prop} {s : RoundState}

/-- A change that keeps the shapes. -/
theorem perform (h : s.ShowsOnly Q) (d : Definition) {e : Effect} (he : e ≠ .reelStops)
    {change : Option Change} (hmakes : e.MakesOnly s change) :
    (s.perform d change).ShowsOnly Q := by
  rcases change with _ | c
  · exact h
  · obtain ⟨hsource, hworking⟩ := (hmakes c rfl).shape_eq he
    refine h.of_outcome ?_ hworking (fun _ => h.of_mem_chain) fun _ => h.of_linkedTo
    change c.outcome.sourceGrid.reels = _ ∧ c.outcome.sourceGrid.rows = _
    rw [hsource]
    exact ⟨rfl, rfl⟩

/-- Taking over the first step to be revealed: it was a link of the round before. -/
theorem reveal (h : s.ShowsOnly Q) {link : RoundState} {rest : List RoundState} {tries : UInt32}
    (hpending : Reveal.pending s = some (link, rest, tries)) :
    { s.adopt link with chain := rest, replay := ⟨.replay, false, tries + 1⟩ }.ShowsOnly Q := by
  obtain ⟨t, ht, hchain⟩ := exists_linkedTo_of_pending hpending
  have hround : ∀ step ∈ link :: rest, step.ShowsOnly Q := fun step hstep =>
    (h.of_linkedTo ht).of_mem_chain (hchain ▸ hstep)
  obtain ⟨hlink, hrest⟩ := List.forall_mem_cons.mp hround
  exact (h.adopt hlink).withChain rfl (fun _ hu => hu) hrest

end RoundState.ShowsOnly

section Spins

variable {σ : Type} [RandomSource σ]

namespace Spin

variable {s : RoundState} {bag : Bag} {x y : σ} {change : Option Change}

/-- A spin that succeeds could read its settings. -/
theorem exists_asks (h : (reels s bag : PlanM σ (Option Change)) x = (.ok change, y)) :
    ∃ lists rows forced, Asks bag lists rows forced := by
  obtain ⟨lists, _, hlists, h⟩ := bind_run_eq_ok.mp h
  obtain ⟨strips, _, -, h⟩ := bind_run_eq_ok.mp h
  obtain ⟨rows, _, hrows, h⟩ := bind_run_eq_ok.mp h
  split at h
  · cases h
  obtain ⟨forced, _, hforced, -⟩ := bind_run_eq_ok.mp h
  exact ⟨lists, rows, forced, (Paint.liftM_param_run_eq_ok.mp hlists).1,
    (Paint.liftM_param_run_eq_ok.mp hrows).1, (Paint.liftM_param_run_eq_ok.mp hforced).1⟩

/-- There is one stop for each strip, forced or drawn. -/
theorem length_stopsFor {strips : List Strip} {forced : Option (List ℕ)} {stops : List ℕ}
    (h : (stopsFor strips forced : PlanM σ (List ℕ)) x = (.ok stops, y)) :
    stops.length = strips.length := by
  rw [← List.length_map (f := Strip.length)]
  rcases forced with _ | given
  · have hdrawn := Paint.liftM_draw_run_eq_ok.mp h
    rw [drawStops_eq] at hdrawn
    exact (drawEach_yields _ stops ⟨x, y, hdrawn⟩).length_eq
  · obtain ⟨⟨rfl, hon⟩, -⟩ := stopsFor_some_eq_ok.mp h
    exact hon.length_eq

/-- A spin lands one grid as both grids, in the shape that its settings ask for. -/
theorem reels_shape (h : (reels s bag : PlanM σ (Option Change)) x = (.ok change, y)) :
    ∃ c, change = some c ∧ c.outcome.sourceGrid = c.outcome.grid ∧
      ∀ visit : Visit, visit.node.tag = "ReelStops" → visit.bag = bag →
        visit.Spins c.outcome.grid.reels c.outcome.grid.rows := by
  obtain ⟨lists, rows, forced, hasks⟩ := exists_asks h
  obtain ⟨strips, stops, grid, hstrips, hpos, hstops, hgrid, rfl⟩ := (reels_eq_ok hasks).mp h
  obtain ⟨landed, hlanded, hreels, hrows, -⟩ := exists_grid (length_stopsFor hstops) rows
  obtain rfl : grid = landed := Except.ok.inj (hgrid.symm.trans hlanded)
  obtain rfl := Strip.allOfInts_eq_ok.mp hstrips
  refine ⟨_, rfl, rfl, ?_⟩
  rintro visit htag rfl
  refine ⟨htag, _, rows, forced, hasks, hpos, ?_, ?_⟩
  · rw [List.length_map]
    exact hreels
  · simp only [List.map_eq_nil_iff]
    exact hrows

end Spin

end Spins

/-! ### Passes -/

/-- A pass leaves shapes that it found, or that its spins ask for. -/
def shapeLaw : Kept where
  Rel v s v' s' := v ⊆ v' ∧ ∀ Q, SpinsOnly Q v' → s.ShowsOnly Q → s'.ShowsOnly Q
  refl _ _ := ⟨List.Subset.refl _, fun _ _ h => h⟩
  trans := by
    rintro v₁ s₁ v₂ s₂ v₃ s₃ ⟨hsubset, hshapes⟩ ⟨hsubset', hshapes'⟩
    refine ⟨List.Subset.trans hsubset hsubset', fun Q hspins h => ?_⟩
    exact hshapes' Q hspins (hshapes Q (hspins.of_subset hsubset') h)

namespace shapeLaw

open RoundState (ShowsOnly)

theorem rel_of_showsOnly {s s' : RoundState} (h : ∀ Q, s.ShowsOnly Q → s'.ShowsOnly Q)
    (v : List Visit) : shapeLaw.Rel v s v s' :=
  ⟨List.Subset.refl v, fun Q _ => h Q⟩

variable {σ : Type} [RandomSource σ]

/-- The atoms of features that neither spin nor compute steps keep the shapes. -/
theorem atoms {d : Definition} {e : Effect} (hspin : e ≠ .reelStops) (hplay : e ≠ .play) :
    shapeLaw.AtomsKeep σ d e := by
  intro α act act' hatom s bag x a s' bag' x' hrun v
  refine rel_of_showsOnly (fun Q h => ?_) v
  by_cases hsequel : e.isSequel
  · cases hatom with
    | leaf h _ =>
      rw [Effect.isSequel_of_leaf? h] at hsequel
      cases hsequel
    | begun | chained _ => exact absurd rfl hplay
    | reveals =>
      unfold Act.reveals at hrun
      rcases hpending : Reveal.pending s with _ | ⟨link, rest, tries⟩ <;> rw [hpending] at hrun <;>
        cases hrun
      · exact h
      · exact h.reveal hpending
    | decides =>
      obtain ⟨ceiling, y, -, hrun⟩ := bind_run_eq_ok.mp hrun
      split at hrun <;> cases hrun
      · exact h.withChain rfl (fun _ hu => hu) fun _ => h.of_mem_chain
      · exact h.withChain rfl (fun _ hu => hu) nofun
    | ended =>
      cases hrun
      exact h.withChain rfl (fun _ hu => hu) nofun
    | chance _ | pick _ _ | choice _ | counts | chooses | counting | seeking => cases hsequel
  · obtain ⟨change, hmakes, hchange⟩ := hatom.makes (eq_false_of_ne_true hsequel) s bag
      _ ⟨x, x', hrun⟩
    obtain rfl : s' = s.perform d change := hchange
    exact h.perform d hspin hmakes

/-- A feature that spins leaves the shape that the visit of its node asks for. -/
theorem spin_rel {above : List Definition} {d : Definition} (htag : d.tag = "ReelStops")
    {children : List (Child σ)} {p q : Pass σ} {r : Except FeatureError Unit}
    (h : Effect.reelStops.run d children (d.entered above p) = (r, q)) :
    shapeLaw.Rel p.visits p.state q.visits q.state := by
  have hentered : p.visits ⊆ (d.entered above p).visits := List.subset_cons_self _ _
  rw [Effect.run_leaf rfl] at h
  rcases r with e | ⟨⟩
  · obtain ⟨x, rfl⟩ := atomic_run_error h
    exact ⟨hentered, fun _ _ h => h⟩
  rw [← carryOut_eq_atomic, carryOut_run_ok] at h
  obtain ⟨change, x, hreels, rfl⟩ := h
  refine ⟨hentered, fun Q hspins h => ?_⟩
  obtain ⟨c, rfl, hsame, hshape⟩ := Spin.reels_shape hreels
  have hQ := hspins _ List.mem_cons_self _ _ (hshape ⟨above, d, _⟩ htag rfl)
  refine RoundState.showsOnly_iff.mpr ⟨⟨?_, hQ⟩, fun _ => h.of_mem_chain, fun _ => h.of_linkedTo⟩
  change Q c.outcome.sourceGrid.reels c.outcome.sourceGrid.rows
  rwa [hsame]

section Play

omit [RandomSource σ]

variable {children : List (Child σ)} (hchildren : ∀ c ∈ children, shapeLaw.Keeps c.trigger)

include hchildren

/-- A step that follows another one has shapes of that one, or of its own spins. -/
theorem step_shapes {bag : Bag} {previous step : RoundState} {p q : Pass σ}
    (h : onStep { previous.nextStep with replay := .start } bag (fireAll children) p =
      (.ok step, q)) {Q : ℕ → ℕ → Prop} (hspins : SpinsOnly Q q.visits)
    (hprevious : previous.ShowsOnly Q) : step.ShowsOnly Q := by
  rcases hrun : fireAll children { p with
      state := { previous.nextStep with replay := .start }
      bag := bag } with ⟨e | ⟨⟩, p'⟩ <;> rw [onStep, hrun] at h <;> cases h
  have hstart : ShowsOnly Q { previous.nextStep with replay := .start } :=
    hprevious.nextStep.withChain rfl (fun _ hu => hu) fun _ => hprevious.nextStep.of_mem_chain
  exact (shapeLaw.fireAll_keeps hchildren _ _ _ hrun).2 Q hspins hstart

/-- Computing the steps after a step only adds visits. -/
theorem followOn_visits {bag : Bag} {count : ℕ} {previous : RoundState} {p q : Pass σ}
    {r : Except FeatureError (List RoundState)}
    (h : Reveal.followOn children bag count previous p = (r, q)) : p.visits ⊆ q.visits :=
  (shapeLaw.followOn_keeps hchildren (fun hrel _ => ⟨hrel.1, fun _ _ h => h⟩) bag count previous
    p r q h).1

/-- The steps after a step have shapes of this step, or of their spins. -/
theorem followOn_shapes {bag : Bag} {count : ℕ} {previous : RoundState} {p q : Pass σ}
    {links : List RoundState} (h : Reveal.followOn children bag count previous p = (.ok links, q))
    {Q : ℕ → ℕ → Prop} (hspins : SpinsOnly Q q.visits) (hprevious : previous.ShowsOnly Q) :
    ∀ link ∈ links, link.ShowsOnly Q := by
  induction count generalizing previous p links with
  | zero =>
    cases h
    exact nofun
  | succ count ih =>
    obtain ⟨step, p', hstep, h⟩ := bind_run_eq_ok.mp h
    split at h
    · cases h
      exact List.forall_mem_singleton.mpr (step_shapes hchildren hstep hspins hprevious)
    · obtain ⟨rest, q', hrest, h⟩ := bind_run_eq_ok.mp h
      cases h
      -- The spins of the first step are among those of all steps.
      have hvisits : p'.visits ⊆ q.visits := followOn_visits hchildren hrest
      have hfirst := step_shapes hchildren hstep (hspins.of_subset hvisits) hprevious
      exact List.forall_mem_cons.mpr ⟨hfirst, ih hrest hfirst⟩

/-- A feature that computes steps follows the law if its children do. -/
theorem play_keeps : shapeLaw.Keeps (Reveal.play children) := by
  have hfire : shapeLaw.Keeps (fireAll children) := shapeLaw.fireAll_keeps hchildren
  intro p r q hrun
  have hkept (Q : ℕ → ℕ → Prop) (h : p.state.ShowsOnly Q) : (Act.begun p.state).ShowsOnly Q :=
    h.withChain rfl (fun _ hu => hu) nofun
  have hbegun : shapeLaw.Rel p.visits p.state p.visits (Act.begun p.state) :=
    rel_of_showsOnly hkept _
  cases Reveal.play_run hrun with
  | idle => exact shapeLaw.refl _ _
  | first _ _ hfirst => exact shapeLaw.trans hbegun (hfire _ _ _ hfirst)
  | @failed count e p₁ _ _ _ hfirst hlinks =>
    rw [Reveal.followOn_state hlinks]
    refine shapeLaw.trans (shapeLaw.trans hbegun (hfire _ _ _ hfirst)) ?_
    exact ⟨followOn_visits hchildren hlinks, fun _ _ h => h⟩
  | @chained count links p₁ p₂ _ _ hfirst _ hlinks =>
    have hvisits : p₁.visits ⊆ p₂.visits := followOn_visits hchildren hlinks
    refine shapeLaw.trans (shapeLaw.trans hbegun (hfire _ _ _ hfirst)) ⟨hvisits, ?_⟩
    exact fun Q hspins h => h.setChain (followOn_shapes hchildren hlinks hspins h)

end Play

/-- A pass of any tree leaves shapes that it found, or that its spins ask for. -/
theorem trigger_keeps (d : Definition) (above : List Definition) :
    shapeLaw.Keeps (d.trigger .builtin above : PassM σ Unit) := by
  induction d using Definition.induction generalizing above with
  | node d ih =>
    have hchildren : ∀ child ∈ d.features.map fun c =>
        (⟨c, c.trigger .builtin (above ++ [d])⟩ : Child σ), shapeLaw.Keeps child.trigger := by
      intro child hchild
      obtain ⟨c, hc, rfl⟩ := List.mem_map.mp hchild
      exact ih c hc _
    rw [Definition.trigger_eq]
    refine Kept.enter_keeps_of_entered _ fun e hcreate p r q hrun => ?_
    by_cases hspin : e = .reelStops
    · subst hspin
      exact spin_rel (Registry.tag_of_create_builtin hcreate).symm hrun
    · have hentered : shapeLaw.Rel p.visits p.state (d.entered above p).visits
          (d.entered above p).state := ⟨List.subset_cons_self _ _, fun _ _ h => h⟩
      refine shapeLaw.trans hentered ?_
      by_cases hplay : e = .play
      · subst hplay
        exact play_keeps hchildren _ _ _ hrun
      · exact shapeLaw.run_keeps hchildren (atoms hspin hplay) (fun h => absurd h hplay) _ _ _ hrun

end shapeLaw

/-! ### Runs -/

namespace RoundState

/-- The states that are reached from some others, with the visits of all passes on the way: by
passes of any trees, with any sources and bags, whether they succeed or not, by going on to the next
round or step, by links, by setting, taking and dropping chains, and by taking over the outcome of a
step. -/
inductive Reached (starts : List RoundState) : List Visit → RoundState → Prop
  | start {s : RoundState} (h : s ∈ starts) : Reached starts [] s
  /-- What stands in a state beside outcome and links may be set at will. -/
  | configured {v : List Visit} {s : RoundState} (h : Reached starts v s) (stake : Float)
      (replay : ReplayInfo) (paytable : Option String) (evaluator : Option Evaluator) :
      Reached starts v { s with
        stake := stake, replay := replay, paytable := paytable, evaluator := evaluator }
  | pass {σ : Type} [RandomSource σ] {v : List Visit} {s : RoundState} (h : Reached starts v s)
      (d : Definition) (source : σ) (bag : Bag) :
      Reached starts ((SlotOutcome.trigger .builtin d source s bag).2.visits ++ v)
        (SlotOutcome.trigger .builtin d source s bag).2.state
  | nextRound {v : List Visit} {s : RoundState} (h : Reached starts v s) :
      Reached starts v s.nextRound
  | nextStep {v : List Visit} {s : RoundState} (h : Reached starts v s) :
      Reached starts v s.nextStep
  | snapshot {v : List Visit} {s : RoundState} (h : Reached starts v s) :
      Reached starts v s.snapshot
  | linkStateful {v w : List Visit} {s previous : RoundState} (h : Reached starts v s)
      (hprevious : Reached starts w previous) : Reached starts (v ++ w) (s.linkStateful previous)
  | linkStateless {v w : List Visit} {s previous : RoundState} (h : Reached starts v s)
      (hprevious : Reached starts w previous) : Reached starts (v ++ w) (s.linkStateless previous)
  | setChain {v : List Visit} {s : RoundState} (h : Reached starts v s) {links : List RoundState}
      {w : RoundState → List Visit} (hlinks : ∀ link ∈ links, Reached starts (w link) link) :
      Reached starts (links.flatMap w ++ v) (s.setChain links)
  | takeNext {v : List Visit} {s : RoundState} (h : Reached starts v s) :
      Reached starts v s.takeNext.1
  | taken {v : List Visit} {s link : RoundState} (h : Reached starts v s)
      (hlink : s.takeNext.2 = some link) : Reached starts v link
  | clearChain {v : List Visit} {s : RoundState} (h : Reached starts v s) :
      Reached starts v s.clearChain
  | adopt {v w : List Visit} {s step : RoundState} (h : Reached starts v s)
      (hstep : Reached starts w step) : Reached starts (v ++ w) (s.adopt step)

variable {starts : List RoundState} {v : List Visit} {s : RoundState}

/-- All ways to reach a state leave shapes that the states at the start have, or that spins on the
way ask for. -/
theorem Reached.showsOnly (h : Reached starts v s) {Q : ℕ → ℕ → Prop} (hspins : SpinsOnly Q v)
    (hstarts : ∀ start ∈ starts, start.ShowsOnly Q) : s.ShowsOnly Q := by
  induction h with
  | start h => exact hstarts _ h
  | configured _ _ _ _ _ ih =>
    exact (ih hspins).withChain rfl (fun _ hu => hu) fun _ => (ih hspins).of_mem_chain
  | pass _ d source bag ih =>
    obtain ⟨hpass, hbefore⟩ := List.forall_mem_append.mp hspins
    exact (shapeLaw.trigger_keeps d [] _ _ _ rfl).2 Q hpass (ih hbefore)
  | nextRound _ ih => exact (ih hspins).nextRound
  | nextStep _ ih => exact (ih hspins).nextStep
  | snapshot _ ih => exact (ih hspins).snapshot
  | linkStateful _ _ ih ihprevious =>
    obtain ⟨hhere, hthere⟩ := List.forall_mem_append.mp hspins
    exact (ih hhere).linkStateful (ihprevious hthere)
  | linkStateless _ _ ih ihprevious =>
    obtain ⟨hhere, hthere⟩ := List.forall_mem_append.mp hspins
    exact (ih hhere).linkStateless (ihprevious hthere)
  | setChain _ hlinks ih ihlinks =>
    obtain ⟨hthere, hhere⟩ := List.forall_mem_append.mp hspins
    refine (ih hhere).setChain fun link hlink => ihlinks link hlink fun visit hvisit => ?_
    exact hthere visit (List.mem_flatMap.mpr ⟨link, hlink, hvisit⟩)
  | takeNext _ ih => exact (ih hspins).takeNext
  | taken _ hlink ih => exact (ih hspins).taken hlink
  | clearChain _ ih => exact (ih hspins).clearChain
  | adopt _ _ ih ihstep =>
    obtain ⟨hhere, hthere⟩ := List.forall_mem_append.mp hspins
    exact (ih hhere).adopt (ihstep hthere)

/-- The grid representation is kept. Let a state be reached from some others by passes of any trees,
rounds, steps, links and reveals. Each of its grids, be it the source grid, the working grid, or one
of a link of its chain or of a state that it is linked back to, has the shape of a grid at the start
or the shape that a spin on the way asks for. It has one cell for each reel and row of that shape,
and all its views agree. -/
theorem Reached.grid_wellFormed (h : Reached starts v s) {g : Grid} (hg : s.HasGrid g) :
    ∃ reels rows,
      ((∃ start ∈ starts, ∃ g₀, start.HasGrid g₀ ∧ g₀.reels = reels ∧ g₀.rows = rows) ∨
        ∃ visit ∈ v, visit.Spins reels rows) ∧
      g.reels = reels ∧ g.rows = rows ∧ g.cells.length = reels * rows ∧ g.ViewsAgree := by
  refine ⟨g.reels, g.rows, ?_, rfl, rfl, g.length_cells, g.viewsAgree⟩
  refine h.showsOnly (Q := fun reels rows =>
    (∃ start ∈ starts, ∃ g₀, start.HasGrid g₀ ∧ g₀.reels = reels ∧ g₀.rows = rows) ∨
      ∃ visit ∈ v, visit.Spins reels rows) ?_ ?_ g hg
  · exact fun visit hvisit reels rows hspins => .inr ⟨visit, hvisit, hspins⟩
  · exact fun start hstart g₀ hg₀ => .inl ⟨start, hstart, g₀, hg₀, rfl, rfl⟩

/-- Three spins ahead on a round that was linked to one without rows: a link of the chain has a grid
of one row for two strips, and the grid without rows is still there. Both are made of their
columns. -/
theorem Reached.grid_wellFormed_threeSpins :
    let p := (SlotOutcome.trigger .builtin SequenceGame.threeSpins.tree
      (Script.ofDraws [2, 1, 0, 1, 1, 0]) (fresh 3 0).nextRound .empty).2
    Reached [fresh 3 0] (p.visits ++ []) p.state ∧
      ∃ link ∈ p.state.chain, ∃ round, p.state.LinkedTo round ∧
        p.state.HasGrid link.outcome.grid ∧ p.state.HasGrid round.outcome.grid ∧
        link.outcome.grid.cells = [1, 5] ∧ link.outcome.grid.cell 1 = .ok (1, 0) ∧
        Grid.ofReels link.outcome.grid.toReels = .ok link.outcome.grid ∧
        round.outcome.grid = .blank 3 0 ∧
        Grid.ofReels round.outcome.grid.toReels = .ok round.outcome.grid := by
  intro p
  have hreached : Reached [fresh 3 0] (p.visits ++ []) p.state :=
    .pass (.nextRound (.start List.mem_cons_self)) _ _ _
  obtain ⟨link, hlink, hcells, hcell, hreel⟩ : ∃ link ∈ p.state.chain,
      link.outcome.grid.cells = [1, 5] ∧ link.outcome.grid.cell 1 = .ok (1, 0) ∧
        0 < link.outcome.grid.reels := by decide +kernel
  have hround : p.state.stateful.map (fun t => t.outcome.grid) = some (.blank 3 0) := by
    decide +kernel
  obtain ⟨round, hlinked, hblank⟩ := Option.map_eq_some_iff.mp hround
  have hlinkGrid : p.state.HasGrid link.outcome.grid := .chain hlink (.working link)
  have hroundGrid : p.state.HasGrid round.outcome.grid := .linked (.inl hlinked) (.working round)
  obtain ⟨-, -, -, -, -, -, hspun⟩ := hreached.grid_wellFormed hlinkGrid
  obtain ⟨-, -, -, -, -, -, hunspun⟩ := hreached.grid_wellFormed hroundGrid
  refine ⟨hreached, link, hlink, round, .inl hlinked, hlinkGrid, hroundGrid, hcells, hcell,
    hspun.ofReels_toReels hreel, hblank, hunspun.ofReels_toReels ?_⟩
  rw [hblank]
  exact Nat.zero_lt_succ 2

end RoundState

end SlotOutcome
