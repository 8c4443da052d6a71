import SlotOutcome.Proofs.PaintedCells
import SlotOutcome.Proofs.ReadKeys
import SlotOutcome.Proofs.RememberingTrees

/-!
# Symbols that are held in place

A feature that holds a symbol in place restores the cells that it remembers, and then remembers all
cells that show the symbol. If the steps of a round play it one after another, a cell that showed
the symbol at the end of one step shows it at the end of all later ones, whatever lands in between.

```text
  step          1          2          3
  landed      S . .      . S .      . . .
  restored               1          1 2
  at the end  S . .      S S .      S S .
  remembered  1          1 2        1 2
```

## Main definitions

* `Definition.Holds`: a feature that holds a symbol in place between the steps of a round.
* `HoldsStep`: what one step does.
* `StepRun`: runs of steps that play such a feature, with the states at their ends.
* `HoldsAll`: a state that remembers the cells of all steps before.

## Main results

* `sticky_eq`: what the feature does.
* `holding_run`: what a step does that finds a given memory.
* `HoldsAll.step`, `StepRun.holdsAll`: what one more step finds, and what it finds after every run.
* `symbols_held`: no later step loses a symbol.
-/

namespace SlotOutcome

/-! ### The feature -/

/-- What a feature has done that restored some cells and remembers all cells with the symbol. -/
def heldChange (o : Outcome) (symbol : Symbol) (applied : List Nat) : Option Change :=
  let positions := (o.covered applied symbol).grid.positionsOf symbol
  if applied.isEmpty ∧ positions.isEmpty then none
  else some ⟨o.covered applied symbol, Payload.sticky applied positions symbol⟩

/-- A feature that holds a symbol in place, where the memory that it finds can be read. -/
theorem sticky_eq {s : RoundState} {bag map : Bag} {symbol : Symbol} {channel : Channel}
    {key : String} {applied : List Nat} (hsymbol : bag.require .symbol "StickyId" = .ok symbol)
    (hchannel : Remember.channel bag "StickyMemory" .stateless = .ok channel)
    (hkey : bag.findD .text "StickyKey" "Sticky" = .ok key) (hmap : channel.read s bag = .ok map)
    (happlied : map.findD .positions key [] = .ok applied)
    (hbounds : s.outcome.grid.Bounds applied) :
    Remember.sticky s bag = .ok (heldChange s.outcome symbol applied, channel.stash bag
      (map.insert key (.ofNats ((s.outcome.covered applied symbol).grid.positionsOf symbol)))) := by
  have hset := Grid.setAll_of_bounds hbounds symbol
  refine bind_eq_ok.mpr ⟨symbol, congrArg liftM hsymbol, bind_eq_ok.mpr ⟨channel, hchannel, ?_⟩⟩
  refine bind_eq_ok.mpr ⟨key, congrArg liftM hkey, bind_eq_ok.mpr ⟨map, hmap, ?_⟩⟩
  refine bind_eq_ok.mpr ⟨applied, congrArg liftM happlied, ?_⟩
  refine bind_eq_ok.mpr ⟨_, congrArg liftM hset, ?_⟩
  by_cases hquiet : applied.isEmpty ∧
      ((s.outcome.covered applied symbol).grid.positionsOf symbol).isEmpty
  · rw [heldChange, if_pos hquiet]
    exact if_pos hquiet
  · rw [heldChange, if_neg hquiet]
    exact if_neg hquiet

/-- A feature that holds a symbol in place between the steps of a round, and the key under which it
remembers where. -/
structure Definition.Holds (c : Definition) (symbol : Symbol) (key : String) : Prop where
  tag : c.tag = "StickySymbols"
  symbol : c.params.require .symbol "StickyId" = .ok symbol
  channel : Remember.channel c.params "StickyMemory" .stateless = .ok .stateless
  key : c.params.findD .text "StickyKey" "Sticky" = .ok key
  pending : Channel.stateless.pending c.params = .ok none

/-- A feature that is just told which symbol to hold. -/
theorem Definition.holds_of_id (id : UInt32) (symbol : Symbol) (features : List Definition) :
    Definition.Holds ⟨id, "StickySymbols", Bag.empty.insert "StickyId" (.ofInt symbol.toInt),
      features⟩ symbol "Sticky" where
  tag := rfl
  symbol := Bag.require_of_present rfl (ParamType.symbol_read_ofInt symbol)
  channel := rfl
  key := rfl
  pending := rfl

/-! ### One step -/

/-- What one step does that finds some cells to restore in a memory: it writes the symbol there, and
notes both which cells it restored and all cells that show the symbol then. -/
structure HoldsStep (c m : Definition) (symbol : Symbol) (key : String) (map : Bag)
    (applied : List Nat) (s s' : RoundState) : Prop where
  grid_eq : s'.outcome.grid = s.outcome.grid.writeAll applied symbol
  ledger_eq : s'.outcome.ledger = s.outcome.ledger ++
    (if applied = [] ∧ s'.outcome.grid.positionsOf symbol = [] then [] else
      [⟨c.id, c.tag, Payload.sticky applied (s'.outcome.grid.positionsOf symbol) symbol⟩]) ++
    [⟨m.id, m.tag, .obj (map.insert key (.ofNats (s'.outcome.grid.positionsOf symbol)))⟩]
  frame : s' = s.withOutcome { s.outcome with
    grid := s'.outcome.grid
    ledger := s'.outcome.ledger }

section Steps

variable {σ : Type} [RandomSource σ] {c m : Definition} {symbol : Symbol} {key : String}

/-- A step succeeds if the positions that it finds in the memory are on its grid. -/
theorem holding_run (hc : c.Holds symbol key) (hm : m.tag = roundTag) {s : RoundState} {map : Bag}
    {applied : List Nat} (hmap : ∀ bag, Channel.stateless.pending bag = .ok none →
      statelessMap s bag = .ok map) (happlied : map.findD .positions key [] = .ok applied)
    (hbounds : s.outcome.grid.Bounds applied) (id : UInt32) (x : σ) :
    ∃ p, trigger .builtin (remembering id c m) x s .empty = (.ok (), p) ∧
      HoldsStep c m symbol key map applied s p.state := by
  have hagree : (c.params.overlay collating).Agree
      ["StickyId", "StickyMemory", "StickyKey", Key.statelessStash] c.params :=
    agree_overlay_collating c.params (by decide)
  have hsymbol := (hagree.require .symbol (by decide)).trans hc.symbol
  have hchannel : Remember.channel (c.params.overlay collating) "StickyMemory" .stateless =
      .ok .stateless := by
    rw [Remember.channel, hagree.find .text (by decide)]
    exact hc.channel
  have hkey := (hagree.findD .text (by decide) "Sticky").trans hc.key
  have hpending : Channel.stateless.pending (c.params.overlay collating) = .ok none :=
    (hagree.find .bag (by decide)).trans hc.pending
  have hplan := sticky_eq hsymbol hchannel hkey (hmap _ hpending) happlied hbounds
  obtain ⟨p, hrun, hstate⟩ := remembering_stateless .stickySymbols rfl hc.tag hm hplan
    (Members.isEmpty_insert map key _) id x
  refine ⟨p, hrun, ?_⟩
  rw [hstate]
  by_cases hquiet : applied.isEmpty ∧
      ((s.outcome.covered applied symbol).grid.positionsOf symbol).isEmpty
  · rw [heldChange, if_pos hquiet]
    obtain ⟨hnone, hpositions⟩ := hquiet
    obtain rfl : applied = [] := List.isEmpty_iff.mp hnone
    constructor
    case grid_eq => rfl
    case ledger_eq =>
      have hpositions : s.outcome.grid.positionsOf symbol = [] := List.isEmpty_iff.mp hpositions
      change s.outcome.ledger ++ _ = s.outcome.ledger ++ (ite _ _ _) ++ _
      rw [if_pos ⟨rfl, hpositions⟩, List.append_nil]
      rfl
    case frame => rfl
  · rw [heldChange, if_neg hquiet]
    constructor
    case grid_eq => rfl
    case ledger_eq =>
      refine congrArg (s.outcome.ledger ++ · ++ _) (if_neg ?_).symm
      rintro ⟨happlied, hpositions⟩
      exact hquiet ⟨List.isEmpty_iff.mpr happlied, List.isEmpty_iff.mpr hpositions⟩
    case frame => rfl

end Steps

/-! ### Runs of steps -/

/-- A state whose grid has been replaced by another one of the same shape. What else may have
happened to the state does not matter, as long as it is the same step. -/
structure Relanded (s t : RoundState) : Prop where
  stateless : t.stateless = s.stateless
  reels : t.outcome.grid.reels = s.outcome.grid.reels
  rows : t.outcome.grid.rows = s.outcome.grid.rows

/-- A run of steps that play a tree, each on the state that follows the step before, with another
grid: the states at the ends of the steps, and the state of the next one. -/
inductive StepRun (σ : Type) [RandomSource σ] (d : Definition) (s₀ : RoundState) :
    List RoundState → RoundState → Prop
  | start : StepRun σ d s₀ [] s₀
  | step {ends : List RoundState} {s t : RoundState} {x : σ} {r : Except FeatureError Unit}
      {p : Pass σ} (before : StepRun σ d s₀ ends s) (hlanded : Relanded s t)
      (hrun : trigger .builtin d x t .empty = (r, p)) :
      StepRun σ d s₀ (ends ++ [p.state]) p.state.nextStep

/-- The cells that showed a symbol when the last step ended. -/
def heldCells (symbol : Symbol) (ends : List RoundState) : List Nat :=
  ends.getLast?.elim [] fun e => e.outcome.grid.positionsOf symbol

/-- The memory of these cells under a key. Before the first step there is none. -/
def heldMemory (symbol : Symbol) (key : String) (ends : List RoundState) : Bag :=
  ends.getLast?.elim .empty fun e =>
    Bag.empty.insert key (.ofNats (e.outcome.grid.positionsOf symbol))

theorem mem_heldCells {symbol : Symbol} {ends : List RoundState} {place : Nat} :
    place ∈ heldCells symbol ends ↔
      ∃ e ∈ ends.getLast?, e.outcome.grid.cells[place]? = some symbol := by
  rw [heldCells]
  rcases ends.getLast? with _ | e
  · simp
  · simp [Grid.mem_positionsOf]

theorem pairwise_heldCells (symbol : Symbol) (ends : List RoundState) :
    (heldCells symbol ends).Pairwise (· < ·) := by
  rw [heldCells]
  rcases ends.getLast? with _ | e
  · exact .nil
  · exact e.outcome.grid.pairwise_positionsWhere (· == symbol)

/-- Only the latest cells are remembered. -/
theorem insert_heldMemory (symbol : Symbol) (key : String) (ends : List RoundState) (value : Json) :
    (heldMemory symbol key ends).insert key value = Bag.empty.insert key value := by
  refine Members.ext_get? _ _ fun name => ?_
  rw [Members.get?_insert, Members.get?_insert]
  by_cases hname : name = key
  · rw [if_pos hname, if_pos hname]
  · rw [if_neg hname, if_neg hname, heldMemory]
    rcases ends.getLast? with _ | e
    · rfl
    · exact (Members.get?_insert _ _ _ _).trans (if_neg hname)

/-- A state that remembers the cells of the last step, among them those of all earlier steps. -/
structure HoldsAll (symbol : Symbol) (key : String) (ends : List RoundState) (s : RoundState) :
    Prop where
  size : s.outcome.grid.len ≤ UInt64.size
  bounds : s.outcome.grid.Bounds (heldCells symbol ends)
  kept : ∀ e ∈ ends, ∀ place, e.outcome.grid.cells[place]? = some symbol →
    place ∈ heldCells symbol ends
  memory : ∀ bag, Channel.stateless.pending bag = .ok none →
    statelessMap s bag = .ok (heldMemory symbol key ends)

/-- The cells can be read in the memory. -/
theorem HoldsAll.findD_heldMemory {symbol : Symbol} {key : String} {ends : List RoundState}
    {s : RoundState} (h : HoldsAll symbol key ends s) :
    (heldMemory symbol key ends).findD .positions key [] = .ok (heldCells symbol ends) := by
  have hbounds := h.bounds
  rw [heldMemory, heldCells]
  rcases hlast : ends.getLast? with _ | e
  · rfl
  · rw [heldCells, hlast] at hbounds
    refine Bag.findD_of_present ?_ (ParamType.positions_read_ofNats fun place hplace => ?_) []
    · exact (Members.get?_insert _ _ _ _).trans (if_pos rfl)
    · exact Nat.lt_of_lt_of_le (hbounds place hplace) h.size

/-- A state that is linked to no memory of its round. -/
theorem holdsAll_nil {symbol : Symbol} {key : String} {s : RoundState}
    (hsize : s.outcome.grid.len ≤ UInt64.size)
    (hlink : ∀ previous ∈ s.stateless, previous.featuresOf roundTag = []) :
    HoldsAll symbol key [] s where
  size := hsize
  bounds _ h := nomatch h
  kept _ h := nomatch h
  memory bag hbag := by
    rw [statelessMap, hbag]
    rcases hprevious : s.stateless with _ | previous
    · rfl
    · exact recorded_of_noEntries (hlink previous hprevious)

section Runs

variable {σ : Type} [RandomSource σ] {c m : Definition} {symbol : Symbol} {key : String}
  {ends : List RoundState} {s t : RoundState}

/-- What one more step does: it restores all cells that any earlier step ended with, and leaves the
memory of them to the next step. -/
theorem HoldsAll.step (h : HoldsAll symbol key ends s) (hc : c.Holds symbol key)
    (hm : m.tag = roundTag) (hlanded : Relanded s t) (id : UInt32) (x : σ) :
    ∃ p, trigger .builtin (remembering id c m) x t .empty = (.ok (), p) ∧
      HoldsStep c m symbol key (heldMemory symbol key ends) (heldCells symbol ends) t p.state ∧
      HoldsAll symbol key (ends ++ [p.state]) p.state.nextStep := by
  have hlen : t.outcome.grid.len = s.outcome.grid.len := by
    rw [Grid.len_eq, Grid.len_eq, hlanded.reels, hlanded.rows]
  have hmap (bag : Bag) (hbag : Channel.stateless.pending bag = .ok none) :
      statelessMap t bag = .ok (heldMemory symbol key ends) := by
    rw [← h.memory bag hbag, statelessMap, statelessMap, hlanded.stateless]
  have hbounds : t.outcome.grid.Bounds (heldCells symbol ends) :=
    fun place hplace => hlen ▸ h.bounds place hplace
  obtain ⟨p, hrun, hstep⟩ := holding_run hc hm hmap h.findD_heldMemory hbounds id x
  have hcells : heldCells symbol (ends ++ [p.state]) = p.state.outcome.grid.positionsOf symbol := by
    rw [heldCells, List.getLast?_concat]
    rfl
  have hshape : p.state.outcome.grid.len = s.outcome.grid.len := by
    rw [hstep.grid_eq, ← hlen, Grid.len_eq, Grid.len_eq, Grid.reels_writeAll, Grid.rows_writeAll]
  have hnext : p.state.nextStep.outcome.grid = p.state.outcome.grid := rfl
  refine ⟨p, hrun, hstep, ?_⟩
  constructor
  case size => exact hshape ▸ h.size
  case bounds =>
    rw [hcells, hnext]
    exact p.state.outcome.grid.bounds_positionsOf symbol
  case kept =>
    intro e he place hplace
    rw [hcells, Grid.mem_positionsOf]
    rcases List.mem_append.mp he with he | he
    · -- The last step remembers the cell, so this one restores it, whatever has landed there.
      have hheld := h.kept e he place hplace
      have hcell := List.getElem?_eq_getElem (hbounds place hheld)
      rw [hstep.grid_eq, Grid.getElem?_writeAll, if_pos hheld, hcell]
      rfl
    · obtain rfl := List.mem_singleton.mp he
      exact hplace
  case memory =>
    intro bag hbag
    rw [statelessMap_nextStep _ hbag, RoundState.featuresOf, hstep.ledger_eq, List.filter_append,
      List.filter_singleton, beq_iff_eq.mpr hm]
    rw [cond_true, latestMemory, List.getLast?_concat, insert_heldMemory, heldMemory,
      List.getLast?_concat]
    rfl

/-- So it is after every run. -/
theorem StepRun.holdsAll {s₀ : RoundState} {id : UInt32} (hc : c.Holds symbol key)
    (hm : m.tag = roundTag) (h₀ : HoldsAll symbol key [] s₀)
    (h : StepRun σ (remembering id c m) s₀ ends s) : HoldsAll symbol key ends s := by
  induction h with
  | start => exact h₀
  | @step ends s t x r p before hlanded hrun ih =>
    obtain ⟨p', hrun', -, hholds⟩ := ih.step hc hm hlanded id x
    obtain ⟨-, rfl⟩ : Except.ok () = r ∧ p' = p := Prod.mk.inj (hrun'.symm.trans hrun)
    exact hholds

/-- Symbols that are held never come loose. In a run of steps on grids of one shape that each hold
a symbol in place, beginning with a state without memory of its round, every step succeeds whatever
has landed on its grid. At its end all cells show the symbol that showed it at the end of any
earlier step. The cells that it restores are those of the step right before, and the cells that it
remembers, and that the next step finds, are all that show the symbol now, in increasing order. -/
theorem symbols_held {s₀ : RoundState} {id : UInt32} (hc : c.Holds symbol key)
    (hm : m.tag = roundTag) (hsize : s₀.outcome.grid.len ≤ UInt64.size)
    (hlink : ∀ previous ∈ s₀.stateless, previous.featuresOf roundTag = [])
    (hrun : StepRun σ (remembering id c m) s₀ ends s) (hlanded : Relanded s t) {x : σ}
    {r : Except FeatureError Unit} {p : Pass σ}
    (hstep : trigger .builtin (remembering id c m) x t .empty = (r, p)) :
    r = .ok () ∧
    HoldsStep c m symbol key (heldMemory symbol key ends) (heldCells symbol ends) t p.state ∧
    (∀ e ∈ ends, ∀ place : Nat, e.outcome.grid.cells[place]? = some symbol →
      p.state.outcome.grid.cells[place]? = some symbol) ∧
    ((heldCells symbol ends).Pairwise (· < ·) ∧ ∀ place, place ∈ heldCells symbol ends ↔
      ∃ e ∈ ends.getLast?, e.outcome.grid.cells[place]? = some symbol) ∧
    ((p.state.outcome.grid.positionsOf symbol).Pairwise (· < ·) ∧
      ∀ place, place ∈ p.state.outcome.grid.positionsOf symbol ↔
        p.state.outcome.grid.cells[place]? = some symbol) ∧
    statelessMap p.state.nextStep .empty =
      .ok (Bag.empty.insert key (.ofNats (p.state.outcome.grid.positionsOf symbol))) := by
  have hholds := hrun.holdsAll hc hm (holdsAll_nil hsize hlink)
  obtain ⟨p', hstep', hdone, hnext⟩ := hholds.step hc hm hlanded id x
  obtain ⟨rfl, rfl⟩ : Except.ok () = r ∧ p' = p := Prod.mk.inj (hstep'.symm.trans hstep)
  have hpositions : heldCells symbol (ends ++ [p'.state]) =
      p'.state.outcome.grid.positionsOf symbol := by
    rw [heldCells, List.getLast?_concat]
    rfl
  refine ⟨rfl, hdone, ?_, ⟨pairwise_heldCells symbol ends, fun place => mem_heldCells⟩,
    ⟨Grid.pairwise_positionsWhere _ (· == symbol), fun place => Grid.mem_positionsOf⟩, ?_⟩
  · intro e he place hplace
    rw [← Grid.mem_positionsOf, ← hpositions]
    exact hnext.kept e (List.mem_append_left _ he) place hplace
  · rw [hnext.memory .empty rfl, heldMemory, List.getLast?_concat]
    rfl

end Runs

/-- Holds the symbol with the id seven. -/
def sevenHolder : Definition :=
  ⟨2, "StickySymbols", Bag.empty.insert "StickyId" (.ofInt (7 : Symbol).toInt), []⟩

/-- A seven lands in the first step, and another one in the second. There both are shown. -/
theorem symbols_held_sevens :
    let game := remembering 1 sevenHolder roundWriter
    let first : Grid := ⟨3, 1, [7, 1, 1], rfl⟩
    let second : Grid := ⟨3, 1, [1, 7, 1], rfl⟩
    ∃ p q : Pass Script,
      trigger .builtin game (.ofDraws []) ((RoundState.fresh 3 1).withGrid first) .empty =
        (.ok (), p) ∧
      trigger .builtin game (.ofDraws []) (p.state.nextStep.withGrid second) .empty =
        (.ok (), q) ∧
      q.state.outcome.grid.cells = [7, 7, 1] ∧
      statelessMap q.state.nextStep .empty =
        .ok (Bag.empty.insert "Sticky" (.ofNats [0, 1])) := by
  intro game first second
  have hholds : sevenHolder.Holds 7 "Sticky" := Definition.holds_of_id 2 7 []
  let s := (RoundState.fresh 3 1).withGrid first
  have hsize : s.outcome.grid.len ≤ UInt64.size := by decide
  have hlink : ∀ previous ∈ s.stateless, previous.featuresOf roundTag = [] := nofun
  obtain ⟨⟨r, p⟩, hp⟩ : ∃ x, trigger .builtin game (Script.ofDraws []) s .empty = x := ⟨_, rfl⟩
  obtain ⟨rfl, hstep, -⟩ := symbols_held hholds rfl hsize hlink .start ⟨rfl, rfl, rfl⟩ hp
  have hgrid : p.state.outcome.grid = first := hstep.grid_eq
  have hrun : StepRun Script game s ([] ++ [p.state]) p.state.nextStep :=
    .step .start ⟨rfl, rfl, rfl⟩ hp
  have hlanded : Relanded p.state.nextStep (p.state.nextStep.withGrid second) := by
    refine ⟨rfl, ?_, ?_⟩
    · change 3 = p.state.outcome.grid.reels
      rw [hgrid]
    · change 1 = p.state.outcome.grid.rows
      rw [hgrid]
  obtain ⟨⟨r, q⟩, hq⟩ : ∃ x, trigger .builtin game (Script.ofDraws [])
    (p.state.nextStep.withGrid second) .empty = x := ⟨_, rfl⟩
  obtain ⟨rfl, hstep', -, -, -, hmemory⟩ := symbols_held hholds rfl hsize hlink hrun hlanded hq
  have hend : q.state.outcome.grid = second.writeAll [0] 7 := by
    rw [hstep'.grid_eq, heldCells, List.nil_append, List.getLast?_singleton]
    change second.writeAll (p.state.outcome.grid.positionsOf 7) 7 = _
    rw [hgrid]
    rfl
  rw [hend] at hmemory
  refine ⟨p, q, hp, hq, ?_, hmemory⟩
  rw [hend]
  rfl

end SlotOutcome
