import SlotOutcome.Proofs.Changes
import SlotOutcome.Proofs.GridWrites
import SlotOutcome.Proofs.Trees

/-!
# Painting cells

Features that paint choose cells and write one symbol to all of them. What such a feature has done
is told by the reels and rows of the cells that it painted: they show the symbol, all other cells
show what they showed before, and nothing but the grid and the ledger has changed.

## Main definitions

* `RoundState.Painted`: a state of which some cells were painted, and what was noted with it.

## Main results

* `Grid.symbolAt_writeAll`: the symbol of a cell after several positions were painted.
* `RoundState.painted_perform`: covering positions and noting it paints the cells there.
* `RoundState.Painted.trans`, `RoundState.Painted.widen`: painting several times, and painting cells
  that show the symbol already.
* `RoundState.Painted.grid_eq`: the painted cells and the symbol determine the grid.
* `Definition.trigger_drawless_run`: what a node comes to whose feature calls no others, does not
  draw and leaves its bag.
-/

namespace SlotOutcome

namespace Grid

variable {g : Grid} {reel row : ℕ}

/-- A cell of the grid has one of its positions. -/
theorem linearPosition_lt (hreel : reel < g.reels) (hrow : row < g.rows) :
    linearPosition g.rows reel row < g.len := by
  refine lt_len_of_mem_column hreel ?_
  rw [mem_column_iff (Nat.zero_lt_of_lt hrow), reel_of_linearPosition hrow]

/-- Every position of the grid is that of a cell. -/
theorem exists_linearPosition {p : ℕ} (h : p < g.len) :
    ∃ reel < g.reels, ∃ row < g.rows, linearPosition g.rows reel row = p := by
  obtain ⟨hreel, hrows⟩ := reel_of_position h
  exact ⟨_, hreel, _, Nat.mod_lt p hrows, Nat.div_add_mod' p g.rows⟩

/-- The symbol of a cell is the one at its position. -/
theorem symbolAt_eq (hreel : reel < g.reels) (hrow : row < g.rows) :
    g.symbolAt reel row = .ok (g.cells.getD (linearPosition g.rows reel row) .empty) := by
  rw [symbolAt, position_eq_ok.mpr ⟨⟨hreel, hrow⟩, rfl⟩]
  exact get_of_lt (linearPosition_lt hreel hrow)

theorem symbolAt_eq_ok (hreel : reel < g.reels) (hrow : row < g.rows) {symbol : Symbol} :
    g.symbolAt reel row = .ok symbol ↔
      g.cells[linearPosition g.rows reel row]? = some symbol := by
  have hcell : g.cells[linearPosition g.rows reel row]? = some _ :=
    List.getElem?_eq_getElem (linearPosition_lt hreel hrow)
  rw [symbolAt_eq hreel hrow, List.getD_eq_getElem?_getD, hcell, Option.getD_some,
    Except.ok.injEq, Option.some.injEq]

/-- A cell shows the symbol that is written to several positions if its own is one of them. If not,
it shows what it showed before. -/
theorem symbolAt_writeAll (hreel : reel < g.reels) (hrow : row < g.rows) (positions : List ℕ)
    (symbol : Symbol) : (g.writeAll positions symbol).symbolAt reel row =
      if linearPosition g.rows reel row ∈ positions then .ok symbol
      else g.symbolAt reel row := by
  have hreel' : reel < (g.writeAll positions symbol).reels := by rwa [reels_writeAll]
  have hrow' : row < (g.writeAll positions symbol).rows := by rwa [rows_writeAll]
  have hcell : g.cells[linearPosition g.rows reel row]? = some _ :=
    List.getElem?_eq_getElem (linearPosition_lt hreel hrow)
  rw [symbolAt_eq hreel' hrow', symbolAt_eq hreel hrow, List.getD_eq_getElem?_getD,
    List.getD_eq_getElem?_getD, rows_writeAll, getElem?_writeAll, hcell]
  split_ifs <;> rfl

theorem bounds_positionsOf (g : Grid) (symbol : Symbol) : g.Bounds (g.positionsOf symbol) :=
  fun _ h => (List.getElem?_eq_some_iff.mp (mem_positionsOf.mp h)).1

/-- A grid is determined by its shape and by the symbols of its cells. -/
theorem ext_symbolAt {g' : Grid} (hreels : g.reels = g'.reels) (hrows : g.rows = g'.rows)
    (h : ∀ reel < g.reels, ∀ row < g.rows, g.symbolAt reel row = g'.symbolAt reel row) :
    g = g' := by
  have hlen : g.len = g'.len := by rw [len_eq, len_eq, hreels, hrows]
  refine ext_cells hreels hrows fun p => ?_
  by_cases hp : p < g.len
  · obtain ⟨reel, hreel, row, hrow, rfl⟩ := exists_linearPosition hp
    have hcell : g.cells[linearPosition g.rows reel row]? = some _ := List.getElem?_eq_getElem hp
    have hread := (symbolAt_eq_ok hreel hrow).mpr hcell
    rw [h reel hreel row hrow, symbolAt_eq_ok (hreels ▸ hreel) (hrows ▸ hrow), ← hrows] at hread
    rw [hcell, hread]
  · have hp' : ¬p < g'.len := by rwa [← hlen]
    rw [List.getElem?_eq_none (Nat.not_lt.mp hp), List.getElem?_eq_none (Nat.not_lt.mp hp')]

end Grid

/-- Positions of the grid can be covered. -/
theorem Paint.cover_of_bounds {o : Outcome} {positions : List ℕ} (h : o.grid.Bounds positions)
    (symbol : Symbol) : cover o positions symbol = .ok (o.covered positions symbol) :=
  bind_eq_ok.mpr ⟨_, Grid.setAll_of_bounds h symbol, rfl⟩

namespace RoundState

/-- A state of which some cells were painted: they show the symbol, all others show what they showed
before, and the ledger has some more entries. -/
structure Painted (s s' : RoundState) (marked : ℕ → ℕ → Prop) (symbol : Symbol)
    (entries : List Entry) : Prop where
  reels_eq : s'.outcome.grid.reels = s.outcome.grid.reels
  rows_eq : s'.outcome.grid.rows = s.outcome.grid.rows
  painted : ∀ reel < s.outcome.grid.reels, ∀ row < s.outcome.grid.rows, marked reel row →
    s'.outcome.grid.symbolAt reel row = .ok symbol
  kept : ∀ reel < s.outcome.grid.reels, ∀ row < s.outcome.grid.rows, ¬marked reel row →
    s'.outcome.grid.symbolAt reel row = s.outcome.grid.symbolAt reel row
  ledger_eq : s'.outcome.ledger = s.outcome.ledger ++ entries
  frame : s' = s.withOutcome { s.outcome with
    grid := s'.outcome.grid
    ledger := s'.outcome.ledger }

variable {s s' s'' : RoundState} {marked : ℕ → ℕ → Prop} {symbol : Symbol}
  {entries entries' : List Entry} {positions : List ℕ}

/-- Writing a symbol to several positions paints the cells there. -/
theorem painted_of_writeAll (hgrid : s'.outcome.grid = s.outcome.grid.writeAll positions symbol)
    (hmarked : ∀ reel < s.outcome.grid.reels, ∀ row < s.outcome.grid.rows,
      marked reel row ↔ linearPosition s.outcome.grid.rows reel row ∈ positions)
    (hledger : s'.outcome.ledger = s.outcome.ledger ++ entries)
    (hframe : s' = s.withOutcome { s.outcome with
      grid := s'.outcome.grid
      ledger := s'.outcome.ledger }) : s.Painted s' marked symbol entries where
  reels_eq := by rw [hgrid, Grid.reels_writeAll]
  rows_eq := by rw [hgrid, Grid.rows_writeAll]
  painted reel hreel row hrow hmark := by
    rw [hgrid, Grid.symbolAt_writeAll hreel hrow, if_pos ((hmarked reel hreel row hrow).mp hmark)]
  kept reel hreel row hrow hmark := by
    rw [hgrid, Grid.symbolAt_writeAll hreel hrow,
      if_neg (mt (hmarked reel hreel row hrow).mpr hmark)]
  ledger_eq := hledger
  frame := hframe

/-- Covering some positions and noting it paints the cells there. -/
theorem painted_perform {d : Definition} {payload : Json}
    (hmarked : ∀ reel < s.outcome.grid.reels, ∀ row < s.outcome.grid.rows,
      marked reel row ↔ linearPosition s.outcome.grid.rows reel row ∈ positions) :
    s.Painted (s.perform d (some ⟨s.outcome.covered positions symbol, payload⟩)) marked symbol
      [⟨d.id, d.tag, payload⟩] :=
  painted_of_writeAll rfl hmarked rfl rfl

/-- Where no cell is to be painted, nothing has to be done. -/
theorem painted_self (h : ∀ reel < s.outcome.grid.reels, ∀ row < s.outcome.grid.rows,
    ¬marked reel row) : s.Painted s marked symbol [] where
  reels_eq := rfl
  rows_eq := rfl
  painted reel hreel row hrow hmark := absurd hmark (h reel hreel row hrow)
  kept _ _ _ _ _ := rfl
  ledger_eq := (List.append_nil _).symm
  frame := by
    obtain ⟨⟩ := s
    rfl

/-- A feature that changes no cell paints none. -/
theorem painted_note (d : Definition) (payload : Json) (symbol : Symbol) :
    s.Painted (s.perform d (some ⟨s.outcome, payload⟩)) (fun _ _ => False) symbol
      [⟨d.id, d.tag, payload⟩] :=
  painted_of_writeAll (show _ = s.outcome.grid.writeAll [] symbol from rfl)
    (fun _ _ _ _ => iff_of_false id List.not_mem_nil) rfl rfl

/-- Cells that show the symbol already may count as painted. -/
theorem Painted.widen (h : s.Painted s' marked symbol entries) {marked' : ℕ → ℕ → Prop}
    (hmarked : ∀ reel < s.outcome.grid.reels, ∀ row < s.outcome.grid.rows,
      marked reel row → marked' reel row)
    (hshown : ∀ reel < s.outcome.grid.reels, ∀ row < s.outcome.grid.rows,
      marked' reel row → ¬marked reel row → s.outcome.grid.symbolAt reel row = .ok symbol) :
    s.Painted s' marked' symbol entries where
  reels_eq := h.reels_eq
  rows_eq := h.rows_eq
  painted reel hreel row hrow hmark' := by
    by_cases hmark : marked reel row
    · exact h.painted reel hreel row hrow hmark
    · rw [h.kept reel hreel row hrow hmark, hshown reel hreel row hrow hmark' hmark]
  kept reel hreel row hrow hmark' :=
    h.kept reel hreel row hrow (mt (hmarked reel hreel row hrow) hmark')
  ledger_eq := h.ledger_eq
  frame := h.frame

/-- Some cells are painted first and others later, with the same symbol. -/
theorem Painted.trans (h : s.Painted s' marked symbol entries) {marked' : ℕ → ℕ → Prop}
    (h' : s'.Painted s'' marked' symbol entries') :
    s.Painted s'' (fun reel row => marked reel row ∨ marked' reel row) symbol
      (entries ++ entries') where
  reels_eq := h'.reels_eq.trans h.reels_eq
  rows_eq := h'.rows_eq.trans h.rows_eq
  painted reel hreel row hrow hmark := by
    have hreel' := h.reels_eq.symm ▸ hreel
    have hrow' := h.rows_eq.symm ▸ hrow
    by_cases hlast : marked' reel row
    · exact h'.painted reel hreel' row hrow' hlast
    · rw [h'.kept reel hreel' row hrow' hlast]
      exact h.painted reel hreel row hrow (hmark.resolve_right hlast)
  kept reel hreel row hrow hmark := by
    obtain ⟨hfirst, hlast⟩ := not_or.mp hmark
    rw [h'.kept reel (h.reels_eq.symm ▸ hreel) row (h.rows_eq.symm ▸ hrow) hlast,
      h.kept reel hreel row hrow hfirst]
  ledger_eq := by rw [h'.ledger_eq, h.ledger_eq, List.append_assoc]
  frame := by
    rw [h'.frame, h.frame]
    rfl

/-- The painted cells and the symbol determine the grid. -/
theorem Painted.grid_eq (h : s.Painted s' marked symbol entries)
    (h' : s.Painted s'' marked symbol entries') : s'.outcome.grid = s''.outcome.grid := by
  refine Grid.ext_symbolAt (h.reels_eq.trans h'.reels_eq.symm)
    (h.rows_eq.trans h'.rows_eq.symm) fun reel hreel row hrow => ?_
  rw [h.reels_eq] at hreel
  rw [h.rows_eq] at hrow
  by_cases hmark : marked reel row
  · rw [h.painted reel hreel row hrow hmark, h'.painted reel hreel row hrow hmark]
  · rw [h.kept reel hreel row hrow hmark, h'.kept reel hreel row hrow hmark]

/-- Where no cell is to be painted and nothing was noted, nothing has been done. -/
theorem Painted.eq_self (h : s.Painted s' marked symbol [])
    (hnone : ∀ reel < s.outcome.grid.reels, ∀ row < s.outcome.grid.rows, ¬marked reel row) :
    s' = s := by
  have hgrid : s'.outcome.grid = s.outcome.grid := h.grid_eq (painted_self hnone)
  have hledger : s'.outcome.ledger = s.outcome.ledger := h.ledger_eq.trans (List.append_nil _)
  rw [h.frame, hgrid, hledger]
  obtain ⟨⟩ := s
  rfl

end RoundState

/-! ### Features that do not draw -/

/-- What triggering a node with a feature comes to that calls no others, does not draw and leaves
its bag. If its plan succeeds, it is carried out. If not, the error is marked and the state
stays. -/
theorem Definition.trigger_drawless_run {σ : Type} [RandomSource σ] {above : List Definition}
    {d : Definition} {e : Effect} {plan : RoundState → Bag → Except FeatureError (Option Change)}
    (hplan : e.leaf? = some (keepingBag fun s bag => (plan s bag : PlanM σ (Option Change))))
    (htag : d.tag = e.tag) {p : Pass σ} {collate : Bool}
    (hcollate : p.bag.isCollate = .ok collate) :
    d.trigger .builtin above p = match plan p.state (d.params.overlay p.bag) with
      | .ok change => (.ok (), ⟨p.source, (d.entered above p).visits, p.state.perform d change,
          if collate then d.params.overlay p.bag else p.bag⟩)
      | .error error => (.error (error.leaving d.tag d.id),
          ⟨p.source, (d.entered above p).visits, p.state, p.bag⟩) := by
  rw [trigger_leaf_run hplan htag hcollate, keepingBag, bind_run, liftM_run]
  rcases plan p.state (d.params.overlay p.bag) with error | change <;> rfl

end SlotOutcome
