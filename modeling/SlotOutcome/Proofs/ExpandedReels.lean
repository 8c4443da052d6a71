import SlotOutcome.Proofs.PaintedCells

/-!
# Two ways to expand reels

A symbol can be expanded to its reels in two ways. A trigger looks for it cell by cell and calls for
each of them a feature that fills the reel of the cell. Or one feature goes through the reels and
fills those that show the symbol, but not only that.

```text
  at the start     by cell          by reel
    1 1 7           w 1 w            7 1 7
    7 2 7           w 2 w            7 2 7
    7 3 7           w 3 w            7 3 7
  noted            1 2 6 7 8        0
```

The trigger finds the cells before the first reel is filled. So it comes to a reel as often as the
reel showed the symbol at the start, and each time it fills the whole reel. The other way leaves
full reels alone. If both write the symbol that they look for, they leave the same grid.

## Main definitions

* `Grid.Shows`: a reel shows a symbol.
* `Definition.symbolTrigger`, `Definition.expandingWild`, `Definition.expandingSymbols`: the
  features with the symbols that they are given.
* `ExpandedByCell`, `ExpandedByReel`: what they make of a state.

## Main results

* `Trigger.atCell_run`, `Trigger.forM_atCell_run`: one cell that was found, and all of them.
* `trigger_symbolTrigger`: the trigger with its child.
* `Paint.expandReels_eq`, `expandedByReel`: the reels that are filled in the other way.
* `RoundState.Painted.filledReels_eq_none`: once they are filled there is nothing left to fill.
* `trigger_expands`: what both ways do.
-/

namespace SlotOutcome

namespace Grid

/-- A reel shows a symbol. -/
def Shows (g : Grid) (reel : ℕ) (symbol : Symbol) : Prop :=
  ∃ row < g.rows, g.symbolAt reel row = .ok symbol

variable {g : Grid} {symbol : Symbol} {reel row : ℕ}

/-- The reel of a cell with the symbol is one that shows it. -/
theorem shows_iff (hreel : reel < g.reels) :
    g.Shows reel symbol ↔ ∃ p ∈ g.positionsOf symbol, p / g.rows = reel := by
  constructor
  · rintro ⟨row, hrow, hcell⟩
    rw [symbolAt_eq_ok hreel hrow] at hcell
    exact ⟨_, mem_positionsOf.mpr hcell, reel_of_linearPosition hrow⟩
  · rintro ⟨p, hp, hreels⟩
    have hcell := mem_positionsOf.mp hp
    obtain ⟨reel', -, row, hrow, rfl⟩ :=
      exists_linearPosition (List.getElem?_eq_some_iff.mp hcell).1
    rw [reel_of_linearPosition hrow] at hreels
    obtain rfl := hreels
    exact ⟨row, hrow, (symbolAt_eq_ok hreel hrow).mpr hcell⟩

theorem bounds_column (hreel : reel < g.reels) : g.Bounds (g.column reel) :=
  fun _ hp => lt_len_of_mem_column hreel hp

/-- The positions of a reel are those of its cells. -/
theorem linearPosition_mem_column_iff (hrow : row < g.rows) {reel' : ℕ} :
    linearPosition g.rows reel row ∈ g.column reel' ↔ reel = reel' := by
  rw [mem_column_iff (Nat.zero_lt_of_lt hrow), reel_of_linearPosition hrow]

end Grid

namespace Definition

/-- A trigger that looks for a symbol, cell by cell. -/
def symbolTrigger (id : UInt32) (symbol : Symbol) (features : List Definition) : Definition :=
  ⟨id, "SymbolTrigger", Bag.empty.insert "TriggerId" (.ofInt symbol.toInt), features⟩

/-- A feature that fills with a symbol the reel that it is told. -/
def expandingWild (id : UInt32) (symbol : Symbol) : Definition :=
  ⟨id, "ExpandingWild", Bag.empty.insert "WildId" (.ofInt symbol.toInt), []⟩

/-- A feature that fills with a symbol the reels that show it. -/
def expandingSymbols (id : UInt32) (symbol : Symbol) : Definition :=
  ⟨id, "ExpandingSymbols", Bag.empty.insert "ExpandId" (.ofInt symbol.toInt), []⟩

end Definition

/-! ### Cell by cell -/

namespace Paint

/-- What filling a reel around a cell does. -/
theorem expandAround_eq {s : RoundState} {bag : Bag} {position : ℕ} {positions : List ℕ}
    {symbol : Symbol} (hposition : bag.require .nat Key.position = .ok position)
    (hpositions : bag.require .positions Key.positions = .ok positions)
    (hsymbol : bag.require .symbol "WildId" = .ok symbol) (hlt : position < s.outcome.grid.len)
    (hbounds : s.outcome.grid.Bounds positions) :
    expandAround s bag = .ok (some ⟨s.outcome.covered positions symbol,
      Payload.expansion position positions symbol⟩) := by
  have hcell : s.outcome.grid.cell position = .ok _ := bind_eq_ok.mpr ⟨(), if_pos hlt, rfl⟩
  refine bind_eq_ok.mpr ⟨position, congrArg liftM hposition, ?_⟩
  refine bind_eq_ok.mpr ⟨positions, congrArg liftM hpositions, ?_⟩
  refine bind_eq_ok.mpr ⟨symbol, congrArg liftM hsymbol, ?_⟩
  refine bind_eq_ok.mpr ⟨_, congrArg liftM hcell, ?_⟩
  exact bind_eq_ok.mpr ⟨_, congrArg liftM (cover_of_bounds hbounds symbol), rfl⟩

end Paint

section ByCell

variable {σ : Type} [RandomSource σ] {above : List Definition} {b : UInt32} {w : Symbol}

namespace Trigger

/-- The child of a trigger that fills the reel of a cell. -/
def fillsReel (above : List Definition) (b : UInt32) (w : Symbol) : Child σ :=
  ⟨.expandingWild b w, (Definition.expandingWild b w).trigger .builtin above⟩

/-- The bag of a trigger for one of the cells that it has found. -/
def cellBag (g : Grid) (bag : Bag) (position : ℕ) : Bag :=
  (bag.insert Key.position (.ofNat position)).insert Key.positions
    (.ofNats (g.column (position / g.rows)))

/-- It holds the cell and its reel besides what the trigger has. -/
theorem get?_cellBag {g : Grid} {bag : Bag} {position : ℕ} {key : String}
    (hposition : key ≠ Key.position) (hpositions : key ≠ Key.positions) :
    (cellBag g bag position).get? key = bag.get? key := by
  rw [cellBag, Members.get?_insert, if_neg hpositions, Members.get?_insert, if_neg hposition]

/-- The entry for a cell whose reel was filled. -/
def expansionEntry (g : Grid) (b : UInt32) (w : Symbol) (position : ℕ) : Entry :=
  ⟨b, "ExpandingWild", Payload.expansion position (g.column (position / g.rows)) w⟩

/-- What is noted: what the trigger has found, and then what was filled for each cell. -/
def expansionEntries (g : Grid) (a b : UInt32) (w : Symbol) (positions : List ℕ) : List Entry :=
  (if positions = [] then [] else [⟨a, "SymbolTrigger", Payload.triggered positions⟩]) ++
    positions.map (expansionEntry g b w)

variable (above b w)

/-- The child fills the reel of the cell. -/
theorem fillsReel_run {p : Pass σ} {bag : Bag} {position : ℕ}
    (hbag : p.bag = cellBag p.state.outcome.grid bag position)
    (hcollate : bag.get? Key.collate = none) (hwild : bag.get? "WildId" = none)
    (hlt : position < p.state.outcome.grid.len) (hsize : p.state.outcome.grid.len ≤ UInt64.size) :
    ∃ q, (fillsReel above b w).trigger p = (.ok (), q) ∧
      p.state.Painted q.state (fun reel _ => position / p.state.outcome.grid.rows = reel) w
        [expansionEntry p.state.outcome.grid b w position] := by
  have hbounds := Grid.bounds_column (Grid.reel_of_position hlt).1
  have hkeeps : p.bag.KeepsToItself := by
    rw [hbag]
    exact .inl ((get?_cellBag (by decide) (by decide)).trans hcollate)
  have hposition : ((Definition.expandingWild b w).params.overlay p.bag).require .nat
      Key.position = .ok position := by
    refine Bag.require_of_present ?_ (ParamType.nat_read_ofNat (Nat.lt_of_lt_of_le hlt hsize))
    simp [hbag, cellBag, Key.position, Key.positions]
  have hpositions : ((Definition.expandingWild b w).params.overlay p.bag).require .positions
      Key.positions = .ok (p.state.outcome.grid.column (position / p.state.outcome.grid.rows)) := by
    refine Bag.require_of_present ?_ (ParamType.positions_read_ofNats fun q hq =>
      Nat.lt_of_lt_of_le (hbounds q hq) hsize)
    simp [hbag, cellBag]
  have hsymbol : ((Definition.expandingWild b w).params.overlay p.bag).require .symbol
      "WildId" = .ok w := by
    refine Bag.require_of_present ?_ (ParamType.symbol_read_ofInt w)
    rw [Bag.get?_overlay, hbag, get?_cellBag (by decide) (by decide), hwild]
    rfl
  have hrun : (Definition.expandingWild b w).trigger .builtin above p = _ :=
    Definition.trigger_drawless_run (e := .expandingWild) rfl rfl (Bag.isCollate_eq_false hkeeps)
  rw [Paint.expandAround_eq hposition hpositions hsymbol hlt hbounds] at hrun
  refine ⟨_, hrun, RoundState.painted_perform fun reel _ row hrow => ?_⟩
  rw [Grid.linearPosition_mem_column_iff hrow, eq_comm]

/-- A cell that was found has its reel filled, and the trigger keeps its bag. -/
theorem atCell_run {p : Pass σ} {position : ℕ} (hcollate : p.bag.get? Key.collate = none)
    (hwild : p.bag.get? "WildId" = none) (hlt : position < p.state.outcome.grid.len)
    (hsize : p.state.outcome.grid.len ≤ UInt64.size) :
    ∃ q, atCell [fillsReel above b w] position p = (.ok (), q) ∧ q.bag = p.bag ∧
      p.state.Painted q.state (fun reel _ => position / p.state.outcome.grid.rows = reel) w
        [expansionEntry p.state.outcome.grid b w position] := by
  obtain ⟨hreel, hrows⟩ := Grid.reel_of_position hlt
  have hcell : p.state.outcome.grid.cell position = .ok
      (position / p.state.outcome.grid.rows, position % p.state.outcome.grid.rows) :=
    bind_eq_ok.mpr ⟨(), if_pos hlt, congrArg _ (if_neg (Nat.pos_iff_ne_zero.mp hrows))⟩
  have hcolumn : p.state.outcome.grid.reelPositions (position / p.state.outcome.grid.rows) =
      .ok (p.state.outcome.grid.column (position / p.state.outcome.grid.rows)) :=
    Grid.reelPositions_eq_ok.mpr ⟨hreel, hrows, rfl⟩
  obtain ⟨q, hrun, hpainted⟩ := fillsReel_run above b w
    (p := { p with bag := cellBag p.state.outcome.grid p.bag position })
    rfl hcollate hwild hlt hsize
  have hfire : fireAll [fillsReel above b w]
      { p with bag := cellBag p.state.outcome.grid p.bag position } = (.ok (), q) :=
    bind_run_eq_ok.mpr ⟨(), q, hrun, rfl⟩
  have hwith : withBag (cellBag p.state.outcome.grid p.bag position)
      (fireAll [fillsReel above b w]) p = (.ok q.bag, { q with bag := p.bag }) := by
    rw [withBag, hfire]
    rfl
  refine ⟨{ q with bag := p.bag }, ?_, rfl, hpainted⟩
  refine bind_run_eq_ok.mpr ⟨p, p, rfl, ?_⟩
  refine bind_run_eq_ok.mpr ⟨_, p, liftM_run_eq_ok.mpr ⟨congrArg liftM hcell, rfl⟩, ?_⟩
  refine bind_run_eq_ok.mpr ⟨_, p, liftM_run_eq_ok.mpr ⟨congrArg liftM hcolumn, rfl⟩, ?_⟩
  exact bind_run_eq_ok.mpr ⟨_, _, hwith, rfl⟩

/-- All cells that were found have their reels filled, one after another. -/
theorem forM_atCell_run {p : Pass σ} (positions : List ℕ)
    (hcollate : p.bag.get? Key.collate = none) (hwild : p.bag.get? "WildId" = none)
    (hbounds : p.state.outcome.grid.Bounds positions)
    (hsize : p.state.outcome.grid.len ≤ UInt64.size) :
    ∃ q, positions.forM (atCell [fillsReel above b w]) p = (.ok (), q) ∧
      p.state.Painted q.state
        (fun reel _ => ∃ position ∈ positions, position / p.state.outcome.grid.rows = reel) w
        (positions.map (expansionEntry p.state.outcome.grid b w)) := by
  induction positions generalizing p with
  | nil =>
    exact ⟨p, rfl, RoundState.painted_self fun _ _ _ _ ⟨_, hmem, _⟩ => List.not_mem_nil hmem⟩
  | cons position positions ih =>
    obtain ⟨hfirst, hrest⟩ := List.forall_mem_cons.mp hbounds
    obtain ⟨p', hrun, hbag, hpainted⟩ := atCell_run above b w hcollate hwild hfirst hsize
    have hlen : p'.state.outcome.grid.len = p.state.outcome.grid.len := by
      rw [Grid.len_eq, Grid.len_eq, hpainted.reels_eq, hpainted.rows_eq]
    obtain ⟨q, hruns, hpainted'⟩ := ih (p := p') (hbag ▸ hcollate) (hbag ▸ hwild)
      (fun r hr => hlen ▸ hrest r hr) (hlen ▸ hsize)
    refine ⟨q, bind_run_eq_ok.mpr ⟨(), p', hrun, hruns⟩, ?_⟩
    -- The reels of the cells are those of the grid before, as the shape is the same.
    have hentries : expansionEntry p'.state.outcome.grid b w =
        expansionEntry p.state.outcome.grid b w := by
      funext r
      rw [expansionEntry, Grid.column, hpainted.rows_eq]
      rfl
    rw [hentries, hpainted.rows_eq] at hpainted'
    simp only [List.mem_cons, exists_eq_or_imp]
    exact hpainted.trans hpainted'

variable {above b w}

/-- What a trigger has found that looks for a symbol. -/
def found (o : Outcome) (symbol : Symbol) : Option Change :=
  if o.grid.positionsOf symbol = [] then none
  else some ⟨o, Payload.triggered (o.grid.positionsOf symbol)⟩

omit [RandomSource σ] in
theorem seeking_run {s : RoundState} {bag : Bag} {t : Symbol} (d : Definition)
    (hsought : symbols bag = .ok [t]) (x : σ) :
    Act.seeking d s bag x =
      (.ok (s.outcome.grid.positionsOf t, s.perform d (found s.outcome t), bag), x) := by
  have hpositions : s.outcome.grid.positionsWhere [t].contains = s.outcome.grid.positionsOf t :=
    congrArg s.outcome.grid.positionsWhere (funext fun symbol => by simp [beq_eq_decide])
  refine bind_run_eq_ok.mpr ⟨[t], x, liftM_run_eq_ok.mpr ⟨congrArg liftM hsought, rfl⟩, ?_⟩
  rw [hpositions, found]
  by_cases hnone : s.outcome.grid.positionsOf t = []
  · rw [if_pos hnone, hnone]
    rfl
  · rw [if_neg hnone, if_neg (mt List.isEmpty_iff.mp hnone)]
    rfl

/-- Noting what was found paints no cell. -/
theorem painted_found (s : RoundState) (d : Definition) (t w : Symbol) :
    s.Painted (s.perform d (found s.outcome t)) (fun _ _ => False) w
      (if s.outcome.grid.positionsOf t = [] then []
        else [⟨d.id, d.tag, Payload.triggered (s.outcome.grid.positionsOf t)⟩]) := by
  rw [found]
  split_ifs
  · exact RoundState.painted_self fun _ _ _ _ => id
  · exact RoundState.painted_note d _ w

end Trigger

/-- A trigger that looks for a symbol has the reels of all cells filled that show it. -/
theorem trigger_symbolTrigger {s : RoundState} {a : UInt32} {t : Symbol}
    (hsize : s.outcome.grid.len ≤ UInt64.size) (x : σ) :
    ∃ q, trigger .builtin (.symbolTrigger a t [.expandingWild b w]) x s .empty = (.ok (), q) ∧
      s.Painted q.state (fun reel _ => s.outcome.grid.Shows reel t) w
        (Trigger.expansionEntries s.outcome.grid a b w (s.outcome.grid.positionsOf t)) := by
  let d := Definition.symbolTrigger a t [.expandingWild b w]
  have hsought : Trigger.symbols (d.params.overlay .empty) = .ok [t] := by
    have hsymbol : (d.params.overlay .empty).require .symbol "TriggerId" = .ok t :=
      Bag.require_of_present rfl (ParamType.symbol_read_ofInt t)
    exact bind_eq_ok.mpr ⟨none, rfl, bind_eq_ok.mpr ⟨t, hsymbol, rfl⟩⟩
  -- The cells are found before any reel is filled, and to note them leaves the grid as it is.
  have hfound := Trigger.painted_found s d t w
  have hgrid : (s.perform d (Trigger.found s.outcome t)).outcome.grid = s.outcome.grid :=
    hfound.grid_eq (RoundState.painted_self fun _ _ _ _ => id)
  obtain ⟨q, hrun, hpainted⟩ := Trigger.forM_atCell_run [d] b w
    (p := ⟨x, (d.entered [] (Pass.start x s .empty)).visits,
      s.perform d (Trigger.found s.outcome t), d.params.overlay .empty⟩)
    (s.outcome.grid.positionsOf t) rfl rfl
    (hgrid ▸ s.outcome.grid.bounds_positionsOf t) (hgrid ▸ hsize)
  have hwork : Trigger.byCell d [Trigger.fillsReel [d] b w] (d.entered [] (Pass.start x s .empty)) =
      (.ok (), q) := by
    rw [byCell_eq, atomic_bind_run]
    simp only [Definition.entered, Pass.start, Trigger.seeking_run d hsought]
    exact hrun
  refine ⟨{ q with bag := .empty }, ?_, ?_⟩
  · rw [trigger, Definition.trigger_eq,
      Definition.enter_run_of_keepsToItself (e := .symbolTrigger) rfl (.inl rfl) hwork]
    rfl
  · simp only [hgrid] at hpainted
    refine (hfound.trans hpainted).widen (fun reel hreel row hrow hmark => ?_)
      fun reel hreel row hrow hshows hmark => ?_
    · exact (Grid.shows_iff hreel).mpr (hmark.resolve_left id)
    · exact absurd (.inr ((Grid.shows_iff hreel).mp hshows)) hmark

end ByCell

/-! ### Reel by reel -/

section ByReel

variable {g : Grid} {t : Symbol}

/-- The symbols of a reel are those that it shows. -/
theorem Grid.mem_reel_iff {reel : ℕ} {symbols : List Symbol} (hreel : reel < g.reels)
    (hrows : 0 < g.rows) (hsymbols : g.reel reel = .ok symbols) (symbol : Symbol) :
    symbol ∈ symbols ↔ g.Shows reel symbol := by
  obtain ⟨hlength, hcells⟩ := (Grid.reel_eq_ok hreel hrows).mp hsymbols
  rw [List.mem_iff_getElem?]
  constructor
  · rintro ⟨row, hrow⟩
    have hlt : row < g.rows := hlength ▸ (List.getElem?_eq_some_iff.mp hrow).1
    exact ⟨row, hlt, (Grid.symbolAt_eq_ok hreel hlt).mpr (hcells row hlt ▸ hrow)⟩
  · rintro ⟨row, hlt, hrow⟩
    exact ⟨row, (hcells row hlt).trans ((Grid.symbolAt_eq_ok hreel hlt).mp hrow)⟩

/-- The reels that show a symbol, but not only that. -/
def Grid.partlyShowing (g : Grid) (symbol : Symbol) : List ℕ :=
  (List.range g.reels).filter fun reel =>
    Paint.partlyShows symbol ((g.cells.drop (reel * g.rows)).take g.rows)

theorem Grid.mem_partlyShowing (hrows : 0 < g.rows) {reel : ℕ} : reel ∈ g.partlyShowing t ↔
    reel < g.reels ∧ g.Shows reel t ∧ ∃ other ≠ t, g.Shows reel other := by
  rw [partlyShowing, List.mem_filter, List.mem_range]
  refine and_congr_right fun hreel => ?_
  have hsymbols := Grid.mem_reel_iff hreel hrows (Grid.reel_of_lt hreel hrows)
  simp only [Paint.partlyShows, Bool.and_eq_true, List.contains_iff_mem, List.any_eq_true,
    bne_iff_ne, hsymbols]
  exact and_congr_right fun _ => exists_congr fun other => and_comm

theorem filter_zipIdx_map {α : Type} {f : ℕ → α} {p : α → Bool} {n : ℕ} :
    (((List.range n).map f).zipIdx.filter fun item => p item.1).map Prod.snd =
      (List.range n).filter fun i => p (f i) := by
  have hzip : ((List.range n).map f).zipIdx = (List.range n).map fun i => (f i, i) := by
    refine List.ext_getElem? fun i => ?_
    rcases Nat.lt_or_ge i n with hi | hi <;> simp [hi]
  rw [hzip, List.filter_map, List.map_map]
  exact List.map_id _

/-- What a feature has done that filled the reels that show a symbol, but not only that. -/
def Paint.filledReels (o : Outcome) (symbol : Symbol) : Option Change :=
  let reels := o.grid.partlyShowing symbol
  if reels = [] then none
  else some ⟨o.covered (reels.map o.grid.column).flatten symbol,
    Payload.expandedReels reels symbol⟩

theorem Paint.expandReels_eq {s : RoundState} {bag : Bag} (hrows : 0 < s.outcome.grid.rows)
    (hsymbol : bag.require .symbol "ExpandId" = .ok t) :
    Paint.expandReels s bag = .ok (Paint.filledReels s.outcome t) := by
  have hcolumns : (List.range s.outcome.grid.reels).mapM s.outcome.grid.reel = .ok _ :=
    mapM_eq_pure_map fun reel hreel => Grid.reel_of_lt (List.mem_range.mp hreel) hrows
  have hpositions : (s.outcome.grid.partlyShowing t).mapM s.outcome.grid.reelPositions = .ok _ :=
    mapM_eq_pure_map fun reel hreel => Grid.reelPositions_eq_ok.mpr
      ⟨((Grid.mem_partlyShowing hrows).mp hreel).1, hrows, rfl⟩
  have hbounds : s.outcome.grid.Bounds
      ((s.outcome.grid.partlyShowing t).map s.outcome.grid.column).flatten := by
    intro p hp
    obtain ⟨column, hcolumn, hmem⟩ := List.mem_flatten.mp hp
    obtain ⟨reel, hreel, rfl⟩ := List.mem_map.mp hcolumn
    exact Grid.bounds_column ((Grid.mem_partlyShowing hrows).mp hreel).1 p hmem
  refine bind_eq_ok.mpr ⟨t, congrArg liftM hsymbol, ?_⟩
  refine bind_eq_ok.mpr ⟨_, congrArg liftM hcolumns, ?_⟩
  have hreels : ((((List.range s.outcome.grid.reels).map fun reel =>
      (s.outcome.grid.cells.drop (reel * s.outcome.grid.rows)).take
        s.outcome.grid.rows).zipIdx.filter fun column =>
          Paint.partlyShows t column.1).map Prod.snd) = s.outcome.grid.partlyShowing t :=
    filter_zipIdx_map
  rw [hreels, Paint.filledReels]
  by_cases hnone : s.outcome.grid.partlyShowing t = []
  · rw [if_pos hnone, hnone]
    rfl
  · rw [if_neg hnone, if_neg (mt List.isEmpty_iff.mp hnone)]
    refine bind_eq_ok.mpr ⟨_, congrArg liftM hpositions, ?_⟩
    exact bind_eq_ok.mpr ⟨_, congrArg liftM (Paint.cover_of_bounds hbounds t), rfl⟩

variable {σ : Type} [RandomSource σ] {s s' : RoundState} {c : UInt32}

theorem trigger_expandingSymbols (hrows : 0 < s.outcome.grid.rows) (x : σ) :
    ∃ q, trigger .builtin (.expandingSymbols c t) x s .empty = (.ok (), q) ∧
      q.state = s.perform (.expandingSymbols c t) (Paint.filledReels s.outcome t) := by
  have hsymbol : ((Definition.expandingSymbols c t).params.overlay .empty).require .symbol
      "ExpandId" = .ok t := Bag.require_of_present rfl (ParamType.symbol_read_ofInt t)
  have hplan := Paint.expandReels_eq hrows hsymbol
  rw [trigger, Definition.trigger_drawless_run (e := .expandingSymbols) rfl rfl
    (Bag.isCollate_eq_false (.inl rfl))]
  simp only [Pass.start, hplan]
  exact ⟨_, rfl, rfl⟩

end ByReel

/-- A state in which a trigger had a reel filled for each cell with a symbol. -/
structure ExpandedByCell (s s' : RoundState) (a b : UInt32) (t w : Symbol) (positions : List ℕ) :
    Prop where
  pairwise_lt : positions.Pairwise (· < ·)
  mem_iff : ∀ position, position ∈ positions ↔ s.outcome.grid.cells[position]? = some t
  painted : s.Painted s' (fun reel _ => s.outcome.grid.Shows reel t) w
    (Trigger.expansionEntries s.outcome.grid a b w positions)

/-- A state in which the reels were filled that showed a symbol, but not only that. -/
structure ExpandedByReel (s s' : RoundState) (c : UInt32) (t : Symbol) (reels : List ℕ) :
    Prop where
  pairwise_lt : reels.Pairwise (· < ·)
  mem_iff : ∀ reel, reel ∈ reels ↔ reel < s.outcome.grid.reels ∧ s.outcome.grid.Shows reel t ∧
    ∃ other ≠ t, s.outcome.grid.Shows reel other
  painted : s.Painted s' (fun reel _ => s.outcome.grid.Shows reel t) t
    (if reels = [] then [] else [⟨c, "ExpandingSymbols", Payload.expandedReels reels t⟩])

/-- Filling the reels that show a symbol, but not only that, leaves all reels full of it that showed
it. -/
theorem expandedByReel {s : RoundState} (hrows : 0 < s.outcome.grid.rows) (c : UInt32)
    (t : Symbol) :
    ExpandedByReel s (s.perform (.expandingSymbols c t) (Paint.filledReels s.outcome t)) c t
      (s.outcome.grid.partlyShowing t) where
  pairwise_lt := List.pairwise_lt_range.sublist List.filter_sublist
  mem_iff _ := Grid.mem_partlyShowing hrows
  painted := by
    have hpartly : s.Painted (s.perform (.expandingSymbols c t) (Paint.filledReels s.outcome t))
        (fun reel _ => reel ∈ s.outcome.grid.partlyShowing t) t
        (if s.outcome.grid.partlyShowing t = [] then [] else
          [⟨c, "ExpandingSymbols", Payload.expandedReels (s.outcome.grid.partlyShowing t) t⟩]) := by
      rw [Paint.filledReels]
      split_ifs with hnone
      · exact RoundState.painted_self fun _ _ _ _ hmem => List.not_mem_nil (hnone ▸ hmem)
      · refine RoundState.painted_perform fun reel _ row hrow => ?_
        simp only [List.mem_flatten, List.mem_map, exists_exists_and_eq_and,
          Grid.linearPosition_mem_column_iff hrow, exists_eq_right']
    refine hpartly.widen (fun reel _ row _ hmem => ((Grid.mem_partlyShowing hrows).mp hmem).2.1)
      fun reel hreel row hrow hshows hfull => ?_
    -- A reel that shows the symbol and was not filled shows nothing else.
    have hcell := Grid.symbolAt_eq hreel hrow
    by_contra hother
    refine hfull ((Grid.mem_partlyShowing hrows).mpr
      ⟨hreel, hshows, _, fun heq => ?_, row, hrow, hcell⟩)
    exact hother (hcell.trans (congrArg _ heq))

/-- Then no reel is left that shows the symbol, but not only that. -/
theorem RoundState.Painted.filledReels_eq_none {s s' : RoundState} {t : Symbol}
    {entries : List Entry} (h : s.Painted s' (fun reel _ => s.outcome.grid.Shows reel t) t entries)
    (hrows : 0 < s.outcome.grid.rows) : Paint.filledReels s'.outcome t = none := by
  refine if_pos (List.eq_nil_iff_forall_not_mem.mpr fun reel hmem => ?_)
  obtain ⟨hreel, ⟨row, hrow, hcell⟩, other, hne, row', hrow', hcell'⟩ :=
    (Grid.mem_partlyShowing (h.rows_eq ▸ hrows)).mp hmem
  rw [h.reels_eq] at hreel
  rw [h.rows_eq] at hrow hrow'
  by_cases hshows : s.outcome.grid.Shows reel t
  · rw [h.painted reel hreel row' hrow' hshows] at hcell'
    exact hne (Except.ok.inj hcell').symm
  · rw [h.kept reel hreel row hrow hshows] at hcell
    exact hshows ⟨row, hrow, hcell⟩

/-- Expanding by trigger and expanding by symbol. On a grid with rows, a trigger that looks for a
symbol and has reels filled with another one succeeds: every reel that showed the symbol at the
start is full of the other one, all other cells show what they showed, and for each cell with the
symbol there is an entry that tells the cell and its whole reel. If the other symbol is the same
one, the grid is as a feature leaves it that goes through the reels. This one notes the reels that
showed the symbol, but not only that, and does nothing when it runs again. The trigger tells its
child the position of a cell by a number of 64 bits, and no grid in memory has more cells. -/
theorem trigger_expands {σ : Type} [RandomSource σ] {s : RoundState}
    (hrows : 0 < s.outcome.grid.rows) (hsize : s.outcome.grid.len ≤ UInt64.size) (a b c : UInt32)
    (t w : Symbol) (x : σ) :
    ∃ p q positions reels,
      trigger .builtin (.symbolTrigger a t [.expandingWild b w]) x s .empty = (.ok (), p) ∧
      ExpandedByCell s p.state a b t w positions ∧
      trigger .builtin (.expandingSymbols c t) x s .empty = (.ok (), q) ∧
      ExpandedByReel s q.state c t reels ∧
      (w = t → p.state.outcome.grid = q.state.outcome.grid) ∧
      ∀ y : σ, ∃ q', trigger .builtin (.expandingSymbols c t) y q.state .empty = (.ok (), q') ∧
        q'.state = q.state := by
  obtain ⟨p, hcells, hpainted⟩ :=
    trigger_symbolTrigger (a := a) (b := b) (t := t) (w := w) hsize x
  obtain ⟨q, hreels, hstate⟩ := trigger_expandingSymbols (c := c) (t := t) hrows x
  have hexpanded := hstate ▸ expandedByReel hrows c t
  refine ⟨p, q, _, _, hcells, ⟨s.outcome.grid.pairwise_positionsWhere _,
    fun _ => Grid.mem_positionsOf, hpainted⟩, hreels, hexpanded, ?_, fun y => ?_⟩
  · rintro rfl
    exact hpainted.grid_eq hexpanded.painted
  · obtain ⟨q', hagain, hstate'⟩ := trigger_expandingSymbols (c := c) (t := t)
      (hexpanded.painted.rows_eq ▸ hrows) y
    rw [hexpanded.painted.filledReels_eq_none hrows] at hstate'
    exact ⟨q', hagain, hstate'⟩

/-- Three reels: one that shows sevens and more, one that shows none, and one full of them. -/
def threeReels : RoundState where
  __ := RoundState.fresh 3 3
  outcome := { Outcome.blank 3 3 with grid := ⟨3, 3, [1, 7, 7, 1, 2, 3, 7, 7, 7], rfl⟩ }

/-- Both ways fill the first reel. -/
theorem trigger_expands_sevens :
    ∃ p q, trigger .builtin (.symbolTrigger 1 7 [.expandingWild 2 7]) (Script.ofDraws [])
        threeReels .empty = (.ok (), p) ∧
      trigger .builtin (.expandingSymbols 3 7) (Script.ofDraws []) threeReels .empty = (.ok (), q) ∧
      p.state.outcome.grid = q.state.outcome.grid ∧
      p.state.outcome.grid.symbolAt 0 0 = .ok 7 ∧ p.state.outcome.grid.symbolAt 1 0 = .ok 1 := by
  obtain ⟨p, q, positions, reels, hcells, hbyCell, hreels, -, hgrids, -⟩ :=
    trigger_expands (s := threeReels) (by decide) (by decide) 1 2 3 7 7 (Script.ofDraws [])
  refine ⟨p, q, hcells, hreels, hgrids rfl, hbyCell.painted.painted 0 (by decide) 0 (by decide) ?_,
    hbyCell.painted.kept 1 (by decide) 0 (by decide) ?_⟩
  · exact ⟨1, by decide, rfl⟩
  · rintro ⟨row, hrow, hcell⟩
    have hrow : row < 3 := hrow
    obtain rfl | rfl | rfl : row = 0 ∨ row = 1 ∨ row = 2 := by omega
    all_goals cases hcell

end SlotOutcome
