import SlotOutcome.Proofs.CheckedCascades
import SlotOutcome.Proofs.EditsInPlace
import SlotOutcome.Proofs.ExpandedReels

/-!
# Loops that edit in place

Two features go through the reels one by one and write to the grid on the way. Each step of such a
loop could fail after the steps before it have written already.

One fills the reels that show a symbol. It reads a reel, and writes to it if need be, before it
reads the next one. If the grid has rows, every reel can be read and written; and if it has none,
the first reel cannot be read, before anything was written.

A cascade goes through the reels twice. The first time it looks at the strips and the stops, and
that may fail. The second time it reads from the grid which symbols stay, writes the column and sets
the stop, reel by reel. As all cells, strips and stops were looked at, that does not fail.

## Main definitions

* `InPlace.fillReels`, `Edit.expandReels`: filling the reels that show a symbol.
* `Edit.loss`, `Edit.refillReel`, `Edit.cascade`: a cascade.
* `Grid.KeptFrom`: a grid of which only the reels before one were written.

## Main results

* `InPlace.fillReels_run`, `InPlace.fillReels_run_of_noRows`: filling reels fails at once or never.
* `Edit.refillReel_run`, `Edit.forM_refillReel_run`: refilling reels does not fail.
* `Edit.expandReels_enacts`, `Edit.cascade_enacts`: both features enact their plans.
-/

namespace SlotOutcome

/-! ### Filling reels -/

/-- A grid of which only the reels before one were written. -/
structure Grid.KeptFrom (g : Grid) (reel : ℕ) (g' : Grid) : Prop where
  reels : g'.reels = g.reels
  rows : g'.rows = g.rows
  cells : ∀ p < g.len, reel ≤ p / g.rows → g'.cells[p]? = g.cells[p]?

namespace Grid.KeptFrom

variable {g g' : Grid} {reel : ℕ}

theorem column_eq (h : g.KeptFrom reel g') (other : ℕ) : g'.column other = g.column other := by
  rw [column, column, h.rows]

/-- The next reel shows what it showed before. -/
theorem reel_eq (h : g.KeptFrom reel g') (hreel : reel < g.reels) (hrows : 0 < g.rows) :
    g'.reel reel = g.reel reel := by
  have hreel' : reel < g'.reels := h.reels ▸ hreel
  have hrows' : 0 < g'.rows := h.rows ▸ hrows
  have hread := Grid.reel_of_lt hreel hrows
  obtain ⟨hlength, hcells⟩ := (Grid.reel_eq_ok hreel hrows).mp hread
  rw [hread]
  refine (Grid.reel_eq_ok hreel' hrows').mpr ⟨hlength.trans h.rows.symm, fun row hrow => ?_⟩
  rw [h.rows] at hrow ⊢
  rw [hcells row hrow]
  refine (h.cells _ (Grid.linearPosition_lt hreel hrow) ?_).symm
  rw [Grid.reel_of_linearPosition hrow]

theorem next (h : g.KeptFrom reel g') : g.KeptFrom (reel + 1) g' :=
  ⟨h.reels, h.rows, fun p hp hlater => h.cells p hp (by omega)⟩

/-- Writing the next reel leaves those after it. -/
theorem writeAll (h : g.KeptFrom reel g') (hrows : 0 < g.rows) (symbol : Symbol) :
    g.KeptFrom (reel + 1) (g'.writeAll (g.column reel) symbol) where
  reels := (g'.reels_writeAll _ _).trans h.reels
  rows := (g'.rows_writeAll _ _).trans h.rows
  cells p hp hlater := by
    have hother : p ∉ g.column reel := fun hmem => by
      have hsame := (Grid.mem_column_iff hrows).mp hmem
      omega
    rw [Grid.getElem?_writeAll, if_neg hother]
    exact h.cells p hp (by omega)

end Grid.KeptFrom

namespace InPlace

/-- Fills a reel with a symbol if it shows it, but not only that. -/
def fillReel (symbol : Symbol) (filled : List ℕ) (reel : ℕ) : InPlace (List ℕ) := do
  let column ← (← get).reel reel
  if Paint.partlyShows symbol column then
    let positions ← (← get).reelPositions reel
    writeAll positions symbol
    return filled ++ [reel]
  else return filled

/-- Fills with a symbol all reels that show it, but not only that, and lists them. -/
def fillReels (symbol : Symbol) : InPlace (List ℕ) := do
  (List.range (← get).reels).foldlM (fillReel symbol) []

variable {g g' : Grid} {symbol : Symbol}

/-- A reel after those that were written is read as in the grid before, and then written. -/
theorem fillReel_run {reel : ℕ} (h : g.KeptFrom reel g') (hreel : reel < g.reels)
    (hrows : 0 < g.rows) (filled : List ℕ) :
    fillReel symbol filled reel g' =
      if Paint.partlyShows symbol ((g.cells.drop (reel * g.rows)).take g.rows) then
        (.ok (filled ++ [reel]), g'.writeAll (g.column reel) symbol)
      else (.ok filled, g') := by
  have hcolumn : g'.reel reel = .ok ((g.cells.drop (reel * g.rows)).take g.rows) :=
    (h.reel_eq hreel hrows).trans (Grid.reel_of_lt hreel hrows)
  have hpositions : g'.reelPositions reel = .ok (g.column reel) :=
    Grid.reelPositions_eq_ok.mpr ⟨h.reels ▸ hreel, h.rows ▸ hrows, h.column_eq reel ▸ rfl⟩
  have hbounds : g'.Bounds (g.column reel) := fun p hp => by
    rw [Grid.len_eq, h.reels, h.rows, ← Grid.len_eq]
    exact Grid.lt_len_of_mem_column hreel hp
  refine (liftM_bind_run hcolumn _ g').trans ?_
  by_cases hpartly : Paint.partlyShows symbol ((g.cells.drop (reel * g.rows)).take g.rows)
  · rw [if_pos hpartly, if_pos hpartly]
    refine (liftM_bind_run hpositions _ g').trans ?_
    rw [bind_run, writeAll_run_of_bounds hbounds]
    rfl
  · rw [if_neg hpartly, if_neg hpartly]
    rfl

/-- The reels after those that were gone over are filled one by one. -/
theorem foldlM_fillReel_run (hrows : 0 < g.rows) {count reel : ℕ} (h : g.KeptFrom reel g')
    (hall : reel + count = g.reels) (filled : List ℕ) :
    (List.range' reel count).foldlM (fillReel symbol) filled g' =
      let rest := (List.range' reel count).filter fun reel =>
        Paint.partlyShows symbol ((g.cells.drop (reel * g.rows)).take g.rows)
      (.ok (filled ++ rest), g'.writeAll (rest.map g.column).flatten symbol) := by
  induction count generalizing reel g' filled with
  | zero => simp [Grid.writeAll]; rfl
  | succ count ih =>
    rw [List.range'_succ, List.foldlM_cons, bind_run, fillReel_run h (by omega) hrows]
    by_cases hpartly : Paint.partlyShows symbol ((g.cells.drop (reel * g.rows)).take g.rows)
    · rw [if_pos hpartly, List.filter_cons, if_pos hpartly]
      refine (ih (h.writeAll hrows symbol) (by omega) _).trans ?_
      simp only [List.append_assoc, List.singleton_append, List.map_cons, List.flatten_cons,
        Grid.writeAll, List.foldl_append]
    · rw [if_neg hpartly, List.filter_cons, if_neg hpartly]
      exact ih h.next (by omega) _

/-- On a grid with rows all reels can be filled. -/
theorem fillReels_run (hrows : 0 < g.rows) (symbol : Symbol) :
    fillReels symbol g = (.ok (g.partlyShowing symbol),
      g.writeAll ((g.partlyShowing symbol).map g.column).flatten symbol) := by
  change (List.range g.reels).foldlM (fillReel symbol) [] g = _
  rw [Grid.partlyShowing, List.range_eq_range']
  exact foldlM_fillReel_run hrows ⟨rfl, rfl, fun _ _ _ => rfl⟩ (Nat.zero_add _) []

end InPlace

theorem Grid.reel_of_noRows {g : Grid} (hrows : g.rows = 0) (reel : ℕ) :
    g.reel reel = .error (.cellOutOfBounds reel 0 g.reels 0) := by
  rw [Grid.reel, Grid.position, hrows, if_neg fun h => Nat.lt_irrefl 0 h.2]
  rfl

/-- Without rows the first reel cannot be read. -/
theorem InPlace.fillReels_run_of_noRows {g : Grid} (hrows : g.rows = 0) (symbol : Symbol) :
    fillReels symbol g =
      (if g.reels = 0 then .ok [] else .error (.cellOutOfBounds 0 0 g.reels 0), g) := by
  change (List.range g.reels).foldlM (fillReel symbol) [] g = _
  by_cases hreels : g.reels = 0
  · rw [if_pos hreels, hreels]
    rfl
  · obtain ⟨last, hlast⟩ := Nat.exists_eq_succ_of_ne_zero hreels
    have hfill : fillReel symbol [] 0 g = (.error (.cellOutOfBounds 0 0 g.reels 0), g) := by
      change (liftM (g.reel 0) >>= _ : InPlace (List ℕ)) g = _
      rw [Grid.reel_of_noRows hrows]
      rfl
    rw [if_neg hreels, List.range_eq_range', hlast, List.range'_succ, List.foldlM_cons, bind_run,
      ← hlast, hfill]

/-- What fails without rows if it is planned. -/
theorem Paint.expandReels_of_noRows {s : RoundState} {bag : Bag} {id : Symbol}
    (hrows : s.outcome.grid.rows = 0) (hid : bag.require .symbol "ExpandId" = .ok id) :
    Paint.expandReels s bag = if s.outcome.grid.reels = 0 then .ok none
      else .error (.data (.cellOutOfBounds 0 0 s.outcome.grid.reels 0)) := by
  have hcolumns : (List.range s.outcome.grid.reels).mapM s.outcome.grid.reel =
      if s.outcome.grid.reels = 0 then .ok []
      else .error (.cellOutOfBounds 0 0 s.outcome.grid.reels 0) := by
    by_cases hreels : s.outcome.grid.reels = 0
    · rw [if_pos hreels, hreels]
      rfl
    · obtain ⟨last, hlast⟩ := Nat.exists_eq_succ_of_ne_zero hreels
      rw [if_neg hreels, List.range_eq_range', hlast, List.range'_succ, List.mapM_cons, ← hlast,
        Grid.reel_of_noRows hrows]
      rfl
  rw [Paint.expandReels, hid]
  change ((liftM ((List.range s.outcome.grid.reels).mapM s.outcome.grid.reel) :
    Except FeatureError (List (List Symbol))) >>= _) = _
  rw [hcolumns]
  split <;> rfl

namespace Edit

variable {σ : Type} (d : Definition)

/-- Fills the reels that show a symbol. -/
def expandReels : PassM σ Unit := do
  let bag ← bag
  let id ← bag.require .symbol "ExpandId"
  let reels ← onGrid (InPlace.fillReels id)
  if reels.isEmpty then return
  record d (Payload.expandedReels reels id)

theorem expandReels_enacts (s : RoundState) (bag : Bag) :
    Enacts (σ := σ) d s bag (expandReels d) (·, bag) (liftM (Paint.expandReels s bag)) := by
  refine .lookAtBag ?_
  rcases hid : bag.require .symbol "ExpandId" with e | id
  · rw [Paint.expandReels, hid]
    exact fun _ _ => ⟨bag, rfl⟩
  rcases Nat.eq_zero_or_pos s.outcome.grid.rows with hrows | hrows
  · have hfill := InPlace.fillReels_run_of_noRows hrows id
    rw [Paint.expandReels_of_noRows hrows hid]
    split at hfill
    · next hreels => exact .gridUntouched hfill (congrArg liftM (if_pos hreels)) fun _ _ => rfl
    · next hreels => exact .gridKept hfill (congrArg liftM (if_neg hreels))
  · have hfill := InPlace.fillReels_run hrows id
    rw [Paint.expandReels_eq hrows hid, Paint.filledReels]
    by_cases hnone : s.outcome.grid.partlyShowing id = []
    · rw [hnone] at hfill
      exact .gridUntouched hfill (congrArg liftM (congrArg Except.ok (if_pos hnone))) fun _ _ => rfl
    · refine .gridEdited hfill (congrArg liftM (congrArg Except.ok (if_neg hnone))) fun _ _ => ?_
      exact congrFun (if_neg (mt List.isEmpty_iff.mp hnone)) _

/-! ### Cascades -/

/-- The loss of a reel, or nothing where no cell goes. Its strip and its stop are looked at. -/
def loss (g : Grid) (removed : List ℕ) (strip : List Symbol) (stop reel : ℕ) :
    Except DataError (Option Check.Loss) := do
  let positions ← g.reelPositions reel
  let gone := positions.countP removed.contains
  if gone = 0 then return none
  if strip.isEmpty then
    throw (.malformed ("reel " ++ toString reel ++ " has an empty strip"))
  if strip.length ≤ stop then
    throw (.malformed ("reel " ++ toString reel ++ " stop " ++ toString stop ++
      " outside strip of " ++ toString strip.length))
  return some ⟨reel, positions, gone⟩

/-- Refills a reel. The symbols that stay are read from the grid as it has become. -/
def refillReel (removed : List ℕ) : Check.Loss → PassM σ Unit
  | ⟨reel, positions, gone⟩ => do
    let o ← outcome
    let strip := o.strips.getD reel []
    let stop := Cascade.raise (o.stops.getD reel 0) gone strip.length
    let fresh := (List.range gone).map fun i => strip.getD ((stop + i) % strip.length) .empty
    let stay ← ((positions.filter fun p => !removed.contains p).mapM o.grid.get :
      Except DataError (List Symbol))
    onGrid ((positions.zip (fresh ++ stay)).forM fun cell => InPlace.write cell.2 cell.1)
    update fun o => { o with stops := o.stops.set reel stop }

/-- Removes the cells of the wins, refills the reels one by one and asks for a cascade step. -/
def cascade : PassM σ Unit := do
  let o ← outcome
  let removed := ascending (o.wins.flatMap Win.positions)
  if removed.isEmpty then return
  if o.strips.length ≠ o.grid.reels ∨ o.stops.length ≠ o.grid.reels then
    throw (.logic "cascade needs the reel strips and stops of the grid")
  liftM (removed.forM fun p => (o.grid.check p : Except FeatureError Unit) :
    Except FeatureError Unit)
  let losses ← ((List.range o.grid.reels).mapM fun reel =>
    loss o.grid removed (o.strips.getD reel []) (o.stops.getD reel 0) reel :
      Except DataError (List (Option Check.Loss)))
  (losses.filterMap id).forM (refillReel removed)
  update fun o => { o with cascade := ⟨o.cascade.step + 1, o.cascade.removed⟩ }
  update fun o => { o with cascade := ⟨o.cascade.step, removed⟩ }
  update fun o => { o with nextPhase := some .cascade }
  let step := (← outcome).cascade.step
  record d (Payload.cascade step removed)

variable {g : Grid} {removed : List ℕ} {strips : List (List Symbol)} {stops : List ℕ}

/-- Looking at a reel finds what its refill finds. -/
theorem loss_eq (g : Grid) (removed : List ℕ) (strip : List Symbol) (stop reel : ℕ) :
    loss g removed strip stop reel =
      (Cascade.refill g removed reel strip stop).map
        (Option.map (Check.lossOf g removed reel)) := by
  rcases hpositions : g.reelPositions reel with e | positions
  · rw [loss, Cascade.refill, hpositions]
    rfl
  obtain ⟨hreel, hrows, rfl⟩ := Grid.reelPositions_eq_ok.mp hpositions
  rw [Cascade.refill_eq hreel hrows, loss, hpositions]
  change (if Cascade.gone g removed reel = 0 then _ else _) = _
  by_cases hzero : Cascade.gone g removed reel = 0
  · rw [if_pos hzero, if_pos hzero]
    rfl
  rw [if_neg hzero, if_neg hzero]
  by_cases hnil : strip = []
  · rw [if_pos (List.isEmpty_iff.mpr hnil), if_pos hnil]
    rfl
  rw [if_neg (mt List.isEmpty_iff.mp hnil), if_neg hnil]
  by_cases hpast : strip.length ≤ stop
  · rw [if_pos hpast, if_pos hpast]
    rfl
  · rw [if_neg hpast, if_neg hpast]
    rfl

/-- Looking at all reels finds what their refills find. -/
theorem losses_eq (hstrips : strips.length = g.reels) (hstops : stops.length = g.reels) :
    ((List.range g.reels).mapM fun reel =>
        loss g removed (strips.getD reel []) (stops.getD reel 0) reel) =
      ((strips.zip stops).zipIdx.mapM fun x =>
        Cascade.refill g removed x.2 x.1.1 x.1.2).map fun refills =>
          List.zipWith (fun reel => Option.map (Check.lossOf g removed reel)) (List.range g.reels)
            refills := by
  simp only [loss_eq]
  rw [Check.zipIdx_zip_eq_map hstrips hstops, List.mapM_map]
  exact Check.mapM_map_zipWith _ _ _

/-- A pass that has come to another grid and other stops. -/
def regridded (p : Pass σ) (grid : Grid) (stops : List ℕ) : Pass σ :=
  { p with state := p.state.withOutcome { p.state.outcome with grid := grid, stops := stops } }

theorem outcome_bind_run {α : Type} (k : Outcome → PassM σ α) (p : Pass σ) :
    (outcome >>= k) p = k p.state.outcome p := rfl

theorem onGrid_run {α : Type} {m : InPlace α} {a : α} {g' : Grid} (h : m g = (.ok a, g'))
    (p : Pass σ) (stops : List ℕ) :
    onGrid m (regridded p g stops) = (.ok a, regridded p g' stops) := by
  have hgrid : (regridded p g stops).state.outcome.grid = g := rfl
  rw [onGrid, hgrid, h]
  rfl

/-- Refilling a reel whose strip and stop have been looked at does not fail. -/
theorem refillReel_run {p : Pass σ} {reel : ℕ} {g' : Grid} {done : List ℕ}
    (h : Check.Refilling g reel g' done) (hreel : reel < g.reels) (hrows : 0 < g.rows)
    (hstop : reel < stops.length) {r : Cascade.Refill}
    (hrefill : Cascade.refill g removed reel (p.state.outcome.strips.getD reel [])
      (stops.getD reel 0) = .ok (some r)) :
    refillReel removed (Check.lossOf g removed reel r)
        (regridded p g' (done ++ stops.drop reel)) =
      (.ok (), regridded p (Cascade.Refill.write g' r)
        (done ++ r.stop :: stops.drop (reel + 1))) := by
  rcases Cascade.refill_eq_ok hrefill with ⟨-, hnone⟩ | ⟨-, hstopped, hsome⟩
  · cases hnone
  cases hsome
  generalize hstrip : p.state.outcome.strips.getD reel [] = symbols at hstopped
  let strip : Strip := ⟨symbols, List.ne_nil_of_length_pos (Nat.zero_lt_of_lt hstopped)⟩
  have hstrip' : (regridded p g' (done ++ stops.drop reel)).state.outcome.strips.getD reel [] =
      symbols := hstrip
  have hstop' : (regridded p g' (done ++ stops.drop reel)).state.outcome.stops.getD reel 0 =
      stops.getD reel 0 := by
    change (done ++ stops.drop reel).getD reel 0 = _
    rw [List.getD_eq_getElem?_getD, h.getElem?_stops, ← List.getD_eq_getElem?_getD]
  have hraise : Cascade.raise (stops.getD reel 0) (Cascade.gone g removed reel) symbols.length =
      Cascade.stopAbove (stops.getD reel 0) (Cascade.gone g removed reel) symbols.length :=
    Cascade.raise_eq_stopAbove strip.length_pos
  have hfresh : ((List.range (Cascade.gone g removed reel)).map fun i =>
      symbols.getD ((Cascade.stopAbove (stops.getD reel 0) (Cascade.gone g removed reel)
        symbols.length + i) % symbols.length) .empty) =
          Cascade.above symbols (stops.getD reel 0) (Cascade.gone g removed reel) := by
    rw [← Cascade.window_eq_above strip]
    exact List.map_congr_left fun i _ => (Cascade.symbol_eq_getD strip _).symm
  have hstay := h.mapM_get hreel hrows removed
  have hwrite (column : List Symbol) : ((g.column reel).zip column).forM
      (fun cell => InPlace.write cell.2 cell.1) g' =
        (.ok (), Cascade.Refill.write g' ⟨g.column reel, column, 0⟩) :=
    InPlace.forM_writeCell_run fun cell hcell => h.lt_len hreel (List.of_mem_zip hcell).1
  unfold refillReel Check.lossOf
  dsimp only
  rw [outcome_bind_run, hstrip', hstop', hraise, hfresh]
  change (liftM (((g.column reel).filter fun p => !removed.contains p).mapM g'.get) >>= _ :
    PassM σ Unit) _ = _
  rw [bind_run, liftM_run, hstay]
  change (onGrid _ >>= _ : PassM σ Unit) _ = _
  rw [bind_run, onGrid_run (hwrite _)]
  exact congrArg (fun stops => (_, regridded p _ stops)) (h.set_stops hstop _)

/-- Refilling the reels from one on does not fail. -/
theorem forM_refillReel_run {p : Pass σ} (hrows : 0 < g.rows) (hstops : stops.length = g.reels)
    {refills : List (Option Cascade.Refill)} {reel : ℕ} {g' : Grid} {done : List ℕ}
    (hall : reel + refills.length = g.reels) (h : Check.Refilling g reel g' done)
    (hrefills : List.Forall₂ (fun i found => Cascade.refill g removed i
      (p.state.outcome.strips.getD i []) (stops.getD i 0) = .ok found)
        (List.range' reel refills.length) refills) :
    ((List.zipWith (fun i => Option.map (Check.lossOf g removed i))
        (List.range' reel refills.length) refills).filterMap id).forM (refillReel removed)
          (regridded p g' (done ++ stops.drop reel)) =
      (.ok (), regridded p ((refills.filterMap id).foldl Cascade.Refill.write g')
        (done ++ List.zipWith (fun refill stop => (refill.map Cascade.Refill.stop).getD stop)
          refills (stops.drop reel))) := by
  refine Check.Refilling.induction (motive := fun reel g' done refills =>
    ((List.zipWith (fun i => Option.map (Check.lossOf g removed i))
        (List.range' reel refills.length) refills).filterMap id).forM (refillReel removed)
          (regridded p g' (done ++ stops.drop reel)) =
      (.ok (), regridded p ((refills.filterMap id).foldl Cascade.Refill.write g')
        (done ++ List.zipWith (fun refill stop => (refill.map Cascade.Refill.stop).getD stop)
          refills (stops.drop reel))))
    (fun g' done => ?_) (fun reel g' done refills hreel h ih => ?_)
    (fun reel g' done r refills hreel h hfirst ih => ?_) hall h hrefills
  · rw [List.drop_of_length_le (Nat.le_of_eq hstops)]
    rfl
  · have hstop : reel < stops.length := hstops ▸ hreel
    rw [List.length_cons, List.range'_succ, Check.drop_eq_cons hstop, List.append_cons]
    refine ih.trans ?_
    rw [List.append_assoc]
    rfl
  · have hstop : reel < stops.length := hstops ▸ hreel
    rw [List.length_cons, List.range'_succ, List.zipWith_cons_cons, Option.map_some,
      List.filterMap_cons_some (by rfl)]
    change (refillReel removed _ >>= fun _ => List.forM _ _ : PassM σ Unit) _ = _
    rw [bind_run, refillReel_run h hreel hrows hstop hfirst, List.append_cons]
    refine ih.trans ?_
    rw [List.append_assoc, Check.drop_eq_cons hstop]
    rfl

/-- When a cascade has looked at all cells, strips and stops, it does not fail. -/
theorem cascade_enacts (s : RoundState) (bag : Bag) :
    Enacts (σ := σ) d s bag (cascade d) (·, bag) (liftM (Cascade.run s)) := by
  refine .look ?_
  unfold Cascade.run
  dsimp only
  generalize hremoved : ascending (s.outcome.wins.flatMap Win.positions) = removed
  by_cases hnone : removed.isEmpty
  · rw [if_pos hnone, if_pos hnone]
    exact .finished rfl fun _ _ => rfl
  rw [if_neg hnone, if_neg hnone]
  by_cases hshape : s.outcome.strips.length ≠ s.outcome.grid.reels ∨
      s.outcome.stops.length ≠ s.outcome.grid.reels
  · rw [if_pos hshape, if_pos hshape]
    exact .fail rfl rfl
  rw [if_neg hshape, if_neg hshape]
  rw [not_or, not_not, not_not] at hshape
  obtain ⟨hstrips, hstops⟩ := hshape
  rcases hcells : removed.forM fun p => (s.outcome.grid.check p : Except FeatureError Unit)
    with e | ⟨⟩
  · exact .fail rfl rfl
  have hrows := Check.rows_pos_of_cells (mt List.isEmpty_iff.mpr hnone) hcells
  rw [losses_eq hstrips hstops]
  rcases hrefills : (s.outcome.strips.zip s.outcome.stops).zipIdx.mapM
    fun (x : (List Symbol × ℕ) × ℕ) => Cascade.refill s.outcome.grid removed x.2 x.1.1 x.1.2
    with e | refills
  · exact .fail rfl rfl
  rw [Check.zipIdx_zip_eq_map hstrips hstops, List.mapM_map] at hrefills
  have hall := Yields.mapM (m := Except DataError) _ _ refills hrefills
  have hlength : refills.length = s.outcome.grid.reels := by
    rw [← hall.length_eq, List.length_range]
  have hstart : Check.Refilling s.outcome.grid 0 s.outcome.grid [] :=
    ⟨rfl, rfl, fun _ _ _ => rfl, rfl⟩
  refine .finished rfl fun source visits => ?_
  have hself : regridded (⟨source, visits, s, bag⟩ : Pass σ) s.outcome.grid s.outcome.stops =
      ⟨source, visits, s, bag⟩ := congrArg (Pass.mk source visits · bag) s.withOutcome_self
  rw [← hlength, List.range_eq_range'] at hall ⊢
  have hrun := forM_refillReel_run (p := ⟨source, visits, s, bag⟩) hrows hstops (by omega)
    hstart hall
  refine (liftM_bind_run rfl _ _).trans ((liftM_bind_run rfl _ _).trans ?_)
  refine (bind_run _ _ _).trans ?_
  rw [List.nil_append, List.drop_zero, hself] at hrun
  dsimp only
  rw [hrun]
  rfl

end Edit

end SlotOutcome
