import SlotOutcome.Proofs.Cascades
import SlotOutcome.Proofs.CheckedSteps

/-!
# Cascades with a check

A cascade goes over the reels twice. The first time it looks at the strip and the stop of every reel
that loses cells, before it writes anything. The second time it reads the strip at the stop above,
takes the symbols that stay from the grid as it is by then, and writes the column and the stop. What
the second time does is in range because of what the first time has checked, and since the reels
before have written cells and stops of their own only.

## Main definitions

* `Check.loss`, `Check.refillReel`: a reel the first time and the second time.
* `Check.cascade`: a cascade with its steps checked.

## Main results

* `Check.refillReel_eq`: refilling a reel is never out of range once all reels have been looked at.
* `Check.cascade_eq`: a cascade with its steps checked is the cascade.
-/

namespace SlotOutcome

namespace Check

variable {σ : Type}

/-! ### Computations without draws -/

section Lift

variable {α β γ : Type}

/-- A plan that begins with reading data that is mapped first. -/
theorem lift_map_bind {x : Except DataError α} {f : α → β} {k : β → PlanM (Checked σ) γ}
    {k' : α → Except FeatureError γ} (h : ∀ a, k (f a) = liftM (k' a)) :
    (liftM (x.map f) : PlanM (Checked σ) β) >>= k =
      liftM ((liftM x : Except FeatureError α) >>= k') := by
  rcases x with e | a
  · rfl
  · exact h a

theorem mapM_lift {f : α → PlanM (Checked σ) β} {k : α → Except DataError β} {items : List α}
    (h : ∀ a ∈ items, f a = liftM (k a)) : items.mapM f = liftM (items.mapM k) := by
  induction items with
  | nil => rfl
  | cons a rest ih =>
    obtain ⟨ha, hrest⟩ := List.forall_mem_cons.mp h
    rw [List.mapM_cons, List.mapM_cons, ha, ih hrest]
    rcases k a with e | b
    · rfl
    · rcases rest.mapM k with e | bs <;> rfl

theorem forM_lift {f : α → PlanM (Checked σ) PUnit} {k : α → Except FeatureError PUnit}
    (h : ∀ a, f a = liftM (k a)) (items : List α) : items.forM f = liftM (items.forM k) := by
  induction items with
  | nil => rfl
  | cons a rest ih =>
    change f a >>= (fun _ => rest.forM f) = liftM (k a >>= fun _ => rest.forM k)
    rw [h a, ih]
    rcases k a with e | b <;> rfl

end Lift

/-! ### The reels that lose cells -/

/-- A reel that loses so many cells. -/
structure Loss where
  reel : Nat
  positions : List Nat
  gone : Nat

/-- The loss of a reel, or nothing where no cell goes. Its strip and its stop are looked at. -/
def loss (g : Grid) (removed : List Nat) (strips : List (List Symbol)) (stops : List Nat)
    (reel : Nat) : PlanM (Checked σ) (Option Loss) := do
  let positions ← (g.reelPositions reel : Except DataError (List Nat))
  let gone := positions.countP removed.contains
  if gone = 0 then return none
  let strip ← item strips reel
  if strip.isEmpty then
    throw (.data (.malformed ("reel " ++ toString reel ++ " has an empty strip")))
  let stop ← item stops reel
  if strip.length ≤ stop then
    throw (.data (.malformed ("reel " ++ toString reel ++ " stop " ++ toString stop ++
      " outside strip of " ++ toString strip.length)))
  return some ⟨reel, positions, gone⟩

/-- Refills a reel: the symbols above its stop come in on top of those that stay. -/
def refillReel (removed : List Nat) (strips : List (List Symbol)) :
    Grid × List Nat → Loss → PlanM (Checked σ) (Grid × List Nat)
  | (grid, stops), ⟨reel, positions, gone⟩ => do
    let strip ← item strips reel
    let down ← difference ((← item stops reel) + strip.length) (← remainder gone strip.length)
    let stop ← remainder down strip.length
    let fresh ← window strip stop gone
    let stay ← (positions.filter fun p => !removed.contains p).mapM (readCell grid)
    let grid ← writeCells grid (positions.zip (fresh ++ stay))
    return (grid, ← replaced stops reel stop)

/-- The grid and the stops with all reels refilled. All reels are looked at before the first of them
is written. -/
def refillReels (g : Grid) (removed : List Nat) (strips : List (List Symbol)) (stops : List Nat) :
    PlanM (Checked σ) (Grid × List Nat) := do
  let losses ← (List.range g.reels).mapM (loss g removed strips stops)
  (losses.filterMap id).foldlM (refillReel removed strips) (g, stops)

/-- Removes the cells of the wins, refills the reels and asks for a cascade step. -/
def cascade (s : RoundState) : PlanM (Checked σ) (Option Change) := do
  let o := s.outcome
  let removed := ascending (o.wins.flatMap Win.positions)
  if removed.isEmpty then return none
  if o.strips.length ≠ o.grid.reels ∨ o.stops.length ≠ o.grid.reels then
    throw (.logic "cascade needs the reel strips and stops of the grid")
  removed.forM fun p => do let _ ← cell o.grid p
  let (grid, stops) ← refillReels o.grid removed o.strips o.stops
  let step := o.cascade.step + 1
  return some {
    outcome := { o with
      grid := grid
      stops := stops
      cascade := ⟨step, removed⟩
      nextPhase := some .cascade }
    payload := Payload.cascade step removed }

variable {g : Grid} {removed : List Nat} {strips : List (List Symbol)} {stops : List Nat}

/-- A reel that loses cells, as its refill has it. -/
def lossOf (g : Grid) (removed : List Nat) (reel : Nat) (r : Cascade.Refill) : Loss :=
  ⟨reel, r.positions, Cascade.gone g removed reel⟩

/-- Looking at a reel finds what its refill finds. -/
theorem loss_eq (hstrips : strips.length = g.reels) (hstops : stops.length = g.reels) {reel : Nat}
    (hreel : reel < g.reels) :
    (loss g removed strips stops reel : PlanM (Checked σ) (Option Loss)) =
      liftM ((Cascade.refill g removed reel (strips.getD reel []) (stops.getD reel 0)).map
        (Option.map (lossOf g removed reel))) := by
  have hstrip : reel < strips.length := hstrips ▸ hreel
  have hstop : reel < stops.length := hstops ▸ hreel
  rcases hpositions : g.reelPositions reel with e | positions
  · rw [loss, Cascade.refill, hpositions]
    rfl
  obtain ⟨-, hrows, rfl⟩ := Grid.reelPositions_eq_ok.mp hpositions
  have hstrip' : strips.getD reel [] = strips[reel] := by simp [hstrip]
  have hstop' : stops.getD reel 0 = stops[reel] := by simp [hstop]
  rw [Cascade.refill_eq hreel hrows, loss, hpositions, hstrip', hstop']
  change (if Cascade.gone g removed reel = 0 then _ else _) = _
  by_cases hzero : Cascade.gone g removed reel = 0
  · rw [if_pos hzero, if_pos hzero]
    rfl
  rw [if_neg hzero, if_neg hzero, item_of_lt hstrip, pure_bind]
  by_cases hnil : strips[reel] = []
  · rw [if_pos (List.isEmpty_iff.mpr hnil), if_pos hnil]
    rfl
  rw [if_neg (mt List.isEmpty_iff.mp hnil), if_neg hnil, item_of_lt hstop]
  by_cases hpast : strips[reel].length ≤ stops[reel]
  · simp only [pure_bind, if_pos hpast]
    rfl
  · simp only [pure_bind, if_neg hpast]
    rfl

/-! ### The refills -/

/-- A cascade that has refilled the reels before one: the cells of the other reels are as before,
and there is a stop for each reel. -/
structure Refilling (g : Grid) (reel : Nat) (g' : Grid) (done : List Nat) : Prop where
  reels : g'.reels = g.reels
  rows : g'.rows = g.rows
  cells : ∀ q < g.len, reel ≤ q / g.rows → g'.cells[q]? = g.cells[q]?
  length : done.length = reel

namespace Refilling

variable {reel : Nat} {g' : Grid} {done : List Nat}

theorem len_eq (h : Refilling g reel g' done) : g'.len = g.len := by
  rw [Grid.len_eq, Grid.len_eq, h.reels, h.rows]

theorem lt_len (h : Refilling g reel g' done) (hreel : reel < g.reels) {p : Nat}
    (hp : p ∈ g.column reel) : p < g'.len :=
  h.len_eq ▸ Grid.lt_len_of_mem_column hreel hp

/-- The stop of the next reel is as before. -/
theorem getElem?_stops (h : Refilling g reel g' done) (stops : List Nat) :
    (done ++ stops.drop reel)[reel]? = stops[reel]? := by
  rw [List.getElem?_append_right (Nat.le_of_eq h.length), h.length, Nat.sub_self,
    List.getElem?_drop, Nat.add_zero]

/-- A new stop for the next reel stands after those that are done. -/
theorem set_stops (h : Refilling g reel g' done) {stops : List Nat} (hstop : reel < stops.length)
    (stop : Nat) :
    (done ++ stops.drop reel).set reel stop = done ++ stop :: stops.drop (reel + 1) := by
  rw [List.drop_eq_getElem_cons hstop, List.set_append_right _ _ (Nat.le_of_eq h.length),
    h.length, Nat.sub_self]
  rfl

/-- The symbols that stay on the next reel are those of the grid before. -/
theorem mapM_get (h : Refilling g reel g' done) (hreel : reel < g.reels) (hrows : 0 < g.rows)
    (removed : List Nat) : ((g.column reel).filter fun p => !removed.contains p).mapM g'.get =
      .ok (Cascade.staying g removed reel) := by
  refine mapM_eq_pure_map (m := Except DataError) fun p hp => ?_
  have hp := (List.mem_filter.mp hp).1
  have hlt := Grid.lt_len_of_mem_column hreel hp
  have hcell := h.cells p hlt (Nat.le_of_eq ((Grid.mem_column_iff hrows).mp hp).symm)
  rw [Grid.get_of_lt (h.len_eq ▸ hlt), List.getD_eq_getElem?_getD, hcell,
    ← List.getD_eq_getElem?_getD]
  rfl

end Refilling

/-- Refilling a reel whose strip and stop have been looked at is never out of range. -/
theorem refillReel_eq {reel : Nat} {g' : Grid} {done : List Nat} (h : Refilling g reel g' done)
    (hreel : reel < g.reels) (hrows : 0 < g.rows) (hstrip : reel < strips.length)
    (hstop : reel < stops.length) {r : Cascade.Refill}
    (hrefill : Cascade.refill g removed reel strips[reel] stops[reel] = .ok (some r)) :
    (refillReel removed strips (g', done ++ stops.drop reel) (lossOf g removed reel r) :
        PlanM (Checked σ) (Grid × List Nat)) =
      pure (Cascade.Refill.write g' r, done ++ r.stop :: stops.drop (reel + 1)) := by
  rcases Cascade.refill_eq_ok hrefill with ⟨-, hnone⟩ | ⟨-, hstopped, hsome⟩
  · cases hnone
  cases hsome
  have hnil : strips[reel] ≠ [] := List.ne_nil_of_length_pos (by omega)
  let strip : Strip := ⟨strips[reel], hnil⟩
  have hlength : 0 < strips[reel].length := strip.length_pos
  have hturns : Cascade.gone g removed reel % strips[reel].length < strips[reel].length :=
    Nat.mod_lt _ hlength
  obtain ⟨hstop', hsame⟩ := List.getElem?_eq_some_iff.mp
    ((h.getElem?_stops stops).trans (List.getElem?_eq_getElem hstop))
  have hraise : (stops[reel] + strips[reel].length -
      Cascade.gone g removed reel % strips[reel].length) % strips[reel].length =
        Cascade.stopAbove stops[reel] (Cascade.gone g removed reel) strips[reel].length :=
    Cascade.raise_eq_stopAbove hlength
  have hwindow : (window strips[reel] (Cascade.stopAbove stops[reel] (Cascade.gone g removed reel)
      strips[reel].length) (Cascade.gone g removed reel) : PlanM (Checked σ) (List Symbol)) =
        pure (Cascade.above strips[reel] stops[reel] (Cascade.gone g removed reel)) := by
    rw [← Cascade.window_eq_above strip]
    exact window_eq strip _ _
  have hstay : (((g.column reel).filter fun p => !removed.contains p).mapM (readCell g') :
      PlanM (Checked σ) (List Symbol)) = pure (Cascade.staying g removed reel) := by
    rw [mapM_lift fun p _ => readCell_eq g' p, h.mapM_get hreel hrows]
    rfl
  have hwrite (column : List Symbol) : (writeCells g' ((g.column reel).zip column) :
      PlanM (Checked σ) Grid) = pure (Cascade.Refill.write g' ⟨g.column reel, column, 0⟩) :=
    writeCells_eq g' fun cell hcell => h.lt_len hreel (List.of_mem_zip hcell).1
  unfold refillReel lossOf
  dsimp only
  rw [item_of_lt hstrip, pure_bind, item_of_lt hstop', pure_bind, hsame,
    remainder_of_pos hlength, pure_bind, difference_of_le (by omega), pure_bind,
    remainder_of_pos hlength, pure_bind, hraise, hwindow, pure_bind, hstay, pure_bind, hwrite,
    pure_bind, replaced_of_lt hstop', pure_bind, h.set_stops hstop]
  rfl

/-- Refilling a reel leaves the reels after it. -/
theorem Refilling.write {reel : Nat} {g' : Grid} {done : List Nat} (h : Refilling g reel g' done)
    {symbols : List Symbol} {stop : Nat} {r : Cascade.Refill}
    (hrefill : Cascade.refill g removed reel symbols stop = .ok (some r)) :
    Refilling g (reel + 1) (Cascade.Refill.write g' r) (done ++ [r.stop]) := by
  have hfits : r.Fits g'.rows reel := by
    rcases Cascade.refill_eq_ok hrefill with ⟨-, hnone⟩ | ⟨-, -, hsome⟩
    · cases hnone
    · cases hsome
      rw [h.rows]
      exact ⟨rfl, Cascade.length_refilled _ _ _ _ _⟩
  refine ⟨?_, ?_, fun q hq hlater => ?_, by simp [h.length]⟩
  · rw [Cascade.Refill.reels_write, h.reels]
  · rw [Cascade.Refill.rows_write, h.rows]
  · have hq' : q < g'.len := by rwa [Grid.len_eq, h.reels, h.rows, ← Grid.len_eq]
    rw [hfits.getElem?_write hq', h.rows, if_neg (by omega)]
    exact h.cells q hq (by omega)

/-- What holds when all reels have been gone over, and holds before a reel whenever it holds after
it, holds before any of them. -/
theorem Refilling.induction {motive : Nat → Grid → List Nat → List (Option Cascade.Refill) → Prop}
    (finished : ∀ g' done, motive g.reels g' done [])
    (stays : ∀ reel g' done refills, reel < g.reels → Refilling g reel g' done →
      motive (reel + 1) g' (done ++ [stops.getD reel 0]) refills →
        motive reel g' done (none :: refills))
    (refilled : ∀ reel g' done r refills, reel < g.reels → Refilling g reel g' done →
      Cascade.refill g removed reel (strips.getD reel []) (stops.getD reel 0) = .ok (some r) →
      motive (reel + 1) (Cascade.Refill.write g' r) (done ++ [r.stop]) refills →
        motive reel g' done (some r :: refills))
    {refills : List (Option Cascade.Refill)} {reel : Nat} {g' : Grid} {done : List Nat}
    (hall : reel + refills.length = g.reels) (h : Refilling g reel g' done)
    (hrefills : List.Forall₂ (fun i found => Cascade.refill g removed i (strips.getD i [])
      (stops.getD i 0) = .ok found) (List.range' reel refills.length) refills) :
    motive reel g' done refills := by
  induction refills generalizing reel g' done with
  | nil =>
    obtain rfl : reel = g.reels := hall
    exact finished g' done
  | cons found refills ih =>
    rw [List.length_cons] at hall hrefills
    rw [List.range'_succ] at hrefills
    obtain ⟨hfirst, hrest⟩ := List.forall₂_cons.mp hrefills
    rcases found with _ | r
    · have hnext : Refilling g (reel + 1) g' (done ++ [stops.getD reel 0]) :=
        ⟨h.reels, h.rows, fun q hq hlater => h.cells q hq (by omega), by simp [h.length]⟩
      exact stays reel g' done refills (by omega) h (ih (by omega) hnext hrest)
    · exact refilled reel g' done r refills (by omega) h hfirst
        (ih (by omega) (h.write hfirst) hrest)

theorem drop_eq_cons {reel : Nat} (hreel : reel < stops.length) :
    stops.drop reel = stops.getD reel 0 :: stops.drop (reel + 1) := by
  rw [List.drop_eq_getElem_cons hreel, List.getD_eq_getElem?_getD, List.getElem?_eq_getElem hreel]
  rfl

/-- Refilling the reels from one on. -/
theorem foldlM_refillReel (hstrips : strips.length = g.reels) (hstops : stops.length = g.reels)
    (hrows : 0 < g.rows) {refills : List (Option Cascade.Refill)} {reel : Nat} {g' : Grid}
    {done : List Nat} (hall : reel + refills.length = g.reels) (h : Refilling g reel g' done)
    (hrefills : List.Forall₂ (fun i found => Cascade.refill g removed i (strips.getD i [])
      (stops.getD i 0) = .ok found) (List.range' reel refills.length) refills) :
    ((List.zipWith (fun i => Option.map (lossOf g removed i)) (List.range' reel refills.length)
        refills).filterMap id).foldlM (refillReel removed strips) (g', done ++ stops.drop reel) =
      (pure ((refills.filterMap id).foldl Cascade.Refill.write g',
        done ++ List.zipWith (fun refill stop => (refill.map Cascade.Refill.stop).getD stop) refills
          (stops.drop reel)) : PlanM (Checked σ) (Grid × List Nat)) := by
  refine Refilling.induction (motive := fun reel g' done refills =>
    ((List.zipWith (fun i => Option.map (lossOf g removed i)) (List.range' reel refills.length)
        refills).filterMap id).foldlM (refillReel removed strips) (g', done ++ stops.drop reel) =
      (pure ((refills.filterMap id).foldl Cascade.Refill.write g',
        done ++ List.zipWith (fun refill stop => (refill.map Cascade.Refill.stop).getD stop) refills
          (stops.drop reel)) : PlanM (Checked σ) (Grid × List Nat)))
    (fun g' done => ?_) (fun reel g' done refills hreel h ih => ?_)
    (fun reel g' done r refills hreel h hfirst ih => ?_) hall h hrefills
  · simp [List.drop_of_length_le (Nat.le_of_eq hstops)]
  · have hstop : reel < stops.length := hstops ▸ hreel
    rw [List.length_cons, List.range'_succ, drop_eq_cons hstop, List.append_cons]
    refine ih.trans ?_
    rw [List.append_assoc]
    rfl
  · have hstrip : reel < strips.length := hstrips ▸ hreel
    have hstop : reel < stops.length := hstops ▸ hreel
    rw [show strips.getD reel [] = strips[reel] by simp [hstrip],
      show stops.getD reel 0 = stops[reel] by simp [hstop]] at hfirst
    rw [List.length_cons, List.range'_succ, List.zipWith_cons_cons, Option.map_some,
      List.filterMap_cons_some (by rfl), List.foldlM_cons,
      refillReel_eq h hreel hrows hstrip hstop hfirst, pure_bind, List.append_cons]
    refine ih.trans ?_
    rw [List.append_assoc, drop_eq_cons hstop]
    rfl

/-- The reels with their strips and stops, one after the other. -/
theorem zipIdx_zip_eq_map (hstrips : strips.length = g.reels) (hstops : stops.length = g.reels) :
    (strips.zip stops).zipIdx = (List.range g.reels).map fun reel =>
      ((strips.getD reel [], stops.getD reel 0), reel) := by
  refine List.ext_getElem (by simp [hstrips, hstops]) fun reel h _ => ?_
  have hreel : reel < g.reels := by simpa [hstrips, hstops] using h
  simp [hstrips, hstops, hreel]

/-- Mapping the results of computations, item by item. -/
theorem mapM_map_zipWith {α β γ ε : Type} (f : α → Except ε β) (k : α → β → γ) (items : List α) :
    (items.mapM fun a => (f a).map (k a)) = (items.mapM f).map (List.zipWith k items) := by
  induction items with
  | nil => rfl
  | cons a rest ih =>
    rw [List.mapM_cons, List.mapM_cons, ih]
    rcases f a with e | b
    · rfl
    · rcases rest.mapM f with e | bs <;> rfl

/-- Looking at all reels finds what their refills find. -/
theorem losses_eq (hstrips : strips.length = g.reels) (hstops : stops.length = g.reels) :
    ((List.range g.reels).mapM (loss g removed strips stops) :
        PlanM (Checked σ) (List (Option Loss))) =
      liftM (((strips.zip stops).zipIdx.mapM fun x =>
        Cascade.refill g removed x.2 x.1.1 x.1.2).map fun refills =>
          List.zipWith (fun reel => Option.map (lossOf g removed reel)) (List.range g.reels)
            refills) := by
  rw [zipIdx_zip_eq_map hstrips hstops, List.mapM_map]
  exact (mapM_lift fun reel hreel => loss_eq hstrips hstops (List.mem_range.mp hreel)).trans
    (congrArg _ (mapM_map_zipWith _ _ _))

/-- Looking at the removed cells is looking at their bounds. -/
theorem cells_eq (g : Grid) (removed : List Nat) :
    (removed.forM fun p => do let _ ← cell g p : PlanM (Checked σ) Unit) =
      liftM (removed.forM fun p => (g.check p : Except FeatureError Unit)) := by
  refine forM_lift (fun p => ?_) removed
  rw [cell_eq, Grid.cell]
  rcases g.check p with e | ⟨⟩ <;> rfl

/-- A grid with a cell has rows. -/
theorem rows_pos_of_cells {g : Grid} {removed : List Nat} (hremoved : removed ≠ [])
    (h : removed.forM (fun p => (g.check p : Except FeatureError Unit)) = .ok ()) :
    0 < g.rows := by
  obtain ⟨p, hp⟩ := List.exists_mem_of_ne_nil removed hremoved
  have hcheck := forM_eq_ok.mp h p hp
  by_cases hlt : p < g.len
  · exact (Grid.reel_of_position hlt).2
  · rw [Grid.check, if_neg hlt] at hcheck
    cases hcheck

/-- Refilling all reels is never out of range. -/
theorem refillReels_eq (hstrips : strips.length = g.reels) (hstops : stops.length = g.reels)
    (hrows : 0 < g.rows) :
    (refillReels g removed strips stops : PlanM (Checked σ) (Grid × List Nat)) =
      liftM (((strips.zip stops).zipIdx.mapM fun x =>
        Cascade.refill g removed x.2 x.1.1 x.1.2).map fun refills =>
          ((refills.filterMap id).foldl Cascade.Refill.write g,
            List.zipWith (fun refill stop => (refill.map Cascade.Refill.stop).getD stop) refills
              stops)) := by
  unfold refillReels
  rw [losses_eq hstrips hstops]
  rcases hrefills : (strips.zip stops).zipIdx.mapM fun (x : (List Symbol × Nat) × Nat) =>
    Cascade.refill g removed x.2 x.1.1 x.1.2 with e | refills
  · rfl
  rw [zipIdx_zip_eq_map hstrips hstops, List.mapM_map] at hrefills
  have hall := Yields.mapM (m := Except DataError) _ _ refills hrefills
  have hlength : refills.length = g.reels := by rw [← hall.length_eq, List.length_range]
  have hstart : Refilling g 0 g [] := ⟨rfl, rfl, fun _ _ _ => rfl, rfl⟩
  rw [← hlength, List.range_eq_range'] at hall ⊢
  exact foldlM_refillReel hstrips hstops hrows (by omega) hstart hall

/-- A cascade with its steps checked is the cascade. -/
theorem cascade_eq (s : RoundState) :
    (cascade s : PlanM (Checked σ) (Option Change)) = liftM (Cascade.run s) := by
  unfold cascade Cascade.run
  dsimp only
  by_cases hremoved : (ascending (s.outcome.wins.flatMap Win.positions)).isEmpty
  · rw [if_pos hremoved, if_pos hremoved]
    rfl
  rw [if_neg hremoved, if_neg hremoved]
  by_cases hshape : s.outcome.strips.length ≠ s.outcome.grid.reels ∨
      s.outcome.stops.length ≠ s.outcome.grid.reels
  · rw [if_pos hshape, if_pos hshape]
    rfl
  rw [if_neg hshape, if_neg hshape]
  rw [not_or, not_not, not_not] at hshape
  obtain ⟨hstrips, hstops⟩ := hshape
  generalize ascending (s.outcome.wins.flatMap Win.positions) = removed at *
  rw [cells_eq]
  rcases hcells : removed.forM fun p => (s.outcome.grid.check p : Except FeatureError Unit)
    with e | ⟨⟩
  · rfl
  have hrows := rows_pos_of_cells (mt List.isEmpty_iff.mpr hremoved) hcells
  rw [refillReels_eq hstrips hstops hrows]
  exact lift_map_bind fun _ => rfl

end Check

end SlotOutcome
