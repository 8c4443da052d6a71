import SlotOutcome.Proofs.DroppedWilds
import SlotOutcome.Proofs.SpunReels

/-!
# The views of a grid

A cell of a grid is named by its reel and row or by its linear position, and its symbol can be read
in five ways: at the position, at the cell, in the symbols of its reel, at the positions of its
reel, and in the columns of the whole grid. All of them agree, also on grids without rows or without
reels, which have no cells.

Writing to a grid gives another grid. A grid that is changed in place goes through all the grids in
between, and a failure leaves the one that it has come to. Writing one symbol to several positions
checks all of them first, so it never stops half way.

## Main definitions

* `Grid.ReadsAs`: what all views show of a cell.
* `InPlace.writeAll`: writing one symbol to several positions in place.
* `Grid.ViewsAgree`: the laws of the views of a grid.

## Main results

* `Grid.cell_eq_ok_iff`: positions and cells name each other.
* `Grid.exists_readsAs`: the views agree on every cell.
* `InPlace.writeAll_run_of_bounds`, `InPlace.writeAll_run_of_find?`: all listed cells are written,
  or none.
* `Grid.ofReels_toReels`: a grid is made of its columns, unless it has none.
* `Grid.viewsAgree`: all of it together.
-/

namespace SlotOutcome

namespace Grid

variable {g : Grid} {reel row p : ℕ}

/-! ### Positions and cells -/

/-- The position of a cell leads back to the cell. -/
theorem cellOfPosition_linearPosition {rows : ℕ} (hrow : row < rows) :
    cellOfPosition rows (linearPosition rows reel row) = (reel, row) := by
  rw [cellOfPosition, if_neg (Nat.ne_zero_of_lt hrow), reel_of_linearPosition hrow,
    row_of_linearPosition hrow]

theorem check_eq_ok : g.check p = .ok () ↔ p < g.len := by
  unfold check
  split
  · next h => exact iff_of_true rfl h
  · next h => exact iff_of_false nofun h

theorem cell_eq_ok {cell : ℕ × ℕ} :
    g.cell p = .ok cell ↔ p < g.len ∧ cellOfPosition g.rows p = cell := by
  rw [Grid.cell, bind_eq_ok]
  constructor
  · rintro ⟨_, hcheck, hcell⟩
    exact ⟨check_eq_ok.mp hcheck, Except.ok.inj hcell⟩
  · rintro ⟨hp, rfl⟩
    exact ⟨(), check_eq_ok.mpr hp, rfl⟩

/-- The cell of a position is the one that has this position. -/
theorem cell_eq_ok_iff : g.cell p = .ok (reel, row) ↔ g.position reel row = .ok p := by
  rw [cell_eq_ok, position_eq_ok]
  constructor
  · rintro ⟨hp, hcell⟩
    obtain ⟨reel', hreel, row', hrow, rfl⟩ := exists_linearPosition hp
    rw [cellOfPosition_linearPosition hrow] at hcell
    cases hcell
    exact ⟨⟨hreel, hrow⟩, rfl⟩
  · rintro ⟨⟨hreel, hrow⟩, rfl⟩
    exact ⟨linearPosition_lt hreel hrow, cellOfPosition_linearPosition hrow⟩

/-- Exactly the cells within the shape have a position. -/
theorem exists_position_iff :
    (∃ p, g.position reel row = .ok p) ↔ reel < g.reels ∧ row < g.rows := by
  simp only [position_eq_ok, exists_and_left, exists_eq, and_true]

/-- Exactly the positions below the length have a cell. -/
theorem exists_cell_iff : (∃ cell, g.cell p = .ok cell) ↔ p < g.len := by
  simp only [cell_eq_ok, exists_and_left, exists_eq', and_true]

/-! ### Reading a cell -/

/-- What the views show of a cell and its position: they all show one symbol. -/
structure ReadsAs (g : Grid) (reel row p : ℕ) (symbol : Symbol) : Prop where
  get_eq : g.get p = .ok symbol
  symbolAt_eq : g.symbolAt reel row = .ok symbol
  reel_eq : ∃ column, g.reel reel = .ok column ∧ column.length = g.rows ∧
    column[row]? = some symbol
  reelPositions_eq : ∃ positions, g.reelPositions reel = .ok positions ∧
    positions.length = g.rows ∧ positions[row]? = some p
  toReels_eq : ∃ column, g.toReels[reel]? = some column ∧ column[row]? = some symbol

theorem getElem?_toReels (hreel : reel < g.reels) :
    g.toReels[reel]? = some ((g.cells.drop (reel * g.rows)).take g.rows) := by
  rw [toReels, List.getElem?_map, List.getElem?_range hreel, Option.map_some]

theorem length_toReels (g : Grid) : g.toReels.length = g.reels := by
  rw [toReels, List.length_map, List.length_range]

/-- The columns of a grid are as high as it has rows, also if it has none. -/
theorem length_of_mem_toReels {column : List Symbol} (h : column ∈ g.toReels) :
    column.length = g.rows := by
  obtain ⟨reel, hreel, rfl⟩ := List.mem_map.mp h
  have hbound : (reel + 1) * g.rows ≤ g.cells.length := by
    rw [g.length_cells]
    exact Nat.mul_le_mul_right _ (List.mem_range.mp hreel)
  rw [Nat.succ_mul] at hbound
  rw [List.length_take, List.length_drop]
  omega

/-- The views agree on the symbol of every cell. -/
theorem exists_readsAs (h : g.position reel row = .ok p) :
    ∃ symbol, g.ReadsAs reel row p symbol := by
  obtain ⟨⟨hreel, hrow⟩, rfl⟩ := position_eq_ok.mp h
  have hrows : 0 < g.rows := Nat.zero_lt_of_lt hrow
  have hlt := linearPosition_lt hreel hrow
  have hcell : g.cells[linearPosition g.rows reel row]? = some _ := List.getElem?_eq_getElem hlt
  obtain ⟨hlength, hcolumn⟩ := (reel_eq_ok hreel hrows).mp (reel_of_lt hreel hrows)
  have hsymbol := (hcolumn row hrow).trans hcell
  refine ⟨g.cells[linearPosition g.rows reel row], ?_, (symbolAt_eq_ok hreel hrow).mpr hcell,
    ⟨_, reel_of_lt hreel hrows, hlength, hsymbol⟩,
    ⟨_, reelPositions_eq_ok.mpr ⟨hreel, hrows, rfl⟩, g.length_column reel, ?_⟩,
    ⟨_, getElem?_toReels hreel, hsymbol⟩⟩
  · rw [get, hcell]
  · rw [column, List.getElem?_range' hrow, Nat.one_mul]
    rfl

/-! ### Positions of a symbol -/

theorem get_eq_ok {symbol : Symbol} : g.get p = .ok symbol ↔ g.cells[p]? = some symbol := by
  unfold get
  rcases g.cells[p]? with _ | found
  · exact iff_of_false nofun nofun
  · rw [Except.ok.injEq, Option.some.injEq]

theorem mem_positionsOf_iff_get {symbol : Symbol} :
    p ∈ g.positionsOf symbol ↔ g.get p = .ok symbol :=
  mem_positionsOf.trans get_eq_ok.symm

/-! ### Writing one symbol to several positions -/

/-- Checking several positions fails at the first one that is out of bounds. -/
theorem forM_check_eq (positions : List ℕ) : positions.forM g.check =
    match positions.find? (g.len ≤ ·) with
      | none => .ok ()
      | some bad => .error (.positionOutOfBounds bad g.len) := by
  induction positions with
  | nil => rfl
  | cons p positions ih =>
    change (g.check p >>= fun _ => positions.forM g.check) = _
    rw [ih, check, List.find?_cons]
    by_cases hp : p < g.len
    · simp only [hp, ↓reduceIte, Nat.not_le_of_lt hp, decide_false]
      rfl
    · simp only [hp, ↓reduceIte, Nat.le_of_not_lt hp, decide_true]
      rfl

theorem setAll_of_find? {positions : List ℕ} {bad : ℕ}
    (h : positions.find? (g.len ≤ ·) = some bad) (symbol : Symbol) :
    g.setAll positions symbol = .error (.positionOutOfBounds bad g.len) := by
  rw [setAll, forM_check_eq, h]
  rfl

end Grid

/-! ### Writing in place -/

/-- Computations that change a grid in place. When one fails, the grid stays as far as it was
changed. -/
abbrev InPlace := ExceptT DataError (StateM Grid)

namespace InPlace

/-- Whether a position is one of the grid. -/
def check (position : ℕ) : InPlace Unit := do
  (← get).check position

/-- Replaces the symbol at a position. -/
def write (symbol : Symbol) (position : ℕ) : InPlace Unit := do
  let written ← (← get).set position symbol
  set written

/-- Checks several positions one by one, and then replaces the symbols there one by one. -/
def writeAll (positions : List ℕ) (symbol : Symbol) : InPlace Unit := do
  positions.forM check
  positions.forM (write symbol)

variable {g : Grid} {positions : List ℕ} {symbol : Symbol}

/-- Checking positions writes nothing. -/
theorem forM_check_run (positions : List ℕ) :
    positions.forM check g = (positions.forM g.check, g) := by
  induction positions with
  | nil => rfl
  | cons p positions ih =>
    have hcheck : check p g = (g.check p, g) := rfl
    change (check p >>= fun _ => positions.forM check) g =
      (g.check p >>= fun _ => positions.forM g.check, g)
    rw [bind_run, hcheck]
    rcases g.check p with e | ⟨⟩
    · rfl
    · exact ih

/-- Cells of the grid are all written, each with its own symbol. -/
theorem forM_writeCell_run {cells : List (ℕ × Symbol)} (h : ∀ cell ∈ cells, cell.1 < g.len) :
    (cells.forM fun cell => write cell.2 cell.1) g =
      (.ok (), cells.foldl (fun g cell => g.write cell.1 cell.2) g) := by
  induction cells generalizing g with
  | nil => rfl
  | cons cell cells ih =>
    obtain ⟨hp, hrest⟩ := List.forall_mem_cons.mp h
    have hset : g.set cell.1 cell.2 = .ok (g.write cell.1 cell.2) := by
      rw [Grid.set, Grid.check_eq_ok.mpr hp]
      rfl
    have hwrite : write cell.2 cell.1 g = (.ok (), g.write cell.1 cell.2) := by
      change (liftM (g.set cell.1 cell.2) >>= fun written => (set written : InPlace Unit) :
        InPlace Unit) g = _
      rw [hset]
      rfl
    have hbounds : ∀ cell' ∈ cells, cell'.1 < (g.write cell.1 cell.2).len := by
      intro cell' hcell
      rw [Grid.len_eq, Grid.reels_write, Grid.rows_write, ← Grid.len_eq]
      exact hrest cell' hcell
    change (write cell.2 cell.1 >>= fun _ => cells.forM fun cell => write cell.2 cell.1) g = _
    rw [bind_run, hwrite]
    exact ih hbounds

/-- Positions of the grid are all written. -/
theorem forM_write_run (h : g.Bounds positions) :
    positions.forM (write symbol) g = (.ok (), g.writeAll positions symbol) := by
  have hcells : ∀ cell ∈ positions.map (·, symbol), cell.1 < g.len :=
    List.forall_mem_map.mpr h
  have hrun := forM_writeCell_run hcells
  rwa [List.forM_eq_forM, List.forM_map, List.foldl_map] at hrun

/-- Positions of the grid are written in place as they are written to give another grid. -/
theorem writeAll_run_of_bounds (h : g.Bounds positions) (symbol : Symbol) :
    writeAll positions symbol g = (.ok (), g.writeAll positions symbol) := by
  have hchecked : positions.forM g.check = .ok () :=
    forM_eq_ok.mpr fun p hp => Grid.check_eq_ok.mpr (h p hp)
  rw [writeAll, bind_run, forM_check_run, hchecked]
  exact forM_write_run h

/-- If a position is out of bounds, the first such position is named and nothing is written. -/
theorem writeAll_run_of_find? {bad : ℕ} (h : positions.find? (g.len ≤ ·) = some bad)
    (symbol : Symbol) :
    writeAll positions symbol g = (.error (.positionOutOfBounds bad g.len), g) := by
  rw [writeAll, bind_run, forM_check_run, Grid.forM_check_eq, h]

/-- Writing in place gives the grid that writing gives, and leaves it as it is when that fails. -/
theorem writeAll_run (positions : List ℕ) (symbol : Symbol) (g : Grid) :
    writeAll positions symbol g = match g.setAll positions symbol with
      | .ok g' => (.ok (), g')
      | .error e => (.error e, g) := by
  rcases hfind : positions.find? (g.len ≤ ·) with _ | bad
  · have hbounds : g.Bounds positions := fun p hp => by
      simpa using List.find?_eq_none.mp hfind p hp
    rw [writeAll_run_of_bounds hbounds, Grid.setAll_of_bounds hbounds]
  · rw [writeAll_run_of_find? hfind, Grid.setAll_of_find? hfind]

end InPlace

namespace Grid

variable {g : Grid}

/-! ### The columns of a grid -/

/-- A grid that has a reel is the one of its columns. -/
theorem ofReels_toReels (h : 0 < g.reels) : ofReels g.toReels = .ok g := by
  have hheight : ∀ column ∈ g.toReels, column.length = g.rows := fun _ => length_of_mem_toReels
  obtain ⟨g', hg', hreels, hrows, hcells⟩ := exists_ofReels hheight
  have hne : g.toReels ≠ [] := by
    rw [← List.length_pos_iff, length_toReels]
    exact h
  rw [length_toReels] at hreels
  rw [if_neg hne] at hrows
  rw [hg']
  congr 1
  refine ext_symbolAt hreels hrows fun reel hreel row hrow => ?_
  rw [hreels] at hreel
  rw [hrows] at hrow
  obtain ⟨symbol, hreads⟩ := exists_readsAs (position_eq_ok.mpr ⟨⟨hreel, hrow⟩, rfl⟩)
  obtain ⟨column, hcolumn, hsymbol⟩ := hreads.toReels_eq
  rw [hcells reel column row symbol hcolumn hsymbol, hreads.symbolAt_eq]

/-- Without reels the number of rows is lost. -/
example : ofReels (blank 0 3).toReels = .ok (blank 0 0) := by decide

/-! ### All laws together -/

/-- The laws of the views of a grid. -/
structure ViewsAgree (g : Grid) : Prop where
  /-- Exactly the cells within the shape have a position. -/
  exists_position_iff : ∀ reel row,
    (∃ p, g.position reel row = .ok p) ↔ reel < g.reels ∧ row < g.rows
  /-- Exactly the positions below the length have a cell. -/
  exists_cell_iff : ∀ p, (∃ cell, g.cell p = .ok cell) ↔ p < g.len
  /-- Position and cell are inverse to each other. -/
  cell_eq_ok_iff : ∀ reel row p, g.cell p = .ok (reel, row) ↔ g.position reel row = .ok p
  /-- All views show the same symbol in a cell. -/
  exists_readsAs : ∀ reel row p, g.position reel row = .ok p →
    ∃ symbol, g.ReadsAs reel row p symbol
  /-- There is one column for each reel, and it has one symbol for each row. -/
  length_toReels : g.toReels.length = g.reels ∧ ∀ column ∈ g.toReels, column.length = g.rows
  mem_positionsOf_iff : ∀ symbol p, p ∈ g.positionsOf symbol ↔ g.get p = .ok symbol
  pairwise_positionsOf : ∀ symbol, (g.positionsOf symbol).Pairwise (· < ·)
  count_eq : ∀ symbol, g.count symbol = (g.positionsOf symbol).length
  /-- If all listed positions are within the grid, these cells are written and no others. -/
  setAll_of_bounds : ∀ positions symbol, g.Bounds positions →
    ∃ g', g.setAll positions symbol = .ok g' ∧
      InPlace.writeAll positions symbol g = (.ok (), g') ∧
      g'.reels = g.reels ∧ g'.rows = g.rows ∧
      ∀ p, g'.get p = if p ∈ positions then .ok symbol else g.get p
  /-- If one of them is not, no cell is written. -/
  setAll_of_not_bounds : ∀ positions symbol, ¬g.Bounds positions →
    ∃ bad ∈ positions, g.len ≤ bad ∧
      g.setAll positions symbol = .error (.positionOutOfBounds bad g.len) ∧
      InPlace.writeAll positions symbol g = (.error (.positionOutOfBounds bad g.len), g)
  ofReels_toReels : 0 < g.reels → ofReels g.toReels = .ok g

/-- The symbols after one was written to several positions of the grid. -/
theorem get_writeAll {positions : List ℕ} (h : g.Bounds positions) (symbol : Symbol) (p : ℕ) :
    (g.writeAll positions symbol).get p = if p ∈ positions then .ok symbol else g.get p := by
  have hlen : (g.writeAll positions symbol).len = g.len := by
    rw [len_eq, len_eq, reels_writeAll, rows_writeAll]
  rw [get, get, getElem?_writeAll, hlen]
  by_cases hp : p ∈ positions
  · have hcell : g.cells[p]? = some _ := List.getElem?_eq_getElem (h p hp)
    rw [if_pos hp, if_pos hp, hcell]
    rfl
  · rw [if_neg hp, if_neg hp]

/-- The views of every grid agree, whatever its shape. -/
theorem viewsAgree (g : Grid) : g.ViewsAgree where
  exists_position_iff _ _ := exists_position_iff
  exists_cell_iff _ := exists_cell_iff
  cell_eq_ok_iff _ _ _ := cell_eq_ok_iff
  exists_readsAs _ _ _ h := exists_readsAs h
  length_toReels := ⟨g.length_toReels, fun _ => length_of_mem_toReels⟩
  mem_positionsOf_iff _ _ := mem_positionsOf_iff_get
  pairwise_positionsOf symbol := g.pairwise_positionsWhere (· == symbol)
  count_eq symbol := (g.length_positionsWhere (· == symbol)).symm
  setAll_of_bounds positions symbol h :=
    ⟨_, setAll_of_bounds h symbol, InPlace.writeAll_run_of_bounds h symbol,
      g.reels_writeAll positions symbol, g.rows_writeAll positions symbol, get_writeAll h symbol⟩
  setAll_of_not_bounds positions symbol h := by
    obtain ⟨bad, hfind⟩ : ∃ bad, positions.find? (g.len ≤ ·) = some bad := by
      rw [← Option.isSome_iff_exists, List.find?_isSome]
      simpa [Bounds] using h
    have hbad : g.len ≤ bad := by simpa using List.find?_some hfind
    exact ⟨bad, List.mem_of_find?_eq_some hfind, hbad, setAll_of_find? hfind symbol,
      InPlace.writeAll_run_of_find? hfind symbol⟩
  ofReels_toReels := ofReels_toReels

end Grid

end SlotOutcome
