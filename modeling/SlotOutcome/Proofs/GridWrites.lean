import SlotOutcome.Proofs.Results

/-!
# Writes to a grid, cell by cell

A grid is determined by its shape and by the symbol at each position. This file says of every write
what it does to the symbol at a position: one symbol, several positions at once, or the column of a
reel. The positions of a reel are those whose quotient by the number of rows is the reel.

## Main definitions

* `Grid.recolor`: the grid with other symbols, given cell by cell.
* `Grid.column`: the positions of a reel.

## Main results

* `Grid.ext_cells`: a grid is determined by its shape and its symbols.
* `Grid.getElem?_writeAll`, `Grid.writeAll_eq_recolor`: writing one symbol to several positions.
* `Grid.getElem?_writeColumn`: writing the symbols of a column.
* `Grid.mem_positionsOf`, `Grid.pairwise_positionsWhere`: the positions of symbols.
* `Grid.mem_column_iff`, `Paint.mem_block_iff`: the positions of a reel, and those of a block.
* `Grid.reel_eq_ok`: the symbols of a reel, read cell by cell.
* `mem_ascending`, `pairwise_ascending`: positions in increasing order.
-/

namespace SlotOutcome

/-! ### Increasing lists -/

theorem mem_insertAscending {n m : Nat} {ns : List Nat} :
    m ∈ insertAscending n ns ↔ m = n ∨ m ∈ ns := by
  induction ns with
  | nil => exact List.mem_cons
  | cons k ns ih =>
    rw [insertAscending]
    split
    · exact List.mem_cons
    split
    · next heq =>
      rw [heq, List.mem_cons, or_self_left]
    · rw [List.mem_cons, ih, List.mem_cons, or_left_comm]

theorem pairwise_insertAscending {n : Nat} {ns : List Nat} (h : ns.Pairwise (· < ·)) :
    (insertAscending n ns).Pairwise (· < ·) := by
  induction ns with
  | nil => exact List.pairwise_singleton _ _
  | cons k ns ih =>
    obtain ⟨hk, hns⟩ := List.pairwise_cons.mp h
    rw [insertAscending]
    split
    · next hlt =>
      refine List.pairwise_cons.mpr ⟨List.forall_mem_cons.mpr ⟨hlt, fun m hm => ?_⟩, h⟩
      exact Nat.lt_trans hlt (hk m hm)
    split
    · exact h
    · refine List.pairwise_cons.mpr ⟨fun m hm => ?_, ih hns⟩
      rcases mem_insertAscending.mp hm with rfl | hm
      · omega
      · exact hk m hm

/-- Putting numbers in order neither adds nor drops one. -/
theorem mem_ascending {ns : List Nat} {n : Nat} : n ∈ ascending ns ↔ n ∈ ns := by
  induction ns with
  | nil => exact Iff.rfl
  | cons m ns ih =>
    change n ∈ insertAscending m (ascending ns) ↔ _
    rw [mem_insertAscending, ih, List.mem_cons]

theorem pairwise_ascending (ns : List Nat) : (ascending ns).Pairwise (· < ·) := by
  induction ns with
  | nil => exact .nil
  | cons m ns ih => exact pairwise_insertAscending ih

namespace Grid

variable (g : Grid)

/-- A grid is determined by its shape and by the symbol at each position. -/
theorem ext_cells {g g' : Grid} (hreels : g.reels = g'.reels) (hrows : g.rows = g'.rows)
    (hcells : ∀ p : Nat, g.cells[p]? = g'.cells[p]?) : g = g' := by
  obtain ⟨reels, rows, cells, hlength⟩ := g
  obtain ⟨reels', rows', cells', hlength'⟩ := g'
  obtain rfl : reels = reels' := hreels
  obtain rfl : rows = rows' := hrows
  obtain rfl : cells = cells' := List.ext_getElem? hcells
  rfl

theorem len_eq : g.len = g.reels * g.rows := g.length_cells

/-- A position of the grid is on one of its reels, and there are rows. -/
theorem reel_of_position {g : Grid} {p : Nat} (h : p < g.len) :
    p / g.rows < g.reels ∧ 0 < g.rows := by
  rw [len_eq] at h
  have hrows : 0 < g.rows := by
    by_contra hrows
    obtain hzero : g.rows = 0 := by omega
    rw [hzero, Nat.mul_zero] at h
    omega
  exact ⟨(Nat.div_lt_iff_lt_mul hrows).mpr h, hrows⟩

/-- The grid with other symbols, given by the position and by the symbol before. -/
def recolor (f : Nat → Symbol → Symbol) : Grid where
  reels := g.reels
  rows := g.rows
  cells := g.cells.mapIdx f
  length_cells := by rw [List.length_mapIdx, g.length_cells]

@[simp] theorem getElem?_recolor (f : Nat → Symbol → Symbol) (q : Nat) :
    (g.recolor f).cells[q]? = g.cells[q]?.map (f q) := by
  simp [recolor]

@[simp] theorem len_recolor (f : Nat → Symbol → Symbol) : (g.recolor f).len = g.len :=
  List.length_mapIdx

/-! ### Writing symbols -/

@[simp] theorem reels_write (position : Nat) (symbol : Symbol) :
    (g.write position symbol).reels = g.reels := rfl

@[simp] theorem rows_write (position : Nat) (symbol : Symbol) :
    (g.write position symbol).rows = g.rows := rfl

/-- Writing a symbol changes the symbol at its position only. -/
theorem getElem?_write (position : Nat) (symbol : Symbol) (q : Nat) :
    (g.write position symbol).cells[q]? =
      if q = position then g.cells[q]?.map fun _ => symbol else g.cells[q]? := by
  change (g.cells.set position symbol)[q]? = _
  rw [List.getElem?_set]
  by_cases hq : q = position
  · subst hq
    rcases hcell : g.cells[q]? with _ | old
    · have hlength : ¬q < g.cells.length := by simpa using hcell
      simp [hlength]
    · have hlength : q < g.cells.length := (List.getElem?_eq_some_iff.mp hcell).1
      simp [hlength]
  · rw [if_neg (Ne.symm hq), if_neg hq]

@[simp] theorem reels_writeAll (positions : List Nat) (symbol : Symbol) :
    (g.writeAll positions symbol).reels = g.reels := by
  unfold writeAll
  induction positions generalizing g with
  | nil => rfl
  | cons p positions ih => rw [List.foldl_cons, ih, reels_write]

@[simp] theorem rows_writeAll (positions : List Nat) (symbol : Symbol) :
    (g.writeAll positions symbol).rows = g.rows := by
  unfold writeAll
  induction positions generalizing g with
  | nil => rfl
  | cons p positions ih => rw [List.foldl_cons, ih, rows_write]

/-- Writing a symbol to several positions changes the symbols there only. -/
theorem getElem?_writeAll (positions : List Nat) (symbol : Symbol) (q : Nat) :
    (g.writeAll positions symbol).cells[q]? =
      if q ∈ positions then g.cells[q]?.map fun _ => symbol else g.cells[q]? := by
  induction positions generalizing g with
  | nil => rw [if_neg List.not_mem_nil]; rfl
  | cons p positions ih =>
    change ((g.write p symbol).writeAll positions symbol).cells[q]? = _
    rw [ih, getElem?_write]
    by_cases hp : q = p
    · rcases g.cells[q]? with _ | old <;> simp [hp]
    · simp [hp]

/-- Writing a symbol to several positions, as one change of all cells. -/
theorem writeAll_eq_recolor (positions : List Nat) (symbol : Symbol) {marked : Nat → Bool}
    (h : ∀ q < g.len, marked q = true ↔ q ∈ positions) :
    g.writeAll positions symbol = g.recolor fun q old => if marked q then symbol else old := by
  refine ext_cells (g.reels_writeAll _ _) (g.rows_writeAll _ _) fun q => ?_
  rw [getElem?_writeAll, getElem?_recolor]
  rcases hcell : g.cells[q]? with _ | old
  · rw [Option.map_none, Option.map_none, ite_self]
  · have hq := h q (List.getElem?_eq_some_iff.mp hcell).1
    by_cases hmem : q ∈ positions
    · simp [hmem, hq.mpr hmem]
    · have hmarked : marked q = false := Bool.eq_false_iff.mpr fun hmarked => hmem (hq.mp hmarked)
      simp [hmem, hmarked]

/-! ### Positions of symbols -/

/-- The positions of the symbols that satisfy a predicate are those where such a symbol is. -/
theorem mem_positionsWhere {g : Grid} {p : Symbol → Bool} {q : Nat} :
    q ∈ g.positionsWhere p ↔ ∃ symbol, g.cells[q]? = some symbol ∧ p symbol = true := by
  rw [positionsWhere, List.mem_map]
  constructor
  · rintro ⟨⟨symbol, place⟩, hcell, rfl⟩
    obtain ⟨hmem, hp⟩ := List.mem_filter.mp hcell
    exact ⟨symbol, List.mem_zipIdx_iff_getElem?.mp hmem, hp⟩
  · rintro ⟨symbol, hsymbol, hp⟩
    exact ⟨(symbol, q), List.mem_filter.mpr ⟨List.mem_zipIdx_iff_getElem?.mpr hsymbol, hp⟩, rfl⟩

/-- They are in increasing order. -/
theorem pairwise_positionsWhere (g : Grid) (p : Symbol → Bool) :
    (g.positionsWhere p).Pairwise (· < ·) := by
  have hsublist : (g.positionsWhere p).Sublist (List.range' 0 g.cells.length) := by
    rw [← List.zipIdx_map_snd]
    exact List.filter_sublist.map Prod.snd
  exact List.Pairwise.sublist hsublist List.pairwise_lt_range'

theorem mem_positionsOf {g : Grid} {symbol : Symbol} {q : Nat} :
    q ∈ g.positionsOf symbol ↔ g.cells[q]? = some symbol := by
  rw [positionsOf, mem_positionsWhere]
  constructor
  · rintro ⟨found, hfound, heq⟩
    rw [hfound, beq_iff_eq.mp heq]
  · exact fun h => ⟨symbol, h, beq_self_eq_true symbol⟩

/-! ### Columns -/

/-- The positions of a reel, top row first. -/
def column (reel : Nat) : List Nat := List.range' (reel * g.rows) g.rows

@[simp] theorem length_column (reel : Nat) : (g.column reel).length = g.rows :=
  List.length_range'

theorem lt_len_of_mem_column {g : Grid} {reel p : Nat} (hreel : reel < g.reels)
    (h : p ∈ g.column reel) : p < g.len := by
  have hbound : (reel + 1) * g.rows ≤ g.len := by
    rw [g.len_eq]
    exact Nat.mul_le_mul_right _ hreel
  rw [column, List.mem_range'_1] at h
  rw [Nat.succ_mul] at hbound
  omega

/-- A cell of the grid can be read. -/
theorem get_of_lt {g : Grid} {p : Nat} (h : p < g.len) :
    g.get p = .ok (g.cells.getD p .empty) := by
  have hcell : g.cells[p]? = some g.cells[p] := List.getElem?_eq_getElem h
  rw [get, List.getD_eq_getElem?_getD, hcell]
  rfl

/-- The positions of a reel are those whose quotient by the number of rows is the reel. -/
theorem mem_column_iff {g : Grid} (hrows : 0 < g.rows) {reel p : Nat} :
    p ∈ g.column reel ↔ p / g.rows = reel := by
  rw [column, List.mem_range'_1, Nat.div_eq_iff hrows]
  constructor
  · rintro ⟨hlow, hhigh⟩
    omega
  · rintro ⟨hlow, hhigh⟩
    omega

theorem position_eq_ok {g : Grid} {reel row p : Nat} :
    g.position reel row = .ok p ↔
      (reel < g.reels ∧ row < g.rows) ∧ p = linearPosition g.rows reel row := by
  unfold position
  by_cases h : reel < g.reels ∧ row < g.rows
  · rw [if_pos h, Except.ok.injEq, eq_comm]
    exact (and_iff_right h).symm
  · rw [if_neg h]
    constructor
    · intro hok
      cases hok
    · rintro ⟨hin, -⟩
      exact absurd hin h

theorem reel_of_linearPosition {rows reel row : Nat} (h : row < rows) :
    linearPosition rows reel row / rows = reel := by
  rw [linearPosition, Nat.mul_comm, Nat.mul_add_div (by omega), Nat.div_eq_of_lt h, Nat.add_zero]

theorem row_of_linearPosition {rows reel row : Nat} (h : row < rows) :
    linearPosition rows reel row % rows = row := by
  rw [linearPosition, Nat.mul_comm, Nat.mul_add_mod, Nat.mod_eq_of_lt h]

/-- The positions of a reel can be had if the reel is one of the grid and there are rows. -/
theorem reelPositions_eq_ok {g : Grid} {reel : Nat} {positions : List Nat} :
    g.reelPositions reel = .ok positions ↔
      reel < g.reels ∧ 0 < g.rows ∧ positions = g.column reel := by
  constructor
  · intro h
    obtain ⟨start, hstart, h⟩ := bind_eq_ok.mp h
    obtain ⟨⟨hreel, hrows⟩, rfl⟩ := position_eq_ok.mp hstart
    exact ⟨hreel, hrows, (Except.ok.inj h).symm⟩
  · rintro ⟨hreel, hrows, rfl⟩
    have hstart : g.position reel 0 = .ok (reel * g.rows) :=
      position_eq_ok.mpr ⟨⟨hreel, hrows⟩, rfl⟩
    rw [reelPositions, hstart]
    rfl

/-- The symbols of a reel stand one after the other among those of the grid. -/
theorem reel_of_lt {g : Grid} {reel : Nat} (hreel : reel < g.reels) (hrows : 0 < g.rows) :
    g.reel reel = .ok ((g.cells.drop (reel * g.rows)).take g.rows) := by
  have hstart : g.position reel 0 = .ok (reel * g.rows) :=
    position_eq_ok.mpr ⟨⟨hreel, hrows⟩, rfl⟩
  rw [Grid.reel, hstart]
  rfl

/-- The symbols of a reel are those of its cells, top row first. -/
theorem reel_eq_ok {g : Grid} {reel : Nat} {symbols : List Symbol} (hreel : reel < g.reels)
    (hrows : 0 < g.rows) : g.reel reel = .ok symbols ↔
      symbols.length = g.rows ∧
        ∀ row < g.rows, symbols[row]? = g.cells[linearPosition g.rows reel row]? := by
  have hlength : ((g.cells.drop (reel * g.rows)).take g.rows).length = g.rows := by
    have hbound : (reel + 1) * g.rows ≤ g.cells.length := by
      rw [g.length_cells]
      exact Nat.mul_le_mul_right _ hreel
    rw [Nat.succ_mul] at hbound
    rw [List.length_take, List.length_drop]
    omega
  have hcell (row : Nat) (hrow : row < g.rows) :
      ((g.cells.drop (reel * g.rows)).take g.rows)[row]? =
        g.cells[linearPosition g.rows reel row]? := by
    rw [List.getElem?_take_of_lt hrow, List.getElem?_drop]
    rfl
  rw [reel_of_lt hreel hrows, Except.ok.injEq]
  constructor
  · rintro rfl
    exact ⟨hlength, hcell⟩
  · rintro ⟨hsymbols, hcells⟩
    refine List.ext_getElem? fun row => ?_
    by_cases hrow : row < g.rows
    · rw [hcell row hrow, hcells row hrow]
    · rw [List.getElem?_eq_none (by omega), List.getElem?_eq_none (by omega)]

@[simp] theorem reels_foldl_write (cells : List (Nat × Symbol)) :
    (cells.foldl (fun g cell => g.write cell.1 cell.2) g).reels = g.reels := by
  induction cells generalizing g with
  | nil => rfl
  | cons cell cells ih => rw [List.foldl_cons, ih, reels_write]

@[simp] theorem rows_foldl_write (cells : List (Nat × Symbol)) :
    (cells.foldl (fun g cell => g.write cell.1 cell.2) g).rows = g.rows := by
  induction cells generalizing g with
  | nil => rfl
  | cons cell cells ih => rw [List.foldl_cons, ih, rows_write]

/-- Writing symbols one below the other from a position on. -/
theorem getElem?_writeColumn (start : Nat) (symbols : List Symbol) (q : Nat) :
    (((List.range' start symbols.length).zip symbols).foldl
      (fun g cell => g.write cell.1 cell.2) g).cells[q]? =
        if start ≤ q ∧ q < start + symbols.length
        then g.cells[q]?.bind fun _ => symbols[q - start]? else g.cells[q]? := by
  induction symbols generalizing g start with
  | nil =>
    have hnone : ¬(start ≤ q ∧ q < start + ([] : List Symbol).length) := by
      rw [List.length_nil]
      omega
    rw [if_neg hnone]
    rfl
  | cons symbol symbols ih =>
    rw [List.length_cons, List.range'_succ, List.zip_cons_cons, List.foldl_cons, ih,
      getElem?_write]
    by_cases hq : q = start
    · subst hq
      have hnext : ¬q + 1 ≤ q := by omega
      rcases g.cells[q]? with _ | old <;> simp [hnext]
    · by_cases hlow : start + 1 ≤ q
      · have hindex : q - start = (q - (start + 1)) + 1 := by omega
        simp only [hq, hlow, ↓reduceIte, true_and, hindex, List.getElem?_cons_succ]
        have hle : start ≤ q := by omega
        have hbound : start + 1 + symbols.length = start + (symbols.length + 1) := by omega
        simp only [hle, hbound, true_and]
      · have hle : ¬start ≤ q := by omega
        simp [hq, hlow, hle]

end Grid

/-! ### Blocks -/

namespace Paint

/-- The positions of a block are those of its reels and rows. -/
theorem mem_block_iff {g : Grid} {x y w h : Nat} {positions : List Nat}
    (hblock : block g x y w h = .ok positions) {p : Nat} (hp : p < g.len) :
    p ∈ positions ↔
      (x ≤ p / g.rows ∧ p / g.rows < x + w) ∧ y ≤ p % g.rows ∧ p % g.rows < y + h := by
  obtain ⟨hreel, hrows⟩ := Grid.reel_of_position hp
  have hrow : p % g.rows < g.rows := Nat.mod_lt _ hrows
  obtain ⟨columns, hcolumns, hflatten⟩ := bind_eq_ok.mp hblock
  obtain rfl : columns.flatten = positions := Except.ok.inj hflatten
  rw [List.mem_flatten]
  constructor
  · rintro ⟨column, hcolumn, hmem⟩
    obtain ⟨reel, hreels, hread⟩ := (mem_of_mapM_eq_ok hcolumns).mp hcolumn
    obtain ⟨row, hrows', hposition⟩ := (mem_of_mapM_eq_ok hread).mp hmem
    obtain ⟨hin, rfl⟩ := Grid.position_eq_ok.mp hposition
    rw [Grid.reel_of_linearPosition hin.2, Grid.row_of_linearPosition hin.2]
    exact ⟨List.mem_range'_1.mp hreels, List.mem_range'_1.mp hrows'⟩
  · rintro ⟨hreels, hrows'⟩
    obtain ⟨column, hread⟩ := exists_of_mapM_eq_ok hcolumns (List.mem_range'_1.mpr hreels)
    refine ⟨column, (mem_of_mapM_eq_ok hcolumns).mpr ⟨_, List.mem_range'_1.mpr hreels, hread⟩, ?_⟩
    refine (mem_of_mapM_eq_ok hread).mpr ⟨_, List.mem_range'_1.mpr hrows', ?_⟩
    exact Grid.position_eq_ok.mpr ⟨⟨hreel, hrow⟩, (Nat.div_add_mod' p g.rows).symm⟩

end Paint

end SlotOutcome
