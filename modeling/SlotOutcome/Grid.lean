import SlotOutcome.Error
import SlotOutcome.Json.Tree

/-!
# The symbol grid

The symbols on the reels, addressed reel by reel: the cell in row `row` of reel `reel` has the
linear position `reel * rows + row`. A grid of three rows looks like this.

```text
           reel 0   reel 1   reel 2
  row 0      0        3        6
  row 1      1        4        7
  row 2      2        5        8
```

A grid has exactly `reels * rows` cells; this is part of the type. Reads and writes are checked
against the shape.

## Main definitions

* `Symbol`, `Grid`, `Grid.filled`, `Grid.ofReels`.
* `Grid.position`, `Grid.cell`, `Grid.get`, `Grid.symbolAt`, `Grid.reel`, `Grid.reelPositions`:
  reads.
* `Grid.set`, `Grid.setAll`: writes.
* `Grid.positionsWhere`, `Grid.positionsOf`, `Grid.count`, `Grid.toReels`: views of all cells.
-/

namespace SlotOutcome

/-- The id of a symbol. -/
abbrev Symbol := Int32

/-- The symbol of an id, if it fits 32 bits. -/
def Symbol.ofInt? (id : Int) : Option Symbol :=
  if -0x80000000 ≤ id ∧ id < 0x80000000 then some (Int32.ofInt id) else none

/-- The symbol of a cell that no reel has filled yet. -/
def Symbol.empty : Symbol := -1

/-- The linear position of a cell. -/
def linearPosition (rows reel row : Nat) : Nat := reel * rows + row

/-- Reel and row of a linear position. Without rows there is no cell, and the answer is the
corner. -/
def cellOfPosition (rows position : Nat) : Nat × Nat :=
  if rows = 0 then (0, 0) else (position / rows, position % rows)

/-- A number put into its place in an increasing list, unless it is there. -/
def insertAscending (n : Nat) : List Nat → List Nat
  | [] => [n]
  | m :: rest =>
    if n < m then n :: m :: rest else if n = m then m :: rest else m :: insertAscending n rest

/-- Numbers in increasing order, each once. -/
def ascending (ns : List Nat) : List Nat := ns.foldr insertAscending []

/-- A grid of symbols. -/
structure Grid where
  reels : Nat
  rows : Nat
  /-- The symbols in the order of their linear positions. -/
  cells : List Symbol
  /-- There is one symbol for each cell of the shape. -/
  length_cells : cells.length = reels * rows
deriving DecidableEq

namespace Grid

/-- A grid that shows one symbol everywhere. -/
def filled (reels rows : Nat) (symbol : Symbol) : Grid where
  reels := reels
  rows := rows
  cells := List.replicate (reels * rows) symbol
  length_cells := List.length_replicate

/-- A grid of cells that no reel has filled yet. -/
def blank (reels rows : Nat) : Grid := filled reels rows .empty

instance : Inhabited Grid := ⟨blank 0 0⟩

/-- Columns of equal height have height times number many symbols. -/
theorem length_flatten_columns {rows : Nat} {columns : List (List Symbol)}
    (h : ∀ c ∈ columns, c.length = rows) : columns.flatten.length = columns.length * rows := by
  induction columns with
  | nil => simp
  | cons c columns ih =>
    rw [List.flatten_cons, List.length_append, h c List.mem_cons_self,
      ih fun c hc => h c (List.mem_cons_of_mem _ hc), List.length_cons]
    rw [Nat.add_mul, Nat.one_mul, Nat.add_comm]

/-- The grid of the given columns, top row first. All have to be as high as the first. -/
def ofReels (columns : List (List Symbol)) : Except DataError Grid :=
  let rows := (columns.head?.map List.length).getD 0
  if h : ∀ c ∈ columns, c.length = rows then
    .ok ⟨columns.length, rows, columns.flatten, length_flatten_columns h⟩
  else
    let bad := columns.findIdx fun c => c.length != rows
    .error (.malformed ("reel " ++ toString bad ++ " has " ++
      toString ((columns[bad]?.map List.length).getD 0) ++ " rows, expected " ++ toString rows))

variable (g : Grid)

/-- The number of cells. -/
def len : Nat := g.cells.length

/-- Whether there is no cell. -/
def isEmpty : Bool := g.cells.isEmpty

/-- The linear position of a cell of the grid. -/
def position (reel row : Nat) : Except DataError Nat :=
  if reel < g.reels ∧ row < g.rows then .ok (linearPosition g.rows reel row)
  else .error (.cellOutOfBounds reel row g.reels g.rows)

/-- Whether a position is one of the grid. -/
def check (position : Nat) : Except DataError Unit :=
  if position < g.len then .ok () else .error (.positionOutOfBounds position g.len)

/-- Reel and row of a position of the grid. -/
def cell (position : Nat) : Except DataError (Nat × Nat) := do
  g.check position
  pure (cellOfPosition g.rows position)

/-- The symbol at a position. -/
def get (position : Nat) : Except DataError Symbol :=
  match g.cells[position]? with
  | some symbol => .ok symbol
  | none => .error (.positionOutOfBounds position g.len)

/-- The symbol of a cell. -/
def symbolAt (reel row : Nat) : Except DataError Symbol := do
  g.get (← g.position reel row)

/-- The grid with one more symbol written, wherever the position is one of the grid. -/
def write (position : Nat) (symbol : Symbol) : Grid :=
  { g with
    cells := g.cells.set position symbol
    length_cells := by rw [List.length_set, g.length_cells] }

/-- The grid with the symbol at a position replaced. -/
def set (position : Nat) (symbol : Symbol) : Except DataError Grid := do
  g.check position
  pure (g.write position symbol)

/-- The grid with a symbol at every listed position, wherever it is one of the grid. -/
def writeAll (positions : List Nat) (symbol : Symbol) : Grid :=
  positions.foldl (fun g p => g.write p symbol) g

/-- The grid with a symbol at every listed position. If one of them is out of bounds, nothing is
written. -/
def setAll (positions : List Nat) (symbol : Symbol) : Except DataError Grid := do
  positions.forM g.check
  pure (g.writeAll positions symbol)

/-- The symbols of a reel, top row first. -/
def reel (reel : Nat) : Except DataError (List Symbol) := do
  let start ← g.position reel 0
  pure ((g.cells.drop start).take g.rows)

/-- The positions of a reel, top row first. -/
def reelPositions (reel : Nat) : Except DataError (List Nat) := do
  let start ← g.position reel 0
  pure (List.range' start g.rows)

/-- The positions of the symbols that satisfy a predicate, in increasing order. -/
def positionsWhere (p : Symbol → Bool) : List Nat :=
  (g.cells.zipIdx.filter fun cell => p cell.1).map Prod.snd

/-- The positions of a symbol, in increasing order. -/
def positionsOf (symbol : Symbol) : List Nat := g.positionsWhere (· == symbol)

/-- How often a symbol is shown. -/
def count (symbol : Symbol) : Nat := g.cells.countP (· == symbol)

/-- The columns of the grid, top row first. -/
def toReels : List (List Symbol) :=
  (List.range g.reels).map fun reel => (g.cells.drop (reel * g.rows)).take g.rows

/-- The grid as a record. -/
def toTree : Tree :=
  .record [
    ("reels", .ofNat g.reels),
    ("rows", .ofNat g.rows),
    ("cells", .arr (g.cells.map fun s => .ofInt s.toInt))]

end Grid

end SlotOutcome
