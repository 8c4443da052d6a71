import Mathlib.Control.Monad.Basic
import SlotOutcome.Effect.Paint
import SlotOutcome.Proofs.GridWrites
import SlotOutcome.Proofs.PlanLockstep
import SlotOutcome.Strip

/-!
# Steps with a check

Reading a list at an index, taking an item out of it, dividing and subtracting are total here: the
index carries its bound, the strip carries a symbol, and what is out of range answers nothing. This
file does the same steps with plain numbers. Each step checks first that it is defined, and what is
not ends the pass with a fault.

The steps are done over a source that notes every range a draw was asked from, and the first fault.
With them the choices and the reads and writes of a grid are the ones that features are made of, so
none of their steps is ever out of range.

## Main definitions

* `Fault`, `Checked`: what goes wrong, and sources that note it.
* `Check.item`, `Check.replaced`, `Check.removed`, `Check.slice`, `Check.remainder`,
  `Check.quotient`, `Check.difference`, `Check.sum`: single steps.
* `Check.chooseIndex`, `Check.pick`, `Check.pickFrom`, `Check.sampleExactly`: choices.
* `Check.setAll`, `Check.cell`, `Check.readCell`, `Check.reel`: reads and writes of a grid.

## Main results

* `Check.chooseIndex_eq`, `Check.pick_eq`, `Check.pickFrom_eq`, `Check.sampleExactly_eq`: choices
  with their steps checked are the choices.
* `Check.setAll_eq`, `Check.cell_eq`, `Check.readCell_eq`, `Check.reel_eq`: so are reads and writes.
-/

namespace SlotOutcome

/-- Why a step is not defined. -/
inductive Fault where
  /-- There is no item at an index, in a list of so many. -/
  | index (index length : Nat)
  /-- Two indices are not those of a part of a list of so many. -/
  | slice (start stop length : Nat)
  /-- A division by zero. -/
  | divisor (dividend : Nat)
  /-- A difference below zero. -/
  | difference (a b : Nat)
  /-- A sum that does not fit 64 bits. -/
  | sum (a b : Nat)
deriving DecidableEq, Repr

/-- Another source, the ranges that draws were asked from, and the fault that ended the pass. -/
structure Checked (σ : Type) where
  inner : σ
  asked : List Nat
  fault : Option Fault

namespace Checked

variable {σ : Type}

/-- A source that was asked for nothing yet. -/
def start (inner : σ) : Checked σ := ⟨inner, [], none⟩

/-- The answer of the source inside; the range is noted whatever it is. -/
def next [RandomSource σ] (n : Nat) (w : Checked σ) : Except DrawError Nat × Checked σ :=
  match (draw n : DrawM σ Nat) w.inner with
  | (r, inner) => (r, { w with inner := inner, asked := w.asked ++ [n] })

end Checked

instance {σ : Type} [RandomSource σ] : RandomSource (Checked σ) where
  draw n := Checked.next n

namespace Check

variable {σ α : Type}

/-! ### Single steps -/

/-- The pass ends with a fault. -/
def fault (f : Fault) : PlanM (Checked σ) α := fun w =>
  (.error (.logic "fault"), { w with fault := some f })

/-- The item at an index. -/
def item (items : List α) (i : Nat) : PlanM (Checked σ) α :=
  match items[i]? with
  | some a => pure a
  | none => fault (.index i items.length)

/-- The list with another item at an index. -/
def replaced (items : List α) (i : Nat) (a : α) : PlanM (Checked σ) (List α) :=
  if i < items.length then pure (items.set i a) else fault (.index i items.length)

/-- The item at an index, and the list without it. -/
def removed (items : List α) (i : Nat) : PlanM (Checked σ) (α × List α) :=
  match items[i]? with
  | some a => pure (a, items.eraseIdx i)
  | none => fault (.index i items.length)

/-- The part of a list from an index up to another one. -/
def slice (items : List α) (start stop : Nat) : PlanM (Checked σ) (List α) :=
  if start ≤ stop ∧ stop ≤ items.length then pure ((items.drop start).take (stop - start))
  else fault (.slice start stop items.length)

/-- The remainder of a division. -/
def remainder (a b : Nat) : PlanM (Checked σ) Nat :=
  if b = 0 then fault (.divisor a) else pure (a % b)

/-- The quotient of a division. -/
def quotient (a b : Nat) : PlanM (Checked σ) Nat :=
  if b = 0 then fault (.divisor a) else pure (a / b)

/-- A difference. -/
def difference (a b : Nat) : PlanM (Checked σ) Nat :=
  if b ≤ a then pure (a - b) else fault (.difference a b)

/-- A sum of 64 bits. -/
def sum (a b : Nat) : PlanM (Checked σ) Nat :=
  if a + b < UInt64.size then pure (a + b) else fault (.sum a b)

theorem item_of_lt {items : List α} {i : Nat} (h : i < items.length) :
    (item items i : PlanM (Checked σ) α) = pure items[i] := by
  rw [item, List.getElem?_eq_getElem h]

@[simp] theorem item_val (items : List α) (i : Fin items.length) :
    (item items i : PlanM (Checked σ) α) = pure (items.get i) := item_of_lt i.isLt

/-- An index past the end of a list is a fault, and the source keeps it. -/
example : (item [7] 1 : PlanM (Checked Unit) Nat) (.start ()) =
    (.error (.logic "fault"), ⟨(), [], some (.index 1 1)⟩) := rfl

theorem replaced_of_lt {items : List α} {i : Nat} (h : i < items.length) (a : α) :
    (replaced items i a : PlanM (Checked σ) (List α)) = pure (items.set i a) := if_pos h

@[simp] theorem removed_val (items : List α) (i : Fin items.length) :
    (removed items i : PlanM (Checked σ) (α × List α)) =
      pure (items.get i, items.eraseIdx i) := by
  rw [removed, List.getElem?_eq_getElem i.isLt]
  rfl

theorem slice_of_le {items : List α} {start length : Nat} (h : start + length ≤ items.length) :
    (slice items start (start + length) : PlanM (Checked σ) (List α)) =
      pure ((items.drop start).take length) := by
  rw [slice, if_pos ⟨Nat.le_add_right _ _, h⟩, Nat.add_sub_cancel_left]

theorem remainder_of_pos {b : Nat} (h : 0 < b) (a : Nat) :
    (remainder a b : PlanM (Checked σ) Nat) = pure (a % b) := if_neg (Nat.ne_of_gt h)

theorem quotient_of_pos {b : Nat} (h : 0 < b) (a : Nat) :
    (quotient a b : PlanM (Checked σ) Nat) = pure (a / b) := if_neg (Nat.ne_of_gt h)

theorem difference_of_le {a b : Nat} (h : b ≤ a) :
    (difference a b : PlanM (Checked σ) Nat) = pure (a - b) := if_pos h

theorem sum_of_lt {a b : Nat} (h : a + b < UInt64.size) :
    (sum a b : PlanM (Checked σ) Nat) = pure (a + b) := if_pos h

/-! ### Choices -/

/-- The first index at which the sum of the weights up to and including it exceeds the draw, counted
on from an index and from the sum of the weights before it. -/
def indexFrom (value : Nat) : Nat → Nat → List Nat → PlanM (Checked σ) (Option Nat)
  | _, _, [] => pure none
  | index, before, weight :: rest => do
    let upTo ← sum before weight
    if value < upTo then pure (some index) else indexFrom value (index + 1) upTo rest

/-- Adding up the weights finds the index whose share holds the draw, and stays within 64 bits if
the sum of all does. -/
theorem indexFrom_eq {value before : Nat} {weights : List Nat}
    (hsum : before + weightSum weights < UInt64.size) (hvalue : before ≤ value) (index : Nat) :
    (indexFrom value index before weights : PlanM (Checked σ) (Option Nat)) =
      pure ((indexAt weights (value - before)).map fun i => index + i.val) := by
  induction weights generalizing index before with
  | nil => rfl
  | cons weight rest ih =>
    have hcons : weightSum (weight :: rest) = weight + weightSum rest := rfl
    rw [hcons] at hsum
    rw [indexFrom, sum_of_lt (by omega), pure_bind, indexAt]
    by_cases hlt : value < before + weight
    · rw [if_pos hlt, if_pos (by omega)]
      rfl
    · rw [if_neg hlt, if_neg (by omega), ih (by omega) (by omega), Nat.sub_add_eq]
      rcases indexAt rest (value - before - weight) with _ | i
      · rfl
      · simp [Nat.add_assoc, Nat.add_comm 1]

variable [RandomSource σ]

/-- A draw from `0, …, n - 1` as a number. -/
def below (n : Nat) : PlanM (Checked σ) Nat :=
  Fin.val <$> (liftM (drawBelow n : DrawM (Checked σ) (Fin n)) : PlanM (Checked σ) (Fin n))

/-- An index drawn in proportion to its weight. -/
def chooseIndex (weights : List Nat) : PlanM (Checked σ) Nat := do
  let total := weightSum weights
  if UInt64.size ≤ total then throw (weightError .weightOverflow)
  if total = 0 then throw (weightError .zeroWeight)
  let value ← ExceptT.adapt weightError (draw total : DrawM (Checked σ) Nat)
  match ← indexFrom value 0 0 weights with
  | some index => pure index
  | none => throw (weightError .zeroWeight)

theorem chooseIndex_eq (weights : List Nat) :
    (chooseIndex weights : PlanM (Checked σ) Nat) =
      Fin.val <$> SlotOutcome.chooseIndex weights := by
  rw [chooseIndex, SlotOutcome.chooseIndex, weightedIndex_eq]
  by_cases hbig : UInt64.size ≤ weightSum weights
  · simp only [if_pos hbig]
    rfl
  by_cases hzero : weightSum weights = 0
  · simp only [if_neg hbig, if_pos hzero]
    rfl
  simp only [if_neg hbig, if_neg hzero]
  rw [adapt_bind, map_bind]
  refine bind_congr fun value => ?_
  rw [indexFrom_eq (by omega) (Nat.zero_le _), pure_bind, Nat.sub_zero]
  rcases indexAt weights value with _ | index
  · rfl
  · simp only [Option.map_some, Nat.zero_add]
    rfl

/-- One of `len` indices, by weights if there are any. -/
def pick (weights : Option (List Nat)) (len : Nat) : PlanM (Checked σ) Nat :=
  match weights with
  | some weights =>
    if weights.length = len then chooseIndex weights
    else throw (invalid (toString weights.length ++ " weights for " ++ toString len ++ " choices"))
  | none => if len = 0 then throw (invalid "nothing to choose from") else below len

theorem pick_eq (weights : Option (List Nat)) (len : Nat) :
    (pick weights len : PlanM (Checked σ) Nat) = Fin.val <$> SlotOutcome.pick weights len := by
  unfold pick SlotOutcome.pick
  rcases weights with _ | weights
  · dsimp only
    split
    · rfl
    · rfl
  · dsimp only
    split
    · next h =>
      subst h
      rw [chooseIndex_eq, map_bind, map_eq_pure_bind]
      rfl
    · rfl

/-- One of several values of a bag, by weights if it holds any; or the single value that stands
for them. -/
def pickFrom (bag : Bag) (type : ParamType α) (listType : ParamType (List α))
    (single several weights : String) : PlanM (Checked σ) α := do
  match ← bag.find listType several with
  | some values =>
    let weights ← bag.find .weights weights
    item values (← pick weights values.length)
  | none => bag.require type single

theorem pickFrom_eq (bag : Bag) (type : ParamType α) (listType : ParamType (List α))
    (single several weights : String) :
    (pickFrom bag type listType single several weights : PlanM (Checked σ) α) =
      SlotOutcome.pickFrom bag type listType single several weights := by
  refine bind_congr fun values => ?_
  rcases values with _ | values
  · rfl
  · refine bind_congr fun weights => ?_
    rw [pick_eq, bind_map_left]
    simp only [item_val]

/-- Items drawn one after another and taken out of the list, in the order drawn. -/
def sampleExactly : Nat → List α → PlanM (Checked σ) (List α)
  | 0, _ => pure []
  | count + 1, items => do
    let (item, left) ← removed items (← below items.length)
    let rest ← sampleExactly count left
    pure (item :: rest)

theorem sampleExactly_eq (count : Nat) (items : List α) :
    (sampleExactly count items : PlanM (Checked σ) (List α)) =
      liftM (SlotOutcome.sampleExactly count items : DrawM (Checked σ) (List α)) := by
  induction count generalizing items with
  | zero => rfl
  | succ count ih =>
    change _ = ExceptT.adapt _ (_ >>= _)
    rw [sampleExactly, adapt_bind, below, bind_map_left]
    refine bind_congr fun i => ?_
    rw [removed_val, pure_bind, adapt_bind]
    dsimp only
    rw [ih]
    rfl

/-! ### Grids -/

section Grid

omit [RandomSource σ]

variable (g : Grid)

/-- The grid with the symbol at a position replaced. -/
def write (position : Nat) (symbol : Symbol) : PlanM (Checked σ) Grid :=
  if position < g.cells.length then pure (g.write position symbol)
  else fault (.index position g.cells.length)

theorem write_of_lt {g : Grid} {position : Nat} (h : position < g.len) (symbol : Symbol) :
    (write g position symbol : PlanM (Checked σ) Grid) = pure (g.write position symbol) := if_pos h

/-- The grid with one cell after the other written. -/
def writeCells (cells : List (Nat × Symbol)) : PlanM (Checked σ) Grid :=
  cells.foldlM (fun g cell => write g cell.1 cell.2) g

theorem writeCells_eq {cells : List (Nat × Symbol)} (h : ∀ cell ∈ cells, cell.1 < g.len) :
    (writeCells g cells : PlanM (Checked σ) Grid) =
      pure (cells.foldl (fun g cell => g.write cell.1 cell.2) g) := by
  induction cells generalizing g with
  | nil => rfl
  | cons cell rest ih =>
    obtain ⟨hcell, hrest⟩ := List.forall_mem_cons.mp h
    have hlen (c : Nat × Symbol) (hc : c ∈ rest) : c.1 < (g.write cell.1 cell.2).len := by
      rw [Grid.len_eq, Grid.reels_write, Grid.rows_write, ← Grid.len_eq]
      exact hrest c hc
    rw [writeCells, List.foldlM_cons, write_of_lt hcell, pure_bind]
    exact ih (g.write cell.1 cell.2) hlen

/-- The grid with a symbol at every listed position. If one of them is out of bounds, nothing is
written. -/
def setAll (positions : List Nat) (symbol : Symbol) : PlanM (Checked σ) Grid := do
  let _ ← (positions.forM g.check : Except DataError Unit)
  writeCells g (positions.map fun p => (p, symbol))

theorem setAll_eq (positions : List Nat) (symbol : Symbol) :
    (setAll g positions symbol : PlanM (Checked σ) Grid) = liftM (g.setAll positions symbol) := by
  unfold setAll Grid.setAll
  rcases hcheck : positions.forM g.check with e | ⟨⟩
  · rfl
  have hpositions (cell : Nat × Symbol) (hcell : cell ∈ positions.map fun p => (p, symbol)) :
      cell.1 < g.len := by
    obtain ⟨p, hp, rfl⟩ := List.mem_map.mp hcell
    have hp := forM_eq_ok.mp hcheck p hp
    unfold Grid.check at hp
    split at hp
    · next hlt => exact hlt
    · cases hp
  rw [writeCells_eq g hpositions, List.foldl_map]
  rfl

/-- Reel and row of a position of the grid. -/
def cell (position : Nat) : PlanM (Checked σ) (Nat × Nat) := do
  let _ ← (g.check position : Except DataError Unit)
  if g.rows = 0 then return (0, 0)
  return (← quotient position g.rows, ← remainder position g.rows)

theorem cell_eq (position : Nat) :
    (cell g position : PlanM (Checked σ) (Nat × Nat)) = liftM (g.cell position) := by
  unfold cell Grid.cell cellOfPosition
  rcases g.check position with e | ⟨⟩
  · rfl
  by_cases hrows : g.rows = 0
  · simp only [if_pos hrows]
    rfl
  · have hpos : 0 < g.rows := Nat.pos_of_ne_zero hrows
    simp only [if_neg hrows, quotient_of_pos hpos, remainder_of_pos hpos, pure_bind]
    rfl

/-- The symbol at a position. -/
def readCell (position : Nat) : PlanM (Checked σ) Symbol := do
  let _ ← (g.check position : Except DataError Unit)
  item g.cells position

theorem readCell_eq (position : Nat) :
    (readCell g position : PlanM (Checked σ) Symbol) = liftM (g.get position) := by
  unfold readCell Grid.check Grid.get
  by_cases h : position < g.len
  · rw [if_pos h, List.getElem?_eq_getElem h, item_of_lt h]
    rfl
  · rw [if_neg h, List.getElem?_eq_none (Nat.le_of_not_lt h)]
    rfl

/-- The symbols of a reel, top row first. -/
def reel (reel : Nat) : PlanM (Checked σ) (List Symbol) := do
  let start ← (g.position reel 0 : Except DataError Nat)
  slice g.cells start (start + g.rows)

theorem reel_eq (reel : Nat) :
    (Check.reel g reel : PlanM (Checked σ) (List Symbol)) = liftM (g.reel reel) := by
  unfold Check.reel Grid.reel
  rcases hstart : g.position reel 0 with e | start
  · rfl
  obtain ⟨⟨hreel, -⟩, rfl⟩ := Grid.position_eq_ok.mp hstart
  have hend : linearPosition g.rows reel 0 + g.rows ≤ g.cells.length := by
    rw [g.length_cells, linearPosition, Nat.add_zero, ← Nat.succ_mul]
    exact Nat.mul_le_mul_right _ hreel
  have hslice := slice_of_le (σ := σ) hend
  exact hslice

/-! ### Strips -/

/-- The symbol so many rows below a stop, around the strip. -/
def stripSymbol (strip : List Symbol) (stop offset : Nat) : PlanM (Checked σ) Symbol := do
  item strip (← remainder (stop + offset) strip.length)

/-- The symbols from a stop down. -/
def window (strip : List Symbol) (stop rows : Nat) : PlanM (Checked σ) (List Symbol) :=
  (List.range rows).mapM (stripSymbol strip stop)

/-- A strip has a symbol at every place. -/
theorem window_eq (strip : Strip) (stop rows : Nat) :
    (window strip.symbols stop rows : PlanM (Checked σ) (List Symbol)) =
      pure (strip.window stop rows) := by
  have hpos : 0 < strip.symbols.length := strip.length_pos
  refine mapM_eq_pure_map fun row _ => ?_
  rw [stripSymbol, remainder_of_pos hpos, pure_bind]
  exact item_of_lt (Nat.mod_lt _ hpos)

end Grid

end Check

end SlotOutcome
