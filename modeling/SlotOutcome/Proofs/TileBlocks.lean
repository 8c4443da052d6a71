import SlotOutcome.Proofs.Causes
import SlotOutcome.Proofs.PaintedCells

/-!
# Painting a block

A block is given by its first reel and row, its width and its height. It is painted if it has cells,
there is room for a list of their positions, and all of them are on the grid. If not, nothing is
painted, and the error tells which of the three is not so. Room is asked for before the cells are
looked at: a block too large for any list is refused for that, also where it leaves the grid.

## Main definitions

* `Paint.AsksTile`: what a feature that paints a block reads in its bag.
* `Paint.InBlock`: the cells of a block.
* `Paint.PaintsBlock`: what painting a block comes to.

## Main results

* `Paint.exists_block_iff`: the blocks that are on the grid.
* `Paint.block_eq_error`: the cell that is named if a block is not.
* `trigger_paints_block`: what a feature that paints a block does.
* `trigger_oversizeBlock`: a block that leaves the grid without an error of the data.
-/

namespace SlotOutcome

namespace Paint

/-- What a feature that paints a block reads in its bag. -/
structure AsksTile (bag : Bag) (x y w h : ℕ) (id : Symbol) : Prop where
  x : bag.require .nat "X" = .ok x
  y : bag.require .nat "Y" = .ok y
  w : bag.require .nat "W" = .ok w
  h : bag.require .nat "H" = .ok h
  id : bag.require .symbol "TileId" = .ok id

/-- The cells of a block. -/
def InBlock (x y w h reel row : ℕ) : Prop := (x ≤ reel ∧ reel < x + w) ∧ y ≤ row ∧ row < y + h

instance (x y w h reel row : ℕ) : Decidable (InBlock x y w h reel row) :=
  inferInstanceAs (Decidable (_ ∧ _))

variable {g : Grid} {x y w h : ℕ} {positions : List ℕ}

/-- The positions of a block are positions of the grid. -/
theorem bounds_block (hblock : block g x y w h = .ok positions) : g.Bounds positions := by
  intro p hp
  obtain ⟨columns, hcolumns, hflatten⟩ := bind_eq_ok.mp hblock
  obtain rfl : columns.flatten = positions := Except.ok.inj hflatten
  obtain ⟨column, hcolumn, hmem⟩ := List.mem_flatten.mp hp
  obtain ⟨reel, -, hread⟩ := (mem_of_mapM_eq_ok hcolumns).mp hcolumn
  obtain ⟨row, -, hposition⟩ := (mem_of_mapM_eq_ok hread).mp hmem
  obtain ⟨⟨hreel, hrow⟩, rfl⟩ := Grid.position_eq_ok.mp hposition
  exact Grid.linearPosition_lt hreel hrow

/-- A cell of the grid is among the positions of a block if it is a cell of the block. -/
theorem linearPosition_mem_block_iff (hblock : block g x y w h = .ok positions) {reel row : ℕ}
    (hreel : reel < g.reels) (hrow : row < g.rows) :
    InBlock x y w h reel row ↔ linearPosition g.rows reel row ∈ positions := by
  rw [mem_block_iff hblock (Grid.linearPosition_lt hreel hrow), Grid.reel_of_linearPosition hrow,
    Grid.row_of_linearPosition hrow]
  rfl

/-- A block cannot be had because of one of its cells, which is not on the grid. -/
theorem block_eq_error {e : DataError} (hblock : block g x y w h = .error e) :
    ∃ reel row, InBlock x y w h reel row ∧ ¬(reel < g.reels ∧ row < g.rows) ∧
      e = .cellOutOfBounds reel row g.reels g.rows := by
  rcases hcolumns : (List.range' x w).mapM fun reel => (List.range' y h).mapM fun row =>
    g.position reel row with e' | columns
  · rw [block, hcolumns] at hblock
    cases hblock
    obtain ⟨reel, hreel, hcolumn⟩ := exists_of_mapM_eq_error hcolumns
    obtain ⟨row, hrow, hposition⟩ := exists_of_mapM_eq_error hcolumn
    refine ⟨reel, row, ⟨List.mem_range'_1.mp hreel, List.mem_range'_1.mp hrow⟩, ?_⟩
    rw [Grid.position] at hposition
    split_ifs at hposition with hin
    cases hposition
    exact ⟨hin, rfl⟩
  · rw [block, hcolumns] at hblock
    cases hblock

/-- All cells of a block are on the grid exactly if it ends there. -/
theorem exists_block_iff (hw : 0 < w) (hh : 0 < h) :
    (∃ positions, block g x y w h = .ok positions) ↔ x + w ≤ g.reels ∧ y + h ≤ g.rows := by
  constructor
  · rintro ⟨positions, hblock⟩
    obtain ⟨columns, hcolumns, -⟩ := bind_eq_ok.mp hblock
    -- The cell in the far corner is on the grid, and so the block ends there.
    have hlast : x + (w - 1) ∈ List.range' x w := List.mem_range'_1.mpr (by omega)
    obtain ⟨column, hcolumn⟩ := exists_of_mapM_eq_ok hcolumns hlast
    have hlowest : y + (h - 1) ∈ List.range' y h := List.mem_range'_1.mpr (by omega)
    obtain ⟨position, hposition⟩ := exists_of_mapM_eq_ok hcolumn hlowest
    obtain ⟨⟨hreel, hrow⟩, -⟩ := Grid.position_eq_ok.mp hposition
    omega
  · rintro ⟨hreels, hrows⟩
    rcases hblock : block g x y w h with e | positions
    · obtain ⟨reel, row, hin, hout, -⟩ := block_eq_error hblock
      obtain ⟨hreel, hrow⟩ := hin
      omega
    · exact ⟨positions, rfl⟩

/-- What a feature that paints a block does, once it has read its bag. -/
theorem tile_eq {s : RoundState} {bag : Bag} {id : Symbol} (hasks : AsksTile bag x y w h id) :
    tile s bag = if w = 0 ∨ h = 0 then
        .error (invalid ("empty tile " ++ toString w ++ "x" ++ toString h))
      else if w * h ≤ capacity then
        match block s.outcome.grid x y w h with
        | .ok positions => .ok (some ⟨s.outcome.covered positions id, Payload.tile x y w h id⟩)
        | .error e => .error (.data e)
      else .error .capacity := by
  obtain ⟨hx, hy, hw, hh, hid⟩ := hasks
  rw [tile, hx, hy, hw, hh, hid]
  by_cases hempty : w = 0 ∨ h = 0
  · rw [if_pos hempty]
    exact if_pos hempty
  rw [if_neg hempty]
  refine (if_neg hempty).trans ?_
  by_cases hroom : w * h ≤ capacity
  · have hreserve : reserve (w * h) = .ok () := if_pos hroom
    rw [if_pos hroom, hreserve]
    rcases hblock : block s.outcome.grid x y w h with e | positions
    · rfl
    · have hcover := cover_of_bounds (bounds_block hblock) id
      refine bind_eq_ok.mpr ⟨(), rfl, bind_eq_ok.mpr ⟨positions, rfl, ?_⟩⟩
      exact bind_eq_ok.mpr ⟨_, congrArg liftM hcover, rfl⟩
  · have hreserve : reserve (w * h) = .error .capacity := if_neg hroom
    rw [if_neg hroom, hreserve]
    rfl

end Paint

/-- What painting a block comes to: what is answered, and the state before and after. -/
structure Paint.PaintsBlock (d : Definition) (x y w h : ℕ) (id : Symbol)
    (r : Except FeatureError Unit) (s s' : RoundState) : Prop where
  /-- It succeeds if the block has cells, there is room for their positions, and all of them are on
  the grid. -/
  ok_iff : r = .ok () ↔ (0 < w ∧ 0 < h) ∧ w * h ≤ Paint.capacity ∧
    x + w ≤ s.outcome.grid.reels ∧ y + h ≤ s.outcome.grid.rows
  painted : r = .ok () →
    s.Painted s' (InBlock x y w h) id [⟨d.id, d.tag, Payload.tile x y w h id⟩]
  unchanged : r ≠ .ok () → s' = s
  /-- A block without cells is an error of the configuration. -/
  of_empty : ¬(0 < w ∧ 0 < h) → r = .error (.inFeature d.tag d.id
    (.config (.invalid ("empty tile " ++ toString w ++ "x" ++ toString h))))
  /-- A block that is not on the grid is an error of the data, which names one of its cells, if
  there is room for its positions. -/
  of_outside : 0 < w ∧ 0 < h → w * h ≤ Paint.capacity → r ≠ .ok () → ∃ reel row,
    InBlock x y w h reel row ∧ ¬(reel < s.outcome.grid.reels ∧ row < s.outcome.grid.rows) ∧
    r = .error (.inFeature d.tag d.id
      (.data (.cellOutOfBounds reel row s.outcome.grid.reels s.outcome.grid.rows)))
  /-- A block too large for a list of its positions is neither. -/
  of_oversize : Paint.capacity < w * h → r = .error (.inFeature d.tag d.id .capacity)

/-- Painting a block paints exactly its cells, wherever the feature stands in a tree. If it
succeeds, they show the symbol, all other cells show what they showed before, and one entry says
which block it was. If not, the state stays. Nothing is drawn. -/
theorem trigger_paints_block {σ : Type} [RandomSource σ] {d : Definition}
    (htag : d.tag = "TileExpansion") {above : List Definition} {p : Pass σ} {collate : Bool}
    (hcollate : p.bag.isCollate = .ok collate) {x y w h : ℕ} {id : Symbol}
    (hasks : Paint.AsksTile (d.params.overlay p.bag) x y w h id) :
    ∃ r q, d.trigger .builtin above p = (r, q) ∧ q.source = p.source ∧
      Paint.PaintsBlock d x y w h id r p.state q.state := by
  rw [Definition.trigger_drawless_run (e := .tileExpansion) rfl htag hcollate, Paint.tile_eq hasks]
  by_cases hempty : w = 0 ∨ h = 0
  · have hnone : ¬(0 < w ∧ 0 < h) := by omega
    have hroom : w * h = 0 := Nat.mul_eq_zero.mpr hempty
    rw [if_pos hempty]
    refine ⟨_, _, rfl, rfl, ?_⟩
    exact {
      ok_iff := ⟨nofun, fun hfits => absurd hfits.1 hnone⟩
      painted := nofun
      unchanged := fun _ => rfl
      of_empty := fun _ => rfl
      of_outside := fun hsome => absurd hsome hnone
      of_oversize := fun hover => by omega }
  have hsome : 0 < w ∧ 0 < h := by omega
  rw [if_neg hempty]
  by_cases hroom : w * h ≤ Paint.capacity
  · have hfits := Paint.exists_block_iff (g := p.state.outcome.grid) (x := x) (y := y) hsome.1
      hsome.2
    rw [if_pos hroom]
    rcases hblock : Paint.block p.state.outcome.grid x y w h with e | positions
    · obtain ⟨reel, row, hin, hout, rfl⟩ := Paint.block_eq_error hblock
      have houtside :
          ¬(x + w ≤ p.state.outcome.grid.reels ∧ y + h ≤ p.state.outcome.grid.rows) := by
        rw [← hfits, hblock]
        nofun
      refine ⟨_, _, rfl, rfl, ?_⟩
      exact {
        ok_iff := ⟨nofun, fun hin => absurd hin.2.2 houtside⟩
        painted := nofun
        unchanged := fun _ => rfl
        of_empty := fun hnone => absurd hsome hnone
        of_outside := fun _ _ _ => ⟨reel, row, hin, hout, rfl⟩
        of_oversize := fun hover => by omega }
    · refine ⟨_, _, rfl, rfl, ?_⟩
      exact {
        ok_iff := iff_of_true rfl ⟨hsome, hroom, hfits.mp ⟨positions, hblock⟩⟩
        painted := fun _ => RoundState.painted_perform fun reel hreel row hrow =>
          Paint.linearPosition_mem_block_iff hblock hreel hrow
        unchanged := fun herror => absurd rfl herror
        of_empty := fun hnone => absurd hsome hnone
        of_outside := fun _ _ herror => absurd rfl herror
        of_oversize := fun hover => by omega }
  · rw [if_neg hroom]
    refine ⟨_, _, rfl, rfl, ?_⟩
    exact {
      ok_iff := ⟨nofun, fun hin => absurd hin.2.1 hroom⟩
      painted := nofun
      unchanged := fun _ => rfl
      of_empty := fun hnone => absurd hsome hnone
      of_outside := fun _ hfits => absurd hfits hroom
      of_oversize := fun _ => rfl }

/-- A block of two reels and two rows in the corner of a grid of three reels and three rows. -/
def cornerBlock : Definition where
  id := 1
  tag := "TileExpansion"
  params := .ofList [("X", .ofNat 1), ("Y", .ofNat 1), ("W", .ofNat 2), ("H", .ofNat 2),
    ("TileId", .ofInt 7)]
  features := []

/-- The cell in the corner is painted, and the one in the opposite corner is not. -/
theorem trigger_paints_block_corner : ∃ q : Pass Script,
    cornerBlock.trigger .builtin [] ⟨.ofDraws [], [], .fresh 3 3, .empty⟩ = (.ok (), q) ∧
      q.state.outcome.grid.symbolAt 2 2 = .ok 7 ∧
      q.state.outcome.grid.symbolAt 0 0 = .ok .empty ∧
      q.state.outcome.ledger = [⟨1, "TileExpansion", Payload.tile 1 1 2 2 7⟩] := by
  obtain ⟨r, q, hrun, -, hblock⟩ := @trigger_paints_block Script _ cornerBlock rfl []
    ⟨.ofDraws [], [], .fresh 3 3, .empty⟩ false rfl 1 1 2 2 7 ⟨rfl, rfl, rfl, rfl, rfl⟩
  obtain rfl := hblock.ok_iff.mpr (by decide)
  have hpainted := hblock.painted rfl
  exact ⟨q, hrun, hpainted.painted 2 (by decide) 2 (by decide) (by decide),
    hpainted.kept 0 (by decide) 0 (by decide) (by decide), hpainted.ledger_eq⟩

/-- A block of so many reels in one row. -/
def rowBlock (reels : ℕ) : Definition where
  id := 1
  tag := "TileExpansion"
  params := .ofList [("X", .ofNat 0), ("Y", .ofNat 0), ("W", .ofNat reels), ("H", .ofNat 1),
    ("TileId", .ofInt 7)]
  features := []

/-- A number of 64 bits that is more than a list can hold, `2 ^ 60`. -/
def oversize : ℕ := 0x1000000000000000

/-- A block of that many reels and one row leaves a grid of one cell. Its corners and its number of
cells are numbers of 64 bits, but the pass does not fail with an error of the data. -/
theorem trigger_oversizeBlock :
    (0 + oversize < UInt64.size ∧ 0 + 1 < UInt64.size ∧ oversize * 1 < UInt64.size) ∧
      Paint.AsksTile (rowBlock oversize).params 0 0 oversize 1 7 ∧
      ∃ e, ((rowBlock oversize).trigger .builtin []
          ⟨Script.ofDraws [], [], .fresh 1 1, .empty⟩).1 = .error e ∧
        e.kind ≠ .data ∧ e.root = .capacity := by
  refine ⟨by decide, ⟨rfl, rfl, rfl, rfl, rfl⟩, .inFeature "TileExpansion" 1 .capacity, ?_, ?_, rfl⟩
  · rfl
  · nofun

end SlotOutcome
