import SlotOutcome.Proofs.Cascades
import SlotOutcome.Proofs.OutcomeLaws

/-!
# The ledger as an audit of the grid

An auditor who knows the working grid and the stops at the beginning of a pass, and the strips, can
work out the grid and the stops at its end from the new ledger entries alone. Entries of painting
features say which cells were painted and with what, and an entry of a cascade says which cells
went; entries of all other types change nothing. Spinning is not recorded as a whole, so the law is
about passes in which no reels were spun and no step was taken over.

```text
  grid, stops ── entry 1 ──► grid, stops ── entry 2 ──► …  ──► grid, stops after the pass
```

Positions are numbers of 64 bits in a payload, so the grid must not have more cells than that.

## Main definitions

* `Board`, `Board.apply`: what an auditor keeps, and what an entry does to it.
* `Effect.marks?`: the cells that an entry says were painted.
* `Board.fall`: what a cascade does.

## Main results

* `Effect.Makes.board_eq`: a change does to the board what its entry says.
* `trigger_audited`: so does a pass.
-/

namespace SlotOutcome

/-! ### What an auditor does -/

/-- What an auditor keeps of an outcome: the working grid, and where the reels stopped. -/
@[ext]
structure Board where
  grid : Grid
  stops : List Nat

/-- The working grid and the stops of an outcome. -/
def Outcome.board (o : Outcome) : Board := ⟨o.grid, o.stops⟩

/-- A field of a payload. -/
def Json.field? {α : Type} (payload : Json) (type : ParamType α) (name : String) : Option α := do
  type.read (← (← payload.toBag?).get? name)

/-- The cells that a payload of a type of feature says were painted, on a grid with so many rows. -/
def Effect.marks? (rows : Nat) (payload : Json) : Effect → Option (Nat → Bool)
  | tileExpansion => do
    let x ← payload.field? .nat "X"
    let y ← payload.field? .nat "Y"
    let w ← payload.field? .nat "W"
    let h ← payload.field? .nat "H"
    some fun q => (x ≤ q / rows ∧ q / rows < x + w) ∧ y ≤ q % rows ∧ q % rows < y + h
  | expandingSymbols => do
    let reels ← payload.field? .positions "Reels"
    some fun q => reels.contains (q / rows)
  | stickySymbols => (payload.field? .positions "Applied").map List.contains
  | expandingWild => (payload.field? .positions "Positions").map List.contains
  | replaceTile => (payload.field? .positions "Positions").map List.contains
  | randomWilds => (payload.field? .positions "Positions").map List.contains
  | mysterySymbol => (payload.field? .positions "Positions").map List.contains
  | applyPattern => (payload.field? .positions "Positions").map List.contains
  | _ => none

namespace Board

/-- The board with a symbol on all marked cells. -/
def paint (b : Board) (marked : Nat → Bool) (symbol : Symbol) : Board :=
  { b with grid := b.grid.recolor fun q old => if marked q then symbol else old }

/-- The board after some cells were removed. On each reel the symbols that stay fall down, and the
reel is filled from its strip above the stop. -/
def fall (b : Board) (strips : List (List Symbol)) (removed : List Nat) : Board where
  grid := b.grid.recolor fun q old =>
    let reel := q / b.grid.rows
    let fresh := Cascade.above (strips.getD reel []) (b.stops.getD reel 0)
      (Cascade.gone b.grid removed reel)
    (fresh ++ Cascade.staying b.grid removed reel).getD (q % b.grid.rows) old
  stops := b.stops.mapIdx fun reel stop =>
    let gone := Cascade.gone b.grid removed reel
    if gone = 0 then stop else Cascade.stopAbove stop gone (strips.getD reel []).length

/-- The board after what the payload of a painting feature says, if it is one. -/
def painted? (b : Board) (e : Effect) (payload : Json) : Option Board := do
  some (b.paint (← e.marks? b.grid.rows payload) (← payload.field? .symbol "TileId"))

/-- The board after the cells of the payload of a cascade were removed. -/
def fallen? (b : Board) (strips : List (List Symbol)) (payload : Json) : Option Board := do
  some (b.fall strips (← payload.field? .positions "Removed"))

/-- What a payload of a type of feature says was done to the board. -/
def change (b : Board) (strips : List (List Symbol)) (e : Effect) (payload : Json) : Board :=
  (if e = .cascade then b.fallen? strips payload else b.painted? e payload).getD b

/-- What an entry says was done to the board. -/
def apply (strips : List (List Symbol)) (b : Board) (entry : Entry) : Board :=
  match Effect.ofTag? entry.tag with
  | some e => b.change strips e entry.data
  | none => b

end Board

theorem Effect.ofTag?_tag (e : Effect) : Effect.ofTag? e.tag = some e := by
  cases e <;> rfl

theorem Effect.tag_inj {e e' : Effect} : e.tag = e'.tag ↔ e = e' := by
  refine ⟨fun h => ?_, congrArg _⟩
  rw [← Option.some_inj, ← ofTag?_tag e, ← ofTag?_tag e', h]

/-! ### Painting -/

variable {s : RoundState}

/-- Covering the cells that are marked is painting them. -/
theorem Outcome.board_covered {o : Outcome} {positions : List Nat} {symbol : Symbol}
    {marked : Nat → Bool} (h : ∀ q < o.grid.len, marked q = true ↔ q ∈ positions) :
    (o.covered positions symbol).board = o.board.paint marked symbol := by
  change Board.mk (o.grid.writeAll positions symbol) o.stops = _
  rw [Grid.writeAll_eq_recolor o.grid positions symbol h]
  rfl

/-- Covering the cells that an entry lists. -/
theorem Outcome.board_covered_listed (o : Outcome) (positions : List Nat) (symbol : Symbol) :
    (o.covered positions symbol).board = o.board.paint positions.contains symbol :=
  o.board_covered fun _ _ => List.contains_iff_mem

/-- The positions of several reels are those on them. -/
theorem mem_reelPositions_iff {g : Grid} {reels : List Nat} {positions : List (List Nat)}
    (h : reels.mapM g.reelPositions = .ok positions) {q : Nat} (hq : q < g.len) :
    q ∈ positions.flatten ↔ q / g.rows ∈ reels := by
  obtain ⟨-, hrows⟩ := Grid.reel_of_position hq
  rw [List.mem_flatten]
  constructor
  · rintro ⟨column, hcolumn, hmem⟩
    obtain ⟨reel, hreel, hread⟩ := (mem_of_mapM_eq_ok h).mp hcolumn
    obtain ⟨-, -, rfl⟩ := Grid.reelPositions_eq_ok.mp hread
    rwa [(Grid.mem_column_iff hrows).mp hmem]
  · intro hreel
    obtain ⟨column, hread⟩ := exists_of_mapM_eq_ok h hreel
    obtain ⟨-, -, rfl⟩ := Grid.reelPositions_eq_ok.mp hread
    exact ⟨_, (mem_of_mapM_eq_ok h).mpr ⟨_, hreel, hread⟩, (Grid.mem_column_iff hrows).mpr rfl⟩

/-- Reels whose positions can be had have numbers below the number of cells. -/
theorem lt_len_of_reelPositions {g : Grid} {reels : List Nat} {positions : List (List Nat)}
    (h : reels.mapM g.reelPositions = .ok positions) {reel : Nat} (hreel : reel ∈ reels) :
    reel < g.len := by
  obtain ⟨column, hread⟩ := exists_of_mapM_eq_ok h hreel
  obtain ⟨hlt, hrows, -⟩ := Grid.reelPositions_eq_ok.mp hread
  rw [Grid.len_eq]
  exact Nat.lt_of_lt_of_le hlt (Nat.le_mul_of_pos_right _ hrows)

/-! ### Payloads -/

theorem Json.field?_ofFields {α : Type} (type : ParamType α) (name : String)
    (fields : List (String × Json)) :
    (Json.ofFields fields).field? type name = (fields.reverse.lookup name).bind type.read := by
  rw [← Members.get?_ofList]
  rfl

section Fields

variable {α : Type} (type : ParamType α) (x y w h index position : Nat)
  (positions reels applied removed : List Nat) (id : Symbol) (step : UInt32)

theorem Payload.fields_tile :
    (Payload.tile x y w h id).field? type "X" = type.read (.ofNat x) ∧
    (Payload.tile x y w h id).field? type "Y" = type.read (.ofNat y) ∧
    (Payload.tile x y w h id).field? type "W" = type.read (.ofNat w) ∧
    (Payload.tile x y w h id).field? type "H" = type.read (.ofNat h) ∧
    (Payload.tile x y w h id).field? type "TileId" = type.read (.ofInt id.toInt) := by
  simp [Payload.tile, Json.field?_ofFields, List.lookup_cons]

theorem Payload.fields_expansion :
    (Payload.expansion position positions id).field? type "Positions" =
      type.read (.ofNats positions) ∧
    (Payload.expansion position positions id).field? type "TileId" =
      type.read (.ofInt id.toInt) := by
  simp [Payload.expansion, Json.field?_ofFields, List.lookup_cons]

theorem Payload.fields_expandedReels :
    (Payload.expandedReels reels id).field? type "Reels" = type.read (.ofNats reels) ∧
    (Payload.expandedReels reels id).field? type "TileId" = type.read (.ofInt id.toInt) := by
  simp [Payload.expandedReels, Json.field?_ofFields, List.lookup_cons]

theorem Payload.fields_painted :
    (Payload.painted positions id).field? type "Positions" = type.read (.ofNats positions) ∧
    (Payload.painted positions id).field? type "TileId" = type.read (.ofInt id.toInt) := by
  simp [Payload.painted, Json.field?_ofFields, List.lookup_cons]

theorem Payload.fields_pattern :
    (Payload.pattern index positions id).field? type "Positions" = type.read (.ofNats positions) ∧
    (Payload.pattern index positions id).field? type "TileId" = type.read (.ofInt id.toInt) := by
  simp [Payload.pattern, Json.field?_ofFields, List.lookup_cons]

theorem Payload.fields_sticky :
    (Payload.sticky applied positions id).field? type "Applied" = type.read (.ofNats applied) ∧
    (Payload.sticky applied positions id).field? type "TileId" = type.read (.ofInt id.toInt) := by
  simp [Payload.sticky, Json.field?_ofFields, List.lookup_cons]

theorem Payload.field?_cascade :
    (Payload.cascade step removed).field? type "Removed" = type.read (.ofNats removed) := by
  simp [Payload.cascade, Json.field?_ofFields]

end Fields

/-! ### Changes -/

/-- Positions of a grid that is not too large can be read back. -/
theorem Grid.Bounds.read_ofNats {g : Grid} {positions : List Nat} (h : g.Bounds positions)
    (hlen : g.len ≤ UInt64.size) : ParamType.positions.read (.ofNats positions) = some positions :=
  ParamType.positions_read_ofNats fun p hp => Nat.lt_of_lt_of_le (h p hp) hlen

/-- An entry that names marked cells and a symbol says that the cells were painted. -/
theorem Board.change_of_marks {b : Board} {strips : List (List Symbol)} {e : Effect}
    {payload : Json} {marked : Nat → Bool} {symbol : Symbol}
    (hmarks : e.marks? b.grid.rows payload = some marked)
    (hsymbol : payload.field? .symbol "TileId" = some symbol) :
    b.change strips e payload = b.paint marked symbol := by
  have hpaints : e ≠ .cascade := by
    rintro rfl
    cases hmarks
  rw [Board.change, if_neg hpaints, Board.painted?, hmarks, hsymbol]
  rfl

/-- An entry that lists cells and a symbol says that these cells were painted. -/
theorem Outcome.board_covered_of_fields {o : Outcome} {positions : List Nat} {symbol : Symbol}
    {strips : List (List Symbol)} {e : Effect} {payload : Json} {name : String}
    (hmarks : e.marks? o.grid.rows payload =
      (payload.field? .positions name).map List.contains)
    (hbounds : o.grid.Bounds positions) (hlen : o.grid.len ≤ UInt64.size)
    (hlisted : payload.field? .positions name = ParamType.positions.read (.ofNats positions))
    (hsymbol : payload.field? .symbol "TileId" = ParamType.symbol.read (.ofInt symbol.toInt)) :
    (o.covered positions symbol).board = o.board.change strips e payload := by
  rw [hbounds.read_ofNats hlen] at hlisted
  rw [hlisted] at hmarks
  rw [ParamType.symbol_read_ofInt] at hsymbol
  have hchange : o.board.change strips e payload = o.board.paint positions.contains symbol :=
    Board.change_of_marks hmarks hsymbol
  rw [hchange, o.board_covered_listed]

theorem Outcome.board_covered_block {o : Outcome} {x y w h : Nat} {positions : List Nat}
    {id : Symbol} {strips : List (List Symbol)} (hx : x < UInt64.size) (hy : y < UInt64.size)
    (hw : w < UInt64.size) (hh : h < UInt64.size)
    (hblock : Paint.block o.grid x y w h = .ok positions) :
    (o.covered positions id).board =
      o.board.change strips .tileExpansion (Payload.tile x y w h id) := by
  obtain ⟨hX, hY, hW, hH, -⟩ := Payload.fields_tile ParamType.nat x y w h id
  obtain ⟨-, -, -, -, hsymbol⟩ := Payload.fields_tile ParamType.symbol x y w h id
  rw [ParamType.nat_read_ofNat hx] at hX
  rw [ParamType.nat_read_ofNat hy] at hY
  rw [ParamType.nat_read_ofNat hw] at hW
  rw [ParamType.nat_read_ofNat hh] at hH
  rw [ParamType.symbol_read_ofInt] at hsymbol
  have hmarks : Effect.tileExpansion.marks? o.grid.rows (Payload.tile x y w h id) = some fun q =>
      decide ((x ≤ q / o.grid.rows ∧ q / o.grid.rows < x + w) ∧
        y ≤ q % o.grid.rows ∧ q % o.grid.rows < y + h) := by
    rw [Effect.marks?, hX, hY, hW, hH]
    rfl
  rw [Board.change_of_marks hmarks hsymbol]
  refine Outcome.board_covered fun q hq => ?_
  rw [decide_eq_true_iff, Paint.mem_block_iff hblock hq]

theorem Outcome.board_covered_reels {o : Outcome} {reels : List Nat} {positions : List (List Nat)}
    {id : Symbol} {strips : List (List Symbol)} (hlen : o.grid.len ≤ UInt64.size)
    (hpositions : reels.mapM o.grid.reelPositions = .ok positions) :
    (o.covered positions.flatten id).board =
      o.board.change strips .expandingSymbols (Payload.expandedReels reels id) := by
  obtain ⟨hreels, -⟩ := Payload.fields_expandedReels ParamType.positions reels id
  obtain ⟨-, hsymbol⟩ := Payload.fields_expandedReels ParamType.symbol reels id
  rw [ParamType.positions_read_ofNats fun reel hreel =>
    Nat.lt_of_lt_of_le (lt_len_of_reelPositions hpositions hreel) hlen] at hreels
  rw [ParamType.symbol_read_ofInt] at hsymbol
  have hmarks : Effect.expandingSymbols.marks? o.grid.rows (Payload.expandedReels reels id) =
      some fun q => reels.contains (q / o.grid.rows) := by
    rw [Effect.marks?, hreels]
    rfl
  rw [Board.change_of_marks hmarks hsymbol]
  refine Outcome.board_covered fun q hq => ?_
  rw [List.contains_iff_mem, mem_reelPositions_iff hpositions hq]

section Cascade

variable {g : Grid} {strips : List (List Symbol)} {stops removed : List Nat}
  {refills : List (Option Cascade.Refill)} (hstrips : strips.length = g.reels)
  (hstops : stops.length = g.reels)
  (hrefills : List.Forall₂ (fun cell refill =>
    Cascade.refill g removed cell.2 cell.1.1 cell.1.2 = .ok refill)
    (strips.zip stops).zipIdx refills)

include hstrips hstops hrefills

/-- The grid after a cascade, as an auditor works it out. -/
theorem grid_of_refills : (refills.filterMap id).foldl Cascade.Refill.write g =
    ((Board.mk g stops).fall strips removed).grid := by
  refine Grid.ext_cells (Cascade.reels_foldl_write _ _) (Cascade.rows_foldl_write _ _) fun q => ?_
  change _ = (g.recolor _).cells[q]?
  rw [Grid.getElem?_recolor]
  by_cases hq : q < g.len
  · obtain ⟨hreel, hrows⟩ := Grid.reel_of_position hq
    have hrow : q % g.rows < g.rows := Nat.mod_lt _ hrows
    have hcell : g.cells[q]? = some g.cells[q] := List.getElem?_eq_getElem hq
    rw [Cascade.getElem?_foldl_write (Cascade.fits_of_refills hstrips hstops hrefills) hq,
      Cascade.refill_of_reel hstrips hstops hrefills hreel, hcell, Option.map_some]
    dsimp only
    by_cases hgone : Cascade.gone g removed (q / g.rows) = 0
    · have hplace : q / g.rows * g.rows + q % g.rows = q := Nat.div_add_mod' q g.rows
      have hstay := Cascade.getElem?_staying_of_gone hgone hrow
      rw [hplace, List.getD_eq_getElem?_getD, hcell, Option.getD_some] at hstay
      have habove (symbols : List Symbol) (stop : Nat) : Cascade.above symbols stop 0 = [] := rfl
      rw [if_pos hgone, Option.elim_none, hgone, habove, List.nil_append,
        List.getD_eq_getElem?_getD, hstay, Option.getD_some]
    · have hread (column : List Symbol) (hin : q % g.rows < column.length) (old : Symbol) :
          column[q % g.rows]? = some (column.getD (q % g.rows) old) := by
        rw [List.getD_eq_getElem?_getD, List.getElem?_eq_getElem hin, Option.getD_some]
      rw [if_neg hgone, Option.elim_some]
      exact hread _ (by rwa [Cascade.length_refilled]) _
  · have hlen : (Grid.len ((refills.filterMap id).foldl Cascade.Refill.write g)) = g.len := by
      rw [Grid.len_eq, Grid.len_eq, Cascade.reels_foldl_write, Cascade.rows_foldl_write]
    have hnone : g.cells[q]? = none := List.getElem?_eq_none (Nat.le_of_not_lt hq)
    rw [hnone, Option.map_none]
    refine List.getElem?_eq_none (Nat.le_of_not_lt ?_)
    change ¬q < Grid.len _
    rwa [hlen]

/-- The stops after a cascade, as an auditor works them out. -/
theorem stops_of_refills :
    List.zipWith (fun refill stop => (refill.map Cascade.Refill.stop).getD stop) refills stops =
      ((Board.mk g stops).fall strips removed).stops := by
  refine List.ext_getElem? fun reel => ?_
  change _ = (stops.mapIdx _)[reel]?
  rw [List.getElem?_mapIdx, List.getElem?_zipWith]
  rcases hstop : stops[reel]? with _ | stop
  · rw [Option.map_none]
    rcases refills[reel]? with _ | refill <;> rfl
  · have hreel : reel < g.reels := hstops ▸ (List.getElem?_eq_some_iff.mp hstop).1
    have hfound := Cascade.refill_of_reel hstrips hstops hrefills hreel
    have hlength : (strips.zip stops).zipIdx.length = refills.length := hrefills.length_eq
    rw [List.length_zipIdx, List.length_zip] at hlength
    have hin : reel < refills.length := by omega
    have hstop' : stops.getD reel 0 = stop := by
      rw [List.getD_eq_getElem?_getD, hstop, Option.getD_some]
    rw [Cascade.refillOf?, if_pos (Nat.zero_le _), Nat.sub_zero, List.getElem?_eq_getElem hin,
      hstop'] at hfound
    have hfound : refills[reel] = _ := hfound
    rw [List.getElem?_eq_getElem hin, hfound, Option.map_some]
    dsimp only
    by_cases hgone : Cascade.gone g removed reel = 0
    · rw [if_pos hgone, if_pos hgone]
      rfl
    · rw [if_neg hgone, if_neg hgone]
      rfl

/-- The board after a cascade, as an auditor works it out. -/
theorem board_of_refills :
    Board.mk ((refills.filterMap id).foldl Cascade.Refill.write g)
      (List.zipWith (fun refill stop => (refill.map Cascade.Refill.stop).getD stop) refills stops) =
        (Board.mk g stops).fall strips removed :=
  Board.ext (grid_of_refills hstrips hstops hrefills) (stops_of_refills hstrips hstops hrefills)

end Cascade

/-- An entry of a cascade says that the cells it lists were removed. -/
theorem Board.change_cascade {b : Board} {strips : List (List Symbol)} {payload : Json}
    {removed : List Nat} (h : payload.field? .positions "Removed" = some removed) :
    b.change strips .cascade payload = b.fall strips removed := by
  rw [Board.change, if_pos rfl, Board.fallen?, h]
  rfl

theorem Outcome.board_cascade {o : Outcome} {removed : List Nat}
    {refills : List (Option Cascade.Refill)} (hbounds : o.grid.Bounds removed)
    (hlen : o.grid.len ≤ UInt64.size) (hstrips : o.strips.length = o.grid.reels)
    (hstops : o.stops.length = o.grid.reels)
    (hrefills : List.Forall₂ (fun cell refill =>
      Cascade.refill o.grid removed cell.2 cell.1.1 cell.1.2 = .ok refill)
      (o.strips.zip o.stops).zipIdx refills) (step : UInt32) :
    Board.mk ((refills.filterMap id).foldl Cascade.Refill.write o.grid)
      (List.zipWith (fun refill stop => (refill.map Cascade.Refill.stop).getD stop) refills
        o.stops) = o.board.change o.strips .cascade (Payload.cascade step removed) := by
  have hread := Payload.field?_cascade ParamType.positions removed step
  rw [hbounds.read_ofNats hlen] at hread
  rw [Board.change_cascade hread]
  exact board_of_refills hstrips hstops hrefills

/-- A change does to the board what its entry says, unless the reels were spun. -/
theorem Effect.Makes.board_eq {e : Effect} {c : Change} (h : e.Makes s c) (he : e ≠ .reelStops)
    (hlen : s.outcome.grid.len ≤ UInt64.size) :
    c.outcome.board = s.outcome.board.change s.outcome.strips e c.payload := by
  cases h with
  | stops hgrid => exact absurd rfl he
  | tile hx hy hw hh hblock => exact Outcome.board_covered_block hx hy hw hh hblock
  | expandedReels hpositions => exact Outcome.board_covered_reels hlen hpositions
  | @expansion position positions id hbounds =>
    exact Outcome.board_covered_of_fields rfl hbounds hlen
      (Payload.fields_expansion .positions position positions id).1
      (Payload.fields_expansion .symbol position positions id).2
  | @replaced positions id hbounds | @dropped positions id hbounds
  | @unveiled positions id hbounds =>
    exact Outcome.board_covered_of_fields rfl hbounds hlen
      (Payload.fields_painted .positions positions id).1
      (Payload.fields_painted .symbol positions id).2
  | @pattern index positions id hbounds =>
    exact Outcome.board_covered_of_fields rfl hbounds hlen
      (Payload.fields_pattern .positions index positions id).1
      (Payload.fields_pattern .symbol index positions id).2
  | @sticky applied id hbounds =>
    let positions := (s.outcome.covered applied id).grid.positionsOf id
    exact Outcome.board_covered_of_fields rfl hbounds hlen
      (Payload.fields_sticky .positions positions applied id).1
      (Payload.fields_sticky .symbol positions applied id).2
  | @cascade removed refills hremoved hbounds hstrips hstops hrefills =>
    exact Outcome.board_cascade hbounds hlen hstrips hstops hrefills _
  | _ => rfl

theorem Effect.Makes.strips_eq {e : Effect} {c : Change} (h : e.Makes s c) (he : e ≠ .reelStops) :
    c.outcome.strips = s.outcome.strips := by
  cases h with
  | stops hgrid => exact absurd rfl he
  | _ => rfl

/-! ### Passes -/

namespace Board

/-- An entry does not change the shape of the grid. -/
theorem len_change (b : Board) (strips : List (List Symbol)) (e : Effect) (payload : Json) :
    (b.change strips e payload).grid.len = b.grid.len := by
  unfold change
  split
  · rcases hfall : b.fallen? strips payload with _ | b'
    · rfl
    · obtain ⟨removed, -, hfall⟩ := Option.bind_eq_some_iff.mp hfall
      cases hfall
      exact b.grid.len_recolor _
  · rcases hpaint : b.painted? e payload with _ | b'
    · rfl
    · obtain ⟨marked, -, hpaint⟩ := Option.bind_eq_some_iff.mp hpaint
      obtain ⟨symbol, -, hpaint⟩ := Option.bind_eq_some_iff.mp hpaint
      cases hpaint
      exact b.grid.len_recolor _

theorem len_apply (strips : List (List Symbol)) (b : Board) (entry : Entry) :
    (apply strips b entry).grid.len = b.grid.len := by
  unfold apply
  rcases Effect.ofTag? entry.tag with _ | e
  · rfl
  · exact b.len_change strips e entry.data

theorem len_foldl_apply (strips : List (List Symbol)) (b : Board) (entries : List Entry) :
    (entries.foldl (apply strips) b).grid.len = b.grid.len := by
  induction entries generalizing b with
  | nil => rfl
  | cons entry entries ih => rw [List.foldl_cons, ih, len_apply]

/-- An entry of a feature does what its payload says. -/
theorem apply_entry (strips : List (List Symbol)) (b : Board) (e : Effect) (id : UInt32)
    (payload : Json) : apply strips b ⟨id, e.tag, payload⟩ = b.change strips e payload := by
  rw [apply, Effect.ofTag?_tag]

end Board

/-- The strips stay, and the new ledger entries say what happened to the working grid and the
stops. -/
def Law.audited : Law where
  Rel o o' := o.grid.len ≤ UInt64.size → o'.strips = o.strips ∧
    ∃ new, o'.ledger = o.ledger ++ new ∧ o'.board = new.foldl (Board.apply o.strips) o.board
  refl o _ := ⟨rfl, [], (List.append_nil _).symm, rfl⟩
  trans := by
    intro o₁ o₂ o₃ h h' hlen
    obtain ⟨hstrips, new, hledger, hboard⟩ := h hlen
    have hlen' : o₂.grid.len = o₁.grid.len := by
      have hgrid : o₂.grid = (new.foldl (Board.apply o₁.strips) o₁.board).grid :=
        congrArg Board.grid hboard
      rw [hgrid]
      exact Board.len_foldl_apply _ _ _
    obtain ⟨hstrips', new', hledger', hboard'⟩ := h' (hlen'.symm ▸ hlen)
    refine ⟨hstrips'.trans hstrips, new ++ new', ?_, ?_⟩
    · rw [hledger', hledger, List.append_assoc]
    · rw [hboard', hboard, hstrips, List.foldl_append]

/-- A feature that does not spin the reels does to the board what it notes. -/
theorem Law.audited_perform {d : Definition} {e : Effect} (htag : d.tag = e.tag)
    (he : e ≠ .reelStops) {change : Option Change} (h : e.MakesOnly s change) :
    Law.audited.Rel s.outcome (s.perform d change).outcome := by
  intro hlen
  rcases change with _ | change
  · exact Law.audited.refl _ hlen
  · have hmakes := h change rfl
    refine ⟨hmakes.strips_eq he, [⟨d.id, d.tag, change.payload⟩], ?_, ?_⟩
    · exact s.ledger_perform h.keepsLedger
    · rw [List.foldl_cons, List.foldl_nil, htag, Board.apply_entry]
      exact hmakes.board_eq he hlen

/-- The ledger is an audit of the working grid and of the stops. A pass in which no reels were spun
and no step was taken over, whether it succeeds or fails, leaves the strips and adds entries to the
ledger; and the working grid and the stops at its end are those at its beginning after these entries
have been applied to them in order. -/
theorem trigger_audited {σ : Type} [RandomSource σ] {d : Definition} {source : σ} {s : RoundState}
    {bag : Bag} {r : Except FeatureError Unit} {p : Pass σ}
    (hlen : s.outcome.grid.len ≤ UInt64.size)
    (hrun : trigger .builtin d source s bag = (r, p))
    (hspins : ∀ v ∈ p.visits, v.node.tag ≠ "ReelStops")
    (hreveals : ∀ v ∈ p.visits, ¬v.node.Reveals s.stateful) :
    p.state.outcome.strips = s.outcome.strips ∧
      ∃ new, p.state.outcome.ledger = s.outcome.ledger ++ new ∧
        p.state.outcome.board = new.foldl (Board.apply s.outcome.strips) s.outcome.board := by
  obtain ⟨-, hlaw⟩ := Law.audited.of_trigger (fun n => n.tag = "ReelStops")
    (fun n e htag hspoils s change hmakes => by
      have hspin : e ≠ .reelStops := by
        rintro rfl
        exact hspoils htag
      exact Law.audited_perform htag hspin hmakes) hrun
  exact hlaw (fun v hv => ⟨hreveals v hv, hspins v hv⟩) hlen

/-- Two reels that have landed, with a win on their top row. -/
def landed : RoundState where
  __ := RoundState.fresh 2 2
  outcome :=
    { Outcome.blank 2 2 with
      grid := ⟨2, 2, [1, 2, 3, 4], rfl⟩
      strips := [[1, 2, 5], [3, 4]]
      stops := [0, 0]
      wins := [⟨"Line", 1.0, [1, 3], [0, 2]⟩] }

/-- Removes the winning cells, and turns the symbols that came in on the second reel into others. -/
def fallAndReplace : Definition where
  id := 1
  tag := "Activator"
  params := .empty
  features := [⟨2, "Cascade", .empty, []⟩, ⟨3, "ReplaceTile",
    (Bag.empty.insert "ReplaceFrom" (.ofInt 4)).insert "ReplaceTo" (.ofInt 9), []⟩]

/-- The grid and the stops after a cascade and a replacement, and the entries that say so. -/
theorem trigger_audited_fallAndReplace :
    ∃ p new, trigger .builtin fallAndReplace (Script.ofDraws []) landed .empty = (.ok (), p) ∧
      p.state.outcome.ledger = new ∧
      p.state.outcome.board = new.foldl (Board.apply landed.outcome.strips) landed.outcome.board ∧
      p.state.outcome.board = ⟨⟨2, 2, [5, 2, 9, 9], rfl⟩, [2, 1]⟩ := by
  rcases hrun : trigger .builtin fallAndReplace (Script.ofDraws []) landed .empty with ⟨r, p⟩
  have hr : (trigger .builtin fallAndReplace (Script.ofDraws []) landed .empty).1 = .ok () := by
    decide +kernel
  have hvisits : ∀ v ∈ (trigger .builtin fallAndReplace (Script.ofDraws []) landed .empty).2.visits,
      v.node.tag ≠ "ReelStops" ∧ ¬v.node.Reveals landed.stateful := by decide +kernel
  have hcells : (trigger .builtin fallAndReplace (Script.ofDraws []) landed
    .empty).2.state.outcome.grid = ⟨2, 2, [5, 2, 9, 9], rfl⟩ := by decide +kernel
  have hstops : (trigger .builtin fallAndReplace (Script.ofDraws []) landed
    .empty).2.state.outcome.stops = [2, 1] := by decide +kernel
  rw [hrun] at hr hvisits hcells hstops
  obtain rfl : r = .ok () := hr
  obtain ⟨-, new, hledger, hboard⟩ := trigger_audited (by decide) hrun
    (fun v hv => (hvisits v hv).1) fun v hv => (hvisits v hv).2
  exact ⟨p, new, rfl, hledger, hboard, Board.ext hcells hstops⟩

end SlotOutcome
