import SlotOutcome.Proofs.GridAudit

/-!
# What a cascade does to every reel

A cascade takes away the cells that the wins touch, each of them once however often it is listed. A
reel that loses cells is refilled from its strip: the places of the strip just above the stop come
in on top of the symbols that stay, and the stop moves up to the first of them. The strip is read
around, so the law is the same when more cells go than the strip is long. All other reels stay as
they are.

## Main definitions

* `Cascade.Moves`: an outcome and the one that a cascade makes of it, reel by reel.

## Main results

* `Cascade.reel_of_refills`, `Cascade.reel_of_no_refill`, `Cascade.stop_of_refills`: a reel and its
  stop after the refills.
* `trigger_cascade_moves`: what a feature that cascades does.
-/

namespace SlotOutcome

namespace Cascade

/-- What a cascade makes of an outcome. The cells that are touched by wins go. -/
structure Moves (o o' : Outcome) : Prop where
  pairwise_removed : o'.cascade.removed.Pairwise (· < ·)
  mem_removed : ∀ p, p ∈ o'.cascade.removed ↔ ∃ win ∈ o.wins, p ∈ win.positions
  reels_eq : o'.grid.reels = o.grid.reels
  rows_eq : o'.grid.rows = o.grid.rows
  length_stops : o'.stops.length = o.stops.length
  /-- A reel that loses cells is refilled from above its stop. -/
  refilled : ∀ reel < o.grid.reels, 0 < gone o.grid o'.cascade.removed reel →
    ∃ symbols stop, o.strips[reel]? = some symbols ∧ o.stops[reel]? = some stop ∧
      stop < symbols.length ∧
      o'.grid.reel reel = .ok (above symbols stop (gone o.grid o'.cascade.removed reel) ++
        staying o.grid o'.cascade.removed reel) ∧
      o'.stops[reel]? = some (stopAbove stop (gone o.grid o'.cascade.removed reel) symbols.length)
  /-- A reel that loses none stays as it is. -/
  kept : ∀ reel < o.grid.reels, gone o.grid o'.cascade.removed reel = 0 →
    o'.grid.reel reel = o.grid.reel reel ∧ o'.stops[reel]? = o.stops[reel]?
  step_eq : o.cascade.step.toNat < UInt32.size - 1 →
    o'.cascade.step.toNat = o.cascade.step.toNat + 1
  nextPhase_eq : o'.nextPhase = some .cascade

/-! ### A reel and its stop after the refills -/

section Refills

variable {g : Grid} {strips : List (List Symbol)} {stops removed : List Nat}
  {refills : List (Option Refill)} (hstrips : strips.length = g.reels)
  (hstops : stops.length = g.reels)
  (hrefills : List.Forall₂ (fun cell found =>
    refill g removed cell.2 cell.1.1 cell.1.2 = .ok found) (strips.zip stops).zipIdx refills)

include hstrips hstops hrefills

/-- A cell after the refills, by its reel and row. -/
theorem cell_of_refills {reel row : Nat} (hreel : reel < g.reels) (hrow : row < g.rows) :
    ((refills.filterMap id).foldl Refill.write g).cells[linearPosition g.rows reel row]? =
      (refillOf? 0 refills reel).elim g.cells[linearPosition g.rows reel row]?
        fun r => r.column[row]? := by
  have hin : linearPosition g.rows reel row < g.len := by
    refine Grid.lt_len_of_mem_column hreel ?_
    rw [Grid.mem_column_iff (Nat.zero_lt_of_lt hrow), Grid.reel_of_linearPosition hrow]
  rw [getElem?_foldl_write (fits_of_refills hstrips hstops hrefills) hin,
    Grid.reel_of_linearPosition hrow, Grid.row_of_linearPosition hrow]

/-- A reel that loses cells shows the symbols above its stop on top of those that stay. -/
theorem reel_of_refills {reel : Nat} (hreel : reel < g.reels) (hrows : 0 < g.rows)
    (hgone : 0 < gone g removed reel) :
    ((refills.filterMap id).foldl Refill.write g).reel reel =
      .ok (above (strips.getD reel []) (stops.getD reel 0) (gone g removed reel) ++
        staying g removed reel) := by
  have hreels' := reels_foldl_write (refills.filterMap id) g
  have hrows' := rows_foldl_write (refills.filterMap id) g
  rw [Grid.reel_eq_ok (hreels' ▸ hreel) (hrows' ▸ hrows), hrows']
  refine ⟨length_refilled _ _ _ _ _, fun row hrow => ?_⟩
  rw [cell_of_refills hstrips hstops hrefills hreel hrow,
    refill_of_reel hstrips hstops hrefills hreel, if_neg (Nat.ne_of_gt hgone)]
  rfl

/-- A reel that loses no cells shows what it showed. -/
theorem reel_of_no_refill {reel : Nat} (hreel : reel < g.reels) (hrows : 0 < g.rows)
    (hgone : gone g removed reel = 0) :
    ((refills.filterMap id).foldl Refill.write g).reel reel = g.reel reel := by
  have hreels' := reels_foldl_write (refills.filterMap id) g
  have hrows' := rows_foldl_write (refills.filterMap id) g
  have hread := Grid.reel_of_lt hreel hrows
  obtain ⟨hlength, hcells⟩ := (Grid.reel_eq_ok hreel hrows).mp hread
  rw [hread, Grid.reel_eq_ok (hreels' ▸ hreel) (hrows' ▸ hrows), hrows']
  refine ⟨hlength, fun row hrow => ?_⟩
  rw [cell_of_refills hstrips hstops hrefills hreel hrow,
    refill_of_reel hstrips hstops hrefills hreel, if_pos hgone]
  exact hcells row hrow

/-- The stop of a reel that loses cells moves up, and the others stay. -/
theorem stop_of_refills {reel : Nat} (hreel : reel < g.reels) :
    (List.zipWith (fun refill stop => (refill.map Refill.stop).getD stop) refills stops)[reel]? =
      some (if gone g removed reel = 0 then stops.getD reel 0
        else stopAbove (stops.getD reel 0) (gone g removed reel) (strips.getD reel []).length) := by
  have hstop : stops[reel]? = some (stops.getD reel 0) := by simp [hstops, hreel]
  rw [stops_of_refills hstrips hstops hrefills]
  change (stops.mapIdx _)[reel]? = _
  rw [List.getElem?_mapIdx, hstop]
  rfl

/-- A reel that loses cells had its stop on its strip. -/
theorem stop_lt_of_refills {reel : Nat} (hreel : reel < g.reels) (hgone : 0 < gone g removed reel) :
    stops.getD reel 0 < (strips.getD reel []).length := by
  have hstrip : reel < strips.length := hstrips ▸ hreel
  have hstop : reel < stops.length := hstops ▸ hreel
  obtain ⟨found, -, hfound⟩ := refill_of_forall₂ hrefills hstrip hstop
  rcases refill_eq_ok hfound with ⟨hzero, -⟩ | ⟨-, hlt, -⟩
  · exact absurd hzero (Nat.ne_of_gt hgone)
  · simpa [hstrip, hstop] using hlt

end Refills

/-! ### The outcome of a cascade -/

theorem mem_removed_iff {wins : List Win} {p : Nat} :
    p ∈ ascending (wins.flatMap Win.positions) ↔ ∃ win ∈ wins, p ∈ win.positions := by
  rw [mem_ascending, List.mem_flatMap]

theorem exists_mem_removed {wins : List Win} (hwins : ∃ win ∈ wins, win.positions ≠ []) :
    ∃ p, p ∈ ascending (wins.flatMap Win.positions) := by
  obtain ⟨win, hwin, hpositions⟩ := hwins
  obtain ⟨p, hp⟩ := List.exists_mem_of_ne_nil _ hpositions
  exact ⟨p, mem_removed_iff.mpr ⟨win, hwin, hp⟩⟩

/-- A cascade with cells to remove does not pass over them. -/
theorem run_yields {s : RoundState} (hwins : ∃ win ∈ s.outcome.wins, win.positions ≠ []) :
    Yields (fun change => ∃ c, change = some c ∧ Effect.cascade.Makes s c) (run s) := by
  have hsome : Yields (fun change => change.isSome = true) (run s) := by
    unfold run
    dsimp only
    split
    · next hempty =>
      obtain ⟨p, hin⟩ := exists_mem_removed hwins
      rw [List.isEmpty_iff.mp hempty] at hin
      cases hin
    · exact .guarded fun _ => .after fun _ => .after fun _ => .pure rfl
  intro change hgives
  obtain ⟨c, rfl⟩ := Option.isSome_iff_exists.mp (hsome change hgives)
  exact ⟨c, rfl, cascade_makes s _ hgives c rfl⟩

/-- The change of a cascade moves what a cascade moves. -/
theorem moves_of_makes {s : RoundState} {c : Change} (h : Effect.cascade.Makes s c)
    (hwins : ∃ win ∈ s.outcome.wins, win.positions ≠ []) : Moves s.outcome c.outcome := by
  cases h with
  | @cascade removed refills hremoved hbounds hstrips hstops hrefills =>
  have hrows : 0 < s.outcome.grid.rows := by
    obtain ⟨p, hin⟩ := exists_mem_removed hwins
    exact (Grid.reel_of_position (hbounds p (hremoved ▸ hin))).2
  have hstop {reel : Nat} (hreel : reel < s.outcome.grid.reels) :
      s.outcome.stops[reel]? = some (s.outcome.stops.getD reel 0) := by simp [hstops, hreel]
  constructor
  case pairwise_removed => exact hremoved ▸ pairwise_ascending _
  case mem_removed =>
    intro p
    rw [← mem_removed_iff, hremoved]
  case reels_eq => exact reels_foldl_write _ _
  case rows_eq => exact rows_foldl_write _ _
  case length_stops =>
    change (List.zipWith _ refills s.outcome.stops).length = _
    have hlength : (s.outcome.strips.zip s.outcome.stops).zipIdx.length = refills.length :=
      hrefills.length_eq
    rw [List.length_zipIdx, List.length_zip] at hlength
    rw [List.length_zipWith]
    omega
  case refilled =>
    intro reel hreel hgone
    have hstrip : s.outcome.strips[reel]? = some (s.outcome.strips.getD reel []) := by
      simp [hstrips, hreel]
    have hafter := stop_of_refills hstrips hstops hrefills hreel
    rw [if_neg (Nat.ne_of_gt hgone)] at hafter
    exact ⟨_, _, hstrip, hstop hreel, stop_lt_of_refills hstrips hstops hrefills hreel hgone,
      reel_of_refills hstrips hstops hrefills hreel hrows hgone, hafter⟩
  case kept =>
    intro reel hreel hgone
    refine ⟨reel_of_no_refill hstrips hstops hrefills hreel hrows hgone, ?_⟩
    have hafter := stop_of_refills hstrips hstops hrefills hreel
    rw [if_pos hgone] at hafter
    exact hafter.trans (hstop hreel).symm
  case step_eq =>
    intro hstep
    have hsize : UInt32.size = 2 ^ 32 := rfl
    change (s.outcome.cascade.step + 1).toNat = _
    rw [UInt32.toNat_add, UInt32.toNat_one, Nat.mod_eq_of_lt (by omega)]
  case nextPhase_eq => rfl

end Cascade

/-- A cascade moves exactly what it should, wherever it stands in a tree. When a feature that
cascades succeeds on a state whose wins touch some cells, these cells go, the reels that lose some
of them are refilled from above their stops, and all other reels stay. The entry that it notes says
which cells went. -/
theorem trigger_cascade_moves {σ : Type} [RandomSource σ] {d : Definition}
    {above : List Definition} {p q : Pass σ} (htag : d.tag = "Cascade")
    (hrun : d.trigger .builtin above p = (.ok (), q))
    (hwins : ∃ win ∈ p.state.outcome.wins, win.positions ≠ []) :
    Cascade.Moves p.state.outcome q.state.outcome ∧
      q.state.outcome.ledger = p.state.outcome.ledger ++ [⟨d.id, d.tag,
        Payload.cascade q.state.outcome.cascade.step q.state.outcome.cascade.removed⟩] ∧
      q.state = p.state.withOutcome { p.state.outcome with
        grid := q.state.outcome.grid
        stops := q.state.outcome.stops
        cascade := q.state.outcome.cascade
        nextPhase := q.state.outcome.nextPhase
        ledger := q.state.outcome.ledger } := by
  obtain ⟨change, left, hplan, hstate⟩ :=
    Definition.trigger_leaf_ok (e := .cascade) rfl htag hrun
  obtain ⟨c, rfl, hmakes⟩ : ∃ c, change = some c ∧ Effect.cascade.Makes p.state c :=
    keepingBag_yields p.state _ (.lift_plan (Cascade.run_yields hwins)) (change, left)
      ⟨_, _, hplan⟩
  rw [hstate]
  refine ⟨{ Cascade.moves_of_makes hmakes hwins with }, ?_⟩
  have hledger := p.state.ledger_perform (d := d) hmakes.only.keepsLedger
  cases hmakes with
  | cascade => exact ⟨hledger, rfl⟩

/-- Three rows on two reels, whose first reel loses all of its cells but has a strip of two symbols.
The wins list their cells in any order, and one of them twice. -/
def shortStrip : RoundState where
  __ := RoundState.fresh 2 3
  outcome :=
    { Outcome.blank 2 3 with
      grid := ⟨2, 3, [2, 1, 2, 3, 4, 5], rfl⟩
      strips := [[1, 2], [3, 4, 5]]
      stops := [1, 0]
      wins := [⟨"Line", 1.0, [2], [2, 0, 1]⟩, ⟨"Scatter", 1.0, [1], [1, 0]⟩] }

/-- The stop of the first reel goes around its strip, and the second reel stays. -/
theorem trigger_cascade_moves_shortStrip :
    ∃ p, trigger .builtin ⟨1, "Cascade", .empty, []⟩ (Script.ofDraws []) shortStrip .empty =
        (.ok (), p) ∧
      Cascade.Moves shortStrip.outcome p.state.outcome ∧
      p.state.outcome.cascade.removed = [0, 1, 2] ∧
      p.state.outcome.stops = [0, 0] ∧
      p.state.outcome.grid = ⟨2, 3, [1, 2, 1, 3, 4, 5], rfl⟩ := by
  rcases hrun : trigger .builtin ⟨1, "Cascade", .empty, []⟩ (Script.ofDraws []) shortStrip .empty
    with ⟨r, p⟩
  have hr : (trigger .builtin ⟨1, "Cascade", .empty, []⟩ (Script.ofDraws []) shortStrip
    .empty).1 = .ok () := by decide +kernel
  have hend : (trigger .builtin ⟨1, "Cascade", .empty, []⟩ (Script.ofDraws []) shortStrip
      .empty).2.state.outcome.cascade.removed = [0, 1, 2] ∧
    (trigger .builtin ⟨1, "Cascade", .empty, []⟩ (Script.ofDraws []) shortStrip
      .empty).2.state.outcome.stops = [0, 0] ∧
    (trigger .builtin ⟨1, "Cascade", .empty, []⟩ (Script.ofDraws []) shortStrip
      .empty).2.state.outcome.grid = ⟨2, 3, [1, 2, 1, 3, 4, 5], rfl⟩ := by decide +kernel
  rw [hrun] at hr hend
  obtain rfl : r = .ok () := hr
  obtain ⟨hmoves, -⟩ := trigger_cascade_moves rfl hrun (by decide)
  exact ⟨p, rfl, hmoves, hend⟩

end SlotOutcome
