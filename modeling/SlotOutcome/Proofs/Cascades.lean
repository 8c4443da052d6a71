import Mathlib.Data.List.Forall2
import SlotOutcome.Effect.Cascade
import SlotOutcome.Proofs.GridWrites

/-!
# What a cascade moves

On a reel where cells go, the symbols that stay fall down in their old order, and the symbols above
the stop come in from the strip. The stop moves up by as many places as cells went, once around the
strip or several times. Reels where no cell goes keep their column and their stop.

```text
  places of the strip    s-g … s-1   s  …
  column before                      x₀ x₁ x₂ …
  column after           s-g … s-1   those xᵢ that stay
```

## Main definitions

* `Cascade.gone`, `Cascade.staying`: how many cells of a reel go, and the symbols of the others.
* `Cascade.above`, `Cascade.stopAbove`: the symbols of a strip above a stop, and the stop there.

## Main results

* `Cascade.refill_eq`, `Cascade.refill_eq_ok`: what a refill is.
* `Cascade.getElem?_foldl_write`: the grid after the refills have been written, cell by cell.
-/

namespace SlotOutcome

namespace Cascade

/-- How many cells of a reel go. -/
def gone (g : Grid) (removed : List Nat) (reel : Nat) : Nat :=
  (g.column reel).countP removed.contains

/-- The symbols of the cells of a reel that stay, top row first. -/
def staying (g : Grid) (removed : List Nat) (reel : Nat) : List Symbol :=
  ((g.column reel).filter fun p => !removed.contains p).map fun p => g.cells.getD p .empty

/-- The place so many places above a stop, on a strip of the given length that is read around. -/
def stopAbove (stop gone length : Nat) : Nat := (((stop : Int) - gone) % length).toNat

/-- The symbols above a stop, so many, top row first. -/
def above (symbols : List Symbol) (stop gone : Nat) : List Symbol :=
  (List.range gone).map fun i : Nat =>
    symbols.getD (((stop : Int) - gone + i) % symbols.length).toNat .empty

/-! ### The strip -/

theorem cast_stopAbove {stop gone length : Nat} (h : 0 < length) :
    (stopAbove stop gone length : Int) = ((stop : Int) - gone) % length :=
  Int.toNat_of_nonneg (Int.emod_nonneg _ (by omega))

/-- The stop is raised to the place so many places above it. -/
theorem raise_eq_stopAbove {stop gone length : Nat} (h : 0 < length) :
    raise stop gone length = stopAbove stop gone length := by
  have hmod : gone % length < length := Nat.mod_lt _ h
  have hgone : length * (gone / length) + gone % length = gone := Nat.div_add_mod gone length
  have hcast : ((stop + length - gone % length : Nat) : Int) =
      (stop : Int) - gone + length * (1 + (gone / length : Nat)) := by
    rw [Int.mul_add, Int.mul_one, ← Int.natCast_mul]
    omega
  have hraise : (raise stop gone length : Int) = ((stop : Int) - gone) % length := by
    rw [raise, Int.natCast_emod, hcast, Int.add_mul_emod_self_left]
  exact Int.ofNat_inj.mp (hraise.trans (cast_stopAbove h).symm)

theorem symbol_eq_getD (strip : Strip) (place : Nat) :
    strip.symbol place = strip.symbols.getD (place % strip.length) .empty := by
  have hlt := Nat.mod_lt place strip.length_pos
  rw [List.getD_eq_getElem?_getD, List.getElem?_eq_getElem hlt]
  rfl

/-- The window at the raised stop shows the symbols above the stop before. -/
theorem window_eq_above (strip : Strip) (stop gone : Nat) :
    strip.window (stopAbove stop gone strip.length) gone = above strip.symbols stop gone := by
  refine List.map_congr_left fun i _ => ?_
  have hplace : (stopAbove stop gone strip.length + i) % strip.length =
      (((stop : Int) - gone + i) % strip.length).toNat := by
    have hcast : (((stopAbove stop gone strip.length + i) % strip.length : Nat) : Int) =
        ((stop : Int) - gone + i) % strip.length := by
      rw [Int.natCast_emod, Int.natCast_add, cast_stopAbove strip.length_pos, Int.emod_add_emod]
    rw [← hcast, Int.toNat_natCast]
  change _ = strip.symbols.getD (((stop : Int) - gone + i) % strip.length).toNat .empty
  rw [← hplace, symbol_eq_getD]

/-! ### The refill of a reel -/

theorem length_staying (g : Grid) (removed : List Nat) (reel : Nat) :
    gone g removed reel + (staying g removed reel).length = g.rows := by
  have hcount : (g.column reel).length = gone g removed reel +
      (g.column reel).countP fun p => !removed.contains p := by
    rw [gone, List.length_eq_countP_add_countP removed.contains]
    simp
  rw [staying, List.length_map, ← List.countP_eq_length_filter, ← hcount, Grid.length_column]

/-- What the refill of a reel is, error by error. -/
theorem refill_eq {g : Grid} {reel : Nat} (hreel : reel < g.reels) (hrows : 0 < g.rows)
    (removed : List Nat) (symbols : List Symbol) (stop : Nat) :
    refill g removed reel symbols stop =
      if gone g removed reel = 0 then .ok none
      else if symbols = [] then
        .error (.malformed ("reel " ++ toString reel ++ " has an empty strip"))
      else if symbols.length ≤ stop then
        .error (.malformed ("reel " ++ toString reel ++ " stop " ++ toString stop ++
          " outside strip of " ++ toString symbols.length))
      else .ok (some ⟨g.column reel,
        above symbols stop (gone g removed reel) ++ staying g removed reel,
        stopAbove stop (gone g removed reel) symbols.length⟩) := by
  have hpositions : g.reelPositions reel = .ok (g.column reel) :=
    Grid.reelPositions_eq_ok.mpr ⟨hreel, hrows, rfl⟩
  have hgone : (g.column reel).length -
      ((g.column reel).filter fun p => !removed.contains p).length = gone g removed reel := by
    have hlength := length_staying g removed reel
    rw [staying, List.length_map] at hlength
    rw [Grid.length_column]
    omega
  have hstay : ((g.column reel).filter fun p => !removed.contains p).mapM g.get =
      .ok (staying g removed reel) := by
    refine mapM_eq_pure_map (m := Except DataError) fun p hp => ?_
    exact Grid.get_of_lt (Grid.lt_len_of_mem_column hreel (List.mem_filter.mp hp).1)
  unfold refill
  rw [hpositions]
  change (if (g.column reel).length - List.length _ = 0 then _ else _) = _
  rw [hgone, hstay]
  by_cases hzero : gone g removed reel = 0
  · rw [if_pos hzero, if_pos hzero]
    rfl
  rw [if_neg hzero, if_neg hzero]
  unfold Strip.ofList?
  by_cases hnil : symbols = []
  · rw [dif_pos hnil, if_pos hnil]
    rfl
  rw [dif_neg hnil, if_neg hnil]
  let strip : Strip := ⟨symbols, hnil⟩
  by_cases hpast : symbols.length ≤ stop
  · rw [if_pos hpast]
    exact if_pos hpast
  · have hraise : raise stop (gone g removed reel) strip.length =
        stopAbove stop (gone g removed reel) strip.length := raise_eq_stopAbove strip.length_pos
    rw [if_neg hpast]
    refine (if_neg hpast).trans ?_
    change Except.ok (some (Refill.mk _ (strip.window _ _ ++ _) _)) = _
    rw [hraise, window_eq_above strip]
    rfl

/-- A refill is nothing where no cell goes, and otherwise the symbols above the stop on top of those
that stay, at the stop above. -/
theorem refill_eq_ok {g : Grid} {removed : List Nat} {reel stop : Nat} {symbols : List Symbol}
    {refill? : Option Refill} (h : refill g removed reel symbols stop = .ok refill?) :
    (gone g removed reel = 0 ∧ refill? = none) ∨
      (0 < gone g removed reel ∧ stop < symbols.length ∧
        refill? = some ⟨g.column reel,
          above symbols stop (gone g removed reel) ++ staying g removed reel,
          stopAbove stop (gone g removed reel) symbols.length⟩) := by
  obtain ⟨positions, hpositions, -⟩ := bind_eq_ok.mp h
  obtain ⟨hreel, hrows, -⟩ := Grid.reelPositions_eq_ok.mp hpositions
  rw [refill_eq hreel hrows] at h
  split at h
  · next hzero => exact .inl ⟨hzero, (Except.ok.inj h).symm⟩
  split at h
  · cases h
  split at h
  · cases h
  · next hzero _ hstop =>
    exact .inr ⟨Nat.pos_of_ne_zero hzero, Nat.lt_of_not_le hstop, (Except.ok.inj h).symm⟩

/-- A column after its refill is as high as before. -/
theorem length_refilled (g : Grid) (removed : List Nat) (reel stop : Nat) (symbols : List Symbol) :
    (above symbols stop (gone g removed reel) ++ staying g removed reel).length = g.rows := by
  rw [List.length_append, above, List.length_map, List.length_range, length_staying]

/-- Where no cell of a reel goes, all stay. -/
theorem getElem?_staying_of_gone {g : Grid} {removed : List Nat} {reel : Nat}
    (h : gone g removed reel = 0) {row : Nat} (hrow : row < g.rows) :
    (staying g removed reel)[row]? = some (g.cells.getD (reel * g.rows + row) .empty) := by
  have hall : (g.column reel).filter (fun p => !removed.contains p) = g.column reel := by
    rw [List.filter_eq_self]
    intro p hp
    simpa using List.countP_eq_zero.mp h p hp
  rw [staying, hall, List.getElem?_map, Grid.column, List.getElem?_range' hrow, Option.map_some,
    Nat.one_mul]

/-! ### Writing the refills -/

@[simp] theorem Refill.reels_write (g : Grid) (r : Refill) : (Refill.write g r).reels = g.reels :=
  g.reels_foldl_write _

@[simp] theorem Refill.rows_write (g : Grid) (r : Refill) : (Refill.write g r).rows = g.rows :=
  g.rows_foldl_write _

@[simp] theorem Refill.len_write (g : Grid) (r : Refill) : (Refill.write g r).len = g.len := by
  rw [Grid.len_eq, Grid.len_eq, Refill.reels_write, Refill.rows_write]

@[simp] theorem reels_foldl_write (refills : List Refill) (g : Grid) :
    (refills.foldl Refill.write g).reels = g.reels := by
  induction refills generalizing g with
  | nil => rfl
  | cons r refills ih => rw [List.foldl_cons, ih, Refill.reels_write]

@[simp] theorem rows_foldl_write (refills : List Refill) (g : Grid) :
    (refills.foldl Refill.write g).rows = g.rows := by
  induction refills generalizing g with
  | nil => rfl
  | cons r refills ih => rw [List.foldl_cons, ih, Refill.rows_write]

/-- The refill is one of a reel of the given height. -/
def Refill.Fits (rows reel : Nat) (r : Refill) : Prop :=
  r.positions = List.range' (reel * rows) rows ∧ r.column.length = rows

/-- Writing the refill of a reel. -/
theorem Refill.Fits.getElem?_write {g : Grid} {r : Refill} {reel : Nat} (h : r.Fits g.rows reel)
    {q : Nat} (hq : q < g.len) :
    (Refill.write g r).cells[q]? =
      if q / g.rows = reel then r.column[q % g.rows]? else g.cells[q]? := by
  obtain ⟨hpositions, hcolumn⟩ := h
  have hrows : 0 < g.rows := (Grid.reel_of_position hq).2
  have hwrite := g.getElem?_writeColumn (reel * g.rows) r.column q
  rw [hcolumn] at hwrite
  rw [Refill.write, hpositions, hwrite]
  have hdiv : g.rows * (q / g.rows) + q % g.rows = q := Nat.div_add_mod q g.rows
  have hmod : q % g.rows < g.rows := Nat.mod_lt _ hrows
  by_cases hreel : q / g.rows = reel
  · subst hreel
    rw [Nat.mul_comm] at hdiv
    have hin : q / g.rows * g.rows ≤ q ∧ q < q / g.rows * g.rows + g.rows := by omega
    have hrow : q - q / g.rows * g.rows = q % g.rows := by omega
    have hcell : g.cells[q]? = some g.cells[q] := List.getElem?_eq_getElem hq
    rw [if_pos hin, if_pos rfl, hrow, hcell, Option.bind_some]
  · have hout : ¬(reel * g.rows ≤ q ∧ q < reel * g.rows + g.rows) := by
      rintro ⟨hlow, hhigh⟩
      exact hreel ((Grid.mem_column_iff hrows).mp (List.mem_range'_1.mpr ⟨hlow, hhigh⟩))
    rw [if_neg hout, if_neg hreel]

/-- The refill of a reel among those of several reels, the first of them given. -/
def refillOf? (first : Nat) (refills : List (Option Refill)) (reel : Nat) : Option Refill :=
  if first ≤ reel then refills[reel - first]?.join else none

theorem refillOf?_cons (first : Nat) (refill : Option Refill) (refills : List (Option Refill))
    (reel : Nat) : refillOf? first (refill :: refills) reel =
      if reel = first then refill else refillOf? (first + 1) refills reel := by
  unfold refillOf?
  rcases Nat.lt_trichotomy reel first with hlt | rfl | hgt
  · rw [if_neg (by omega), if_neg (by omega), if_neg (by omega)]
  · rw [if_pos (Nat.le_refl _), if_pos rfl, Nat.sub_self]
    rfl
  · obtain ⟨i, rfl⟩ := Nat.exists_eq_add_of_lt hgt
    rw [if_pos (by omega), if_neg (by omega), if_pos (by omega),
      show first + i + 1 - first = i + 1 by omega,
      show first + i + 1 - (first + 1) = i by omega, List.getElem?_cons_succ]

/-- Writing the refills of several reels: a cell is taken from the refill of its reel, if there is
one. -/
theorem getElem?_foldl_write {g : Grid} {first : Nat} {refills : List (Option Refill)}
    (h : ∀ reel, ∀ r ∈ refillOf? first refills reel, r.Fits g.rows reel) {q : Nat}
    (hq : q < g.len) :
    ((refills.filterMap id).foldl Refill.write g).cells[q]? =
      (refillOf? first refills (q / g.rows)).elim g.cells[q]? fun r => r.column[q % g.rows]? := by
  induction refills generalizing g first with
  | nil =>
    have hnone : refillOf? first [] (q / g.rows) = none := by simp [refillOf?]
    rw [hnone]
    rfl
  | cons refill refills ih =>
    have htail (reel : Nat) (r : Refill) (hr : r ∈ refillOf? (first + 1) refills reel) :
        r.Fits g.rows reel := by
      have hne : reel ≠ first := by
        rintro rfl
        rw [refillOf?, if_neg (by omega)] at hr
        cases hr
      refine h reel r ?_
      rwa [refillOf?_cons, if_neg hne]
    rw [refillOf?_cons]
    rcases refill with _ | r
    · rw [List.filterMap_cons_none (by rfl), ih htail hq]
      by_cases hreel : q / g.rows = first
      · rw [if_pos hreel, hreel, refillOf?, if_neg (by omega)]
      · rw [if_neg hreel]
    · have hfits : r.Fits g.rows first := h first r (by rw [refillOf?_cons, if_pos rfl]; rfl)
      rw [List.filterMap_cons_some (by rfl), List.foldl_cons, ih (by rwa [Refill.rows_write])
        (by rwa [Refill.len_write]), Refill.rows_write, hfits.getElem?_write hq]
      by_cases hreel : q / g.rows = first
      · rw [if_pos hreel, if_pos hreel, hreel, refillOf?, if_neg (by omega)]
        rfl
      · rw [if_neg hreel, if_neg hreel]

/-! ### The refills of all reels -/

/-- The refills of the reels, one by one. -/
theorem refill_of_forall₂ {strips : List (List Symbol)} {stops : List Nat} {g : Grid}
    {removed : List Nat} {refills : List (Option Refill)}
    (h : List.Forall₂ (fun cell found =>
      refill g removed cell.2 cell.1.1 cell.1.2 = .ok found) (strips.zip stops).zipIdx refills)
    {reel : Nat} (hstrip : reel < strips.length) (hstop : reel < stops.length) :
    ∃ found, refills[reel]? = some found ∧
      refill g removed reel strips[reel] stops[reel] = .ok found := by
  obtain ⟨hlength, hcells⟩ := List.forall₂_iff_get.mp h
  have hlt : reel < (strips.zip stops).zipIdx.length := by
    rw [List.length_zipIdx, List.length_zip]
    omega
  have hcell := hcells reel hlt (hlength ▸ hlt)
  refine ⟨_, List.getElem?_eq_getElem (hlength ▸ hlt), ?_⟩
  simpa using hcell

section Refills

variable {g : Grid} {strips : List (List Symbol)} {stops removed : List Nat}
  {refills : List (Option Refill)} (hstrips : strips.length = g.reels)
  (hstops : stops.length = g.reels)
  (hrefills : List.Forall₂ (fun cell found =>
    refill g removed cell.2 cell.1.1 cell.1.2 = .ok found) (strips.zip stops).zipIdx refills)

include hstrips hstops hrefills

/-- The refill of a reel, given by its strip and stop. -/
theorem refill_of_reel {reel : Nat} (hreel : reel < g.reels) :
    refillOf? 0 refills reel = if gone g removed reel = 0 then none else
      some ⟨g.column reel, above (strips.getD reel []) (stops.getD reel 0)
        (gone g removed reel) ++ staying g removed reel,
        stopAbove (stops.getD reel 0) (gone g removed reel)
          (strips.getD reel []).length⟩ := by
  have hstrip : reel < strips.length := hstrips ▸ hreel
  have hstop : reel < stops.length := hstops ▸ hreel
  obtain ⟨found, hrefill, hok⟩ := refill_of_forall₂ hrefills hstrip hstop
  have hfound : refillOf? 0 refills reel = found := by
    rw [refillOf?, if_pos (Nat.zero_le _), Nat.sub_zero, hrefill]
    rfl
  have hstrip' : strips.getD reel [] = strips[reel] := by simp [hstrip]
  have hstop' : stops.getD reel 0 = stops[reel] := by simp [hstop]
  rw [hfound, hstrip', hstop']
  rcases refill_eq_ok hok with ⟨hgone, rfl⟩ | ⟨hgone, -, rfl⟩
  · rw [if_pos hgone]
  · rw [if_neg (Nat.ne_of_gt hgone)]

/-- The refills fit the reels. -/
theorem fits_of_refills (reel : Nat) (r : Refill) (hr : r ∈ refillOf? 0 refills reel) :
    r.Fits g.rows reel := by
  have hlength : (strips.zip stops).zipIdx.length = refills.length := hrefills.length_eq
  rw [List.length_zipIdx, List.length_zip] at hlength
  have hreel : reel < g.reels := by
    by_contra hreel
    have hnone : refills[reel]? = none := List.getElem?_eq_none (by omega)
    rw [refillOf?, if_pos (Nat.zero_le _), Nat.sub_zero, hnone] at hr
    cases hr
  rw [refill_of_reel hstrips hstops hrefills hreel] at hr
  split at hr
  · cases hr
  · cases hr
    exact ⟨rfl, length_refilled _ _ _ _ _⟩

end Refills

end Cascade

end SlotOutcome
