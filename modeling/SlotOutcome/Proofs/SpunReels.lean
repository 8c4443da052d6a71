import Mathlib.Data.Set.List
import SlotOutcome.Proofs.GridWrites
import SlotOutcome.Proofs.Samples

/-!
# Where the reels land

Spinning shows a window of each strip from its stop down. The stops are drawn, one for each strip
from all places of it, or they are given by an operator. Either way the same stops land on the same
grid, and each of them is on its strip.

```text
  strip    a b c d         stop 3, five rows     d
  place    0 1 2 3                               a
                                                 b
                                                 c
                                                 d
```

## Main definitions

* `Spin.Asks`: the settings that a feature finds in its bag.
* `Spin.Fits`: strips and stops that can be spun.
* `Spin.Lands`: the state after a spin, cell by cell.

## Main results

* `Strip.allOfInts_eq_ok`, `Strip.exists_map_ids`: which lists of ids are strips.
* `Spin.stopsFor_some_eq_ok`, `Spin.stopsFor_none_eq_ok`: which stops are accepted.
* `Spin.exists_grid`: the grid that windows make.
* `trigger_spins`: what a feature that spins the reels does.
-/

namespace SlotOutcome

/-- The results for the items of a list, item by item. -/
theorem mapM_eq_ok_iff {ε α β : Type} {f : α → Except ε β} {items : List α} {results : List β} :
    items.mapM f = .ok results ↔ List.Forall₂ (fun a b => f a = .ok b) items results := by
  refine ⟨fun h => Yields.mapM f items results h, fun h => ?_⟩
  induction h with
  | nil => rfl
  | cons ha _ ih => rw [List.mapM_cons, ha, ih]; rfl

/-- Items that tell what they come from, one by one. -/
theorem forall₂_eq_apply_iff {α β : Type} {f : β → α} {items : List α} {results : List β} :
    List.Forall₂ (fun a b => f b = a) items results ↔ results.map f = items := by
  simp only [eq_comm (b := (_ : α))]
  rw [← List.forall₂_map_right_iff (R := Eq), List.forall₂_eq_eq_eq, eq_comm]

/-! ### Strips -/

/-- The symbol of an id is the one that has it. -/
theorem Symbol.ofInt?_eq_some {id : Int} {symbol : Symbol} :
    Symbol.ofInt? id = some symbol ↔ symbol.toInt = id := by
  have hlow : -2147483648 ≤ symbol.toInt := Int32.le_toInt symbol
  have hhigh : symbol.toInt < 2147483648 := Int32.toInt_lt symbol
  unfold Symbol.ofInt?
  constructor
  · intro h
    split at h
    · next hid =>
      cases h
      exact Int32.toInt_ofInt_of_le hid.1 hid.2
    · cases h
  · rintro rfl
    rw [if_pos (by omega), Int32.ofInt_toInt]

/-- The ids that fit 32 bits are those of symbols. -/
theorem Symbol.exists_toInt_eq {id : Int} :
    (∃ symbol : Symbol, symbol.toInt = id) ↔ -0x80000000 ≤ id ∧ id < 0x80000000 := by
  constructor
  · rintro ⟨symbol, rfl⟩
    exact ⟨Int32.le_toInt symbol, Int32.toInt_lt symbol⟩
  · exact fun h => ⟨Int32.ofInt id, Int32.toInt_ofInt_of_le h.1 h.2⟩

namespace Strip

/-- The ids of the symbols of a strip. -/
def ids (strip : Strip) : List Int := strip.symbols.map Int32.toInt

theorem length_ids (strip : Strip) : strip.ids.length = strip.length := List.length_map _

/-- The strip of a list of ids is the one with these ids. -/
theorem ofInts_eq_ok {reel : Nat} {ids : List Int} {strip : Strip} :
    ofInts reel ids = .ok strip ↔ strip.ids = ids := by
  have hread (id : Int) (symbol : Symbol) : Symbol.ofInt? id = some symbol ↔ symbol.toInt = id :=
    Symbol.ofInt?_eq_some
  rw [ofInts, bind_eq_ok]
  constructor
  · rintro ⟨symbols, hsymbols, h⟩
    have hids : symbols.map Int32.toInt = ids := by
      rw [← forall₂_eq_apply_iff]
      refine (mapM_eq_ok_iff.mp hsymbols).imp fun id symbol hid => (hread id symbol).mp ?_
      rcases hfound : Symbol.ofInt? id with _ | found <;> rw [hfound] at hid <;> cases hid
      rfl
    unfold ofList? at h
    split at h
    · next hfound =>
      split at hfound <;> cases hfound
      cases h
      exact hids
    · cases h
  · intro h
    refine ⟨strip.symbols, mapM_eq_ok_iff.mpr ((forall₂_eq_apply_iff.mpr h).imp ?_), ?_⟩
    · intro id symbol hid
      rw [(hread id symbol).mpr hid]
      rfl
    · rw [ofList?, dif_neg strip.ne_nil]
      rfl

/-- The strips of a configuration are those with its ids. -/
theorem allOfInts_eq_ok {lists : List (List Int)} {strips : List Strip} :
    allOfInts lists = .ok strips ↔ strips.map ids = lists := by
  rw [allOfInts, mapM_eq_ok_iff]
  simp only [ofInts_eq_ok]
  rw [← forall₂_eq_apply_iff]
  conv_rhs => rw [← List.zipIdx_map_fst 0 lists, List.forall₂_map_left_iff]

/-- A list of ids is a strip exactly when it is not empty and all ids fit 32 bits. -/
theorem exists_ids_eq {list : List Int} : (∃ strip : Strip, strip.ids = list) ↔
    list ≠ [] ∧ ∀ id ∈ list, -0x80000000 ≤ id ∧ id < 0x80000000 := by
  constructor
  · rintro ⟨strip, rfl⟩
    refine ⟨fun hnil => strip.ne_nil (List.map_eq_nil_iff.mp hnil), fun id hid => ?_⟩
    obtain ⟨symbol, -, hsymbol⟩ := List.mem_map.mp hid
    exact Symbol.exists_toInt_eq.mp ⟨symbol, hsymbol⟩
  · rintro ⟨hne, hids⟩
    have hlist : list ∈ Set.range (List.map Int32.toInt) := by
      rw [Set.range_list_map]
      exact fun id hid => Symbol.exists_toInt_eq.mpr (hids id hid)
    obtain ⟨symbols, rfl⟩ := hlist
    exact ⟨⟨symbols, fun hnil => hne (congrArg _ hnil)⟩, rfl⟩

/-- Lists of ids are strips if each of them is one. -/
theorem exists_map_ids {lists : List (List Int)} :
    (∃ strips : List Strip, strips.map ids = lists) ↔
      ∀ list ∈ lists, list ≠ [] ∧ ∀ id ∈ list, -0x80000000 ≤ id ∧ id < 0x80000000 := by
  change lists ∈ Set.range (List.map ids) ↔ _
  rw [Set.range_list_map]
  exact forall₂_congr fun _ _ => exists_ids_eq

/-- The place of a strip, counted on around it, among its ids. -/
theorem getElem?_ids (strip : Strip) (place : Nat) :
    strip.ids[place % strip.length]? = some (strip.symbol place).toInt := by
  have hlt : place % strip.length < strip.symbols.length := Nat.mod_lt _ strip.length_pos
  rw [ids, List.getElem?_map, List.getElem?_eq_getElem hlt]
  rfl

end Strip

/-! ### Draws of a script -/

/-- A draw of a script is its next one. -/
theorem drawBelow_script {n : Nat} {i : Fin n} {script after : Script}
    (h : (drawBelow n : DrawM Script (Fin n)) script = (.ok i, after)) :
    script.pending = i.val :: after.pending ∧ after.consumed = script.consumed + 1 := by
  obtain ⟨value, next, hnext, hchecked⟩ := bind_run_eq_ok.mp h
  change Script.next n script = _ at hnext
  obtain ⟨consumed, pending⟩ := script
  unfold Script.next at hnext
  split at hnext
  · cases hnext
  rcases pending with _ | ⟨first, rest⟩
  · cases hnext
  dsimp only at hnext
  split at hnext
  · next hlt =>
    cases hnext
    rw [dif_pos hlt] at hchecked
    cases hchecked
    exact ⟨rfl, rfl⟩
  · cases hnext

/-- A script is read exactly when it begins with draws that are within the ranges. -/
theorem drawEach_script_eq_ok {ranges draws : List Nat} {script after : Script} :
    (drawEach ranges : DrawM Script (List Nat)) script = (.ok draws, after) ↔
      List.Forall₂ (· < ·) draws ranges ∧ script.pending = draws ++ after.pending ∧
        after.consumed = script.consumed + draws.length := by
  constructor
  · intro h
    refine ⟨drawEach_yields ranges draws ⟨script, after, h⟩, ?_⟩
    induction ranges generalizing draws script with
    | nil =>
      cases h
      exact ⟨rfl, rfl⟩
    | cons n ranges ih =>
      rw [drawEach, List.mapM_cons, bind_assoc] at h
      obtain ⟨i, next, hfirst, h⟩ := bind_run_eq_ok.mp h
      rw [pure_bind] at h
      obtain ⟨rest, last, hrest, h⟩ := bind_run_eq_ok.mp h
      cases h
      obtain ⟨hpending, hconsumed⟩ := drawBelow_script hfirst
      obtain ⟨hpending', hconsumed'⟩ := ih hrest
      refine ⟨by rw [hpending, hpending', List.cons_append], ?_⟩
      rw [hconsumed', hconsumed, List.length_cons]
      omega
  · rintro ⟨hwithin, hpending, hconsumed⟩
    obtain ⟨consumed, pending⟩ := script
    obtain ⟨consumed', pending'⟩ := after
    obtain rfl : pending = draws ++ pending' := hpending
    obtain rfl : consumed' = consumed + draws.length := hconsumed
    rw [drawEach_script hwithin, hwithin.length_eq]

/-! ### Columns -/

namespace Grid

/-- The cell of a row in columns of one height. -/
theorem getElem?_flatten_columns {columns : List (List Symbol)} {rows : Nat}
    (h : ∀ c ∈ columns, c.length = rows) {reel row : Nat} (hrow : row < rows) :
    columns.flatten[linearPosition rows reel row]? = columns[reel]?.bind (·[row]?) := by
  induction columns generalizing reel with
  | nil => rfl
  | cons column columns ih =>
    obtain ⟨hcolumn, hrest⟩ := List.forall_mem_cons.mp h
    rw [List.flatten_cons]
    rcases reel with _ | reel
    · rw [linearPosition, Nat.zero_mul, Nat.zero_add, List.getElem?_append_left (by omega)]
      rfl
    · have hplace : linearPosition rows (reel + 1) row =
          column.length + linearPosition rows reel row := by
        rw [linearPosition, linearPosition, hcolumn, Nat.succ_mul]
        omega
      rw [hplace, List.getElem?_append_right (Nat.le_add_right _ _), Nat.add_sub_cancel_left,
        ih hrest]
      rfl

/-- Columns of one height make a grid with these columns. -/
theorem exists_ofReels {columns : List (List Symbol)} {rows : Nat}
    (h : ∀ c ∈ columns, c.length = rows) :
    ∃ g, ofReels columns = .ok g ∧ g.reels = columns.length ∧
      g.rows = (if columns = [] then 0 else rows) ∧
      ∀ reel column row symbol, columns[reel]? = some column → column[row]? = some symbol →
        g.symbolAt reel row = .ok symbol := by
  have hheight : (columns.head?.map List.length).getD 0 = if columns = [] then 0 else rows := by
    rcases columns with _ | ⟨column, columns⟩
    · rfl
    · rw [if_neg (List.cons_ne_nil _ _)]
      exact h column List.mem_cons_self
  have hall : ∀ c ∈ columns, c.length = (columns.head?.map List.length).getD 0 := by
    intro c hc
    rw [hheight, if_neg (List.ne_nil_of_mem hc)]
    exact h c hc
  refine ⟨_, dif_pos hall, rfl, hheight, fun reel column row symbol hcolumn hsymbol => ?_⟩
  have hreel : reel < columns.length := (List.getElem?_eq_some_iff.mp hcolumn).1
  have hmem : column ∈ columns := List.mem_of_getElem? hcolumn
  have hrow : row < (columns.head?.map List.length).getD 0 := by
    rw [← hall column hmem]
    exact (List.getElem?_eq_some_iff.mp hsymbol).1
  have hcell : columns.flatten[linearPosition _ reel row]? = columns[reel]?.bind (·[row]?) :=
    getElem?_flatten_columns hall hrow
  rw [hcolumn, Option.bind_some, hsymbol] at hcell
  rw [symbolAt, position, if_pos ⟨hreel, hrow⟩]
  change get _ _ = _
  simp only [get, hcell]

end Grid

/-! ### Spins -/

namespace Spin

/-- What a feature that spins the reels reads in its bag: lists of ids, how many rows to show, and
the stops if an operator forces them. -/
structure Asks (bag : Bag) (lists : List (List Int)) (rows : Nat) (forced : Option (List Nat)) :
    Prop where
  reels : bag.require .intLists "Reels" = .ok lists
  rows : bag.require .nat "Rows" = .ok rows
  forced : bag.find .positions "ForceStops" = .ok forced

/-- Lists of ids that are strips, rows to show, and one stop on each strip. -/
structure Fits (lists : List (List Int)) (rows : Nat) (stops : List Nat) : Prop where
  strips : ∀ list ∈ lists, list ≠ [] ∧ ∀ id ∈ list, -0x80000000 ≤ id ∧ id < 0x80000000
  rows : 0 < rows
  stops : List.Forall₂ (fun stop list => stop < list.length) stops lists

/-- The state after a spin that stopped at the given stops: both grids show the window below each
stop, read around the strip, and nothing else has changed but strips, stops and ledger. -/
structure Lands (d : Definition) (lists : List (List Int)) (rows : Nat) (stops : List Nat)
    (s s' : RoundState) : Prop where
  sourceGrid_eq : s'.outcome.sourceGrid = s'.outcome.grid
  reels_eq : s'.outcome.grid.reels = lists.length
  rows_eq : s'.outcome.grid.rows = if lists = [] then 0 else rows
  symbolAt_eq : ∀ reel list stop row, lists[reel]? = some list → stops[reel]? = some stop →
    row < rows → ∃ symbol, s'.outcome.grid.symbolAt reel row = .ok symbol ∧
      list[(stop + row) % list.length]? = some symbol.toInt
  strips_eq : s'.outcome.strips.map (·.map Int32.toInt) = lists
  stops_eq : s'.outcome.stops = stops
  ledger_eq : s'.outcome.ledger = s.outcome.ledger ++ [⟨d.id, d.tag, Payload.stops stops⟩]
  frame : s' = s.withOutcome { s.outcome with
    sourceGrid := s'.outcome.sourceGrid
    grid := s'.outcome.grid
    strips := s'.outcome.strips
    stops := s'.outcome.stops
    ledger := s'.outcome.ledger }

/-- Lists that fit are those of strips with stops on them. -/
theorem fits_iff {lists : List (List Int)} {rows : Nat} {stops : List Nat} :
    Fits lists rows stops ↔ ∃ strips : List Strip, strips.map Strip.ids = lists ∧ 0 < rows ∧
      List.Forall₂ (· < ·) stops (strips.map Strip.length) := by
  have hlengths (strips : List Strip) :
      List.Forall₂ (fun stop list => stop < list.length) stops (strips.map Strip.ids) ↔
        List.Forall₂ (· < ·) stops (strips.map Strip.length) := by
    rw [List.forall₂_map_right_iff, List.forall₂_map_right_iff]
    simp only [Strip.length_ids]
  constructor
  · rintro ⟨hstrips, hrows, hstops⟩
    obtain ⟨strips, rfl⟩ := Strip.exists_map_ids.mpr hstrips
    exact ⟨strips, rfl, hrows, (hlengths strips).mp hstops⟩
  · rintro ⟨strips, rfl, hrows, hstops⟩
    exact ⟨Strip.exists_map_ids.mp ⟨strips, rfl⟩, hrows, (hlengths strips).mpr hstops⟩

/-- Forced stops are accepted as they are if there is one on each strip, and refused otherwise. -/
theorem checkForced_eq_ok {strips : List Strip} {stops accepted : List Nat} :
    checkForced strips stops = .ok accepted ↔
      accepted = stops ∧ List.Forall₂ (· < ·) stops (strips.map Strip.length) := by
  rw [List.forall₂_map_right_iff, List.forall₂_iff_zip, checkForced]
  by_cases hlength : stops.length = strips.length
  · rw [if_neg (not_not.mpr hlength)]
    rcases hfind : (stops.zip strips).zipIdx.find? _ with _ | ⟨⟨stop, strip⟩, reel⟩
    · have hon {stop : Nat} {strip : Strip} (hmem : (stop, strip) ∈ stops.zip strips) :
          stop < strip.length := by
        obtain ⟨place, hplace⟩ := List.mem_iff_getElem?.mp hmem
        have hnot := List.find?_eq_none.mp hfind ((stop, strip), place)
          (List.mem_zipIdx_iff_getElem?.mpr hplace)
        simpa using hnot
      constructor
      · intro h
        exact ⟨(Except.ok.inj h).symm, hlength, hon⟩
      · rintro ⟨rfl, -⟩
        rfl
    · have hpast : strip.length ≤ stop := by simpa using List.find?_some hfind
      have hmem : (stop, strip) ∈ stops.zip strips :=
        List.fst_mem_of_mem_zipIdx (List.mem_of_find?_eq_some hfind)
      constructor
      · intro h
        cases h
      · rintro ⟨-, -, hon⟩
        exact absurd (hon hmem) (Nat.not_lt.mpr hpast)
  · rw [if_pos hlength]
    constructor
    · intro h
      cases h
    · rintro ⟨-, h, -⟩
      exact absurd h hlength

/-- Stops are drawn from all places of the strips, in the order of the reels. -/
theorem drawStops_eq {σ : Type} [RandomSource σ] (strips : List Strip) :
    (drawStops strips : DrawM σ (List Nat)) = drawEach (strips.map Strip.length) := by
  rw [drawStops, drawEach, List.mapM_map]
  rfl

/-- The windows below one stop on each strip make a grid. -/
theorem exists_grid {strips : List Strip} {stops : List Nat} (h : stops.length = strips.length)
    (rows : Nat) :
    ∃ g, Grid.ofReels (List.zipWith (fun strip stop => strip.window stop rows) strips stops) =
        .ok g ∧
      g.reels = strips.length ∧ g.rows = (if strips = [] then 0 else rows) ∧
      ∀ reel strip stop row, strips[reel]? = some strip → stops[reel]? = some stop →
        row < rows → g.symbolAt reel row = .ok (strip.symbol (stop + row)) := by
  have hheight : ∀ c ∈ List.zipWith (fun (strip : Strip) stop => strip.window stop rows)
      strips stops, c.length = rows := by
    intro c hc
    obtain ⟨i, hi⟩ := List.mem_iff_getElem?.mp hc
    obtain ⟨strip, stop, -, -, rfl⟩ := List.getElem?_zipWith_eq_some.mp hi
    rw [Strip.window, List.length_map, List.length_range]
  obtain ⟨g, hg, hreels, hrows, hcells⟩ := Grid.exists_ofReels hheight
  refine ⟨g, hg, ?_, ?_, ?_⟩
  · rw [hreels, List.length_zipWith, h, Nat.min_self]
  · rw [hrows]
    have hnil : List.zipWith (fun (strip : Strip) stop => strip.window stop rows) strips stops =
        [] ↔ strips = [] := by
      rw [List.zipWith_eq_nil_iff, ← List.length_eq_zero_iff (l := stops), h,
        List.length_eq_zero_iff, or_self]
    simp only [hnil]
  · intro reel strip stop row hstrip hstop hrow
    refine hcells reel (strip.window stop rows) row _ ?_ ?_
    · exact List.getElem?_zipWith_eq_some.mpr ⟨strip, stop, hstrip, hstop, rfl⟩
    · rw [Strip.window, List.getElem?_map, List.getElem?_range hrow, Option.map_some]

section Plans

variable {σ : Type} [RandomSource σ]

/-- The stops of a spin: those that are forced, or drawn ones. -/
def stopsFor (strips : List Strip) (forced : Option (List Nat)) : PlanM σ (List Nat) :=
  match forced with
  | some stops => liftM (checkForced strips stops)
  | none => liftM (drawStops strips : DrawM σ (List Nat))

/-- What a spin does when its windows make a grid. -/
def landing (s : RoundState) (strips : List Strip) (stops : List Nat) (grid : Grid) : Change where
  outcome := { s.outcome with
    sourceGrid := grid
    grid := grid
    strips := strips.map Strip.symbols
    stops := stops }
  payload := Payload.stops stops

section

variable {s : RoundState} {bag : Bag} {lists : List (List Int)} {rows : Nat}
  {forced : Option (List Nat)} (h : Asks bag lists rows forced)
include h

/-- A spin whose settings can be read. -/
theorem reels_run (x : σ) : (reels s bag : PlanM σ (Option Change)) x =
    match Strip.allOfInts lists with
    | .error e => (.error e, x)
    | .ok strips =>
      if rows = 0 then (.error (invalid "Rows must be positive"), x)
      else (do
        let stops ← stopsFor strips forced
        let columns := List.zipWith (fun strip stop => strip.window stop rows) strips stops
        return some (landing s strips stops (← Grid.ofReels columns)) :
          PlanM σ (Option Change)) x := by
  by_cases hrows : rows = 0
  · simp only [reels, h.reels, h.rows, hrows, ↓reduceIte, bind_run, liftM_run, lift_param_ok]
    rcases Strip.allOfInts lists <;> rfl
  · simp only [reels, h.reels, h.rows, h.forced, hrows, ↓reduceIte, bind_run, liftM_run,
      lift_param_ok]
    rcases Strip.allOfInts lists with e | strips
    · rfl
    · rcases forced with _ | stops <;> simp only [stopsFor, bind_run] <;> rfl

/-- Such a spin succeeds exactly when there are strips, rows and stops, and then it lands. -/
theorem reels_eq_ok {x y : σ} {change : Option Change} :
    (reels s bag : PlanM σ (Option Change)) x = (.ok change, y) ↔
      ∃ strips stops grid, Strip.allOfInts lists = .ok strips ∧ 0 < rows ∧
        (stopsFor strips forced : PlanM σ (List Nat)) x = (.ok stops, y) ∧
        Grid.ofReels (List.zipWith (fun strip stop => strip.window stop rows) strips stops) =
          .ok grid ∧ change = some (landing s strips stops grid) := by
  rw [reels_run h]
  constructor
  · intro hspin
    rcases hstrips : Strip.allOfInts lists with e | strips
    · rw [hstrips] at hspin
      cases hspin
    simp only [hstrips] at hspin
    by_cases hrows : rows = 0
    · rw [if_pos hrows] at hspin
      cases hspin
    rw [if_neg hrows] at hspin
    obtain ⟨stops, y', hstops, hspin⟩ := bind_run_eq_ok.mp hspin
    rcases hgrid : Grid.ofReels (List.zipWith (fun strip stop => strip.window stop rows) strips
      stops) with e | grid <;> rw [hgrid] at hspin <;> cases hspin
    exact ⟨strips, stops, grid, rfl, Nat.pos_of_ne_zero hrows, hstops, hgrid, rfl⟩
  · rintro ⟨strips, stops, grid, hstrips, hrows, hstops, hgrid, rfl⟩
    rw [hstrips]
    simp only
    rw [if_neg (Nat.pos_iff_ne_zero.mp hrows)]
    refine bind_run_eq_ok.mpr ⟨stops, y, hstops, ?_⟩
    rw [hgrid]
    rfl

end

/-- Forced stops are taken without a draw. -/
theorem stopsFor_some_eq_ok {strips : List Strip} {stops accepted : List Nat} {x y : σ} :
    (stopsFor strips (some stops) : PlanM σ (List Nat)) x = (.ok accepted, y) ↔
      (accepted = stops ∧ List.Forall₂ (· < ·) stops (strips.map Strip.length)) ∧ y = x := by
  rw [← checkForced_eq_ok, stopsFor, liftM_run]
  change (checkForced strips stops, x) = _ ↔ _
  rw [Prod.mk.injEq, eq_comm (a := x)]

end Plans

/-- Stops are drawn from a script exactly when it begins with one stop on each strip. -/
theorem stopsFor_none_eq_ok {strips : List Strip} {drawn : List Nat} {x y : Script} :
    (stopsFor strips none : PlanM Script (List Nat)) x = (.ok drawn, y) ↔
      List.Forall₂ (· < ·) drawn (strips.map Strip.length) ∧ x.pending = drawn ++ y.pending ∧
        y.consumed = x.consumed + drawn.length := by
  rw [← drawEach_script_eq_ok, ← drawStops_eq]
  change (ExceptT.adapt FeatureError.draw (drawStops strips) : PlanM Script (List Nat)) x = _ ↔ _
  rw [adapt_run]
  rcases (drawStops strips : DrawM Script (List Nat)) x with ⟨e | stops, z⟩
  · constructor <;> intro h <;> cases h
  · constructor <;> intro h <;> cases h <;> rfl

/-- Where strips, rows and stops fit a spin lands. -/
theorem Fits.exists_landing {lists : List (List Int)} {rows : Nat} {stops : List Nat}
    (h : Fits lists rows stops) : ∃ strips grid, Strip.allOfInts lists = .ok strips ∧
      List.Forall₂ (· < ·) stops (strips.map Strip.length) ∧
      Grid.ofReels (List.zipWith (fun strip stop => strip.window stop rows) strips stops) =
        .ok grid ∧
      ∀ (d : Definition) (s : RoundState),
        Lands d lists rows stops s (s.perform d (some (landing s strips stops grid))) := by
  obtain ⟨strips, rfl, -, hstops⟩ := fits_iff.mp h
  have hlength : stops.length = strips.length := by
    rw [hstops.length_eq, List.length_map]
  obtain ⟨grid, hgrid, hreels, hrows, hcells⟩ := exists_grid hlength rows
  refine ⟨strips, grid, Strip.allOfInts_eq_ok.mpr rfl, hstops, hgrid, fun d s => ?_⟩
  constructor
  case sourceGrid_eq => rfl
  case reels_eq => exact hreels.trans (List.length_map _).symm
  case rows_eq => exact hrows.trans (by simp only [List.map_eq_nil_iff])
  case symbolAt_eq =>
    intro reel list stop row hlist hstop hrow
    rw [List.getElem?_map, Option.map_eq_some_iff] at hlist
    obtain ⟨strip, hstrip, rfl⟩ := hlist
    refine ⟨_, hcells reel strip stop row hstrip hstop hrow, ?_⟩
    rw [Strip.length_ids]
    exact strip.getElem?_ids (stop + row)
  case strips_eq => exact List.map_map
  case stops_eq => rfl
  case ledger_eq => rfl
  case frame => rfl

end Spin

/-- What triggering a feature that spins the reels comes to, if it succeeds. -/
theorem Spin.trigger_iff {σ : Type} [RandomSource σ] {d : Definition} (htag : d.tag = "ReelStops")
    {above : List Definition} {p q : Pass σ} {collate : Bool}
    (hcollate : p.bag.isCollate = .ok collate) {lists : List (List Int)} {rows : Nat}
    {forced : Option (List Nat)} (hasks : Asks (d.params.overlay p.bag) lists rows forced) :
    d.trigger .builtin above p = (.ok (), q) ↔ ∃ strips stops grid x,
      Strip.allOfInts lists = .ok strips ∧ 0 < rows ∧
      (stopsFor strips forced : PlanM σ (List Nat)) p.source = (.ok stops, x) ∧
      Grid.ofReels (List.zipWith (fun strip stop => strip.window stop rows) strips stops) =
        .ok grid ∧
      q = ⟨x, (d.entered above p).visits,
        p.state.perform d (some (landing p.state strips stops grid)),
        if collate then d.params.overlay p.bag else p.bag⟩ := by
  rw [Definition.trigger_leaf_iff (e := .reelStops) rfl htag hcollate]
  constructor
  · rintro ⟨change, left, x, hplan, rfl⟩
    obtain ⟨change', x', hreels, hkept⟩ := bind_run_eq_ok.mp hplan
    cases hkept
    obtain ⟨strips, stops, grid, hstrips, hrows, hstops, hgrid, rfl⟩ :=
      (reels_eq_ok hasks).mp hreels
    exact ⟨strips, stops, grid, _, hstrips, hrows, hstops, hgrid, rfl⟩
  · rintro ⟨strips, stops, grid, x, hstrips, hrows, hstops, hgrid, rfl⟩
    refine ⟨_, _, x, bind_run_eq_ok.mpr ⟨_, x, ?_, rfl⟩, rfl⟩
    exact (reels_eq_ok hasks).mpr ⟨strips, stops, grid, hstrips, hrows, hstops, hgrid, rfl⟩

/-- Spinning succeeds exactly when all lists are strips, there are rows, and there is one stop on
each strip, be it that the stops are forced or that a script begins with them. Both ways of giving
the same stops leave the same state, in which both grids show the windows below these stops. -/
theorem trigger_spins {σ : Type} [RandomSource σ] {d : Definition} (htag : d.tag = "ReelStops")
    {above : List Definition} {lists : List (List Int)} {rows : Nat} {stops : List Nat}
    {p : Pass σ} {collate : Bool} (hcollate : p.bag.isCollate = .ok collate)
    (hforced : Spin.Asks (d.params.overlay p.bag) lists rows (some stops))
    {q : Pass Script} {collate' : Bool} (hcollate' : q.bag.isCollate = .ok collate')
    (hdrawn : Spin.Asks (d.params.overlay q.bag) lists rows none) (hstate : q.state = p.state) :
    ((∃ p', d.trigger .builtin above p = (.ok (), p')) ↔ Spin.Fits lists rows stops) ∧
    ((∃ q', d.trigger .builtin above q = (.ok (), q')) ↔
      ∃ drawn rest, q.source.pending = drawn ++ rest ∧ Spin.Fits lists rows drawn) ∧
    (∀ rest, q.source.pending = stops ++ rest → Spin.Fits lists rows stops → ∃ p' q',
      d.trigger .builtin above p = (.ok (), p') ∧ d.trigger .builtin above q = (.ok (), q') ∧
      p'.source = p.source ∧ q'.source = ⟨q.source.consumed + stops.length, rest⟩ ∧
      Spin.Lands d lists rows stops p.state p'.state ∧ q'.state = p'.state) := by
  have hp (p' : Pass σ) : d.trigger .builtin above p = (.ok (), p') ↔ _ :=
    Spin.trigger_iff htag hcollate hforced
  have hq (q' : Pass Script) : d.trigger .builtin above q = (.ok (), q') ↔ _ :=
    Spin.trigger_iff htag hcollate' hdrawn
  refine ⟨⟨?_, ?_⟩, ⟨?_, ?_⟩, ?_⟩
  · rintro ⟨p', hrun⟩
    obtain ⟨strips, accepted, grid, x, hstrips, hrows, hstops, -, -⟩ := (hp p').mp hrun
    obtain ⟨⟨-, hon⟩, -⟩ := Spin.stopsFor_some_eq_ok.mp hstops
    exact Spin.fits_iff.mpr ⟨strips, Strip.allOfInts_eq_ok.mp hstrips, hrows, hon⟩
  · intro hfits
    obtain ⟨strips, grid, hstrips, hon, hgrid, -⟩ := hfits.exists_landing
    have hstops : (Spin.stopsFor strips (some stops) : PlanM σ _) p.source =
        (.ok stops, p.source) := Spin.stopsFor_some_eq_ok.mpr ⟨⟨rfl, hon⟩, rfl⟩
    exact ⟨_, (hp _).mpr ⟨strips, stops, grid, _, hstrips, hfits.rows, hstops, hgrid, rfl⟩⟩
  · rintro ⟨q', hrun⟩
    obtain ⟨strips, drawn, grid, x, hstrips, hrows, hstops, -, -⟩ := (hq q').mp hrun
    obtain ⟨hon, hpending, -⟩ := Spin.stopsFor_none_eq_ok.mp hstops
    refine ⟨drawn, x.pending, hpending, ?_⟩
    exact Spin.fits_iff.mpr ⟨strips, Strip.allOfInts_eq_ok.mp hstrips, hrows, hon⟩
  · rintro ⟨drawn, rest, hpending, hfits⟩
    obtain ⟨strips, grid, hstrips, hon, hgrid, -⟩ := hfits.exists_landing
    have hstops : (Spin.stopsFor strips none : PlanM Script _) q.source =
        (.ok drawn, ⟨q.source.consumed + drawn.length, rest⟩) :=
      Spin.stopsFor_none_eq_ok.mpr ⟨hon, hpending, rfl⟩
    exact ⟨_, (hq _).mpr ⟨strips, drawn, grid, _, hstrips, hfits.rows, hstops, hgrid, rfl⟩⟩
  · -- The windows depend on the stops only, not on where they come from.
    intro rest hpending hfits
    obtain ⟨strips, grid, hstrips, hon, hgrid, hlands⟩ := hfits.exists_landing
    have hforced : (Spin.stopsFor strips (some stops) : PlanM σ _) p.source =
        (.ok stops, p.source) := Spin.stopsFor_some_eq_ok.mpr ⟨⟨rfl, hon⟩, rfl⟩
    have hdrawn : (Spin.stopsFor strips none : PlanM Script _) q.source =
        (.ok stops, ⟨q.source.consumed + stops.length, rest⟩) :=
      Spin.stopsFor_none_eq_ok.mpr ⟨hon, hpending, rfl⟩
    refine ⟨_, _, (hp _).mpr ⟨strips, stops, grid, _, hstrips, hfits.rows, hforced, hgrid, rfl⟩,
      (hq _).mpr ⟨strips, stops, grid, _, hstrips, hfits.rows, hdrawn, hgrid, rfl⟩,
      rfl, rfl, hlands d p.state, ?_⟩
    rw [hstate]

/-- Shows four rows of two strips that are shorter. -/
def raggedReels : Definition := ⟨1, "ReelStops", (Bag.empty.insert "Reels"
  (.arr [.arr [.ofInt 1, .ofInt 2, .ofInt 3], .arr [.ofInt 4, .ofInt 5]])).insert "Rows"
    (.ofNat 4), []⟩

/-- Stops 2 and 1 are forced in one pass and drawn in the other. The second reel shows its strip
two times. -/
theorem trigger_spins_raggedReels :
    let forced : Bag := Bag.empty.insert "ForceStops" (.ofNats [2, 1])
    let lists : List (List Int) := [[1, 2, 3], [4, 5]]
    Spin.Asks (raggedReels.params.overlay forced) lists 4 (some [2, 1]) ∧
    Spin.Asks (raggedReels.params.overlay .empty) lists 4 none ∧ Spin.Fits lists 4 [2, 1] ∧
    ∃ p' q' : Pass Script,
      trigger .builtin raggedReels (Script.ofDraws []) (.fresh 0 0) forced = (.ok (), p') ∧
      trigger .builtin raggedReels (Script.ofDraws [2, 1]) (.fresh 0 0) .empty = (.ok (), q') ∧
      q'.source = ⟨2, []⟩ ∧ q'.state = p'.state ∧ p'.state.outcome.stops = [2, 1] ∧
      p'.state.outcome.grid.symbolAt 1 3 = .ok 4 := by
  intro forced lists
  have hforced : Spin.Asks (raggedReels.params.overlay forced) lists 4 (some [2, 1]) :=
    ⟨rfl, rfl, rfl⟩
  have hdrawn : Spin.Asks (raggedReels.params.overlay .empty) lists 4 none := ⟨rfl, rfl, rfl⟩
  have hcollate : forced.isCollate = .ok false ∧ Bag.empty.isCollate = .ok false := ⟨rfl, rfl⟩
  have hfits : Spin.Fits lists 4 [2, 1] := by
    refine ⟨by decide, by decide, .cons (by decide) (.cons (by decide) .nil)⟩
  obtain ⟨-, -, hspins⟩ := trigger_spins (d := raggedReels) rfl
    (p := Pass.start (Script.ofDraws []) (.fresh 0 0) forced) hcollate.1 hforced
    (q := Pass.start (Script.ofDraws [2, 1]) (.fresh 0 0) .empty) hcollate.2 hdrawn rfl
  obtain ⟨p', q', hp, hq, -, hsource, hlands, hsame⟩ := hspins [] rfl hfits
  obtain ⟨symbol, hsymbol, hcell⟩ := hlands.symbolAt_eq 1 [4, 5] 1 3 rfl rfl (by decide)
  obtain rfl : symbol = 4 := Int32.toInt_inj.mp (Option.some.inj hcell).symm
  exact ⟨hforced, hdrawn, hfits, p', q', hp, hq, hsource, hsame, hlands.stops_eq, hsymbol⟩

end SlotOutcome
