import SlotOutcome.Proofs.PaintedCells
import SlotOutcome.Proofs.Samples

/-!
# Symbols dropped at random

A feature that drops wild symbols draws cells without replacement from those that show neither the
wild symbol nor an excluded one. If it is to drop more than there are such cells, it takes all of
them.

```text
  cells      3 W 5 S 3 2       W is dropped, S is excluded
  eligible   0   2   4 5
  drawn              4 0       two of four, in any order
  positions  0       4
  cells      W W 5 S W 2
```

## Main definitions

* `Paint.CountsWilds`: how many symbols are to be dropped, given or drawn.
* `Paint.eligible`: the number of cells on which a symbol may be dropped.
* `Paint.Dropped`: a state with symbols dropped at some positions.

## Main results

* `Grid.count_writeAll`: how often a symbol is shown after it was written to several positions.
* `Paint.dropped_of_draws`: what draws without replacement come to.
* `trigger_drops_wilds`: what a feature that drops symbols does.
-/

namespace SlotOutcome

theorem length_ascending {ns : List ℕ} (h : ns.Nodup) : (ascending ns).length = ns.length := by
  have hnodup : (ascending ns).Nodup := (pairwise_ascending ns).imp Nat.ne_of_lt
  exact ((List.perm_ext_iff_of_nodup hnodup h).mpr fun _ => mem_ascending).length_eq

namespace Grid

/-- There are as many positions of symbols that satisfy a predicate as there are such symbols. -/
theorem length_positionsWhere (g : Grid) (p : Symbol → Bool) :
    (g.positionsWhere p).length = g.cells.countP p := by
  rw [positionsWhere, List.length_map, ← List.countP_eq_length_filter]
  conv_rhs => rw [← List.zipIdx_map_fst 0 g.cells, List.countP_map]
  rfl

/-- Writing a symbol to several positions that show another one adds as many of it. -/
theorem count_writeAll {g : Grid} {positions : List ℕ} {id : Symbol} (hnodup : positions.Nodup)
    (hother : ∀ p ∈ positions, ∃ symbol, g.cells[p]? = some symbol ∧ symbol ≠ id) :
    (g.writeAll positions id).count id = g.count id + positions.length := by
  induction positions generalizing g with
  | nil => rfl
  | cons p positions ih =>
    obtain ⟨hp, hpositions⟩ := List.nodup_cons.mp hnodup
    obtain ⟨⟨symbol, hcell, hne⟩, hrest⟩ := List.forall_mem_cons.mp hother
    obtain ⟨hlt, hsymbol⟩ := List.getElem?_eq_some_iff.mp hcell
    have hfirst : (g.write p id).count id = g.count id + 1 := by
      change (g.cells.set p id).countP (· == id) = _
      rw [List.countP_set hlt, hsymbol, if_neg (by simpa using hne), if_pos (by simp)]
      rfl
    -- No position comes twice, so the other cells still show what they showed.
    have hrest' : ∀ q ∈ positions, ∃ symbol, (g.write p id).cells[q]? = some symbol ∧
        symbol ≠ id := by
      intro q hq
      rw [getElem?_write, if_neg (ne_of_mem_of_not_mem hq hp)]
      exact hrest q hq
    change ((g.write p id).writeAll positions id).count id = _
    rw [ih hpositions hrest', hfirst, List.length_cons]
    omega

end Grid

namespace Paint

/-- How many symbols are to be dropped, and where the source stands then. -/
inductive CountsWilds {σ : Type} [RandomSource σ] (bag : Bag) : σ → ℕ → σ → Prop
  | given {x : σ} {count : ℕ} (hcounts : bag.find .positions "WildCounts" = .ok none)
      (hcount : bag.require .nat "WildCount" = .ok count) : CountsWilds bag x count x
  | drawn {x y : σ} {counts : List ℕ} {weights : Option (List ℕ)} {i : Fin counts.length}
      (hcounts : bag.find .positions "WildCounts" = .ok (some counts))
      (hweights : bag.find .weights "WildWeights" = .ok weights)
      (hpick : (pick weights counts.length : PlanM σ (Fin counts.length)) x = (.ok i, y)) :
    CountsWilds bag x (counts.get i) y

/-- The number of cells that show neither a symbol nor an excluded one. -/
def eligible (g : Grid) (id : Symbol) (exclude : List Symbol) : ℕ :=
  g.cells.countP fun symbol => symbol ≠ id ∧ symbol ∉ exclude

/-- A state with a symbol dropped at some positions: as many of the eligible cells as there are to
be, or all of them. Nothing is noted where nothing is dropped. -/
structure Dropped (s s' : RoundState) (d : Definition) (id : Symbol) (exclude : List Symbol)
    (count : ℕ) (positions : List ℕ) : Prop where
  length_eq : positions.length = min count (eligible s.outcome.grid id exclude)
  pairwise_lt : positions.Pairwise (· < ·)
  eligible : ∀ p ∈ positions, ∃ symbol, s.outcome.grid.cells[p]? = some symbol ∧
    symbol ≠ id ∧ symbol ∉ exclude
  painted : s.Painted s'
    (fun reel row => linearPosition s.outcome.grid.rows reel row ∈ positions) id
    (if positions = [] then [] else [⟨d.id, d.tag, Payload.painted positions id⟩])
  count_eq : s'.outcome.grid.count id =
    s.outcome.grid.count id + min count (Paint.eligible s.outcome.grid id exclude)

section Plan

variable {σ : Type} [RandomSource σ]

omit [RandomSource σ] in
/-- What is read is read without a draw. -/
theorem liftM_param_run_eq_ok {α : Type} {read : Except ParamError α} {a : α} {x y : σ} :
    (liftM read : PlanM σ α) x = (.ok a, y) ↔ read = .ok a ∧ y = x := by
  rw [liftM_run_eq_ok]
  rcases read with e | b
  · constructor <;> rintro ⟨⟨⟩⟩
  · rw [lift_param_ok, Except.ok.injEq, Except.ok.injEq]

omit [RandomSource σ] in
theorem liftM_draw_run_eq_ok {α : Type} {draw : DrawM σ α} {a : α} {x y : σ} :
    (liftM draw : PlanM σ α) x = (.ok a, y) ↔ draw x = (.ok a, y) := by
  change ((draw x).1.mapError FeatureError.draw, (draw x).2) = _ ↔ _
  rcases draw x with ⟨e | b, z⟩
  · constructor <;> nofun
  · constructor <;> rintro ⟨⟩ <;> rfl

theorem countsWilds_of_pickFrom {bag : Bag} {x y : σ} {count : ℕ}
    (h : (pickFrom bag .nat .positions "WildCount" "WildCounts" "WildWeights" : PlanM σ ℕ) x =
      (.ok count, y)) : CountsWilds bag x count y := by
  obtain ⟨found, x₁, hfound, hrest⟩ := bind_run_eq_ok.mp h
  obtain ⟨hcounts, rfl⟩ := liftM_param_run_eq_ok.mp hfound
  rcases found with _ | counts
  · obtain ⟨hcount, rfl⟩ := liftM_param_run_eq_ok.mp hrest
    exact .given hcounts hcount
  · obtain ⟨weights, x₂, hread, hdraw⟩ := bind_run_eq_ok.mp hrest
    obtain ⟨i, x₃, hpick, hcount⟩ := bind_run_eq_ok.mp hdraw
    obtain ⟨hweights, rfl⟩ := liftM_param_run_eq_ok.mp hread
    cases hcount
    exact .drawn hcounts hweights hpick

variable {s : RoundState} {id : Symbol} {exclude : List Symbol} {count : ℕ}

theorem mem_eligible {g : Grid} {p : ℕ} :
    p ∈ g.positionsWhere (fun symbol => symbol != id && !exclude.contains symbol) ↔
      ∃ symbol, g.cells[p]? = some symbol ∧ symbol ≠ id ∧ symbol ∉ exclude := by
  simp [Grid.mem_positionsWhere]

theorem length_eligible (g : Grid) :
    (g.positionsWhere fun symbol => symbol != id && !exclude.contains symbol).length =
      eligible g id exclude := by
  rw [Grid.length_positionsWhere, eligible]
  exact List.countP_congr fun symbol _ => by simp

/-- Draws without replacement take different eligible cells. -/
theorem dropped_of_draws {d : Definition} {draws : List ℕ}
    (hdraws : draws ∈ SampleDraws (eligible s.outcome.grid id exclude)
      (min count (eligible s.outcome.grid id exclude)))
    (hsome : ¬(count = 0 ∨ eligible s.outcome.grid id exclude = 0)) :
    let positions := ascending (taken draws (s.outcome.grid.positionsWhere fun symbol =>
      symbol != id && !exclude.contains symbol))
    Dropped s (s.perform d (some ⟨s.outcome.covered positions id, Payload.painted positions id⟩))
      d id exclude count positions := by
  intro positions
  have hcells := s.outcome.grid.pairwise_positionsWhere fun symbol =>
    symbol != id && !exclude.contains symbol
  have hdraws' := hdraws
  rw [← length_eligible] at hdraws'
  obtain ⟨hlength, hnodup, hmem⟩ := taken_mem_selections (hcells.imp Nat.ne_of_lt) hdraws'
  rw [length_eligible] at hlength
  have hpositions : positions.length = min count (eligible s.outcome.grid id exclude) :=
    (length_ascending hnodup).trans hlength
  have hnil : positions ≠ [] := by
    rw [← List.length_pos_iff, hpositions]
    omega
  have heligible : ∀ p ∈ positions, ∃ symbol, s.outcome.grid.cells[p]? = some symbol ∧
      symbol ≠ id ∧ symbol ∉ exclude :=
    fun p hp => mem_eligible.mp (hmem p (mem_ascending.mp hp))
  constructor
  case length_eq => exact hpositions
  case pairwise_lt => exact pairwise_ascending _
  case eligible => exact heligible
  case painted =>
    rw [if_neg hnil]
    exact RoundState.painted_perform fun _ _ _ _ => Iff.rfl
  case count_eq =>
    have hother (p : ℕ) (hp : p ∈ positions) :
        ∃ symbol, s.outcome.grid.cells[p]? = some symbol ∧ symbol ≠ id := by
      obtain ⟨symbol, hcell, hne, -⟩ := heligible p hp
      exact ⟨symbol, hcell, hne⟩
    have hcount := Grid.count_writeAll ((pairwise_ascending _).imp Nat.ne_of_lt) hother
    rwa [hpositions] at hcount

/-- Where there is nothing to drop, or no cell for it, nothing is dropped. -/
theorem dropped_nothing {d : Definition}
    (hnone : count = 0 ∨ eligible s.outcome.grid id exclude = 0) :
    Dropped s s d id exclude count [] := by
  have hmin : min count (eligible s.outcome.grid id exclude) = 0 := by omega
  constructor
  case length_eq => exact hmin.symm
  case pairwise_lt => exact .nil
  case eligible => exact fun p hp => nomatch hp
  case painted => exact RoundState.painted_self fun _ _ _ _ => List.not_mem_nil
  case count_eq => rw [hmin, Nat.add_zero]

/-- What a feature that drops symbols has done when it succeeds. -/
theorem randomWilds_run {bag : Bag} {change : Option Change} {x z : σ} {d : Definition}
    (h : (randomWilds s bag : PlanM σ (Option Change)) x = (.ok change, z)) :
    ∃ id exclude count y positions, bag.require .symbol "RandomWildId" = .ok id ∧
      bag.findD .symbols "Exclude" [] = .ok exclude ∧ CountsWilds bag x count y ∧
      Dropped s (s.perform d change) d id exclude count positions ∧
      ∃ draws, drawEach (sampleRanges (eligible s.outcome.grid id exclude)
        (min count (eligible s.outcome.grid id exclude))) y = (.ok draws, z) := by
  obtain ⟨id, x₁, hread, h₁⟩ := bind_run_eq_ok.mp h
  obtain ⟨exclude, x₂, hread', h₂⟩ := bind_run_eq_ok.mp h₁
  obtain ⟨count, y, hpick, h₃⟩ := bind_run_eq_ok.mp h₂
  obtain ⟨hid, rfl⟩ := liftM_param_run_eq_ok.mp hread
  obtain ⟨hexclude, rfl⟩ := liftM_param_run_eq_ok.mp hread'
  have hcounts := countsWilds_of_pickFrom hpick
  have hquiet : (count = 0 ∨ (s.outcome.grid.positionsWhere fun symbol =>
      symbol != id && !exclude.contains symbol).isEmpty = true) ↔
        (count = 0 ∨ eligible s.outcome.grid id exclude = 0) := by
    rw [List.isEmpty_iff_length_eq_zero, length_eligible]
  by_cases hnone : count = 0 ∨ eligible s.outcome.grid id exclude = 0
  · rw [if_pos (hquiet.mpr hnone)] at h₃
    cases h₃
    have hmin : min count (eligible s.outcome.grid id exclude) = 0 := by omega
    refine ⟨id, exclude, count, z, [], hid, hexclude, hcounts, dropped_nothing hnone, [], ?_⟩
    rw [hmin]
    rfl
  · rw [if_neg (mt hquiet.mp hnone)] at h₃
    obtain ⟨chosen, x₄, hsample, h₄⟩ := bind_run_eq_ok.mp h₃
    obtain ⟨draws, hdraws, hdrawn, rfl⟩ :=
      exists_draws_of_sample (liftM_draw_run_eq_ok.mp hsample)
    rw [length_eligible] at hdraws hdrawn
    have hdropped := dropped_of_draws (d := d) hdraws hnone
    have hcover := cover_of_bounds (o := s.outcome) (fun p hp => by
      obtain ⟨symbol, hcell, -⟩ := hdropped.eligible p hp
      exact (List.getElem?_eq_some_iff.mp hcell).1) id
    simp only [hcover] at h₄
    cases h₄
    exact ⟨id, exclude, count, y, _, hid, hexclude, hcounts, hdropped, draws, hdrawn⟩

end Plan

end Paint

/-- Symbols that are dropped at random land where they may, wherever the feature stands in a tree.
When it succeeds, it has dropped as many symbols as were given or drawn, or one on every eligible
cell if these are fewer. All of them are on different cells that showed neither the symbol nor an
excluded one, and the entry lists these cells in increasing order. There is one draw for each of
them. If there is nothing to drop or no cell for it, then nothing is drawn, noted or changed. -/
theorem trigger_drops_wilds {σ : Type} [RandomSource σ] {d : Definition}
    (htag : d.tag = "RandomWilds") {above : List Definition} {p q : Pass σ}
    (hrun : d.trigger .builtin above p = (.ok (), q)) :
    ∃ id exclude count x positions,
      (d.params.overlay p.bag).require .symbol "RandomWildId" = .ok id ∧
      (d.params.overlay p.bag).findD .symbols "Exclude" [] = .ok exclude ∧
      Paint.CountsWilds (d.params.overlay p.bag) p.source count x ∧
      Paint.Dropped p.state q.state d id exclude count positions ∧
      (∃ draws, drawEach (sampleRanges (Paint.eligible p.state.outcome.grid id exclude)
        (min count (Paint.eligible p.state.outcome.grid id exclude))) x = (.ok draws, q.source)) ∧
      (count = 0 ∨ Paint.eligible p.state.outcome.grid id exclude = 0 →
        q.source = x ∧ q.state = p.state) := by
  obtain ⟨change, left, hplan, hstate⟩ :=
    Definition.trigger_leaf_ok (e := .randomWilds) rfl htag hrun
  obtain ⟨change', z, hwilds, hkept⟩ := bind_run_eq_ok.mp hplan
  cases hkept
  obtain ⟨id, exclude, count, x, positions, hid, hexclude, hcounts, hdropped, draws, hdraws⟩ :=
    Paint.randomWilds_run (d := d) hwilds
  rw [hstate]
  refine ⟨id, exclude, count, x, positions, hid, hexclude, hcounts, hdropped, ⟨draws, hdraws⟩,
    fun hnone => ?_⟩
  have hmin : min count (Paint.eligible p.state.outcome.grid id exclude) = 0 := by omega
  have hnil : positions = [] := List.eq_nil_of_length_eq_zero (hdropped.length_eq.trans hmin)
  have hpainted := hdropped.painted
  rw [if_pos hnil, hnil] at hpainted
  rw [hmin] at hdraws
  refine ⟨?_, hpainted.eq_self fun _ _ _ _ => List.not_mem_nil⟩
  cases hdraws
  rfl

/-- Six cells, of which one shows the wild symbol 0 and one the scatter 9. -/
def sixCells : RoundState where
  __ := RoundState.fresh 2 3
  outcome := { Outcome.blank 2 3 with grid := ⟨2, 3, [3, 0, 5, 9, 3, 2], rfl⟩ }

/-- Two wild symbols that spare scatters. -/
def twoWilds : Definition where
  id := 1
  tag := "RandomWilds"
  params := .ofList [("RandomWildId", .ofInt 0), ("WildCount", .ofNat 2),
    ("Exclude", .arr [.ofInt 9])]
  features := []

/-- Two wild symbols land on two of the four other cells. -/
theorem trigger_drops_wilds_twoOfFour :
    ∃ q positions, trigger .builtin twoWilds (Script.ofDraws [2, 0]) sixCells .empty =
        (.ok (), q) ∧
      Paint.Dropped sixCells q.state twoWilds 0 [9] 2 positions ∧ positions.length = 2 ∧
      q.state.outcome.grid.count 0 = 3 := by
  rcases hrun : trigger .builtin twoWilds (Script.ofDraws [2, 0]) sixCells .empty with ⟨r, q⟩
  have hr : (trigger .builtin twoWilds (Script.ofDraws [2, 0]) sixCells .empty).1 = .ok () := by
    decide +kernel
  rw [hrun] at hr
  obtain rfl : r = .ok () := hr
  obtain ⟨id, exclude, count, x, positions, hid, hexclude, hcounts, hdropped, -⟩ :=
    trigger_drops_wilds rfl hrun
  obtain rfl : 0 = id := Except.ok.inj hid
  obtain rfl : [9] = exclude := Except.ok.inj hexclude
  obtain rfl : 2 = count := by
    cases hcounts with
    | given hcounts hcount => exact Except.ok.inj hcount
    | drawn hcounts => cases hcounts
  exact ⟨q, positions, rfl, hdropped, hdropped.length_eq, hdropped.count_eq⟩

end SlotOutcome
