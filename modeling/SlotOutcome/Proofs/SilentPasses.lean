import SlotOutcome.Proofs.OutcomeLaws

/-!
# Nothing changes silently

A pass adds entries to the ledger and takes none away, and what it does to the outcome it notes
there. So where nothing was noted nothing was done: grids, strips and stops, wins, free spins,
phases, the multiplier and the rest are as they were. The steps that a pass computes ahead of time
keep ledgers of their own.

## Main results

* `Law.noted`: an outcome with the same ledger is the same outcome.
* `trigger_unrecorded`: a pass that notes nothing leaves the state, but for the sequence of steps.
-/

namespace SlotOutcome

/-- Entries are only added to the ledger, and the outcome is the same if none was. -/
def Law.noted : Law where
  Rel o o' := ∃ new, o'.ledger = o.ledger ++ new ∧ (new = [] → o' = o)
  refl o := ⟨[], (List.append_nil _).symm, fun _ => rfl⟩
  trans := by
    rintro o₁ o₂ o₃ ⟨new, hledger, h⟩ ⟨new', hledger', h'⟩
    refine ⟨new ++ new', by rw [hledger', hledger, List.append_assoc], fun hnil => ?_⟩
    obtain ⟨hnew, hnew'⟩ := List.append_eq_nil_iff.mp hnil
    rw [h' hnew', h hnew]

/-- A feature that makes a change notes it. -/
theorem Law.noted_perform {s : RoundState} {change : Option Change} (h : KeepsLedger s change)
    (d : Definition) : Law.noted.Rel s.outcome (s.perform d change).outcome := by
  refine ⟨_, s.ledger_perform h, fun hnil => ?_⟩
  rcases change with _ | change
  · rfl
  · cases hnil

/-- Nothing changes silently. A pass, whether it succeeds or fails, adds entries to the ledger of
the state, unless a feature took over a step that was computed before. If it adds none, then the
state is as it was before, but for the sequence of steps that it may have computed or dropped. -/
theorem trigger_unrecorded {σ : Type} [RandomSource σ] {d : Definition} {source : σ}
    {s : RoundState} {bag : Bag} {r : Except FeatureError Unit} {p : Pass σ}
    (hrun : trigger .builtin d source s bag = (r, p))
    (hreveals : ∀ v ∈ p.visits, ¬v.node.Reveals s.stateful) :
    ∃ new, p.state.outcome.ledger = s.outcome.ledger ++ new ∧
      (new = [] → p.state = { s with replay := p.state.replay, chain := p.state.chain }) := by
  obtain ⟨hsetting, hlaw⟩ := Law.noted.of_trigger (fun _ => False)
    (fun n _ _ _ _ _ hmakes => Law.noted_perform hmakes.keepsLedger n) hrun
  obtain ⟨new, hledger, hsame⟩ := hlaw fun v hv => ⟨hreveals v hv, id⟩
  refine ⟨new, hledger, fun hnil => ?_⟩
  have houtcome := hsame hnil
  rcases p with ⟨source', visits, ⟨o, stake, replay, paytable, evaluator, link, step, chain⟩, left⟩
  cases hsetting
  cases houtcome
  rfl

/-- Computes two steps, each of which drops no wild or one. -/
def twoDrops : Definition where
  id := 1
  tag := "Play"
  params := Bag.empty.insert "Steps" (.ofNat 2)
  features := [⟨2, "RandomWilds", (Bag.empty.insert "RandomWildId" (.ofInt 9)).insert "WildCounts"
    (.ofNats [0, 1]), []⟩]

/-- The first step drops no wild and notes nothing, so the state stays, though the second step,
which waits to be revealed, drops one. -/
theorem trigger_unrecorded_twoDrops :
    ∃ p, trigger .builtin twoDrops (Script.ofDraws [0, 1, 3]) (.fresh 2 2) .empty = (.ok (), p) ∧
      p.state = { RoundState.fresh 2 2 with replay := p.state.replay, chain := p.state.chain } ∧
      p.state.chain.map (·.outcome.grid.cells) = [[-1, -1, -1, 9]] := by
  rcases hrun : trigger .builtin twoDrops (Script.ofDraws [0, 1, 3]) (.fresh 2 2) .empty
    with ⟨r, p⟩
  have hr : (trigger .builtin twoDrops (Script.ofDraws [0, 1, 3]) (.fresh 2 2) .empty).1 =
    .ok () := by decide +kernel
  have hreveals : ∀ v ∈ (trigger .builtin twoDrops (Script.ofDraws [0, 1, 3]) (.fresh 2 2)
    .empty).2.visits, ¬v.node.Reveals (RoundState.fresh 2 2).stateful := by decide +kernel
  have hledger : (trigger .builtin twoDrops (Script.ofDraws [0, 1, 3]) (.fresh 2 2)
    .empty).2.state.outcome.ledger.length = 0 := by decide +kernel
  have hchain : (trigger .builtin twoDrops (Script.ofDraws [0, 1, 3]) (.fresh 2 2)
    .empty).2.state.chain.map (·.outcome.grid.cells) = [[-1, -1, -1, 9]] := by decide +kernel
  rw [hrun] at hr hreveals hledger hchain
  obtain rfl : r = .ok () := hr
  obtain ⟨new, hnew, hsame⟩ := trigger_unrecorded hrun hreveals
  refine ⟨p, rfl, hsame ?_, hchain⟩
  have hnil : p.state.outcome.ledger = [] := List.eq_nil_of_length_eq_zero hledger
  exact (List.append_eq_nil_iff.mp (hnew.symm.trans hnil)).2

end SlotOutcome
