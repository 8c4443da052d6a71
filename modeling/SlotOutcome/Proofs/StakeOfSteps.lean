import SlotOutcome.Proofs.OutcomeLaws
import SlotOutcome.Proofs.RevealedSteps
import SlotOutcome.Proofs.StakeMemory

/-!
# The stake of a step that was computed before

A step that was computed ahead of time has the stake of the call that computed it, and keeps it as
long as it waits in a chain. A call that reveals it takes over the outcome of the step only, and
stays at its own stake. So the step is revealed at the stake that it was computed for exactly if the
stake of the call is that of the link, and calls at another stake in between do not matter.

```text
  call              stake   chain at its end
  computes          1       link at stake 1, link at stake 1
  reveals           1       link at stake 1
  reveals           2       no chain          ◄── the outcome of a step at stake 1
```

## Main definitions

* `Definition.Computes`: a tree may compute a link.
* `Call`, `Calls`: calls that succeed, and runs of calls from round to round at any stakes.

## Main results

* `chainLaw.trigger_keeps`: where the links come from that a pass leaves.
* `Calls.pending_origin`: every link that waits to be revealed comes from an earlier call.
* `Calls.revealed_stake`: when a step is revealed at the stake that it was computed for.
-/

namespace SlotOutcome

open Reveal (pending)

section Chains

variable {σ : Type} [RandomSource σ]

/-- A tree computes a link if a feature of it that computes steps runs its children on the state
that follows another one, and the link is what they leave. -/
def Definition.Computes (σ : Type) [RandomSource σ] (d : Definition) (link : RoundState) : Prop :=
  ∃ n ∈ d.nodes, n.tag = "Play" ∧
    ∃ (above : List Definition) (bag : Bag) (previous step : RoundState) (x x' : σ),
      Reveal.Ran (n.features.map fun c => ⟨c, c.trigger .builtin above⟩) bag
        { previous.nextStep with replay := .start } x step x' ∧ link = step.asLink

theorem RoundState.pending_of_setting {s s' : RoundState} (h : s'.setting = s.setting) :
    pending s' = pending s := by
  rw [pending, pending, stateful_of_setting h]

/-- Where the links of a chain come from. If no step waits to be revealed, they were there before or
were computed at the stake of the state. Otherwise the chain stays, or is what waits after the first
step, or is dropped. -/
def chainLaw (σ : Type) [RandomSource σ] (root : Definition) : Kept where
  Rel _ s _ s' := s'.setting = s.setting ∧
    (pending s = none →
      ∀ link ∈ s'.chain, link ∈ s.chain ∨ link.stake = s.stake ∧ root.Computes σ link) ∧
    (∀ link rest tries, pending s = some (link, rest, tries) →
      s'.chain = s.chain ∨ s'.chain = [] ∨ s'.chain = rest)
  refl _ s := ⟨rfl, fun _ _ hlink => .inl hlink, fun _ _ _ _ => .inl rfl⟩
  trans := by
    rintro v₁ s₁ v₂ s₂ v₃ s₃ ⟨hsetting, hnone, hsome⟩ ⟨hsetting', hnone', hsome'⟩
    rw [RoundState.pending_of_setting hsetting] at hnone' hsome'
    refine ⟨hsetting'.trans hsetting, fun hpending link hlink => ?_, fun link rest tries h => ?_⟩
    · rcases hnone' hpending link hlink with hlink | ⟨hstake, hcomputes⟩
      · exact hnone hpending link hlink
      · exact .inr ⟨hstake.trans (RoundState.stake_of_setting hsetting), hcomputes⟩
    · rcases hsome' link rest tries h with hchain | hchain | hchain
      · rw [hchain]
        exact hsome link rest tries h
      · exact .inr (.inl hchain)
      · exact .inr (.inr hchain)

variable {root : Definition}

/-- A state with the setting of another one that has no links but those of that one. -/
theorem chainLaw.rel_of_chain {s s' : RoundState} (hsetting : s'.setting = s.setting)
    (hchain : s'.chain = s.chain ∨ s'.chain = []) (v v' : List Visit) :
    (chainLaw σ root).Rel v s v' s' := by
  refine ⟨hsetting, fun _ link hlink => .inl ?_, fun _ _ _ _ => ?_⟩
  · rcases hchain with hchain | hchain
    · rwa [hchain] at hlink
    · rw [hchain] at hlink
      cases hlink
  · rcases hchain with hchain | hchain
    · exact .inl hchain
    · exact .inr (.inl hchain)

/-- The atoms of features that do not compute steps follow the law. -/
theorem chainLaw.atoms {d : Definition} {e : Effect} (he : e ≠ .play) :
    (chainLaw σ root).AtomsKeep σ d e := by
  intro α act act' hatom s bag x a s' bag' x' hrun v
  have hsetting := hatom.setting_eq hrun
  by_cases hsequel : e.isSequel
  · cases hatom with
    | leaf h _ =>
      rw [Effect.isSequel_of_leaf? h] at hsequel
      cases hsequel
    | begun | chained _ => exact absurd rfl he
    | reveals =>
      unfold Act.reveals at hrun
      rcases hpending : pending s with _ | ⟨link, rest, tries⟩ <;> rw [hpending] at hrun <;>
        cases hrun
      · exact (chainLaw σ root).refl v s
      · refine ⟨rfl, fun hnone => ?_, fun link' rest' tries' hsome => ?_⟩
        · rw [hpending] at hnone
          cases hnone
        · rw [hpending] at hsome
          cases hsome
          exact .inr (.inr rfl)
    | decides =>
      obtain ⟨ceiling, y, -, hrun⟩ := bind_run_eq_ok.mp hrun
      split at hrun <;> cases hrun
      · exact rel_of_chain hsetting (.inl rfl) v v
      · exact rel_of_chain hsetting (.inr rfl) v v
    | ended =>
      cases hrun
      exact rel_of_chain hsetting (.inr rfl) v v
    | chance _ | pick _ _ | choice _ | counts | chooses | counting | seeking => cases hsequel
  · obtain ⟨change, -, hchange⟩ := hatom.exists_change (eq_false_of_ne_true hsequel) s bag
      _ ⟨x, x', hrun⟩
    obtain rfl : s' = s.perform d change := hchange
    refine rel_of_chain hsetting (.inl ?_) v v
    rcases change with _ | change <;> rfl

/-! ### Computing steps -/

section Play

omit [RandomSource σ]

variable {children : List (Child σ)} {bag : Bag}

/-- Computing the steps after a step leaves the state of the pass, also when it fails. -/
theorem Reveal.followOn_state {count : Nat} {previous : RoundState} {p q : Pass σ}
    {r : Except FeatureError (List RoundState)}
    (h : followOn children bag count previous p = (r, q)) : q.state = p.state := by
  induction count generalizing previous p r with
  | zero =>
    cases h
    rfl
  | succ count ih =>
    rw [followOn, bind_run] at h
    rcases hstep : onStep { previous.nextStep with replay := .start } bag (fireAll children) p
      with ⟨e | step, p'⟩
    · rw [hstep] at h
      cases h
      exact (congrArg (fun result => result.2.state) hstep).symm
    · rw [hstep] at h
      have hstate : p'.state = p.state := (onStep_run_ok hstep).2.1
      dsimp only at h
      split at h
      · cases h
        exact hstate
      · rw [bind_run] at h
        rcases hrest : followOn children bag count step p' with ⟨e | rest, q'⟩ <;>
          rw [hrest] at h <;> cases h <;> exact (ih hrest).trans hstate

/-- How far a feature that computes steps has come when it ends, and what it leaves. -/
inductive Reveal.Played (children : List (Child σ)) (p : Pass σ) : Pass σ → Prop
  /-- It computes no steps. -/
  | idle (h : (pending p.state).isSome = true ∨ ∃ e, p.bag.findD .nat "Steps" 1 = .error e) :
      Played children p p
  /-- The first step is the last one. -/
  | first {count : Nat} {r : Except FeatureError Unit} {q : Pass σ}
      (hpending : pending p.state = none) (hcount : p.bag.findD .nat "Steps" 1 = .ok count)
      (hfirst : fireAll children { p with state := Act.begun p.state } = (r, q)) :
      Played children p q
  /-- A later step failed. -/
  | failed {count : Nat} {e : FeatureError} {p₁ q : Pass σ} (hpending : pending p.state = none)
      (hcount : p.bag.findD .nat "Steps" 1 = .ok count)
      (hfirst : fireAll children { p with state := Act.begun p.state } = (.ok (), p₁))
      (hlinks : followOn children p.bag (count - 1) p₁.state p₁ = (.error e, q)) :
      Played children p q
  /-- The steps after the first one become the chain. -/
  | chained {count : Nat} {links : List RoundState} {p₁ p₂ : Pass σ}
      (hpending : pending p.state = none) (hcount : p.bag.findD .nat "Steps" 1 = .ok count)
      (hfirst : fireAll children { p with state := Act.begun p.state } = (.ok (), p₁))
      (haborted : p₁.state.aborted = false)
      (hlinks : followOn children p.bag (count - 1) p₁.state p₁ = (.ok links, p₂)) :
      Played children p { p₂ with state := p₁.state.setChain links }

theorem Reveal.play_run {p q : Pass σ} {r : Except FeatureError Unit}
    (h : play children p = (r, q)) : Played children p q := by
  by_cases hpending : (pending p.state).isSome = true
  · rw [play_run_pending hpending] at h
    cases h
    exact .idle (.inl hpending)
  have hnone : pending p.state = none := Option.not_isSome_iff_eq_none.mp hpending
  rw [play, get_bind_run, if_neg hpending] at h
  rcases hcount : p.bag.findD .nat "Steps" 1 with e | count <;> rw [hcount] at h
  · cases h
    exact .idle (.inr ⟨e, hcount⟩)
  change (fireAll children >>= _) { p with state := Act.begun p.state } = _ at h
  rw [bind_run] at h
  rcases hfirst : fireAll children { p with state := Act.begun p.state } with ⟨e | ⟨⟩, p₁⟩ <;>
    rw [hfirst] at h
  · cases h
    exact .first hnone hcount hfirst
  dsimp only at h
  rw [get_bind_run] at h
  split at h
  · cases h
    exact .first hnone hcount hfirst
  next haborted =>
  rw [bind_run] at h
  rcases hlinks : followOn children p.bag (count - 1) p₁.state p₁ with ⟨e | links, p₂⟩ <;>
    rw [hlinks] at h <;> cases h
  · exact .failed hnone hcount hfirst hlinks
  · have hchained := Played.chained hnone hcount hfirst (eq_false_of_ne_true haborted) hlinks
    rwa [← followOn_state hlinks] at hchained

/-- The steps after a step have its stake if running the children leaves it. -/
theorem Reveal.FollowedBy.stake_eq {count : Nat} {s : RoundState} {x x' : σ}
    {links : List RoundState} (h : FollowedBy children bag count s x links x')
    (hstake : ∀ {s s' : RoundState} {x x' : σ}, Ran children bag s x s' x' → s'.stake = s.stake) :
    ∀ step ∈ links, step.stake = s.stake ∧ ∃ (previous : RoundState) (y y' : σ),
      Ran children bag { previous.nextStep with replay := .start } y step y' := by
  induction h with
  | enough s x => exact fun _ hstep => nomatch hstep
  | aborted count x h => exact fun _ hstep => nomatch hstep
  | @step count s step x x' x'' rest _ hran _ ih =>
    have hstep : step.stake = ({ s.nextStep with replay := .start } : RoundState).stake :=
      hstake hran
    intro step' hstep'
    rcases List.mem_cons.mp hstep' with rfl | hmem
    · exact ⟨hstep, s, x, x', hran⟩
    · obtain ⟨hstake', hran'⟩ := ih step' hmem
      exact ⟨hstake'.trans hstep, hran'⟩

end Play

/-- A feature that computes steps follows the law if its children do. -/
theorem chainLaw.play_keeps {n : Definition} (hn : n ∈ root.nodes) (htag : n.tag = "Play")
    {above : List Definition} (hchildren : ∀ c ∈ n.features,
      (chainLaw σ root).Keeps (c.trigger .builtin above : PassM σ Unit)) :
    (chainLaw σ root).Keeps
      (Reveal.play (n.features.map fun c => ⟨c, c.trigger .builtin above⟩) : PassM σ Unit) := by
  have hfire : (chainLaw σ root).Keeps (fireAll (n.features.map fun c =>
      (⟨c, c.trigger .builtin above⟩ : Child σ))) := by
    refine Kept.fireAll_keeps _ fun child hchild => ?_
    obtain ⟨c, hc, rfl⟩ := List.mem_map.mp hchild
    exact hchildren c hc
  have hran_stake {bag : Bag} {s s' : RoundState} {x x' : σ} (hran : Reveal.Ran (n.features.map
      fun c => (⟨c, c.trigger .builtin above⟩ : Child σ)) bag s x s' x') : s'.stake = s.stake := by
    obtain ⟨visits, q, hfired, rfl, -⟩ := hran
    exact RoundState.stake_of_setting (hfire _ _ _ hfired).1
  intro p r q hrun
  have hbegun : (chainLaw σ root).Rel p.visits p.state p.visits (Act.begun p.state) :=
    rel_of_chain (by rfl) (.inr rfl) _ _
  cases Reveal.play_run hrun with
  | idle => exact (chainLaw σ root).refl _ _
  | first hpending hcount hfirst =>
    exact (chainLaw σ root).trans hbegun (hfire _ _ _ hfirst)
  | failed hpending hcount hfirst hlinks =>
    rw [Reveal.followOn_state hlinks]
    exact (chainLaw σ root).trans hbegun (hfire _ _ _ hfirst)
  | @chained count links p₁ p₂ hpending hcount hfirst haborted hlinks =>
    have hthere := (chainLaw σ root).trans hbegun (hfire _ _ _ hfirst)
    refine (chainLaw σ root).trans hthere ⟨rfl, fun _ link hlink => .inr ?_, ?_⟩
    · obtain ⟨step, hstep, rfl⟩ := List.mem_map.mp hlink
      obtain ⟨hstake, previous, y, y', hran⟩ :=
        (Reveal.followOn_run_ok haborted hlinks).1.stake_eq hran_stake step hstep
      exact ⟨hstake, n, hn, htag, above, p.bag, previous, step, y, y', hran, rfl⟩
    · intro link rest tries hsome
      rw [RoundState.pending_of_setting hthere.1, hpending] at hsome
      cases hsome

/-- A tree follows the law, whatever tree it is a part of. -/
theorem chainLaw.trigger_keeps {d : Definition} (hd : ∀ n ∈ d.nodes, n ∈ root.nodes)
    (above : List Definition) :
    (chainLaw σ root).Keeps (d.trigger .builtin above : PassM σ Unit) := by
  induction d using Definition.induction generalizing above with
  | node d ih =>
    have hchildren (c : Definition) (hc : c ∈ d.features) (above : List Definition) :
        (chainLaw σ root).Keeps (c.trigger .builtin above : PassM σ Unit) :=
      ih c hc (fun n hn => hd n (Definition.mem_nodes_of_mem_features hc hn)) above
    rw [Definition.trigger_eq]
    refine Kept.enter_keeps _ (fun bag v s => (chainLaw σ root).refl v s) fun e hcreate => ?_
    by_cases he : e = .play
    · subst he
      have htag : d.tag = "Play" := (Registry.tag_of_create_builtin hcreate).symm
      exact play_keeps (hd d d.mem_nodes_self) htag fun c hc => hchildren c hc _
    · refine Kept.run_keeps _ (fun child hchild => ?_) (atoms he) fun hplay => absurd hplay he
      obtain ⟨c, hc, rfl⟩ := List.mem_map.mp hchild
      exact hchildren c hc _

end Chains

/-! ### Calls from round to round -/

/-- A call that succeeded: what it was made with, and the states before and after. -/
structure Call (σ : Type) [RandomSource σ] where
  tree : Definition
  source : σ
  bag : Bag
  before : RoundState
  after : RoundState
  succeeded : ∃ p, trigger .builtin tree source before bag = (.ok (), p) ∧ p.state = after

variable {σ : Type} [RandomSource σ]

/-- The call computed a link: no step waited to be revealed, and the link is what its tree computed
at its stake. -/
def Call.Computed (call : Call σ) (link : RoundState) : Prop :=
  pending call.before = none ∧ link.stake = call.before.stake ∧ call.tree.Computes σ link

/-- A run of calls from round to round, the latest first, each at any stake. It begins with a state
that has no steps to be revealed. -/
inductive Calls : List (Call σ) → Prop
  | start {call : Call σ} (hpending : pending call.before = none)
      (hchain : call.before.chain = []) :
      Calls [call]
  | next {last call : Call σ} {earlier : List (Call σ)} (h : Calls (last :: earlier))
      (stake : Float)
      (hbefore : call.before = last.after.nextRound.withStake stake) :
      Calls (call :: last :: earlier)

/-- The steps that wait to be revealed in the next round are those in the chain. -/
theorem RoundState.pending_nextRound (s : RoundState) (stake : Float) :
    pending (s.nextRound.withStake stake) = match s.chain with
      | [] => none
      | link :: rest => some (link, rest, s.replay.tries) := rfl

theorem Call.chainLaw_rel (call : Call σ) : ∃ v,
    (chainLaw σ call.tree).Rel [] call.before v call.after := by
  obtain ⟨p, hrun, hafter⟩ := call.succeeded
  have hrel := chainLaw.trigger_keeps (fun n hn => hn) [] _ _ _ hrun
  rw [hafter] at hrel
  exact ⟨p.visits, hrel⟩

/-- A call without steps to be revealed leaves links that it computed. -/
theorem Call.computed_of_chain (call : Call σ) (hpending : pending call.before = none)
    (hchain : call.before.chain = []) : ∀ link ∈ call.after.chain, call.Computed link := by
  obtain ⟨v, -, hnone, -⟩ := call.chainLaw_rel
  intro link hlink
  rcases hnone hpending link hlink with hold | ⟨hstake, hcomputes⟩
  · rw [hchain] at hold
    cases hold
  · exact ⟨hpending, hstake, hcomputes⟩

/-- A call with a step to be revealed leaves what waits after that step, or less. -/
theorem Call.chain_of_pending (call : Call σ) {link : RoundState} {rest : List RoundState}
    {tries : UInt32} (hpending : pending call.before = some (link, rest, tries))
    (hchain : call.before.chain = []) : call.after.chain = [] ∨ call.after.chain = rest := by
  obtain ⟨v, -, -, hsome⟩ := call.chainLaw_rel
  rcases hsome link rest tries hpending with hold | hnew
  · exact .inl (hold.trans hchain)
  · exact hnew

/-- Every link in the chain that a run of calls leaves was computed by one of the calls. -/
theorem Calls.chain_origin {calls : List (Call σ)} (h : Calls calls) : ∀ call ∈ calls.head?,
    ∀ link ∈ call.after.chain, ∃ origin ∈ calls, origin.Computed link := by
  induction h with
  | @start call hpending hchain =>
    rintro call ⟨⟩ link hlink
    exact ⟨call, List.mem_cons_self, call.computed_of_chain hpending hchain link hlink⟩
  | @next last call earlier _ stake hbefore ih =>
    rintro call ⟨⟩ link hlink
    have hchain : call.before.chain = [] := by
      rw [hbefore]
      rfl
    have hpending : pending call.before = match last.after.chain with
        | [] => none
        | link :: rest => some (link, rest, last.after.replay.tries) := by
      rw [hbefore]
      exact last.after.pending_nextRound stake
    rcases hlast : last.after.chain with _ | ⟨first, rest⟩ <;> rw [hlast] at hpending
    · exact ⟨call, List.mem_cons_self, call.computed_of_chain hpending hchain link hlink⟩
    · have hmem : link ∈ last.after.chain := by
        rw [hlast]
        rcases call.chain_of_pending hpending hchain with hnil | hrest
        · rw [hnil] at hlink
          cases hlink
        · rw [hrest] at hlink
          exact List.mem_cons_of_mem _ hlink
      obtain ⟨origin, horigin, hcomputed⟩ := ih last rfl link hmem
      exact ⟨origin, List.mem_cons_of_mem _ horigin, hcomputed⟩

/-- A step that waits to be revealed in a run of calls was computed by an earlier one of them. -/
theorem Calls.pending_origin {call : Call σ} {earlier : List (Call σ)} (h : Calls (call :: earlier))
    {link : RoundState} {rest : List RoundState} {tries : UInt32}
    (hpending : pending call.before = some (link, rest, tries)) :
    ∃ origin ∈ earlier, origin.Computed link := by
  cases h with
  | start hnone _ =>
    rw [hnone] at hpending
    cases hpending
  | @next last _ earlier h stake hbefore =>
    rw [hbefore, RoundState.pending_nextRound] at hpending
    rcases hlast : last.after.chain with _ | ⟨first, rest'⟩ <;> rw [hlast] at hpending
    · cases hpending
    · cases hpending
      refine h.chain_origin last rfl link ?_
      rw [hlast]
      exact List.mem_cons_self

/-- A run of calls from round to round at any stakes: a step that waits to be revealed was computed
by an earlier call and has the stake of that call. Revealing it does not change the stake of the
call that does so. So the step is revealed at the key of the stake that it was computed at if and
only if the stake of the call has the same key as the stake of the link. -/
theorem Calls.revealed_stake {call : Call σ} {earlier : List (Call σ)} (h : Calls (call :: earlier))
    {link : RoundState} {rest : List RoundState} {tries : UInt32}
    (hpending : pending call.before = some (link, rest, tries)) :
    call.after.stake = call.before.stake ∧ ∃ origin ∈ earlier, origin.Computed link ∧
      (call.after.stakeKey = origin.before.stakeKey ↔ call.before.stakeKey = link.stakeKey) := by
  obtain ⟨v, hsetting, -, -⟩ := call.chainLaw_rel
  have hstake : call.after.stake = call.before.stake := RoundState.stake_of_setting hsetting
  obtain ⟨origin, horigin, hcomputed⟩ := h.pending_origin hpending
  have hlink : link.stakeKey = origin.before.stakeKey :=
    congrArg (fixedText 3) hcomputed.2.1
  have hcall : call.after.stakeKey = call.before.stakeKey := congrArg (fixedText 3) hstake
  refine ⟨hstake, origin, horigin, hcomputed, ?_⟩
  rw [hlink, hcall]

/-! ### A link that is revealed at another stake -/

/-- The call of a tree on a state, if it succeeds. -/
def Call.play (tree : Definition) (source : σ) (bag : Bag) (before : RoundState)
    (h : (trigger .builtin tree source before bag).1 = .ok ()) : Call σ where
  tree := tree
  source := source
  bag := bag
  before := before
  after := (trigger .builtin tree source before bag).2.state
  succeeded := ⟨_, Prod.ext h rfl, rfl⟩

theorem Call.after_play {tree : Definition} {source : σ} {bag : Bag} {before : RoundState}
    (h : (trigger .builtin tree source before bag).1 = .ok ()) :
    (Call.play tree source bag before h).after =
      (trigger .builtin tree source before bag).2.state := rfl

/-- Computes two steps with a prize each, and reveals the second one in the next call. -/
def prizeSteps : Definition where
  id := 1
  tag := "Activator"
  params := .empty
  features := [
    ⟨2, "Play", Bag.empty.insert "Steps" (.ofNat 2),
      [⟨3, "InstantPrize", Bag.empty.insert "Prize" (.ofNat 5), []⟩]⟩,
    ⟨4, "Replay", .empty, []⟩]

/-- A call at stake `1` that computes two steps. -/
def computingCall : Call Script :=
  .play prizeSteps (.ofDraws []) .empty (.fresh 2 2) (by decide +kernel)

/-- The state of the round after it, at another stake. -/
def revealingState (stake : Float) : RoundState := computingCall.after.nextRound.withStake stake

/-- The call computes one link, at its stake. -/
theorem computingCall_chain : ∃ link, computingCall.after.chain = [link] ∧
    link.stakeKey = "1.000" ∧ link.outcome.wins = [⟨"Prize", 5.0, [], []⟩] := by
  have hlinks : computingCall.after.chain.map (fun link => (link.stakeKey, link.outcome.wins)) =
      [("1.000", [⟨"Prize", 5.0, [], []⟩])] := by decide +kernel
  rcases hchain : computingCall.after.chain with _ | ⟨link, rest⟩ <;> rw [hchain] at hlinks
  · cases hlinks
  · obtain ⟨hlink, hrest⟩ := List.cons.inj hlinks
    obtain ⟨hkey, hwins⟩ := Prod.mk.inj hlink
    rw [List.map_eq_nil_iff.mp hrest]
    exact ⟨link, rfl, hkey, hwins⟩

/-- At the same stake, the step is revealed at the stake that it was computed for. -/
theorem Calls.revealed_stake_same : ∃ call : Call Script,
    Calls [call, computingCall] ∧ (pending call.before).isSome = true ∧
      call.after.stakeKey = computingCall.before.stakeKey := by
  have hplay : (trigger .builtin prizeSteps (Script.ofDraws []) (revealingState 1.0) .empty).1 =
    .ok () := by decide +kernel
  let call : Call Script := .play prizeSteps (.ofDraws []) .empty (revealingState 1.0) hplay
  have hcalls : Calls [call, computingCall] := .next (.start rfl rfl) 1.0 rfl
  obtain ⟨link, hchain, hlink, -⟩ := computingCall_chain
  have hpending : pending call.before = some (link, [], computingCall.after.replay.tries) := by
    change pending (computingCall.after.nextRound.withStake 1.0) = _
    rw [RoundState.pending_nextRound, hchain]
  have hkey : (revealingState 1.0).stakeKey = "1.000" := by decide +kernel
  obtain ⟨-, origin, horigin, -, hsame⟩ := hcalls.revealed_stake hpending
  rw [List.mem_singleton.mp horigin] at hsame
  exact ⟨call, hcalls, by rw [hpending]; rfl, hsame.mpr (hkey.trans hlink.symm)⟩

/-- A step that was computed at stake `1` is revealed by a call at stake `2`, and the prize that it
holds counts at the stake of that call. -/
theorem revealed_at_other_stake : ∃ (call : Call Script) (link : RoundState),
    Calls [call, computingCall] ∧ computingCall.Computed link ∧
      pending call.before = some (link, [], computingCall.after.replay.tries) ∧
      call.after.replay.phase = .replay ∧ call.after.outcome.wins = link.outcome.wins ∧
      computingCall.before.stakeKey = "1.000" ∧ call.after.stakeKey = "2.000" := by
  have hplay : (trigger .builtin prizeSteps (Script.ofDraws []) (revealingState 2.0) .empty).1 =
    .ok () := by decide +kernel
  let call : Call Script := .play prizeSteps (.ofDraws []) .empty (revealingState 2.0) hplay
  have hcalls : Calls [call, computingCall] := .next (.start rfl rfl) 2.0 rfl
  obtain ⟨link, hchain, -, hwins⟩ := computingCall_chain
  have hpending : pending call.before = some (link, [], computingCall.after.replay.tries) := by
    change pending (computingCall.after.nextRound.withStake 2.0) = _
    rw [RoundState.pending_nextRound, hchain]
  obtain ⟨origin, horigin, hcomputed⟩ := hcalls.pending_origin hpending
  rw [List.mem_singleton.mp horigin] at hcomputed
  have hafter : call.after = (trigger .builtin prizeSteps (Script.ofDraws []) (revealingState 2.0)
    .empty).2.state := Call.after_play hplay
  have hphase : (trigger .builtin prizeSteps (Script.ofDraws []) (revealingState 2.0)
    .empty).2.state.replay.phase = .replay := by decide +kernel
  have hprize : (trigger .builtin prizeSteps (Script.ofDraws []) (revealingState 2.0)
    .empty).2.state.outcome.wins = [⟨"Prize", 5.0, [], []⟩] := by decide +kernel
  have hkey : (trigger .builtin prizeSteps (Script.ofDraws []) (revealingState 2.0)
    .empty).2.state.stakeKey = "2.000" := by decide +kernel
  have hfirst : computingCall.before.stakeKey = "1.000" := by decide +kernel
  refine ⟨call, link, hcalls, hcomputed, hpending, ?_, ?_, hfirst, ?_⟩
  · rw [hafter, hphase]
  · rw [hafter, hprize, hwins]
  · rw [hafter, hkey]

end SlotOutcome
