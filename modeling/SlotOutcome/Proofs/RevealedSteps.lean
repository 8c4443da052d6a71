import SlotOutcome.Engine
import SlotOutcome.Proofs.Changes
import SlotOutcome.Proofs.Kept

/-!
# Computing steps in one call and revealing them in the next ones

A game computes a sequence of steps in one call and reveals them in the calls after it, one in
each call, up to a ceiling. The calls that reveal draw nothing.

```text
  call 0              call 1        call 2        …   call R            call R + 1
  step 0              step 1        step 2        …   step R            computes again
  chain 1, …, m - 1   chain 2, …    chain 3, …    …   no chain
```

Here `R` is the least of `m - 1` and the ceiling.

## Main definitions

* `Reveal.Ran`, `Reveal.FollowedBy`, `Reveal.Computed`: a sequence of steps that children compute.
* `SequenceGame`: games that compute a sequence and reveal it.

## Main results

* `SequenceGame.playWith_computes`, `SequenceGame.playWith_reveals`: the two types of calls.
* `SequenceGame.calls_reveal_steps`: the life of a sequence.
-/

namespace SlotOutcome

theorem RoundState.setChain_nil {s : RoundState} (h : s.chain = []) :
    s.setChain [] = s := by
  cases s
  cases h
  rfl

namespace Reveal

variable {σ : Type}

/-! ### Sequences of steps -/

/-- Children that ran on a state with a bag, from one state and source to another. -/
def Ran (children : List (Child σ)) (bag : Bag) (s : RoundState) (x : σ) (s' : RoundState)
    (x' : σ) : Prop :=
  ∃ visits p, fireAll children ⟨x, visits, s, bag⟩ = (.ok (), p) ∧ p.state = s' ∧ p.source = x'

/-- The steps after a step, at most so many. Each one starts where the one before ended, and none
comes after a step that aborts. -/
inductive FollowedBy (children : List (Child σ)) (bag : Bag) :
    Nat → RoundState → σ → List RoundState → σ → Prop
  | enough (s : RoundState) (x : σ) : FollowedBy children bag 0 s x [] x
  | aborted (count : Nat) {s : RoundState} (x : σ) (h : s.aborted = true) :
      FollowedBy children bag count s x [] x
  | step {count : Nat} {s step : RoundState} {x x' x'' : σ} {rest : List RoundState}
      (h : s.aborted = false)
      (hran : Ran children bag { s.nextStep with replay := .start } x step x')
      (hrest : FollowedBy children bag count step x' rest x'') :
      FollowedBy children bag (count + 1) s x (step :: rest) x''

/-- A sequence of at most so many steps, the first of which starts on the given state. -/
def Computed (children : List (Child σ)) (bag : Bag) (count : Nat) (s : RoundState) (x : σ)
    (steps : List RoundState) (x' : σ) : Prop :=
  ∃ first rest y, steps = first :: rest ∧ Ran children bag s x first y ∧
    FollowedBy children bag (count - 1) first y rest x'

theorem FollowedBy.length_eq_or_aborted {children : List (Child σ)} {bag : Bag} {count : Nat}
    {s : RoundState} {x x' : σ} {links : List RoundState}
    (h : FollowedBy children bag count s x links x') :
    links.length = count ∨ ∃ step ∈ (s :: links).getLast?, step.aborted = true := by
  induction h with
  | enough s x => exact .inl rfl
  | aborted count x h => exact .inr ⟨_, rfl, h⟩
  | step _ _ _ ih =>
    rcases ih with hlength | hlast
    · exact .inl (congrArg (· + 1) hlength)
    · rw [List.getLast?_cons_cons]
      exact .inr hlast

/-- A sequence has as many steps as it should, or it ends with a step that aborts. -/
theorem Computed.length_eq_or_aborted {children : List (Child σ)} {bag : Bag} {count : Nat}
    {s : RoundState} {x x' : σ} {steps : List RoundState}
    (h : Computed children bag count s x steps x') :
    steps.length = max 1 count ∨ ∃ step ∈ steps.getLast?, step.aborted = true := by
  obtain ⟨first, rest, y, rfl, -, hfollowed⟩ := h
  rcases hfollowed.length_eq_or_aborted with hlength | hlast
  · left
    rw [List.length_cons]
    omega
  · exact .inr hlast

theorem onStep_run_ok {children : List (Child σ)} {state step : RoundState} {bag : Bag}
    {p q : Pass σ} (h : onStep state bag (fireAll children) p = (.ok step, q)) :
    Ran children bag state p.source step q.source ∧ q.state = p.state ∧ q.bag = p.bag := by
  rcases hrun : fireAll children { p with state := state, bag := bag } with ⟨e | ⟨⟩, p'⟩ <;>
    rw [onStep, hrun] at h <;> cases h
  exact ⟨⟨p.visits, p', hrun, rfl, rfl⟩, rfl, rfl⟩

/-- Computing the steps after a step leaves the state as it is. -/
theorem followOn_run_ok {children : List (Child σ)} {bag : Bag} {count : Nat}
    {previous : RoundState} {p q : Pass σ} {links : List RoundState}
    (hprevious : previous.aborted = false)
    (h : followOn children bag count previous p = (.ok links, q)) :
    FollowedBy children bag count previous p.source links q.source ∧ q.state = p.state ∧
      q.bag = p.bag := by
  induction count generalizing previous p links with
  | zero =>
    cases h
    exact ⟨.enough _ _, rfl, rfl⟩
  | succ count ih =>
    obtain ⟨step, p', hstep, h⟩ := bind_run_eq_ok.mp h
    obtain ⟨hran, hstate, hbag⟩ := onStep_run_ok hstep
    rcases haborted : step.aborted with _ | _
    · rw [if_neg (by rw [haborted]; exact Bool.false_ne_true)] at h
      obtain ⟨rest, q', hrest, h⟩ := bind_run_eq_ok.mp h
      cases h
      obtain ⟨hfollowed, hstate', hbag'⟩ := ih haborted hrest
      exact ⟨.step hprevious hran hfollowed, hstate'.trans hstate, hbag'.trans hbag⟩
    · rw [if_pos haborted] at h
      cases h
      exact ⟨.step hprevious hran (.aborted count _ haborted), hstate, hbag⟩

/-! ### The features of a sequence -/

/-- A state with the decision whether the next steps will be revealed too. -/
def decided (ceiling : Nat) (s : RoundState) : RoundState :=
  if !s.chain.isEmpty && s.replay.tries.toNat < ceiling then
    { s with replay := { s.replay with phase := .continue, continueFlag := true } }
  else { s with chain := [], replay := { s.replay with continueFlag := false } }

theorem decides_run {ceiling : Nat} {s : RoundState} {bag : Bag} (x : σ)
    (h : bag.require .nat "Tries" = .ok ceiling) :
    ∃ goesOn, Act.decides s bag x = (.ok (goesOn, decided ceiling s, bag), x) := by
  rw [Act.decides, h, bind_run, liftM_run]
  dsimp only [lift_param_ok]
  unfold decided
  split
  · exact ⟨true, rfl⟩
  · exact ⟨false, rfl⟩

/-- A feature that computes steps does nothing while there are steps to be revealed. -/
theorem play_run_pending {children : List (Child σ)} {p : Pass σ}
    (h : (pending p.state).isSome = true) : play children p = (.ok (), p) := by
  rw [play, get_bind_run, if_pos h]
  rfl

/-- Otherwise it leaves the first of the steps that it computes, with the others as its chain. -/
theorem play_run_ok {children : List (Child σ)} {count : Nat} {p q : Pass σ}
    (hpending : pending p.state = none) (hsteps : p.bag.findD .nat "Steps" 1 = .ok count)
    (h : play children p = (.ok (), q)) :
    ∃ first links y,
      Ran children p.bag { p.state with replay := .start, chain := [] } p.source first y ∧
      FollowedBy children p.bag (count - 1) first y links q.source ∧
      (q.state = first ∧ links = [] ∨ q.state = first.setChain links) := by
  rw [play, get_bind_run, if_neg (by rw [hpending]; exact Bool.false_ne_true), hsteps] at h
  obtain ⟨_, p₁, hbegun, h⟩ := bind_run_eq_ok.mp h
  cases hbegun
  obtain ⟨_, p₂, hbegun, h⟩ := bind_run_eq_ok.mp h
  cases hbegun
  obtain ⟨_, p₃, hfirst, h⟩ := bind_run_eq_ok.mp h
  have hran : Ran children p.bag { p.state with replay := .start, chain := [] } p.source p₃.state
      p₃.source := ⟨p.visits, p₃, hfirst, rfl, rfl⟩
  rw [get_bind_run] at h
  rcases haborted : p₃.state.aborted with _ | _
  · rw [if_neg (by rw [haborted]; exact Bool.false_ne_true)] at h
    obtain ⟨links, p₄, hlinks, h⟩ := bind_run_eq_ok.mp h
    obtain ⟨hfollowed, hstate, -⟩ := followOn_run_ok haborted hlinks
    cases h
    exact ⟨p₃.state, links, p₃.source, hran, hfollowed, .inr (by rw [← hstate])⟩
  · rw [if_pos haborted] at h
    cases h
    exact ⟨_, [], _, hran, .aborted _ _ haborted, .inl ⟨rfl, rfl⟩⟩

/-! ### What a step leaves of its state -/

/-- The link to the previous round and the number of steps revealed stay, and where there was no
chain there is none. -/
def stepFrame : Kept where
  Rel _ s _ s' := s'.stateful = s.stateful ∧ s'.replay.tries = s.replay.tries ∧
    (s.chain = [] → s'.chain = [])
  refl _ _ := ⟨rfl, rfl, id⟩
  trans h h' := ⟨h'.1.trans h.1, h'.2.1.trans h.2.1, h'.2.2 ∘ h.2.2⟩

/-- The type is none of those that compute, reveal or go on with a sequence. -/
def IsCalm (e : Effect) : Prop := e ≠ .play ∧ e ≠ .replay ∧ e ≠ .replayContinue

theorem stepFrame_atoms [RandomSource σ] (d : Definition) {e : Effect} (he : IsCalm e) :
    stepFrame.AtomsKeep σ d e := by
  intro α act act' hatom s bag x a s' bag' x' hrun v
  by_cases hsequel : e.isSequel
  · have habort : e = .replayAbort := by
      revert hsequel he
      cases e <;> simp [Effect.isSequel, IsCalm]
    subst habort
    cases hatom with
    | leaf h _ => cases h
    | ended =>
      cases hrun
      exact ⟨rfl, rfl, fun _ => rfl⟩
  · obtain ⟨change, -, hchange⟩ := hatom.exists_change (eq_false_of_ne_true hsequel) s bag
      _ ⟨x, x', hrun⟩
    obtain rfl : s' = s.perform d change := hchange
    rcases change with _ | change <;> exact ⟨rfl, rfl, id⟩

end Reveal

/-! ### Games that reveal a sequence -/

/-- A game that computes a sequence of steps in one call and reveals them in the calls after it: a
feature that computes, a feature that reveals, and a feature that goes on. -/
structure SequenceGame where
  rootId : UInt32
  playId : UInt32
  replayId : UInt32
  continueId : UInt32
  /-- How many steps are computed. -/
  steps : UInt64
  /-- How many steps are revealed at most, after the first one. -/
  tries : UInt64
  /-- What happens in each step. -/
  features : List Definition

namespace SequenceGame

variable (g : SequenceGame)

/-- The node that computes the steps. -/
def playNode : Definition :=
  ⟨g.playId, "Play", Bag.empty.insert "Steps" (.ofNat g.steps.toNat), g.features⟩

/-- The node that reveals a step. -/
def replayNode : Definition := ⟨g.replayId, "Replay", .empty, []⟩

/-- The node that goes on. -/
def continueNode : Definition :=
  ⟨g.continueId, "ReplayContinue", Bag.empty.insert "Tries" (.ofNat g.tries.toNat), []⟩

/-- The tree of the game. -/
def tree : Definition :=
  ⟨g.rootId, "Activator", .empty, [g.playNode, g.replayNode, g.continueNode]⟩

/-- No step computes, reveals or goes on with a sequence itself. -/
def Calm : Prop :=
  ∀ c ∈ g.features, ∀ n ∈ c.nodes, n.tag ≠ "Play" ∧ n.tag ≠ "Replay" ∧ n.tag ≠ "ReplayContinue"

/-- The features of a step, as the game calls them. -/
def children {σ : Type} [RandomSource σ] : List (Child σ) :=
  g.features.map fun c => ⟨c, c.trigger .builtin [g.tree, g.playNode]⟩

/-- The bag that a step starts with, for a request with the given one. -/
def stepBag (bag : Bag) : Bag := g.playNode.params.overlay (g.tree.params.overlay bag)

/-- The state of a round after another step was revealed. -/
def revealed (s : RoundState) (link : RoundState) (rest : List RoundState) : RoundState :=
  Reveal.decided g.tries.toNat
    { s.nextRound.adopt link with chain := rest, replay := ⟨.replay, false, s.replay.tries + 1⟩ }

end SequenceGame

/-- A request that neither collates nor says how many steps there are. -/
def Bag.IsPlain (bag : Bag) : Prop :=
  bag.get? Key.collate = none ∧ bag.get? "Steps" = none ∧ bag.get? "Tries" = none

theorem Bag.IsPlain.overlay {bag : Bag} (h : bag.IsPlain) : (Bag.empty.overlay bag).IsPlain := by
  unfold IsPlain
  simp only [get?_overlay, h.1, h.2.1, h.2.2, Option.none_or]
  exact ⟨rfl, rfl, rfl⟩

theorem Bag.IsPlain.prepare {bag : Bag} (h : bag.IsPlain) (developerMode : Bool) :
    (prepare developerMode bag).IsPlain := by
  cases developerMode
  · obtain ⟨hcollate, hsteps, htries⟩ := h
    refine ⟨?_, ?_, ?_⟩ <;> rw [SlotOutcome.prepare, if_neg Bool.false_ne_true, Members.get?_filter]
    · rw [hcollate, ite_self]
    · rw [hsteps, ite_self]
    · rw [htries, ite_self]
  · exact h

namespace SequenceGame

variable (g : SequenceGame) {σ : Type} [RandomSource σ] {p : Pass σ}

/-- A node under a plain request is its feature; of what the feature leaves in its bag nothing
comes back. -/
theorem trigger_plain (d : Definition) (above : List Definition) (e : Effect) (htag : d.tag = e.tag)
    (hbag : p.bag.IsPlain) {r : Except FeatureError Unit} {q : Pass σ}
    (hrun : e.run d (d.features.map fun c => ⟨c, c.trigger .builtin (above ++ [d])⟩)
      (d.entered above p) = (r, q)) :
    d.trigger .builtin above p = (r.mapError (·.leaving d.tag d.id), { q with bag := p.bag }) := by
  rw [Definition.trigger_eq]
  refine Definition.enter_run_of_keepsToItself ?_ (.inl hbag.1) hrun
  rw [htag, Registry.create_builtin]

/-- A part of a pass succeeds without draws, leaves the bag alone and leaves the given state. -/
def Leaves (m : PassM σ Unit) (p : Pass σ) (s : RoundState) : Prop :=
  ∃ q, m p = (.ok (), q) ∧ q.source = p.source ∧ q.bag = p.bag ∧ q.state = s

theorem playNode_leaves (hbag : p.bag.IsPlain) (hpending : (Reveal.pending p.state).isSome = true) :
    Leaves (g.playNode.trigger .builtin [g.tree]) p p.state := by
  have hrun : Effect.play.run g.playNode g.children (g.playNode.entered [g.tree] p) =
      (.ok (), g.playNode.entered [g.tree] p) := Reveal.play_run_pending hpending
  exact ⟨_, trigger_plain g.playNode [g.tree] .play rfl hbag hrun, rfl, rfl, rfl⟩

theorem replayNode_leaves_none (hbag : p.bag.IsPlain) (hpending : Reveal.pending p.state = none) :
    Leaves (g.replayNode.trigger .builtin [g.tree]) p p.state := by
  have hrun : Effect.replay.run g.replayNode [] (g.replayNode.entered [g.tree] p) =
      (.ok (), g.replayNode.entered [g.tree] p) := by
    rw [Effect.run, replay_eq, atomic_bind_run, Act.reveals]
    dsimp only [Definition.entered]
    rw [hpending]
    rfl
  exact ⟨_, trigger_plain g.replayNode [g.tree] .replay rfl hbag hrun, rfl, rfl, rfl⟩

theorem replayNode_leaves_some (hbag : p.bag.IsPlain) {link : RoundState} {rest : List RoundState}
    {tries : UInt32} (hpending : Reveal.pending p.state = some (link, rest, tries)) :
    Leaves (g.replayNode.trigger .builtin [g.tree]) p
      { p.state.adopt link with chain := rest, replay := ⟨.replay, false, tries + 1⟩ } := by
  have hrun : Effect.replay.run g.replayNode [] (g.replayNode.entered [g.tree] p) =
      (.ok (), { g.replayNode.entered [g.tree] p with
        state := { p.state.adopt link with
          chain := rest
          replay := ⟨.replay, false, tries + 1⟩ } }) := by
    rw [Effect.run, replay_eq, atomic_bind_run, Act.reveals]
    dsimp only [Definition.entered]
    rw [hpending]
    rfl
  exact ⟨_, trigger_plain g.replayNode [g.tree] .replay rfl hbag hrun, rfl, rfl, rfl⟩

theorem continueNode_leaves (hbag : p.bag.IsPlain) :
    Leaves (g.continueNode.trigger .builtin [g.tree]) p
      (Reveal.decided g.tries.toNat p.state) := by
  have hget : (g.continueNode.entered [g.tree] p).bag.get? "Tries" =
      some (.ofNat g.tries.toNat) := by
    rw [Definition.entered, Bag.get?_overlay, hbag.2.2]
    rfl
  obtain ⟨goesOn, hdecides⟩ := Reveal.decides_run (s := p.state) p.source
    (Bag.require_of_present hget (ParamType.nat_read_ofNat g.tries.toNat_lt_size))
  have hrun : Effect.replayContinue.run g.continueNode [] (g.continueNode.entered [g.tree] p) =
      (.ok (), { g.continueNode.entered [g.tree] p with
        state := Reveal.decided g.tries.toNat p.state }) := by
    rw [Effect.run, goOn_eq, atomic_bind_run]
    dsimp only [Definition.entered] at hdecides ⊢
    rw [hdecides]
    cases goesOn <;> rfl
  exact ⟨_, trigger_plain g.continueNode [g.tree] .replayContinue rfl hbag hrun, rfl, rfl, rfl⟩

/-- The features of a step leave the link and the tries of its state, and start no chain. -/
theorem children_frame (hcalm : g.Calm) {b : Bag} {s s' : RoundState} {x x' : σ}
    (h : Reveal.Ran g.children b s x s' x') :
    s'.stateful = s.stateful ∧ s'.replay.tries = s.replay.tries ∧
      (s.chain = [] → s'.chain = []) := by
  obtain ⟨visits, q, hrun, rfl, rfl⟩ := h
  have hkeeps (child : Child σ) (hchild : child ∈ g.children) :
      Reveal.stepFrame.Keeps child.trigger := by
    obtain ⟨c, hc, rfl⟩ := List.mem_map.mp hchild
    have hnode {n : Definition} (hn : n ∈ c.nodes) {e : Effect}
        (hcreate : Registry.builtin.create n.tag = .ok e) : Reveal.IsCalm e := by
      have htag := Registry.tag_of_create_builtin hcreate
      have hcalm := hcalm c hc n hn
      rw [← htag] at hcalm
      refine ⟨?_, ?_, ?_⟩ <;> rintro rfl
      · exact hcalm.1 rfl
      · exact hcalm.2.1 rfl
      · exact hcalm.2.2 rfl
    refine Reveal.stepFrame.trigger_keeps c (fun _ _ _ _ _ _ => ⟨rfl, rfl, id⟩)
      (fun n hn e hcreate => Reveal.stepFrame_atoms n (hnode hn hcreate)) (fun n hn hcreate => ?_) _
    exact absurd rfl (hnode hn hcreate).1
  exact Reveal.stepFrame.fireAll_keeps hkeeps _ _ _ hrun

theorem playNode_run_ok (hcalm : g.Calm) (hbag : p.bag.IsPlain)
    (hpending : Reveal.pending p.state = none) {q : Pass σ}
    (h : g.playNode.trigger .builtin [g.tree] p = (.ok (), q)) :
    ∃ first links, Reveal.Computed g.children (g.playNode.params.overlay p.bag) g.steps.toNat
        { p.state with replay := .start, chain := [] } p.source (first :: links) q.source ∧
      q.state = first.setChain links ∧ q.bag = p.bag ∧
      first.stateful = p.state.stateful ∧ first.replay.tries = 0 := by
  rcases hrun : Effect.play.run g.playNode g.children (g.playNode.entered [g.tree] p) with ⟨r, q'⟩
  rw [trigger_plain g.playNode [g.tree] .play rfl hbag hrun] at h
  rcases r with e | ⟨⟩
  · cases h
  cases h
  have hget : (g.playNode.entered [g.tree] p).bag.get? "Steps" = some (.ofNat g.steps.toNat) := by
    rw [Definition.entered, Bag.get?_overlay, hbag.2.1]
    rfl
  have hsteps := Bag.findD_of_present hget (ParamType.nat_read_ofNat g.steps.toNat_lt_size) 1
  have hpending' : Reveal.pending (g.playNode.entered [g.tree] p).state = none := hpending
  obtain ⟨first, links, y, hran, hfollowed, hstate⟩ := Reveal.play_run_ok hpending' hsteps hrun
  obtain ⟨hstateful, htries, hchain⟩ := g.children_frame hcalm hran
  refine ⟨first, links, ⟨first, links, y, rfl, hran, hfollowed⟩, ?_, rfl, hstateful, htries⟩
  rcases hstate with ⟨hstate, rfl⟩ | hstate
  · rw [RoundState.setChain_nil (hchain rfl)]
    exact hstate
  · exact hstate

/-- The triggers of the nodes under the root. -/
def nodeTriggers : List (Child σ) :=
  g.tree.features.map fun c => ⟨c, c.trigger .builtin ([] ++ [g.tree])⟩

/-- The nodes under the root succeed one after the other. -/
theorem fireAll_nodeTriggers {q : Pass σ} : fireAll g.nodeTriggers p = (.ok (), q) ↔
    ∃ p₁ p₂, g.playNode.trigger .builtin [g.tree] p = (.ok (), p₁) ∧
      g.replayNode.trigger .builtin [g.tree] p₁ = (.ok (), p₂) ∧
      g.continueNode.trigger .builtin [g.tree] p₂ = (.ok (), q) := by
  constructor
  · intro h
    obtain ⟨_, p₁, hplay, h⟩ := bind_run_eq_ok.mp h
    obtain ⟨_, p₂, hreplay, h⟩ := bind_run_eq_ok.mp h
    obtain ⟨_, p₃, hcontinue, h⟩ := bind_run_eq_ok.mp h
    cases h
    exact ⟨p₁, p₂, hplay, hreplay, hcontinue⟩
  · rintro ⟨p₁, p₂, hplay, hreplay, hcontinue⟩
    have hlast : fireAll [⟨g.continueNode, g.continueNode.trigger .builtin [g.tree]⟩] p₂ =
        (.ok (), q) := bind_run_eq_ok.mpr ⟨(), q, hcontinue, rfl⟩
    exact bind_run_eq_ok.mpr ⟨(), p₁, hplay, bind_run_eq_ok.mpr ⟨(), p₂, hreplay, hlast⟩⟩

/-- While there are steps to be revealed, a round reveals the first of them. -/
theorem tree_leaves (hbag : p.bag.IsPlain) {link : RoundState} {rest : List RoundState}
    {tries : UInt32} (hpending : Reveal.pending p.state = some (link, rest, tries)) :
    Leaves (g.tree.trigger .builtin []) p (Reveal.decided g.tries.toNat
      { p.state.adopt link with chain := rest, replay := ⟨.replay, false, tries + 1⟩ }) := by
  have hplain : (g.tree.entered [] p).bag.IsPlain := hbag.overlay
  have hentered : (g.tree.entered [] p).state = p.state := rfl
  obtain ⟨p₁, hplay, hsource₁, hbag₁, hstate₁⟩ := g.playNode_leaves hplain
    (by rw [hentered, hpending]; rfl)
  rw [hentered] at hstate₁
  obtain ⟨p₂, hreplay, hsource₂, hbag₂, hstate₂⟩ := g.replayNode_leaves_some (hbag₁ ▸ hplain)
    (by rw [hstate₁, hpending])
  obtain ⟨p₃, hcontinue, hsource₃, -, hstate₃⟩ := g.continueNode_leaves (hbag₂ ▸ hbag₁ ▸ hplain)
  have hrun := g.fireAll_nodeTriggers.mpr ⟨p₁, p₂, hplay, hreplay, hcontinue⟩
  refine ⟨_, trigger_plain g.tree [] .activator rfl hbag hrun, ?_, rfl, ?_⟩
  · exact hsource₃.trans (hsource₂.trans hsource₁)
  · rw [hstate₁] at hstate₂
    rw [hstate₃, hstate₂]

/-- Otherwise it computes steps. -/
theorem tree_run_ok (hcalm : g.Calm) (hbag : p.bag.IsPlain)
    (hpending : Reveal.pending p.state = none) {q : Pass σ}
    (h : g.tree.trigger .builtin [] p = (.ok (), q)) :
    ∃ first links, Reveal.Computed g.children (g.stepBag p.bag) g.steps.toNat
        { p.state with replay := .start, chain := [] } p.source (first :: links) q.source ∧
      q.state = Reveal.decided g.tries.toNat (first.setChain links) ∧ first.replay.tries = 0 := by
  rcases hrun : Effect.activator.run g.tree g.nodeTriggers (g.tree.entered [] p) with ⟨r, q'⟩
  rw [trigger_plain g.tree [] .activator rfl hbag hrun] at h
  rcases r with e | ⟨⟩
  · cases h
  cases h
  have hplain : (g.tree.entered [] p).bag.IsPlain := hbag.overlay
  obtain ⟨p₁, p₂, hplay, hreplay, hcontinue⟩ := g.fireAll_nodeTriggers.mp hrun
  obtain ⟨first, links, hcomputed, hstate, hbag₁, hstateful, htries⟩ :=
    g.playNode_run_ok hcalm hplain hpending hplay
  have hpending₁ : Reveal.pending p₁.state = none := by
    rw [hstate, Reveal.pending, RoundState.setChain, hstateful]
    exact hpending
  obtain ⟨p₂', hreplay', hsource₂, hbag₂, hstate₂⟩ :=
    g.replayNode_leaves_none (hbag₁ ▸ hplain) hpending₁
  cases hreplay.symm.trans hreplay'
  obtain ⟨q'', hcontinue', hsource₃, -, hstate₃⟩ := g.continueNode_leaves (hbag₂ ▸ hbag₁ ▸ hplain)
  cases hcontinue.symm.trans hcontinue'
  refine ⟨first, links, ?_, ?_, htries⟩
  · rw [show q'.source = p₁.source from hsource₃.trans hsource₂]
    exact hcomputed
  · rw [← hstate, ← hstate₂]
    exact hstate₃

/-! ### Calls -/

/-- The round after one that left steps to be revealed reveals the first of them and draws
nothing. -/
theorem playWith_reveals (developerMode : Bool) {s link : RoundState} {rest : List RoundState}
    (hchain : s.chain = link :: rest) {bag : Bag} (hbag : bag.IsPlain) (x : σ) :
    playWith .builtin developerMode g.tree s.nextRound bag x =
      (.ok (g.revealed s link rest), x) := by
  have hpending : Reveal.pending s.nextRound = some (link, rest, s.replay.tries) := by
    simp only [Reveal.pending, RoundState.nextRound, RoundState.snapshot, hchain]
  obtain ⟨q, hrun, hsource, -, hstate⟩ := g.tree_leaves
    (p := .start x s.nextRound (prepare developerMode bag)) (hbag.prepare developerMode) hpending
  simp only [playWith, playPrepared, trigger, hrun, hsource, hstate]
  rfl

/-- A round with no steps to be revealed computes a sequence. -/
theorem playWith_computes (hcalm : g.Calm) (developerMode : Bool) {s final : RoundState}
    (hstate : ∀ previous, s.stateful = some previous → previous.chain = []) {bag : Bag}
    (hbag : bag.IsPlain) {x x' : σ}
    (hplay : playWith .builtin developerMode g.tree s bag x = (.ok final, x')) :
    ∃ first links, Reveal.Computed g.children (g.stepBag (prepare developerMode bag)) g.steps.toNat
        { s with replay := .start, chain := [] } x (first :: links) x' ∧
      final = Reveal.decided g.tries.toNat (first.setChain links) ∧ first.replay.tries = 0 := by
  have hpending : Reveal.pending s = none := by
    rcases hstateful : s.stateful with _ | previous
    · simp only [Reveal.pending, hstateful]
    · simp only [Reveal.pending, hstateful, hstate previous hstateful]
  rcases hrun : g.tree.trigger .builtin [] (.start x s (prepare developerMode bag)) with ⟨r, q⟩
  simp only [playWith, playPrepared, trigger, hrun] at hplay
  rcases r with e | ⟨⟩ <;> cases hplay
  exact g.tree_run_ok hcalm (hbag.prepare developerMode) hpending hrun

/-- The states after the first call and the calls that reveal. -/
def calls (first : RoundState) : Nat → RoundState
  | 0 => first
  | i + 1 =>
    match (calls first i).chain with
    | [] => calls first i
    | link :: rest => g.revealed (calls first i) link rest

end SequenceGame

namespace Reveal

/-- Where a sequence stands when so many of its links were revealed: it goes on until all of them
or as many as the ceiling allows were revealed. -/
structure Standing (ceiling : Nat) (links : List RoundState) (i : Nat) (s : RoundState) : Prop where
  tries : s.replay.tries = UInt32.ofNat i
  goesOn : i < min links.length ceiling →
    s.replay.continueFlag = true ∧ s.chain = (links.drop i).map RoundState.asLink
  ended : i = min links.length ceiling → i < UInt32.size →
    s.replay.continueFlag = false ∧ s.chain = []

theorem decided_tries (ceiling : Nat) (s : RoundState) :
    (decided ceiling s).replay.tries = s.replay.tries := by
  unfold decided
  split <;> rfl

theorem decided_outcome (ceiling : Nat) (s : RoundState) :
    (decided ceiling s).outcome = s.outcome := by
  unfold decided
  split <;> rfl

/-- The decision brings a sequence to its standing. -/
theorem standing_decided {ceiling i : Nat} {links : List RoundState} {s : RoundState}
    (htries : s.replay.tries = UInt32.ofNat i)
    (hchain : s.chain = (links.drop i).map RoundState.asLink) :
    Standing ceiling links i (decided ceiling s) := by
  have hmod : s.replay.tries.toNat = i % UInt32.size := by
    rw [htries]
    exact UInt32.toNat_ofNat'
  refine ⟨by rw [decided_tries, htries], fun hlt => ?_, fun heq hsize => ?_⟩
  · have hchain' : s.chain.isEmpty = false := by
      rw [hchain, List.isEmpty_map, List.drop_eq_getElem_cons (by omega)]
      rfl
    have htries' : s.replay.tries.toNat < ceiling := by
      have := Nat.mod_le i UInt32.size
      omega
    rw [decided, if_pos (by simp [hchain', htries'])]
    exact ⟨rfl, hchain⟩
  · have hstop : ¬(!s.chain.isEmpty && decide (s.replay.tries.toNat < ceiling)) = true := by
      by_cases hlength : links.length ≤ i
      · rw [hchain, List.drop_eq_nil_of_le hlength]
        exact Bool.false_ne_true
      · rw [hmod, Nat.mod_eq_of_lt hsize]
        have hceiling : ¬i < ceiling := by omega
        simp [hceiling]
    rw [decided, if_neg hstop]
    exact ⟨rfl, rfl⟩

end Reveal

namespace SequenceGame

variable (g : SequenceGame)

/-- A call that reveals brings a sequence one link further. -/
theorem calls_succ {links : List RoundState} {first : RoundState} {i : Nat}
    (hi : i < min links.length g.tries.toNat)
    (h : Reveal.Standing g.tries.toNat links i (g.calls first i)) :
    ∃ link rest, (g.calls first i).chain = link :: rest ∧
      g.calls first (i + 1) = g.revealed (g.calls first i) link rest ∧
      (∃ step, links[i]? = some step ∧ (g.calls first (i + 1)).outcome = step.outcome) ∧
      Reveal.Standing g.tries.toNat links (i + 1) (g.calls first (i + 1)) := by
  have hlt : i < links.length := by omega
  obtain ⟨-, hchain⟩ := h.goesOn hi
  rw [List.drop_eq_getElem_cons hlt, List.map_cons] at hchain
  have hnext : g.calls first (i + 1) = g.revealed (g.calls first i) links[i].asLink
      ((links.drop (i + 1)).map RoundState.asLink) := by
    rw [calls, hchain]
  refine ⟨_, _, hchain, hnext, ⟨links[i], List.getElem?_eq_getElem hlt, ?_⟩, ?_⟩
  · rw [hnext, revealed, Reveal.decided_outcome]
    rfl
  · rw [hnext, revealed]
    refine Reveal.standing_decided ?_ rfl
    change (g.calls first i).replay.tries + 1 = _
    rw [h.tries, ← UInt32.ofNat_one, ← UInt32.ofNat_add]

/-- Every call up to the last one that reveals finds the sequence where it should be. -/
theorem standing_calls {links : List RoundState} {first : RoundState}
    (h : Reveal.Standing g.tries.toNat links 0 first) {i : Nat}
    (hi : i ≤ min links.length g.tries.toNat) :
    Reveal.Standing g.tries.toNat links i (g.calls first i) := by
  induction i with
  | zero => exact h
  | succ i ih =>
    obtain ⟨_, _, -, -, -, hstanding⟩ := g.calls_succ (by omega) (ih (by omega))
    exact hstanding

variable {σ : Type} [RandomSource σ]

/-- The life of a sequence. A call that succeeds with nothing to be revealed has computed a sequence
of steps, as many as it should unless one of them aborts. Let `last` be the number of steps after
the first one, or the ceiling if that is less. Each of the next `last` calls, whatever its source,
succeeds without a draw and shows the outcome of the next step; until the last of them the sequence
goes on with the links that are left, and then there are none. The call after that computes a
sequence again.

Tries are counted with 32 bits. A ceiling that does not fit them is never reached. -/
theorem calls_reveal_steps (hcalm : g.Calm) (developerMode : Bool) (state : RoundState)
    (hstate : ∀ previous, state.stateful = some previous → previous.chain = []) (bag : Bag)
    (hbag : bag.IsPlain) (source after : σ) (first : RoundState)
    (hfirst : playWith .builtin developerMode g.tree state bag source = (.ok first, after)) :
    ∃ steps, Reveal.Computed g.children (g.stepBag (prepare developerMode bag)) g.steps.toNat
        { state with replay := .start, chain := [] } source steps after ∧
      (steps.length = max 1 g.steps.toNat ∨ ∃ step ∈ steps.getLast?, step.aborted = true) ∧
      ∃ call : Nat → RoundState, call 0 = first ∧
        let last := min (steps.length - 1) g.tries.toNat
        (∀ i, i < last →
          (∀ {τ : Type} [RandomSource τ] (x : τ) (bag : Bag), bag.IsPlain →
            playWith .builtin developerMode g.tree (call i).nextRound bag x =
              (.ok (call (i + 1)), x)) ∧
          ∃ step, steps[i + 1]? = some step ∧ (call (i + 1)).outcome = step.outcome) ∧
        (∀ i, i ≤ last →
          (call i).replay.tries = UInt32.ofNat i ∧
          (i < last → (call i).replay.continueFlag = true ∧
            (call i).chain.length = steps.length - 1 - i) ∧
          (i = last → last < UInt32.size →
            (call i).replay.continueFlag = false ∧ (call i).chain = [])) ∧
        (last < UInt32.size →
          ∀ {τ : Type} [RandomSource τ] (x x' : τ) (bag : Bag) (next : RoundState), bag.IsPlain →
          playWith .builtin developerMode g.tree (call last).nextRound bag x = (.ok next, x') →
          next.replay.tries = 0 ∧ ∃ steps',
            Reveal.Computed g.children (g.stepBag (prepare developerMode bag)) g.steps.toNat
              { (call last).nextRound with replay := .start, chain := [] } x steps' x') := by
  obtain ⟨s₀, links, hcomputed, hfinal, htries⟩ :=
    g.playWith_computes hcalm developerMode hstate hbag hfirst
  have hstart : Reveal.Standing g.tries.toNat links 0 first := by
    rw [hfinal]
    exact Reveal.standing_decided htries rfl
  refine ⟨s₀ :: links, hcomputed, hcomputed.length_eq_or_aborted, g.calls first, rfl, ?_⟩
  simp only [List.length_cons, Nat.add_sub_cancel]
  refine ⟨fun i hi => ?_, fun i hi => ?_, fun hsize τ _ x x' bag next hbag hnext => ?_⟩
  · obtain ⟨link, rest, hchain, hcall, houtcome, -⟩ :=
      g.calls_succ hi (g.standing_calls hstart (Nat.le_of_lt hi))
    refine ⟨fun x bag hbag => ?_, houtcome⟩
    rw [hcall]
    exact g.playWith_reveals developerMode hchain hbag x
  · have hstanding := g.standing_calls hstart hi
    refine ⟨hstanding.tries, fun hlt => ?_, fun heq hsize => hstanding.ended heq (heq ▸ hsize)⟩
    obtain ⟨hflag, hrest⟩ := hstanding.goesOn hlt
    exact ⟨hflag, by rw [hrest, List.length_map, List.length_drop]⟩
  · obtain ⟨-, hchain⟩ := (g.standing_calls hstart (Nat.le_refl _)).ended rfl hsize
    have hlinked : ∀ previous, (g.calls first (min links.length g.tries.toNat)).nextRound.stateful =
        some previous → previous.chain = [] := by
      rintro previous ⟨⟩
      exact hchain
    obtain ⟨s₁, links', hcomputed', rfl, htries'⟩ :=
      g.playWith_computes hcalm developerMode hlinked hbag hnext
    exact ⟨(Reveal.decided_tries _ _).trans htries', _, hcomputed'⟩

/-- Spins two short reels three times and shows the spins in as many calls. -/
def threeSpins : SequenceGame where
  rootId := 1
  playId := 2
  replayId := 3
  continueId := 4
  steps := 3
  tries := 5
  features := [⟨5, "ReelStops", (Bag.empty.insert "Reels"
    (.arr [.ofNats [1, 2, 3], .ofNats [4, 5]])).insert "Rows" (.ofNat 1), []⟩]

/-- Three spins take six draws, and the two calls that reveal the second and the third take none. -/
theorem calls_reveal_steps_threeSpins : ∃ first second third, ∃ steps : List RoundState,
    playWith .builtin false threeSpins.tree (.fresh 2 1) .empty
      (Script.ofDraws [2, 1, 0, 1, 1, 0]) = (.ok first, ⟨6, []⟩) ∧
    playWith .builtin false threeSpins.tree first.nextRound .empty (Script.ofDraws []) =
      (.ok second, Script.ofDraws []) ∧
    playWith .builtin false threeSpins.tree second.nextRound .empty (Script.ofDraws []) =
      (.ok third, Script.ofDraws []) ∧
    steps.map RoundState.outcome = [steps[0]!.outcome, second.outcome, third.outcome] ∧
    third.replay.tries = 2 ∧ third.chain = [] := by
  have hcalm : threeSpins.Calm := by
    intro c hc n hn
    obtain rfl := List.mem_singleton.mp hc
    obtain rfl := List.mem_singleton.mp hn
    decide
  have hlength : (playWith .builtin false threeSpins.tree (.fresh 2 1) .empty
      (Script.ofDraws [2, 1, 0, 1, 1, 0])).1.toOption.map (·.chain.length) = some 2 := by
    decide +kernel
  have hleft : (playWith .builtin false threeSpins.tree (.fresh 2 1) .empty
      (Script.ofDraws [2, 1, 0, 1, 1, 0])).2 = ⟨6, []⟩ := by decide +kernel
  rcases hfirst : playWith .builtin false threeSpins.tree (.fresh 2 1) .empty
      (Script.ofDraws [2, 1, 0, 1, 1, 0]) with ⟨e | first, after⟩ <;> rw [hfirst] at hlength hleft
  · cases hlength
  obtain rfl : after = ⟨6, []⟩ := hleft
  obtain ⟨steps, -, -, call, rfl, hreveals, hstanding, -⟩ := threeSpins.calls_reveal_steps hcalm
    false (.fresh 2 1) (fun _ h => nomatch h) .empty ⟨rfl, rfl, rfl⟩ _ _ first hfirst
  have htries : threeSpins.tries.toNat = 5 := rfl
  have hchain : (call 0).chain.length = 2 := Option.some.inj hlength
  have hsize : UInt32.size = 4294967296 := rfl
  rw [htries] at hreveals hstanding
  have hsteps : steps.length = 3 := by
    obtain ⟨-, hgoesOn, hended⟩ := hstanding 0 (Nat.zero_le _)
    by_cases hlast : 0 < min (steps.length - 1) 5
    · have := (hgoesOn hlast).2
      omega
    · have hnil := (hended (by omega) (by omega)).2
      rw [hnil] at hchain
      cases hchain
  obtain ⟨hplay₁, s₁, hs₁, houtcome₁⟩ := hreveals 0 (by omega)
  obtain ⟨hplay₂, s₂, hs₂, houtcome₂⟩ := hreveals 1 (by omega)
  obtain ⟨htries₂, -, hended₂⟩ := hstanding 2 (by omega)
  refine ⟨call 0, call 1, call 2, steps, rfl, hplay₁ _ .empty ⟨rfl, rfl, rfl⟩,
    hplay₂ _ .empty ⟨rfl, rfl, rfl⟩, ?_, htries₂, (hended₂ (by omega) (by omega)).2⟩
  obtain ⟨t₀, t₁, t₂, rfl⟩ := List.length_eq_three.mp hsteps
  cases hs₁
  cases hs₂
  rw [houtcome₁, houtcome₂]
  rfl

end SequenceGame

end SlotOutcome
