import Mathlib.Data.List.Flatten
import SlotOutcome.Proofs.Bookings
import SlotOutcome.Proofs.StakeOfSteps

/-!
# What a pass writes for a channel

Features write the memory of a channel on the state that they work on. Some work on the state of the
round or step itself, and some on the steps that are computed ahead. Which is which is told by the
executions of a pass: a feature that computes steps calls each of its children once on the state
that it was triggered on, and then once more for each step after it.

The ledger follows from the visits on the state, in their order. One that writes the channel adds an
entry. One that takes over a step brings the ledger of that step in place of the one before it.

```text
  visit     writes a      other      takes over a step that holds b     writes c
  entries   a             a          b                                  b c
```

## Main definitions

* `Execution.here`, `Execution.visitsHere`: the executions on the state that an execution began on,
  and their visits.
* `Channel.entriesAfter`: the entries of a channel after a visit on the state.
* `Channel.Spares`: steps that hold nothing of a channel.
* `Writes`: what a part of a pass does about a channel.

## Main results

* `foldl_entriesAfter`: without a step that is taken over, all that is written is there in the end.
* `foldl_entriesAfter_of_reveals`: what was written before a step that is taken over is gone.
* `Definition.watch_writes`: a tree writes what its visits on the state write.
-/

namespace SlotOutcome

open Execution (visitsOf visitsOf_append visitsOf_singleton)
open Reveal (pending)

/-! ### Executions on one state -/

/-- Of the executions that a node called for, those on the state that it was triggered on. A feature
that computes steps calls each of its children once for the first of them, which is that state. -/
def Definition.callsHere (d : Definition) (calls : List Execution) : List Execution :=
  if d.tag = "Play" then calls.take d.features.length else calls

namespace Execution

mutual

/-- An execution and those below it that work on the same state. -/
def here : Execution → List Execution
  | x@⟨node, _, _, calls, _, _⟩ =>
    x :: hereOf (if node.tag = "Play" then node.features.length else calls.length) calls

/-- Those of the first executions of a list, and below them, that work on one state. -/
def hereOf : Nat → List Execution → List Execution
  | 0, _ => []
  | _ + 1, [] => []
  | count + 1, x :: rest => here x ++ hereOf count rest

end

theorem hereOf_eq_flatMap :
    (count : Nat) → (xs : List Execution) → hereOf count xs = (xs.take count).flatMap here
  | 0, _ => by rw [hereOf, List.take_zero, List.flatMap_nil]
  | _ + 1, [] => by rw [hereOf, List.take_nil, List.flatMap_nil]
  | count + 1, x :: rest => by
    rw [hereOf, hereOf_eq_flatMap count rest, List.take_succ_cons, List.flatMap_cons]

theorem here_eq (x : Execution) : x.here = x :: (x.node.callsHere x.calls).flatMap here := by
  obtain ⟨node, visit, before, calls, error, after⟩ := x
  rw [here, hereOf_eq_flatMap, Definition.callsHere]
  split
  · rfl
  · rw [List.take_length]

/-- The visits on the state that some executions began on, the earliest first. -/
def visitsHere (calls : List Execution) : List Visit := (calls.flatMap here).filterMap visit

theorem visitsHere_append (calls calls' : List Execution) :
    visitsHere (calls ++ calls') = visitsHere calls ++ visitsHere calls' := by
  rw [visitsHere, List.flatMap_append, List.filterMap_append]
  rfl

theorem visitsHere_singleton (x : Execution) :
    visitsHere [x] = x.visit.toList ++ visitsHere (x.node.callsHere x.calls) := by
  rw [visitsHere, List.flatMap_singleton, here_eq, List.filterMap_cons]
  rcases x.visit with _ | v <;> rfl

theorem callsHere_sublist (d : Definition) (calls : List Execution) :
    (d.callsHere calls).Sublist calls := by
  unfold Definition.callsHere
  split
  · exact List.take_sublist ..
  · exact List.Sublist.refl _

theorem here_sublist (x : Execution) : x.here.Sublist x.all := by
  induction x using Execution.induction with
  | execution x ih =>
    rw [here_eq, all_eq]
    refine List.Sublist.cons_cons x ?_
    exact ((callsHere_sublist x.node x.calls).flatMap here).trans (List.Sublist.flatMap_right _ ih)

/-- The visits on the state are some of all visits. -/
theorem visitsHere_sublist (calls : List Execution) :
    (visitsHere calls).Sublist (visitsOf calls) := by
  induction calls with
  | nil => exact List.Sublist.refl _
  | cons x rest ih =>
    rw [← List.singleton_append, visitsHere_append, visitsOf_append]
    refine List.Sublist.append ?_ ih
    rw [visitsHere, visitsOf, List.flatMap_singleton, List.flatMap_singleton]
    exact (here_sublist x).filterMap visit

end Execution

open Execution (visitsHere visitsHere_append visitsHere_singleton visitsHere_sublist)

/-! ### Visits that write a channel -/

/-- Whether a visit is there to write a channel. -/
def Visit.writes (c : Channel) (v : Visit) : Bool := v.node.tag == c.tag

/-- What a visit that writes a channel on a state adds to the ledger. -/
def Visit.written (c : Channel) (s : RoundState) (v : Visit) : List Entry :=
  v.node.entriesOf (c.plan s v.bag)

/-- The memory that is written is the one that a feature would have read, unless it is empty. -/
theorem statelessMap_plan (s : RoundState) (bag : Bag) : Remember.statelessMap s bag = (do
    let current ← statelessMap s bag
    return if current.isEmpty then none else some ⟨s.outcome, .obj current⟩) := by
  unfold Remember.statelessMap
  rcases statelessMap s bag with e | current
  · rfl
  · change (if current.isEmpty then pure none else pure _) = pure (ite _ _ _)
    split <;> rfl

/-- What is written depends on what stands around the outcome only. -/
theorem written_congr {s s' : RoundState} (h : s'.setting = s.setting) (c : Channel) (v : Visit) :
    v.written c s' = v.written c s := by
  have hlink := RoundState.stateful_of_setting h
  have hstep := RoundState.stateless_of_setting h
  have hkey : s'.stakeKey = s.stakeKey := by
    rw [RoundState.stakeKey, RoundState.stakeKey, RoundState.stake_of_setting h]
  have hnamespaces : statefulNamespaces s' = statefulNamespaces s := by
    rw [statefulNamespaces, statefulNamespaces, hlink]
  cases c with
  | stateful =>
    have hat : atStake s' = atStake s := by
      funext namespaces
      rw [atStake, atStake, hkey]
    have hmap : statefulMap s' v.bag = statefulMap s v.bag := by
      rw [statefulMap, statefulMap, hnamespaces, hat]
    rw [Visit.written, Visit.written, Channel.plan, rememberMap_eq, rememberMap_eq, hnamespaces,
      hmap]
    rcases statefulNamespaces s with e | namespaces
    · rfl
    rcases statefulMap s v.bag with e | current
    · rfl
    change v.node.entriesOf (.ok (storing s' namespaces current)) =
      v.node.entriesOf (.ok (storing s namespaces current))
    unfold storing
    rw [hkey]
    split <;> rfl
  | stateless =>
    have hmap : statelessMap s' v.bag = statelessMap s v.bag := by
      rw [statelessMap, statelessMap, hstep]
    rw [Visit.written, Visit.written, Channel.plan, statelessMap_plan, statelessMap_plan, hmap]
    rcases statelessMap s v.bag with e | current
    · rfl
    · change v.node.entriesOf (.ok (ite _ _ _)) = v.node.entriesOf (.ok (ite _ _ _))
      split <;> rfl

/-- The entries of a channel after a visit on a state: those of the step that it takes over, or
those before it and what it writes. -/
def Channel.entriesAfter (c : Channel) (s : RoundState) (entries : List Entry) (v : Visit) :
    List Entry :=
  if v.node.tag = "Replay" then
    ((Reveal.pending s).map fun found => found.1.featuresOf c.tag).getD entries
  else if v.writes c then entries ++ v.written c s
  else entries

namespace Channel

variable {c : Channel} {s : RoundState} {v : Visit} {entries : List Entry}

theorem tag_ne_replay (c : Channel) : c.tag ≠ "Replay" := by
  cases c <;> decide

theorem entriesAfter_of_other (hreplay : v.node.tag ≠ "Replay") (hwrites : v.node.tag ≠ c.tag) :
    c.entriesAfter s entries v = entries := by
  rw [entriesAfter, if_neg hreplay, if_neg (by simpa [Visit.writes] using hwrites)]

theorem entriesAfter_of_writes (hwrites : v.node.tag = c.tag) :
    c.entriesAfter s entries v = entries ++ v.written c s := by
  have hfor : v.writes c = true := beq_iff_eq.mpr hwrites
  rw [entriesAfter, if_neg (hwrites ▸ c.tag_ne_replay), if_pos hfor]

theorem entriesAfter_of_replay (hreplay : v.node.tag = "Replay") :
    c.entriesAfter s entries v =
      ((Reveal.pending s).map fun found => found.1.featuresOf c.tag).getD entries := if_pos hreplay

theorem entriesAfter_congr {s' : RoundState} (h : s'.setting = s.setting) (c : Channel) :
    c.entriesAfter s' = c.entriesAfter s := by
  funext entries v
  rw [entriesAfter, entriesAfter, RoundState.pending_of_setting h, written_congr h]

/-- A visit that takes over no step adds what it writes. -/
theorem entriesAfter_of_not_reveals (h : ¬v.node.Reveals s.stateful) :
    c.entriesAfter s entries v = entries ++ if v.writes c then v.written c s else [] := by
  by_cases hreplay : v.node.tag = "Replay"
  · have hwrites : ¬v.writes c = true := by
      rw [Visit.writes, hreplay, beq_iff_eq]
      exact c.tag_ne_replay.symm
    rw [entriesAfter_of_replay hreplay, Reveal.pending_of_not_reveals hreplay h, if_neg hwrites,
      List.append_nil]
    rfl
  · rw [entriesAfter, if_neg hreplay]
    split
    · rfl
    · exact (List.append_nil _).symm

end Channel

/-- If no step is taken over, all that was written is there in the end. -/
theorem foldl_entriesAfter {c : Channel} {s : RoundState} {visits : List Visit}
    (h : ∀ v ∈ visits, ¬v.node.Reveals s.stateful) (entries : List Entry) :
    visits.foldl (c.entriesAfter s) entries =
      entries ++ (visits.filter (Visit.writes c)).flatMap (Visit.written c s) := by
  induction visits generalizing entries with
  | nil => exact (List.append_nil _).symm
  | cons v rest ih =>
    obtain ⟨hv, hrest⟩ := List.forall_mem_cons.mp h
    rw [List.foldl_cons, ih hrest, Channel.entriesAfter_of_not_reveals hv, List.append_assoc,
      List.filter_cons]
    split <;> simp

/-- Steps that hold nothing of a channel. -/
def Channel.Spares (c : Channel) (steps : List RoundState) : Prop :=
  ∀ step ∈ steps, step.featuresOf c.tag = []

/-- If nothing is written and no step that waits to be revealed holds anything, then nothing is
there in the end. -/
theorem foldl_entriesAfter_eq_nil {c : Channel} {s : RoundState} {visits : List Visit}
    (hspares : ∀ round ∈ s.stateful, c.Spares round.chain)
    (hnone : visits.countP (Visit.writes c) = 0) : visits.foldl (c.entriesAfter s) [] = [] := by
  have hlink : ∀ found ∈ pending s, found.1.featuresOf c.tag = [] := by
    rintro ⟨link, rest, tries⟩ hfound
    obtain ⟨round, hround, hchain⟩ := Reveal.exists_of_pending hfound
    exact hspares round hround link (by rw [hchain]; exact List.mem_cons_self)
  induction visits with
  | nil => rfl
  | cons v rest ih =>
    rw [List.countP_cons, Nat.add_eq_zero_iff] at hnone
    have hafter : c.entriesAfter s [] v = [] := by
      by_cases hreplay : v.node.tag = "Replay"
      · rw [Channel.entriesAfter_of_replay hreplay]
        rcases hpending : pending s with _ | found
        · rfl
        · exact hlink found hpending
      · refine Channel.entriesAfter_of_other hreplay fun hwrites => ?_
        simp [Visit.writes, hwrites] at hnone
    rw [List.foldl_cons, hafter]
    exact ih hnone.1

/-- If nothing is written, but a step is taken over that holds nothing, then nothing is there in the
end. -/
theorem foldl_entriesAfter_of_reveals {c : Channel} {s : RoundState} {visits : List Visit}
    (hspares : ∀ round ∈ s.stateful, c.Spares round.chain)
    (hnone : visits.countP (Visit.writes c) = 0)
    (h : ∃ v ∈ visits, v.node.Reveals s.stateful) (entries : List Entry) :
    visits.foldl (c.entriesAfter s) entries = [] := by
  obtain ⟨v, hv, hreplay, round, hround, hchain⟩ := h
  obtain ⟨earlier, later, rfl⟩ := List.append_of_mem hv
  obtain ⟨link, rest, hlinks⟩ := List.exists_cons_of_ne_nil hchain
  have hafter (before : List Entry) : c.entriesAfter s before v = [] := by
    have hstateful : s.stateful = some round := hround
    have hpending : pending s = some (link, rest, round.replay.tries) := by
      simp only [pending, hstateful, hlinks]
    rw [Channel.entriesAfter_of_replay hreplay, hpending]
    exact hspares round hround link (by rw [hlinks]; exact List.mem_cons_self)
  rw [List.countP_append, List.countP_cons] at hnone
  rw [List.foldl_append, List.foldl_cons, hafter]
  exact foldl_entriesAfter_eq_nil hspares (by omega)

/-! ### What parts of passes write -/

/-- What a part of a pass does about a channel, if it called for some executions, and for some of
them on the state itself. -/
structure Writes (c : Channel) (s s' : RoundState) (calls here : List Execution) : Prop where
  setting : s'.setting = s.setting
  /-- The ledger follows from the visits on the state. -/
  entries : s'.featuresOf c.tag = (visitsHere here).foldl (c.entriesAfter s) (s.featuresOf c.tag)
  /-- If nothing is written on the steps that are computed, those that wait to be revealed hold
  nothing of the channel, unless some did before. -/
  spares : (∀ round ∈ s.stateful, c.Spares round.chain) → c.Spares s.chain →
    (visitsOf calls).countP (Visit.writes c) ≤ (visitsHere here).countP (Visit.writes c) →
      c.Spares s'.chain

namespace Writes

variable {c : Channel} {s s' s₁ s₂ s₃ : RoundState} {calls calls' : List Execution}

/-- A part that calls for nothing and leaves the entries of the channel. -/
theorem of_nothing (hsetting : s'.setting = s.setting)
    (hentries : s'.featuresOf c.tag = s.featuresOf c.tag)
    (hchain : (∀ round ∈ s.stateful, c.Spares round.chain) → c.Spares s.chain →
      c.Spares s'.chain) : Writes c s s' [] [] where
  setting := hsetting
  entries := hentries
  spares hround hspares _ := hchain hround hspares

theorem refl (c : Channel) (s : RoundState) : Writes c s s [] [] :=
  .of_nothing rfl rfl fun _ h => h

theorem trans (h : Writes c s₁ s₂ calls calls) (h' : Writes c s₂ s₃ calls' calls') :
    Writes c s₁ s₃ (calls ++ calls') (calls ++ calls') where
  setting := h'.setting.trans h.setting
  entries := by
    rw [h'.entries, h.entries, visitsHere_append, List.foldl_append,
      Channel.entriesAfter_congr h.setting]
  spares hround hspares hcount := by
    have hfirst := (visitsHere_sublist calls).countP_le (p := Visit.writes c)
    have hsecond := (visitsHere_sublist calls').countP_le (p := Visit.writes c)
    rw [visitsOf_append, visitsHere_append, List.countP_append, List.countP_append] at hcount
    refine h'.spares ?_ (h.spares hround hspares (by omega)) (by omega)
    rwa [RoundState.stateful_of_setting h.setting]

end Writes

variable {σ : Type}

/-- Writing a channel, as a statement that sequencing keeps. -/
def writing (σ : Type) (c : Channel) : Trail σ where
  Rel p _ q calls := Writes c p.state q.state calls calls
  done p := .refl c p.state
  failed p _ _ := .refl c p.state
  trans h h' := h.trans h'

section Parts

variable {c : Channel} {d : Definition} {m : PassM (Watched σ) Unit}

theorem writing_withBag (bag : Bag) (h : (writing σ c).Keeps m) :
    (writing σ c).Keeps (withBag bag m) := by
  intro p r q hrun
  cases hrun
  obtain ⟨calls, hcalls, hwrites⟩ := h { p with bag := bag } _ _ rfl
  exact ⟨calls, hcalls, hwrites⟩

variable [RandomSource σ] {e : Effect}

/-- The chain after an atom that does not compute steps and takes over none is that before, or
empty. -/
theorem Atom.chain_eq_or_nil {τ : Type} [RandomSource τ] {α : Type}
    {act : RoundState → Bag → PlanM σ (α × RoundState × Bag)}
    {act' : RoundState → Bag → PlanM τ (α × RoundState × Bag)} (hatom : Atom d e act act')
    (hplay : e ≠ .play) (hreplay : e ≠ .replay) {s s' : RoundState} {bag bag' : Bag} {a : α}
    {x x' : σ} (hrun : act s bag x = (.ok (a, s', bag'), x')) :
    s'.chain = s.chain ∨ s'.chain = [] := by
  by_cases hsequel : e.isSequel
  · cases hatom with
    | leaf h _ =>
      rw [Effect.isSequel_of_leaf? h] at hsequel
      cases hsequel
    | decides =>
      obtain ⟨ceiling, y, -, hrun⟩ := bind_run_eq_ok.mp hrun
      split at hrun <;> cases hrun
      · exact .inl rfl
      · exact .inr rfl
    | ended =>
      cases hrun
      exact .inr rfl
    | begun | chained _ => exact absurd rfl hplay
    | reveals => exact absurd rfl hreplay
    | chance _ | pick _ _ | choice _ | counts | chooses | counting | seeking => cases hsequel
  · obtain ⟨change, -, hchange⟩ := hatom.exists_change (eq_false_of_ne_true hsequel) s bag
      _ ⟨x, x', hrun⟩
    obtain rfl : s' = s.perform d change := hchange
    rcases change with _ | change <;> exact .inl rfl

/-- The atoms of other features write nothing, unless they compute steps or take one over. -/
theorem writing_atomic (hd : d.tag ≠ c.tag) (hplay : e ≠ .play) (hreplay : e ≠ .replay) {α : Type}
    {act : RoundState → Bag → PlanM σ (α × RoundState × Bag)}
    {act' : RoundState → Bag → PlanM (Watched σ) (α × RoundState × Bag)}
    (hatom : Atom d e act act') : (writing σ c).Keeps (atomic act') := by
  intro p r q hrun
  have hcalls := hatom.calls_eq p.state p.bag p.source
  rw [atomic] at hrun
  rcases hact : act' p.state p.bag p.source with ⟨error | ⟨a, s, bag⟩, w⟩ <;>
    rw [hact] at hrun hcalls <;> cases hrun <;>
    refine ⟨[], hcalls.trans (List.append_nil _).symm, ?_⟩
  · exact .refl c p.state
  · refine .of_nothing (hatom.symm.setting_eq hact)
      (hatom.symm.other_entries hreplay hd hact).2.2 fun _ hspares => ?_
    rcases hatom.symm.chain_eq_or_nil hplay hreplay hact with hchain | hchain
    · rwa [show s.chain = _ from hchain]
    · rw [show s.chain = _ from hchain]
      exact fun _ hstep => (List.not_mem_nil hstep).elim

end Parts

/-! ### Nodes -/

/-- What a visit on a state does about a channel before the node calls for others. -/
structure Begins (c : Channel) (s : RoundState) (v : Visit) (s' : RoundState) : Prop where
  setting : s'.setting = s.setting
  entries : s'.featuresOf c.tag = c.entriesAfter s (s.featuresOf c.tag) v
  spares : (∀ round ∈ s.stateful, c.Spares round.chain) → c.Spares s.chain → c.Spares s'.chain

theorem Begins.of_other {c : Channel} {s : RoundState} {v : Visit}
    (hreplay : v.node.tag ≠ "Replay") (hwrites : v.node.tag ≠ c.tag) : Begins c s v s where
  setting := rfl
  entries := (Channel.entriesAfter_of_other hreplay hwrites).symm
  spares _ h := h

/-- A node at work writes what its own visit and those that it calls for on its state write. -/
theorem writing_recorded {c : Channel} {d : Definition} {above : List Definition}
    {work : Effect → PassM (Watched σ) Unit}
    (hwork : ∀ e, Registry.builtin.create d.tag = .ok e → ∀ p r q, work e p = (r, q) →
      ∃ s calls, q.source.calls = p.source.calls ++ calls ∧
        Begins c p.state ⟨above, d, p.bag⟩ s ∧ Writes c s q.state calls (d.callsHere calls)) :
    (writing σ c).Keeps (d.recorded .builtin above (d.enter .builtin above work)) := by
  intro p r q hrun
  obtain ⟨q', x, hx, rfl⟩ := Definition.recorded_enter hrun
  refine ⟨[x], rfl, ?_⟩
  cases hx with
  | refused =>
    have hnone (node : Definition) (before after : RoundState) (error : Option FeatureError) :
        visitsHere [⟨node, none, before, [], error, after⟩] = [] := by
      rw [visitsHere_singleton]
      simp [Definition.callsHere, Execution.visitsHere]
    refine ⟨rfl, ?_, fun _ hspares _ => hspares⟩
    rw [hnone]
    rfl
  | @worked e r q' bag hcreate hfeature =>
    obtain ⟨s, calls, hcalls, hbegins, hwrites⟩ := hwork e hcreate _ _ _ hfeature
    obtain rfl : q'.source.calls = calls := hcalls
    refine ⟨hwrites.setting.trans hbegins.setting, ?_, fun hround hspares hcount => ?_⟩
    · rw [visitsHere_singleton]
      refine hwrites.entries.trans ?_
      rw [hbegins.entries, Channel.entriesAfter_congr hbegins.setting]
      rfl
    · refine hwrites.spares ?_ (hbegins.spares hround hspares) ?_
      · rwa [RoundState.stateful_of_setting hbegins.setting]
      · rw [visitsHere_singleton, visitsOf_singleton, List.countP_append, List.countP_append]
          at hcount
        exact Nat.le_of_add_le_add_left hcount

variable [RandomSource σ]

/-- A feature that writes the channel adds its own entry. -/
theorem writer_begins (above : List Definition) {c : Channel} {d : Definition}
    {children : List (Child (Watched σ))} {p q : Pass (Watched σ)} {r : Except FeatureError Unit}
    (hd : d.tag = c.tag) (hrun : c.writer.run d children p = (r, q)) :
    q.source = p.source ∧ Begins c p.state ⟨above, d, p.bag⟩ q.state := by
  have hafter : c.entriesAfter p.state (p.state.featuresOf c.tag) ⟨above, d, p.bag⟩ = _ :=
    Channel.entriesAfter_of_writes hd
  rw [Channel.writer_run] at hrun
  rcases hplan : c.plan p.state p.bag with error | change <;> rw [hplan] at hrun <;> cases hrun
  · refine ⟨rfl, rfl, ?_, fun _ h => h⟩
    rw [hafter, Visit.written, hplan]
    exact (List.append_nil _).symm
  · refine ⟨rfl, p.state.setting_perform d change, ?_, fun _ h => ?_⟩
    · rw [hafter, Visit.written, hplan, featuresOf_perform (Channel.keepsLedger_plan hplan),
        if_pos (beq_iff_eq.mpr hd)]
    · rcases change with _ | change <;> exact h

/-! ### Steps -/

section Steps

omit [RandomSource σ]

/-- A part of a pass adds one execution to the record. -/
def AddsOne (m : PassM (Watched σ) Unit) : Prop :=
  ∀ p r q, m p = (r, q) → ∃ x, q.source.calls = p.source.calls ++ [x]

theorem addsOne_recorded {registry : Registry} {above : List Definition} (d : Definition)
    (m : PassM (Watched σ) Unit) : AddsOne (d.recorded registry above m) := by
  intro p r q hrun
  cases hrun
  exact ⟨_, rfl⟩

variable {c : Channel} {d : Definition} {children : List (Child (Watched σ))}
  {p q : Pass (Watched σ)}

/-- Children that are called one after another add one execution each, until one fails. -/
theorem fireAll_adds (hone : ∀ c ∈ children, AddsOne c.trigger) {r : Except FeatureError Unit}
    (hrun : fireAll children p = (r, q)) : ∃ calls, q.source.calls = p.source.calls ++ calls ∧
      calls.length ≤ children.length ∧ (r = .ok () → calls.length = children.length) := by
  induction children generalizing p with
  | nil =>
    cases hrun
    exact ⟨[], (List.append_nil _).symm, le_refl 0, fun _ => rfl⟩
  | cons c rest ih =>
    obtain ⟨hfirst, hrest⟩ := List.forall_mem_cons.mp hone
    change (c.trigger >>= fun _ => fireAll rest) p = _ at hrun
    rw [bind_run] at hrun
    rcases hc : c.trigger p with ⟨e | ⟨⟩, p'⟩ <;> rw [hc] at hrun <;>
      obtain ⟨x, hx⟩ := hfirst _ _ _ hc
    · cases hrun
      exact ⟨[x], hx, Nat.le_add_left 1 _, nofun⟩
    · obtain ⟨calls, hcalls, hle, heq⟩ := ih hrest hrun
      refine ⟨x :: calls, ?_, Nat.succ_le_succ hle, fun hr => congrArg (· + 1) (heq hr)⟩
      rw [hcalls, hx, List.append_assoc]
      rfl

theorem fireAll_writes (hkeeps : ∀ child ∈ children, (writing σ c).Keeps child.trigger)
    {r : Except FeatureError Unit} (hrun : fireAll children p = (r, q)) :
    ∃ calls, q.source.calls = p.source.calls ++ calls ∧ Writes c p.state q.state calls calls := by
  obtain ⟨_, h⟩ := (writing σ c).children_keep hkeeps
  exact (writing σ c).lockstep.fireAll h _ _ _ hrun

/-- A feature that takes over a step begins with its ledger, and then calls its children. -/
theorem replay_writes {above : List Definition} (hd : d.tag = "Replay")
    (hkeeps : ∀ child ∈ children, (writing σ c).Keeps child.trigger)
    {r : Except FeatureError Unit} (hrun : Reveal.replay children p = (r, q)) :
    ∃ s calls, q.source.calls = p.source.calls ++ calls ∧
      Begins c p.state ⟨above, d, p.bag⟩ s ∧ Writes c s q.state calls calls := by
  have hafter : c.entriesAfter p.state (p.state.featuresOf c.tag) ⟨above, d, p.bag⟩ = _ :=
    Channel.entriesAfter_of_replay hd
  rw [Reveal.replay, get_bind_run] at hrun
  rcases hpending : pending p.state with _ | ⟨link, rest, tries⟩ <;> rw [hpending] at hrun hafter
  · cases hrun
    exact ⟨p.state, [], (List.append_nil _).symm, ⟨rfl, hafter.symm, fun _ h => h⟩, .refl c _⟩
  · let s : RoundState :=
      { p.state.adopt link with chain := rest, replay := ⟨.replay, false, tries + 1⟩ }
    obtain ⟨calls, hcalls, hwrites⟩ := fireAll_writes (p := { p with state := s }) hkeeps hrun
    refine ⟨s, calls, hcalls, ⟨rfl, hafter.symm, fun hround _ step hstep => ?_⟩, hwrites⟩
    obtain ⟨previous, hstateful, hchain⟩ := Reveal.exists_of_pending hpending
    exact hround previous hstateful step (by rw [hchain]; exact List.mem_cons_of_mem _ hstep)

/-- A step that is computed begins with an empty ledger. It holds nothing of a channel if nothing is
written on it, and no step that waits to be revealed holds anything. -/
theorem fireAll_spares (hkeeps : ∀ child ∈ children, (writing σ c).Keeps child.trigger) {bag : Bag}
    {previous : RoundState} {r : Except FeatureError Unit}
    (hrun : fireAll children
      { p with state := { previous.nextStep with replay := .start }, bag := bag } = (r, q)) :
    ∃ calls, q.source.calls = p.source.calls ++ calls ∧ q.state.stateful = previous.stateful ∧
      ((∀ round ∈ previous.stateful, c.Spares round.chain) →
        (visitsOf calls).countP (Visit.writes c) = 0 → q.state.featuresOf c.tag = []) := by
  obtain ⟨calls, hcalls, hwrites⟩ := fireAll_writes hkeeps hrun
  have hstateful := RoundState.stateful_of_setting hwrites.setting
  refine ⟨calls, hcalls, hstateful, fun hround hnone => ?_⟩
  rw [hwrites.entries]
  refine foldl_entriesAfter_eq_nil hround (Nat.le_zero.mp ?_)
  exact hnone ▸ (visitsHere_sublist calls).countP_le

/-- The steps after a step hold nothing of a channel if nothing is written on them, and no step that
waits to be revealed holds anything. -/
theorem followOn_spares (hkeeps : ∀ child ∈ children, (writing σ c).Keeps child.trigger) {bag : Bag}
    {count : ℕ} {previous : RoundState} {r : Except FeatureError (List RoundState)}
    (hrun : Reveal.followOn children bag count previous p = (r, q)) :
    ∃ calls, q.source.calls = p.source.calls ++ calls ∧
      ((∀ round ∈ previous.stateful, c.Spares round.chain) →
        (visitsOf calls).countP (Visit.writes c) = 0 →
          ∀ links, r = .ok links → c.Spares links) := by
  induction count generalizing previous p q r with
  | zero =>
    cases hrun
    refine ⟨[], (List.append_nil _).symm, fun _ _ links hlinks => ?_⟩
    cases hlinks
    exact fun _ hstep => (List.not_mem_nil hstep).elim
  | succ count ih =>
    let start : RoundState := { previous.nextStep with replay := .start }
    rcases hfire : fireAll children { p with state := start, bag := bag } with ⟨r₁, p₁⟩
    obtain ⟨calls, hcalls, hstateful, hspares⟩ := fireAll_spares hkeeps hfire
    have hstep : onStep start bag (fireAll children) p =
        (r₁.map fun _ => p₁.state, { p₁ with state := p.state, bag := p.bag }) := by
      rw [onStep, hfire]
    rw [Reveal.followOn, bind_run, hstep] at hrun
    rcases r₁ with e | ⟨⟩
    · cases hrun
      refine ⟨calls, hcalls, fun _ _ links hlinks => ?_⟩
      cases hlinks
    dsimp only [Except.map] at hrun
    split at hrun
    · cases hrun
      refine ⟨calls, hcalls, fun hround hnone links hlinks => ?_⟩
      cases hlinks
      exact List.forall_mem_singleton.mpr (hspares hround hnone)
    rw [bind_run] at hrun
    rcases hrest : Reveal.followOn children bag count p₁.state
      { p₁ with state := p.state, bag := p.bag } with ⟨r₂, p₂⟩
    obtain ⟨calls', hcalls', hspares'⟩ := ih hrest
    have hall : p₂.source.calls = p.source.calls ++ (calls ++ calls') := by
      rw [← List.append_assoc, ← hcalls]
      exact hcalls'
    rw [hrest] at hrun
    rcases r₂ with e | links' <;> cases hrun
    · refine ⟨calls ++ calls', hall, fun _ _ links hlinks => ?_⟩
      cases hlinks
    · refine ⟨calls ++ calls', hall, fun hround hnone links hlinks => ?_⟩
      cases hlinks
      rw [visitsOf_append, List.countP_append, Nat.add_eq_zero_iff] at hnone
      refine List.forall_mem_cons.mpr ⟨hspares hround hnone.1, hspares' ?_ hnone.2 links' rfl⟩
      rwa [hstateful]

/-- The first of the steps that a feature computes begins without a chain. -/
theorem begun_writes (hkeeps : ∀ child ∈ children, (writing σ c).Keeps child.trigger)
    (hone : ∀ child ∈ children, AddsOne child.trigger) {r : Except FeatureError Unit}
    (hrun : fireAll children { p with state := Act.begun p.state } = (r, q)) :
    ∃ calls, q.source.calls = p.source.calls ++ calls ∧ calls.length ≤ children.length ∧
      (r = .ok () → calls.length = children.length) ∧ Writes c p.state q.state calls calls := by
  have hbegun : Writes c p.state (Act.begun p.state) [] [] :=
    .of_nothing rfl rfl fun _ _ _ hstep => (List.not_mem_nil hstep).elim
  obtain ⟨calls, hcalls, hwrites⟩ := fireAll_writes hkeeps hrun
  obtain ⟨calls', hcalls', hle, heq⟩ := fireAll_adds hone hrun
  obtain rfl : calls' = calls := List.append_cancel_left (hcalls'.symm.trans hcalls)
  exact ⟨calls', hcalls', hle, heq, hbegun.trans hwrites⟩

/-- What follows the first step leaves the setting and the ledger of the state. The chain stays, or
it is that of the steps. -/
theorem followOn_writes (hkeeps : ∀ child ∈ children, (writing σ c).Keeps child.trigger)
    {before s : RoundState} {calls : List Execution} (hwrites : Writes c before p.state calls calls)
    {bag : Bag} {count : ℕ} {r : Except FeatureError (List RoundState)}
    (hrun : Reveal.followOn children bag count p.state p = (r, q))
    (hsetting : s.setting = p.state.setting)
    (hledger : s.featuresOf c.tag = p.state.featuresOf c.tag)
    (hchain : s.chain = p.state.chain ∨ ∃ links, r = .ok links ∧
      s.chain = links.map RoundState.asLink) :
    ∃ calls', q.source.calls = p.source.calls ++ calls' ∧
      Writes c before s (calls ++ calls') calls := by
  obtain ⟨calls', hcalls', hspares⟩ := followOn_spares hkeeps hrun
  refine ⟨calls', hcalls', hsetting.trans hwrites.setting, hledger.trans hwrites.entries, ?_⟩
  intro hround hbefore hcount
  have hsome := (visitsHere_sublist calls).countP_le (p := Visit.writes c)
  rw [visitsOf_append, List.countP_append] at hcount
  rcases hchain with hchain | ⟨links, hlinks, hchain⟩
  · rw [hchain]
    exact hwrites.spares hround hbefore (by omega)
  · rw [hchain]
    refine List.forall_mem_map.mpr fun step hstep => hspares ?_ (by omega) links hlinks step hstep
    rwa [RoundState.stateful_of_setting hwrites.setting]

/-- A feature that computes steps writes what its children do in the first step. -/
theorem play_writes (hkeeps : ∀ child ∈ children, (writing σ c).Keeps child.trigger)
    (hone : ∀ child ∈ children, AddsOne child.trigger) (htag : d.tag = "Play")
    (hlength : children.length = d.features.length) {r : Except FeatureError Unit}
    (hrun : Reveal.play children p = (r, q)) :
    ∃ calls, q.source.calls = p.source.calls ++ calls ∧
      Writes c p.state q.state calls (d.callsHere calls) := by
  have hhere (calls : List Execution) : d.callsHere calls = calls.take children.length := by
    rw [Definition.callsHere, if_pos htag, hlength]
  cases Reveal.play_run hrun with
  | idle =>
    refine ⟨[], (List.append_nil _).symm, ?_⟩
    rw [hhere, List.take_nil]
    exact .refl c p.state
  | first _ _ hfirst =>
    obtain ⟨calls, hcalls, hle, -, hwrites⟩ := begun_writes hkeeps hone hfirst
    refine ⟨calls, hcalls, ?_⟩
    rwa [hhere, List.take_of_length_le hle]
  | failed _ _ hfirst hlinks =>
    obtain ⟨calls, hcalls, -, heq, hwrites⟩ := begun_writes hkeeps hone hfirst
    have hstate := Reveal.followOn_state hlinks
    obtain ⟨calls', hcalls', hall⟩ := followOn_writes hkeeps hwrites hlinks
      (congrArg RoundState.setting hstate) (congrArg (RoundState.featuresOf · c.tag) hstate)
      (.inl (congrArg RoundState.chain hstate))
    refine ⟨calls ++ calls', by rw [hcalls', hcalls, List.append_assoc], ?_⟩
    rwa [hhere, ← heq rfl, List.take_left]
  | @chained _ links _ _ _ _ hfirst _ hlinks =>
    obtain ⟨calls, hcalls, -, heq, hwrites⟩ := begun_writes hkeeps hone hfirst
    obtain ⟨calls', hcalls', hall⟩ := followOn_writes (s := RoundState.setChain _ links) hkeeps
      hwrites hlinks rfl rfl (.inr ⟨links, rfl, rfl⟩)
    refine ⟨calls ++ calls', hcalls'.trans ?_, ?_⟩
    · rw [hcalls, List.append_assoc]
    · rwa [hhere, ← heq rfl, List.take_left]

end Steps

/-! ### Trees -/

/-- A tree writes a channel by the visits on its state. -/
theorem Definition.watch_writes (c : Channel) (d : Definition) (above : List Definition) :
    (writing σ c).Keeps (d.watch .builtin above : PassM (Watched σ) Unit) := by
  induction d using Definition.induction generalizing above with
  | node d ih =>
    rw [watch_eq]
    refine writing_recorded fun e hcreate p r q hrun => ?_
    have hkeeps : ∀ child ∈ d.features.map fun c => ⟨c, c.watch .builtin (above ++ [d])⟩,
        (writing σ c).Keeps (Child.trigger child : PassM (Watched σ) Unit) := by
      intro child hchild
      obtain ⟨n, hn, rfl⟩ := List.mem_map.mp hchild
      exact ih n hn _
    have htag : d.tag = e.tag := (Registry.tag_of_create_builtin hcreate).symm
    by_cases hd : d.tag = c.tag
    · obtain rfl : e = c.writer :=
        Registry.eq_of_create_builtin hcreate (hd.trans c.tag_writer.symm)
      obtain ⟨hsource, hbegins⟩ := writer_begins above hd hrun
      refine ⟨q.state, [], by rw [hsource, List.append_nil], hbegins, ?_⟩
      have hnone : d.callsHere [] = [] := by simp [callsHere]
      rw [hnone]
      exact .refl c q.state
    by_cases hreplay : e = .replay
    · subst hreplay
      obtain ⟨s, calls, hcalls, hbegins, hwrites⟩ := replay_writes htag hkeeps hrun
      refine ⟨s, calls, hcalls, hbegins, ?_⟩
      rwa [callsHere, if_neg (by rw [htag]; decide)]
    have hother : d.tag ≠ "Replay" := fun hd => hreplay (Registry.eq_of_create_builtin hcreate hd)
    by_cases he : e = .play
    · subst he
      obtain ⟨calls, hcalls, hwrites⟩ := play_writes hkeeps (fun child hchild => by
        obtain ⟨n, -, rfl⟩ := List.mem_map.mp hchild
        dsimp only
        rw [watch_eq]
        exact addsOne_recorded n _) htag (List.length_map ..) hrun
      exact ⟨p.state, calls, hcalls, .of_other hother hd, hwrites⟩
    · have hplay : d.tag ≠ "Play" := fun hplay =>
        he (Registry.eq_of_create_builtin hcreate hplay)
      obtain ⟨_, h⟩ := (writing σ c).children_keep hkeeps
      have hrel := (writing σ c).lockstep.run h (fun hatom => writing_atomic hd he hreplay hatom)
        (fun _ bag _ _ hm => writing_withBag bag hm) fun hcontra => absurd hcontra he
      obtain ⟨calls, hcalls, hwrites⟩ := hrel p r q hrun
      refine ⟨p.state, calls, hcalls, .of_other hother hd, ?_⟩
      rwa [callsHere, if_neg hplay]

/-! ### A feature that writes a channel and does nothing else -/

/-- A feature without parameters works with the bag of its caller, and leaves it as it is if it
writes a channel. -/
theorem enter_writer {c : Channel} {d : Definition} (htag : d.tag = c.tag)
    (hparams : d.params = .empty) {above : List Definition} {children : List (Child σ)} {p : Pass σ}
    {collate : Bool} {change : Option Change} (hcaller : p.bag.isCollate = .ok collate)
    (hplan : c.plan p.state p.bag = .ok change) :
    d.enter .builtin above (fun e => e.run d children) p =
      (.ok (), { p with
        visits := ⟨above, d, p.bag⟩ :: p.visits
        state := p.state.perform d change }) := by
  have hoverlay : d.params.overlay p.bag = p.bag := by rw [hparams, Bag.empty_overlay]
  have hcreate : Registry.builtin.create d.tag = .ok c.writer := by
    rw [htag, ← c.tag_writer, Registry.create_builtin]
  have hwork : c.writer.run d children (d.entered above p) =
      (.ok (), { p with
        visits := ⟨above, d, p.bag⟩ :: p.visits
        state := p.state.perform d change }) := by
    rw [Channel.writer_run]
    simp only [Definition.entered, hoverlay, hplan]
  refine (Definition.enter_run hcreate hcaller hwork).trans ?_
  dsimp only
  rw [ite_self]
  rfl

/-- A pass of such a feature alone, and its only execution. -/
theorem watch_writer {c : Channel} {d : Definition} (htag : d.tag = c.tag)
    (hparams : d.params = .empty) {s : RoundState} {caller : Bag} (source : σ) {collate : Bool}
    {change : Option Change} (hcaller : caller.isCollate = .ok collate)
    (hplan : c.plan s caller = .ok change) :
    ∃ p root, trigger .builtin d source s caller = (.ok (), p) ∧
      d.watch .builtin [] ((Pass.start source s caller).watched []) = (.ok (), p.watched [root]) ∧
      p.visits = [⟨[], d, caller⟩] ∧ visitsOf [root] = [⟨[], d, caller⟩] ∧
      visitsHere [root] = [⟨[], d, caller⟩] := by
  let v : Visit := ⟨[], d, caller⟩
  let p : Pass σ := ⟨source, [v], s.perform d change, caller⟩
  let root : Execution := ⟨d, some v, s, [], none, p.state⟩
  have hrun : trigger .builtin d source s caller = (.ok (), p) := by
    rw [trigger, Definition.trigger_eq]
    exact enter_writer htag hparams hcaller hplan
  have hvisit : d.visit? .builtin [] caller = some v := by
    have hcreate : Registry.builtin.create d.tag = .ok c.writer := by
      rw [htag, ← c.tag_writer, Registry.create_builtin]
    simp only [Definition.visit?, hcreate, hcaller, hparams, Bag.empty_overlay, v]
  have hwatch : d.watch .builtin [] ((Pass.start source s caller).watched []) =
      (.ok (), p.watched [root]) := by
    have henter : d.enter .builtin [] (fun e => e.run d
        (d.features.map fun c => ⟨c, c.watch .builtin ([] ++ [d])⟩))
        (((Pass.start source s caller).watched []).withCalls []) = (.ok (), p.watched []) :=
      enter_writer htag hparams hcaller hplan
    rw [Definition.watch_eq, Definition.recorded, henter]
    change (_, (p.watched []).withCalls ([] ++
      [⟨d, d.visit? .builtin [] caller, s, [], none, p.state⟩])) = _
    rw [hvisit]
    rfl
  refine ⟨p, root, hrun, hwatch, rfl, rfl, ?_⟩
  rw [visitsHere_singleton]
  simp [Definition.callsHere, Execution.visitsHere, root, v]

end SlotOutcome
