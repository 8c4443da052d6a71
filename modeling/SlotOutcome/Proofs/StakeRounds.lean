import SlotOutcome.Proofs.OwnedEntries
import SlotOutcome.Proofs.WrittenMemory

/-!
# Rounds and the memory of the stakes

Each round may stash a bag for its stake. The ledger of the round then holds the bags of all stakes,
those of the other stakes as the ledger of the round before had them. So whatever rounds were
played in between, at whatever stakes, a round finds the bag that was stashed last at its stake.

```text
  round      1         2         3         4
  stake      a         b         a         b
  stash      A         B         none      B'
  ledger     a: A      a: A      a: A      a: A
                       b: B      b: B      b: B'
```

This is so as long as no step is taken over after the memory was written. Such a step brings its own
ledger in place of that of the round, and all that was remembered is gone.

## Main definitions

* `WritesRound`, `PlaysRound`, `Rounds`: rounds that write the memory once, those in which no step
  is taken over after that, and sequences of them.
* `lastStash`: the bag that was stashed last at a stake.
* `RoundState.WithoutMemory`: a round that holds no memory, also on the steps that it has computed.
* `Remembers`: a round finds what was stashed last at each stake.

## Main results

* `WritesRound.ledger`: what a round leaves in its ledger for the memory of the stakes.
* `Remembers.round`: a round stores what is stashed and carries the rest over.
* `statefulMap_after_rounds`: a round finds the bag that was stashed last at its stake.
* `memory_dropped_by_taken_step`: a step that is taken over drops the memory of the round.
-/

namespace SlotOutcome

open Execution (visitsOf visitsHere visitsHere_sublist)

variable {σ : Type} [RandomSource σ]

/-- A round at a stake of the given key, from the state that the round before has led to. The memory
is written once, on the state of the round itself, by a feature that finds the given bag stashed or
none, and the given visits on this state come after it. The state that follows is that of the next
round. The round may also end with an error. -/
inductive WritesRound (σ : Type) [RandomSource σ] (s : RoundState) :
    String → Option Bag → List Visit → RoundState → Prop
  | pass {d : Definition} {source : σ} {stake : Float} {bag : Bag} {r : Except FeatureError Unit}
      {p : Pass σ} {root : Execution} {v : Visit} {stash : Option Bag} {earlier later : List Visit}
      (hrun : trigger .builtin d source (s.withStake stake) bag = (r, p))
      (hwatch : d.watch .builtin [] ((Pass.start source (s.withStake stake) bag).watched []) =
        (r, p.watched [root]))
      (honce : p.visits.filter (Visit.writes .stateful) = [v])
      (hhere : visitsHere [root] = earlier ++ v :: later)
      (hstash : Channel.stateful.pending v.bag = .ok stash) :
      WritesRound σ s (s.withStake stake).stakeKey stash later p.state.nextRound

/-- A round like this in which no step is taken over after the memory was written. -/
def PlaysRound (σ : Type) [RandomSource σ] (s : RoundState) (key : String) (stash : Option Bag)
    (s' : RoundState) : Prop :=
  ∃ later, WritesRound σ s key stash later s' ∧ ∀ w ∈ later, ¬w.node.Reveals s.stateful

/-- Rounds one after another, with the key of the stake and the stash of each of them. -/
inductive Rounds (σ : Type) [RandomSource σ] (s : RoundState) :
    List (String × Option Bag) → RoundState → Prop
  | start : Rounds σ s [] s
  | round {history t key stash t'} (before : Rounds σ s history t)
      (h : PlaysRound σ t key stash t') : Rounds σ s (history ++ [(key, stash)]) t'

/-- The bag that was stashed last in a round at a stake of the given key. -/
def lastStash (history : List (String × Option Bag)) (key : String) : Option Bag :=
  (history.filterMap fun round => if round.1 = key then round.2 else none).getLast?

theorem lastStash_append (history : List (String × Option Bag)) (key : String)
    (stash : Option Bag) (key' : String) : lastStash (history ++ [(key, stash)]) key' =
      if key' = key then stash.or (lastStash history key') else lastStash history key' := by
  rw [lastStash, lastStash, List.filterMap_append, List.getLast?_append]
  by_cases hkey : key' = key
  · subst hkey
    rcases stash with _ | map <;> simp
  · simp [hkey, Ne.symm hkey]

/-- A round holds no memory, neither in its ledger nor on the steps that it has computed. -/
structure RoundState.WithoutMemory (s : RoundState) : Prop where
  ledger : s.featuresOf memoryTag = []
  chain : Channel.stateful.Spares s.chain

theorem RoundState.WithoutMemory.of_nothing {s : RoundState}
    (hledger : s.featuresOf memoryTag = []) (hchain : s.chain = []) : s.WithoutMemory :=
  ⟨hledger, fun step hstep => by simp [hchain] at hstep⟩

/-! ### What a round writes -/

/-- The visits of a pass are those of its executions, the latest first. -/
theorem visits_of_watch {d : Definition} {p q : Pass σ} {r : Except FeatureError Unit}
    {root : Execution} (hvisits : p.visits = [])
    (hwatch : d.watch .builtin [] (p.watched []) = (r, q.watched [root])) :
    q.visits = (visitsOf [root]).reverse := by
  obtain ⟨calls, hcalls, haccounts⟩ := d.watch_books d [] _ _ _ hwatch
  obtain rfl : [root] = calls := hcalls
  refine haccounts.visits.trans ?_
  rw [show (p.watched []).visits = [] from hvisits, List.append_nil]

variable {s s' : RoundState} {key : String} {stash : Option Bag} {later : List Visit}

/-- What a round leaves: the state at its end, and the visit that wrote the memory. -/
structure RoundLeaves (s t : RoundState) (stake : Float) (v : Visit) (later : List Visit) :
    Prop where
  /-- The steps that were computed hold no memory. -/
  spares : Channel.stateful.Spares t.chain
  /-- The ledger holds what was written. -/
  kept : (∀ w ∈ later, ¬w.node.Reveals s.stateful) →
    t.featuresOf memoryTag = v.written .stateful (s.withStake stake)
  /-- If a step was taken over after that, the ledger holds no memory. -/
  dropped : (∃ w ∈ later, w.node.Reveals s.stateful) → t.featuresOf memoryTag = []

theorem WritesRound.leaves (h : WritesRound σ s key stash later s') (hs : s.WithoutMemory)
    (hbefore : ∀ round ∈ s.stateful, Channel.stateful.Spares round.chain) :
    ∃ (stake : Float) (v : Visit) (t : RoundState), (s.withStake stake).stakeKey = key ∧
      Channel.stateful.pending v.bag = .ok stash ∧ t.nextRound = s' ∧
      RoundLeaves s t stake v later := by
  cases h with
  | @pass d source stake bag r p root v stash earlier later hrun hwatch honce hhere hstash =>
    obtain ⟨calls, hcalls, hwrites⟩ := d.watch_writes .stateful [] _ _ _ hwatch
    obtain rfl : [root] = calls := hcalls
    -- Of all visits one writes the memory, and it is on the state.
    have hall : (visitsOf [root]).filter (Visit.writes .stateful) = [v] := by
      rw [visits_of_watch rfl hwatch, List.filter_reverse] at honce
      simpa using honce
    have hv : v.writes .stateful = true :=
      (List.mem_filter.mp (hall ▸ List.mem_singleton_self v)).2
    have hone : (visitsOf [root]).countP (Visit.writes .stateful) = 1 := by
      rw [List.countP_eq_length_filter, hall, List.length_singleton]
    have hcount := (visitsHere_sublist [root]).countP_le (p := Visit.writes .stateful)
    rw [hone, hhere, List.countP_append, List.countP_cons_of_pos hv] at hcount
    have hfirst : earlier.foldl (Channel.stateful.entriesAfter (s.withStake stake)) [] = [] :=
      foldl_entriesAfter_eq_nil hbefore (by omega)
    have hledger : p.state.featuresOf memoryTag = later.foldl
        (Channel.stateful.entriesAfter (s.withStake stake))
        (v.written .stateful (s.withStake stake)) := by
      refine hwrites.entries.trans ?_
      change (visitsHere [root]).foldl (Channel.stateful.entriesAfter (s.withStake stake))
        (s.featuresOf memoryTag) = _
      rw [hs.ledger, hhere, List.foldl_append, hfirst, List.foldl_cons,
        Channel.entriesAfter_of_writes (beq_iff_eq.mp hv), List.nil_append]
    refine ⟨stake, v, p.state, rfl, hstash, rfl, ?_, fun hkept => ?_, fun hdropped => ?_⟩
    · refine hwrites.spares hbefore hs.chain ?_
      rw [hone, hhere, List.countP_append, List.countP_cons_of_pos hv]
      omega
    · have hnone : later.filter (Visit.writes .stateful) = [] := by
        rw [← List.length_eq_zero_iff, ← List.countP_eq_length_filter]
        omega
      rw [hledger, foldl_entriesAfter (s := s.withStake stake) hkept, hnone]
      exact List.append_nil _
    · rw [hledger]
      exact foldl_entriesAfter_of_reveals (s := s.withStake stake) hbefore (by omega) hdropped _

/-! ### What a round finds -/

/-- The state of a round that holds no memory yet, and finds in the round before what was stashed
last at each stake. The steps that wait to be revealed hold no memory. -/
structure Remembers (s : RoundState) (history : List (String × Option Bag)) : Prop where
  nothing : s.WithoutMemory
  before : ∀ round ∈ s.stateful, Channel.stateful.Spares round.chain
  finds : ∃ namespaces, statefulNamespaces s = .ok namespaces ∧
    ∀ key, memoryAt namespaces key = .ok ((lastStash history key).getD .empty)

namespace Remembers

variable {history : List (String × Option Bag)}

theorem statefulMap_eq (h : Remembers s history) (stake : Float) {bag : Bag} {stash : Option Bag}
    (hbag : Channel.stateful.pending bag = .ok stash) :
    statefulMap (s.withStake stake) bag =
      .ok ((stash.or (lastStash history (s.withStake stake).stakeKey)).getD .empty) := by
  obtain ⟨namespaces, hnamespaces, hat⟩ := h.finds
  rcases stash with _ | map
  · exact statefulMap_of_no_stash hbag hnamespaces (hat _)
  · exact statefulMap_of_stash _ hbag

/-- A round that is linked to a round without memory. -/
theorem start {previous : RoundState} (hlink : s.stateful = some previous)
    (hprevious : previous.WithoutMemory) (hs : s.WithoutMemory) : Remembers s [] where
  nothing := hs
  before round hround := by
    obtain rfl : previous = round := Option.some.inj (hlink.symm.trans hround)
    exact hprevious.chain
  finds := ⟨.empty, statefulNamespaces_of_noMemory hlink hprevious.ledger, fun _ => rfl⟩

/-- The next round holds no memory, and finds that of the round before. -/
theorem nextRound {t : RoundState} {namespaces : Bag} (hchain : Channel.stateful.Spares t.chain)
    (hnamespaces : latestMemory (t.featuresOf memoryTag) = .ok namespaces)
    (hat : ∀ key, memoryAt namespaces key = .ok ((lastStash history key).getD .empty)) :
    Remembers t.nextRound history where
  nothing := ⟨rfl, fun _ hstep => nomatch hstep⟩
  before round hround := by
    obtain rfl : t.snapshot = round := Option.some.inj hround
    exact hchain
  finds := ⟨namespaces, (statefulNamespaces_nextRound t).trans hnamespaces, hat⟩

/-- What one round does: it stores what is stashed, and carries the rest over to the next round. -/
theorem round (h : Remembers s history) (hround : PlaysRound σ s key stash s') :
    Remembers s' (history ++ [(key, stash)]) := by
  obtain ⟨later, hwrites, hkept⟩ := hround
  obtain ⟨stake, v, t, rfl, hstash, rfl, hleaves⟩ := hwrites.leaves h.nothing h.before
  have hcurrent := h.statefulMap_eq stake hstash
  obtain ⟨namespaces, hnamespaces, hat⟩ := h.finds
  change statefulNamespaces (s.withStake stake) = _ at hnamespaces
  have hentries := hleaves.kept hkept
  rw [Visit.written, Channel.plan, rememberMap_eq, hcurrent, hnamespaces] at hentries
  obtain ⟨left, hleft, hother⟩ := memoryAt_storing (s.withStake stake) namespaces
    ((stash.or (lastStash history (s.withStake stake).stakeKey)).getD .empty) v.node
  refine .nextRound hleaves.spares (hentries ▸ hleft) fun key => ?_
  rw [hother, lastStash_append]
  split
  · next hkey => rw [hkey]
  · exact hat key

/-- If a step is taken over after the memory was written, the next round finds nothing at any
stake. -/
theorem dropped (h : Remembers s history) (hround : WritesRound σ s key stash later s')
    (hreveals : ∃ w ∈ later, w.node.Reveals s.stateful) : Remembers s' [] := by
  obtain ⟨stake, v, t, rfl, -, rfl, hleaves⟩ := hround.leaves h.nothing h.before
  have hnone : latestMemory (t.featuresOf memoryTag) = .ok .empty := by
    rw [hleaves.dropped hreveals]
    rfl
  exact .nextRound hleaves.spares hnone fun _ => rfl

/-- A round that just writes the memory may follow at every stake, with a stash or without. -/
theorem exists_round (h : Remembers s history) (source : σ) (stake : Float) {bag : Bag}
    {collate : Bool} {stash : Option Bag} (hcaller : bag.isCollate = .ok collate)
    (hbag : Channel.stateful.pending bag = .ok stash) :
    ∃ s', PlaysRound σ s (s.withStake stake).stakeKey stash s' := by
  have hcurrent := h.statefulMap_eq stake hbag
  obtain ⟨namespaces, hnamespaces, -⟩ := h.finds
  change statefulNamespaces (s.withStake stake) = _ at hnamespaces
  obtain ⟨change, hplan⟩ : ∃ change,
      Channel.stateful.plan (s.withStake stake) bag = .ok change := by
    rw [Channel.plan, rememberMap_eq, hnamespaces, hcurrent]
    exact ⟨_, rfl⟩
  obtain ⟨p, root, hrun, hwatch, hvisits, -, hhere⟩ :=
    watch_writer (d := memoryWriter) rfl rfl source hcaller hplan
  have honce : p.visits.filter (Visit.writes .stateful) = [⟨[], memoryWriter, bag⟩] := by
    rw [hvisits]
    rfl
  have hfirst : visitsHere [root] = [] ++ ⟨[], memoryWriter, bag⟩ :: [] := hhere
  exact ⟨_, [], .pass hrun hwatch honce hfirst hbag, fun _ hw => (List.not_mem_nil hw).elim⟩

end Remembers

theorem Rounds.remembers {s t : RoundState} {history : List (String × Option Bag)}
    (h : Rounds σ s history t) (hs : Remembers s []) : Remembers t history := by
  induction h with
  | start => exact hs
  | round before hround ih => exact ih.round hround

/-- The memory of a stake is the bag that was stashed last at it. If each of a sequence of rounds
writes the memory once, on its own state, and takes over no step after that, from a round that holds
no memory and is linked to one that holds none, then the round after them finds at any stake what
the last round that stashed a bag at it has stashed, or nothing. A round at another stake leaves
that as it is, and a round that just writes the memory may always follow. A round that takes over a
step after it has written the memory leaves nothing at any stake. -/
theorem statefulMap_after_rounds {s t previous : RoundState}
    {history : List (String × Option Bag)} (hlink : s.stateful = some previous)
    (hprevious : previous.WithoutMemory) (hs : s.WithoutMemory) (hrounds : Rounds σ s history t)
    (stake : Float) {bag : Bag} (hbag : Channel.stateful.pending bag = .ok none) :
    statefulMap (t.withStake stake) bag =
      .ok ((lastStash history (t.withStake stake).stakeKey).getD .empty) ∧
    (∀ key stash t', PlaysRound σ t key stash t' → key ≠ (t.withStake stake).stakeKey →
      statefulMap (t'.withStake stake) bag = statefulMap (t.withStake stake) bag) ∧
    (∀ (_ : σ) (caller : Bag) collate stash, caller.isCollate = .ok collate →
      Channel.stateful.pending caller = .ok stash →
      ∃ t', PlaysRound σ t (t.withStake stake).stakeKey stash t') ∧
    ∀ key stash later t', WritesRound σ t key stash later t' →
      (∃ w ∈ later, w.node.Reveals t.stateful) →
      statefulMap (t'.withStake stake) bag = .ok .empty := by
  have hremembers : Remembers t history := hrounds.remembers (.start hlink hprevious hs)
  have hnow := hremembers.statefulMap_eq stake hbag
  rw [Option.none_or] at hnow
  refine ⟨hnow, fun key stash t' hround hkey => ?_, fun source caller collate stash => ?_,
    fun key stash later t' hround hreveals => ?_⟩
  · have hsame : (t'.withStake stake).stakeKey = (t.withStake stake).stakeKey := rfl
    rw [hnow, (hremembers.round hround).statefulMap_eq stake hbag, Option.none_or,
      lastStash_append, hsame, if_neg hkey.symm]
  · exact hremembers.exists_round source stake
  · rw [(hremembers.dropped hround hreveals).statefulMap_eq stake hbag]
    rfl

/-- What is stashed at one stake is still there after a round at another one, and after any more of
them. -/
theorem statefulMap_after_rounds_carried :
    ∃ t, Rounds Script (RoundState.fresh 1 1).nextRound
        [(((RoundState.fresh 1 1).withStake 2.0).stakeKey, none),
          (((RoundState.fresh 1 1).withStake 1.0).stakeKey, some levelThree),
          (((RoundState.fresh 1 1).withStake 2.0).stakeKey, none)] t ∧
      statefulMap (t.withStake 1.0) .empty = .ok levelThree ∧
      ∀ key stash t', PlaysRound Script t key stash t' →
        key ≠ ((RoundState.fresh 1 1).withStake 1.0).stakeKey →
        statefulMap (t'.withStake 1.0) .empty = .ok levelThree := by
  have hprevious : (RoundState.fresh 1 1).snapshot.WithoutMemory := .of_nothing rfl rfl
  have hround : (RoundState.fresh 1 1).nextRound.WithoutMemory := .of_nothing rfl rfl
  have hstart : Remembers (RoundState.fresh 1 1).nextRound [] := .start rfl hprevious hround
  have hbag : Channel.stateful.pending .empty = .ok none := rfl
  have hstash : Channel.stateful.pending (Channel.stateful.stash .empty levelThree) =
      .ok (some levelThree) := rfl
  obtain ⟨t₁, h₁⟩ := hstart.exists_round (Script.ofDraws []) 2.0 rfl hbag
  obtain ⟨t₂, h₂⟩ := (hstart.round h₁).exists_round (Script.ofDraws []) 1.0 rfl hstash
  obtain ⟨t₃, h₃⟩ := ((hstart.round h₁).round h₂).exists_round (Script.ofDraws []) 2.0 rfl hbag
  have hrounds := ((Rounds.start.round h₁).round h₂).round h₃
  obtain ⟨hnow, hlater, -⟩ := statefulMap_after_rounds rfl hprevious hround hrounds 1.0 hbag
  rw [lastStash_append, lastStash_append, RoundState.stakeKey_withStake,
    RoundState.stakeKey_withStake, RoundState.stakeKey_withStake, if_pos rfl, Option.none_or,
    ite_self] at hnow
  refine ⟨t₃, hrounds, hnow, fun key stash t' hround hother => ?_⟩
  exact (hlater key stash t' hround hother).trans hnow

/-! ### A step that is taken over -/

/-- The memory is written, and then a step is computed for the next round. -/
def stashingRound : Definition :=
  ⟨1, "Activator", .empty, [⟨2, memoryTag, Channel.stateful.stash .empty levelThree, []⟩,
    ⟨3, "Play", Bag.empty.insert "Steps" (.ofNat 2),
      [⟨4, "InstantPrize", Bag.empty.insert "Prize" (.ofNat 5), []⟩]⟩]⟩

/-- The memory is written, and then the step that was computed first is taken over. -/
def overtakenRound : Definition :=
  ⟨5, "Activator", .empty, [⟨6, memoryTag, .empty, []⟩, ⟨7, "Replay", .empty, []⟩]⟩

theorem exists_writesRound (d : Definition) (s : RoundState) (source : σ) (stake : Float)
    {held : Option Bool} {tags : List String}
    (hwrites : ((trigger .builtin d source (s.withStake stake) .empty).2.visits.filter
      (Visit.writes .stateful)).map (fun v => (Channel.stateful.pending v.bag).toOption.map
        (Option.map Members.isEmpty)) = [some held])
    (hhere : ((visitsHere (d.watch .builtin []
      ((Pass.start source (s.withStake stake) .empty).watched [])).2.source.calls).dropWhile
        fun v => !v.writes .stateful).map (fun v => v.node.tag) = memoryTag :: tags) :
    ∃ stash later, stash.map Members.isEmpty = held ∧ later.map (fun v => v.node.tag) = tags ∧
      WritesRound σ s (s.withStake stake).stakeKey stash later
        (trigger .builtin d source (s.withStake stake) .empty).2.state.nextRound := by
  obtain ⟨r, p, hrun⟩ : ∃ r p, trigger .builtin d source (s.withStake stake) .empty = (r, p) :=
    ⟨_, _, rfl⟩
  obtain ⟨root, hwatch, -⟩ := Definition.trigger_watched hrun []
  rw [hrun] at hwrites ⊢
  rw [hwatch] at hhere
  obtain ⟨v, honce, hfound⟩ := List.map_eq_singleton_iff.mp hwrites
  obtain ⟨stash, hread, hheld⟩ := Option.map_eq_some_iff.mp hfound
  obtain ⟨w, later, hsplit, hw, hlater⟩ := List.map_eq_cons_iff.mp hhere
  have hsides := List.takeWhile_append_dropWhile (p := fun v : Visit => !v.writes .stateful)
    (l := visitsHere [root])
  change (visitsHere [root]).dropWhile _ = _ at hsplit
  rw [hsplit] at hsides
  -- The visit that writes the memory on the state is the only one of the pass.
  have hmem : w ∈ p.visits := by
    rw [visits_of_watch rfl hwatch, List.mem_reverse]
    refine (visitsHere_sublist [root]).subset ?_
    rw [← hsides]
    exact List.mem_append_right _ List.mem_cons_self
  have hfor : w.writes .stateful = true := beq_iff_eq.mpr hw
  obtain rfl : w = v := by simpa [honce] using List.mem_filter.mpr ⟨hmem, hfor⟩
  rcases hpending : Channel.stateful.pending w.bag with e | stash' <;> rw [hpending] at hread
  · cases hread
  · cases hread
    exact ⟨_, later, hheld, hlater, .pass hrun hwatch honce hsides.symm hpending⟩

/-- A step that is taken over drops the memory of the round: nothing was stashed after a bag at the
same stake, and yet it is gone. -/
theorem memory_dropped_by_taken_step : ∃ key map first later second,
    PlaysRound Script (RoundState.fresh 1 1).nextRound key (some map) first ∧
      WritesRound Script first key none later second ∧
      (second.withStake 1.0).stakeKey = key ∧ map.isEmpty = false ∧
      lastStash [(key, some map), (key, none)] key = some map ∧
      statefulMap (first.withStake 1.0) .empty = .ok map ∧
      statefulMap (second.withStake 1.0) .empty = .ok .empty := by
  let source := Script.ofDraws []
  let start := (RoundState.fresh 1 1).nextRound
  let first :=
    (trigger .builtin stashingRound source (start.withStake 1.0) .empty).2.state.nextRound
  obtain ⟨stash, after, hheld, htags, hfirst⟩ : ∃ stash later,
      stash.map Members.isEmpty = some false ∧
        later.map (fun v => v.node.tag) = ["Play", "InstantPrize"] ∧
        WritesRound Script start (start.withStake 1.0).stakeKey stash later first :=
    exists_writesRound stashingRound start source 1.0 (by decide +kernel) (by decide +kernel)
  obtain ⟨stash', later, hnone, htaken, hsecond⟩ : ∃ stash later,
      stash.map Members.isEmpty = none ∧ later.map (fun v => v.node.tag) = ["Replay"] ∧
        WritesRound Script first (first.withStake 1.0).stakeKey stash later _ :=
    exists_writesRound overtakenRound first source 1.0 (by decide +kernel) (by decide +kernel)
  obtain ⟨map, rfl, hmap⟩ := Option.map_eq_some_iff.mp hheld
  obtain rfl : stash' = none := Option.map_eq_none_iff.mp hnone
  have hplays : PlaysRound Script start (start.withStake 1.0).stakeKey (some map) first := by
    refine ⟨after, hfirst, fun w hw hreveals => ?_⟩
    have htag : w.node.tag ∈ ["Play", "InstantPrize"] := htags ▸ List.mem_map_of_mem hw
    rw [hreveals.1] at htag
    simp at htag
  rw [RoundState.stakeKey_withStake] at hplays hsecond
  have hstart : Remembers start [] := .start rfl (.of_nothing rfl rfl) (.of_nothing rfl rfl)
  have hremembers := hstart.round hplays
  have hbag : Channel.stateful.pending .empty = .ok none := rfl
  refine ⟨_, map, first, later, _, hplays, hsecond, rfl, hmap, ?_, ?_, ?_⟩
  · simp [lastStash]
  · refine (hremembers.statefulMap_eq 1.0 hbag).trans ?_
    simp [lastStash, RoundState.stakeKey_withStake]
  · have htag : "Replay" ∈ later.map fun v => v.node.tag := htaken ▸ List.mem_singleton_self _
    obtain ⟨w, hw, hreplay⟩ := List.mem_map.mp htag
    have hchain : first.stateful.map (fun round => round.chain.isEmpty) = some false := by
      decide +kernel
    obtain ⟨round, hround, hsome⟩ := Option.map_eq_some_iff.mp hchain
    have hreveals : w.node.Reveals first.stateful :=
      ⟨hreplay, round, hround, fun hnil => by simp [hnil] at hsome⟩
    exact (hremembers.dropped hsecond ⟨w, hw, hreveals⟩).statefulMap_eq 1.0 hbag

end SlotOutcome
