import SlotOutcome.Proofs.Changes
import SlotOutcome.Proofs.Kept

/-!
# The memory of the stakes

The memory of a channel is the last entry of the map feature that writes it. That of the stakes
holds a bag for each stake key: whoever writes it replaces the bag of the current stake, and keeps
the others as the round before had them.

## Main definitions

* `Channel.writer`, `Channel.plan`: the features that write a channel, and their plan.
* `Definition.entriesOf`, `latestMemory`: what they note in the ledger, and what is found there.
* `storing`, `memoryAt`: the memory of all stakes, and that of one of them.

## Main results

* `Atom.other_entries`: no other feature touches the entries of a channel, unless it takes over a
  step.
* `memoryAt_storing`: what is stored counts for the next round, and the memory of other stakes
  stays.
-/

namespace SlotOutcome

/-! ### Memory in the ledger -/

/-- The tag of the features that write the memory of the stakes. -/
def memoryTag : String := Channel.stateful.tag

/-- The features that write a channel. -/
def Channel.writer : Channel → Effect
  | stateful => .statefulMap
  | stateless => .statelessMap

/-- Their plan. -/
def Channel.plan : Channel → RoundState → Bag → Except FeatureError (Option Change)
  | stateful => Remember.statefulMap
  | stateless => Remember.statelessMap

theorem Channel.tag_writer (c : Channel) : c.writer.tag = c.tag := by
  cases c <;> rfl

/-- What they note leaves the rest of the ledger. -/
theorem Channel.keepsLedger_plan {c : Channel} {s : RoundState} {bag : Bag}
    {change : Option Change} (h : c.plan s bag = .ok change) : KeepsLedger s change := by
  cases c with
  | stateful => exact (statefulMap_makes s bag change h).keepsLedger
  | stateless => exact (statelessMap_makes s bag change h).keepsLedger

/-- A feature that writes a channel is its plan. -/
theorem Channel.writer_run {σ : Type} [RandomSource σ] (c : Channel) (d : Definition)
    (children : List (Child σ)) (p : Pass σ) :
    c.writer.run d children p = match c.plan p.state p.bag with
      | .ok change => (.ok (), { p with state := p.state.perform d change })
      | .error e => (.error e, p) := by
  have hrun : c.writer.run d children = settle d c.plan := by cases c <;> rfl
  rw [hrun, settle, carryOut, get_bind_run, bind_run]
  rcases c.plan p.state p.bag with e | change <;> rfl

/-- The entries that a definition has noted when its plan has run. -/
def Definition.entriesOf (d : Definition) : Except FeatureError (Option Change) → List Entry
  | .ok change => change.toList.map fun c => ⟨d.id, d.tag, c.payload⟩
  | .error _ => []

/-- The memory that the latest of some entries holds, or nothing. -/
def latestMemory (entries : List Entry) : Except FeatureError Bag :=
  match entries.getLast? with
  | some entry => entry.memory
  | none => .ok .empty

theorem lastFeature?_eq_getLast? (s : RoundState) (tag : String) :
    s.lastFeature? tag = (s.featuresOf tag).getLast? := by
  rw [RoundState.lastFeature?, RoundState.featuresOf, List.getLast?_eq_head?_reverse,
    ← List.filter_reverse, List.head?_filter]

theorem recorded_eq_latestMemory (channel : Channel) (s : RoundState) :
    channel.recorded s = latestMemory (s.featuresOf channel.tag) := by
  rw [Channel.recorded, lastFeature?_eq_getLast?]
  rfl

/-- A state without entries of the memory records nothing. -/
theorem recorded_of_noEntries {channel : Channel} {s : RoundState}
    (h : s.featuresOf channel.tag = []) : channel.recorded s = .ok .empty := by
  rw [recorded_eq_latestMemory, h]
  rfl

theorem featuresOf_perform {s : RoundState} {d : Definition} {change : Option Change}
    (h : KeepsLedger s change) (tag : String) :
    (s.perform d change).featuresOf tag = s.featuresOf tag ++
      (if d.tag == tag then d.entriesOf (.ok change) else []) := by
  rcases change with _ | change
  · simp [RoundState.perform, Definition.entriesOf]
  · have hledger := h change rfl
    by_cases htag : d.tag == tag <;>
      simp [RoundState.perform, RoundState.withOutcome, RoundState.featuresOf, Outcome.record,
        Definition.entriesOf, hledger, htag]

/-- The change that writes the memory of all stakes with the current bag at the current stake. -/
def storing (s : RoundState) (namespaces current : Bag) : Option Change :=
  if current.isEmpty ∧ namespaces.isEmpty then none
  else some ⟨s.outcome, .obj (namespaces.insert s.stakeKey (.obj current))⟩

/-- The current bag that is written is the one that a feature would have read. -/
theorem rememberMap_eq (s : RoundState) (bag : Bag) : Remember.statefulMap s bag = (do
    let namespaces ← statefulNamespaces s
    let current ← statefulMap s bag
    return storing s namespaces current) := by
  have hlast (namespaces current : Bag) :
      (if current.isEmpty ∧ namespaces.isEmpty then pure none
        else pure (some ⟨s.outcome, .obj (namespaces.insert s.stakeKey (.obj current))⟩) :
          Except FeatureError (Option Change)) = pure (storing s namespaces current) := by
    unfold storing
    split <;> rfl
  unfold Remember.statefulMap statefulMap
  rcases statefulNamespaces s with e | namespaces
  · rfl
  rcases Channel.stateful.pending bag with e | _ | map
  · rfl
  · rcases hread : atStake s namespaces with e | current
    · change (atStake s namespaces >>= _) = ((atStake s namespaces) >>= _)
      rw [hread]
      rfl
    · change (atStake s namespaces >>= _) = ((atStake s namespaces) >>= _)
      rw [hread]
      exact hlast namespaces current
  · exact hlast namespaces map

variable {σ : Type} [RandomSource σ]

/-- The atoms of a feature leave the entries of other tags alone, and the stake and the link to the
round before, unless they take over a step. -/
theorem Atom.other_entries {τ : Type} [RandomSource τ] {d : Definition} {e : Effect} {α : Type}
    {act : RoundState → Bag → PlanM σ (α × RoundState × Bag)}
    {act' : RoundState → Bag → PlanM τ (α × RoundState × Bag)} (hatom : Atom d e act act')
    (he : e ≠ .replay) {tag : String} (hd : d.tag ≠ tag) {s s' : RoundState} {bag bag' : Bag}
    {a : α} {x x' : σ} (hrun : act s bag x = (.ok (a, s', bag'), x')) :
    s'.stake = s.stake ∧ s'.stateful = s.stateful ∧ s'.featuresOf tag = s.featuresOf tag := by
  by_cases hsequel : e.isSequel
  · obtain ⟨hstake, hlink, houtcome⟩ := hatom.sequel_frame hsequel he hrun
    exact ⟨hstake, hlink, by rw [RoundState.featuresOf, houtcome]; rfl⟩
  · obtain ⟨change, hkeeps, hchange⟩ := hatom.exists_change (eq_false_of_ne_true hsequel) s bag
      _ ⟨x, x', hrun⟩
    obtain rfl : s' = s.perform d change := hchange
    refine ⟨?_, ?_, ?_⟩
    · rcases change with _ | change <;> rfl
    · rcases change with _ | change <;> rfl
    · rw [featuresOf_perform hkeeps, if_neg (by simpa using hd), List.append_nil]

/-! ### The memory of one stake -/

/-- The state at another stake. -/
def RoundState.withStake (s : RoundState) (stake : Float) : RoundState := { s with stake := stake }

theorem RoundState.stakeKey_withStake (s : RoundState) (stake : Float) :
    (s.withStake stake).stakeKey = fixedText 3 stake := rfl

/-- The memory under a key among that of all stakes. -/
def memoryAt (namespaces : Bag) (key : String) : Except ParamError Bag := do
  return (← namespaces.find .bag key).getD .empty

theorem atStake_eq (s : RoundState) (namespaces : Bag) :
    atStake s namespaces = liftM (memoryAt namespaces s.stakeKey) := by
  rw [atStake, memoryAt]
  rcases namespaces.find .bag s.stakeKey with e | map <;> rfl

/-- Without a stash the memory of a stake is what the previous round left for it. -/
theorem statefulMap_of_no_stash {s : RoundState} {bag namespaces current : Bag}
    (hbag : Channel.stateful.pending bag = .ok none)
    (hnamespaces : statefulNamespaces s = .ok namespaces)
    (hcurrent : memoryAt namespaces s.stakeKey = .ok current) :
    statefulMap s bag = .ok current := by
  rw [statefulMap, hbag, hnamespaces]
  change atStake s namespaces = _
  rw [atStake_eq, hcurrent]
  rfl

theorem statefulMap_of_stash {bag map : Bag} (s : RoundState)
    (hbag : Channel.stateful.pending bag = .ok (some map)) : statefulMap s bag = .ok map := by
  rw [statefulMap, hbag]
  rfl

/-- A stash that can be read is the memory that features find. -/
theorem eq_obj_of_statefulMap {s : RoundState} {bag map : Bag} {value : Json}
    (h : statefulMap s bag = .ok map) (hvalue : bag.get? Key.statefulStash = some value) :
    value = .obj map := by
  rcases hread : ParamType.bag.read value with _ | pending
  · have hpending : Channel.stateful.pending bag = .error _ := Bag.find_of_unreadable hvalue hread
    rw [statefulMap, hpending] at h
    cases h
  · have hpending : Channel.stateful.pending bag = .ok (some pending) :=
      Bag.find_of_present hvalue hread
    rw [statefulMap_of_stash s hpending] at h
    cases h
    cases value <;> cases hread
    rfl

theorem statefulNamespaces_nextRound (s : RoundState) :
    statefulNamespaces s.nextRound = latestMemory (s.featuresOf memoryTag) :=
  recorded_eq_latestMemory .stateful s.snapshot

/-- A round that is linked to a round without memory finds nothing for any stake. -/
theorem statefulNamespaces_of_noMemory {s previous : RoundState}
    (hlink : s.stateful = some previous) (hprevious : previous.featuresOf memoryTag = []) :
    statefulNamespaces s = .ok .empty := by
  rw [statefulNamespaces, hlink]
  exact recorded_of_noEntries hprevious

/-- Writing the memory of a stake changes that of this stake only. -/
theorem memoryAt_insert (namespaces current : Bag) (key key' : String) :
    memoryAt (namespaces.insert key (.obj current)) key' =
      if key' = key then .ok current else memoryAt namespaces key' := by
  by_cases hkey : key' = key
  · rw [if_pos hkey, memoryAt, Bag.find_of_present (a := current)]
    · rfl
    · rw [Members.get?_insert, if_pos hkey]
    · rfl
  · rw [if_neg hkey, memoryAt, memoryAt, Bag.find, Bag.find, Members.get?_insert, if_neg hkey]

/-- What is stored counts for the next round, and the memory of other stakes stays. -/
theorem memoryAt_storing (s : RoundState) (namespaces current : Bag) (d : Definition) :
    ∃ left, latestMemory (d.entriesOf (.ok (storing s namespaces current))) = .ok left ∧
      ∀ key, memoryAt left key =
        if key = s.stakeKey then .ok current else memoryAt namespaces key := by
  by_cases hempty : current.isEmpty ∧ namespaces.isEmpty
  · obtain rfl := (Members.isEmpty_iff current).mp hempty.1
    obtain rfl := (Members.isEmpty_iff namespaces).mp hempty.2
    refine ⟨.empty, ?_, fun key => (ite_self _).symm⟩
    rw [storing, if_pos hempty]
    rfl
  · refine ⟨namespaces.insert s.stakeKey (.obj current), ?_, fun key => ?_⟩
    · rw [storing, if_neg hempty]
      rfl
    · exact memoryAt_insert namespaces current s.stakeKey key

/-- A feature that writes the memory and does nothing else. -/
def memoryWriter : Definition := ⟨1, memoryTag, .empty, []⟩

/-- A bag to remember. -/
def levelThree : Bag := Bag.empty.insert "Level" (.ofNat 3)

end SlotOutcome
