import SlotOutcome.Proofs.SharedBag
import SlotOutcome.Proofs.StakeMemory

/-!
# Counters in the memory of the stakes

A counter reads the memory of a channel, moves on, and leaves the memory pending in its bag. From
there it has to go all the way up to the root, where the memory of the stakes is written to the
ledger. If bags are written back it does, past all features but one. A trigger that calls its
children for each cell gives them a bag of their own for each cell, and what is pending there is
dropped. The ledger still shows these counts, but nobody remembers them.

```text
  root      ◄─ pending ─ feature      ◄─ pending ─ counter        the count is remembered
  root      ◄─ nothing ─ for each cell ◄─ pending ─ counter       the count is forgotten
```

## Main definitions

* `Tally`: a counter at work, as its bag and the ledger tell of it.
* `writesBack`, `lastCount`: the counts that are remembered.
* `Bag.Holds`: what is pending agrees with the counts so far.
* `counting`: keeping count, as a relation on parts of passes.

## Main results

* `counter_tally`: what one counter does.
* `Bag.Holds.count`: a counter keeps what is pending in agreement with the counts.
* `trigger_keepsCount`: so does every tree.
* `trigger_counts`: the memory of the next round agrees with the ledger.
-/

namespace SlotOutcome

/-! ### Counters at work -/

/-- A counter at work: the feature that counts, and what it has come to. -/
structure Tally where
  visit : Visit
  channel : Channel
  key : String
  increment : Int
  value : Int
  /-- The counter has reached its target. -/
  reached : Bool
  /-- It starts over. -/
  reset : Bool

namespace Tally

/-- The value that is remembered. -/
def left (t : Tally) : Int := if t.reset then 0 else t.value

/-- A counter that neither moves nor reaches its target notes nothing. -/
def noted (t : Tally) : Bool := t.increment != 0 || t.reached

/-- What the counter notes in the ledger. -/
def entries (t : Tally) : List Entry :=
  if t.noted then
    [⟨t.visit.node.id, t.visit.node.tag, Payload.count t.key t.value t.reached⟩]
  else []

/-- The counter works as the bag of its feature says. -/
structure Fits (t : Tally) : Prop where
  channel : Remember.channel t.visit.bag "CounterMemory" .stateful = .ok t.channel
  key : t.visit.bag.require .text "CounterKey" = .ok t.key
  value : -0x8000000000000000 ≤ t.value ∧ t.value < 0x8000000000000000
  reached : ∃ target, t.visit.bag.find .int "Target" = .ok target ∧
    t.reached = target.any (· ≤ t.value)
  reset : t.reset = true ↔
    t.reached = true ∧ t.visit.bag.findD .bool "Reset" false = .ok true

/-- The bag of the feature with a memory pending in which the counter has moved on. -/
def stash (t : Tally) (map : Bag) : Bag :=
  t.channel.stash t.visit.bag (map.insert t.key (.ofInt t.left))

/-- What the counter makes of the memory that it finds in a state, and what it notes. -/
structure Moves (t : Tally) (s : RoundState) (change : Option Change) (left : Bag) : Prop where
  change_eq : change =
    if t.noted then some ⟨s.outcome, Payload.count t.key t.value t.reached⟩ else none
  memory : ∃ map old, t.channel.read s t.visit.bag = .ok map ∧ map.findD .int t.key 0 = .ok old ∧
    t.value = Remember.addWithin old t.increment ∧
    (left = t.stash map ∨ ∃ flag, left = (t.stash map).insert flag (.bool true))

end Tally

/-- The key and the value that an entry of a counter tells. -/
def Entry.count? (e : Entry) : Option (String × Int) := do
  let data ← e.data.toBag?
  let key ← (← data.get? "Key").toText?
  let value ← (← data.get? "Value").toInt?
  some (key, value)

/-- The entry of a counter tells its key and its value. -/
theorem Tally.Fits.count?_of_mem {t : Tally} (h : t.Fits) {e : Entry} (he : e ∈ t.entries) :
    e.count? = some (t.key, t.value) := by
  unfold Tally.entries at he
  split at he
  · obtain rfl := List.mem_singleton.mp he
    have hvalue := Json.toInt?_ofInt h.value
    have hfield (name : String) : Members.get? (Members.ofList [("Key", .str t.key),
        ("Value", .ofInt t.value), ("Reached", .bool t.reached)]) name = _ :=
      Members.get?_ofList _ name
    change (do
      let key ← (← Members.get? (Members.ofList _) "Key").toText?
      let value ← (← Members.get? (Members.ofList _) "Value").toInt?
      some (key, value)) = _
    rw [hfield, hfield]
    change (do
      let value ← (Json.ofInt t.value).toInt?
      some (t.key, value)) = _
    rw [hvalue]
    rfl
  · cases he

theorem Remember.addWithin_zero {n : Int} (h : -0x8000000000000000 ≤ n ∧ n < 0x8000000000000000) :
    addWithin n 0 = n := by
  unfold addWithin
  omega

theorem Tally.Fits.left_bounds {t : Tally} (h : t.Fits) :
    -0x8000000000000000 ≤ t.left ∧ t.left < 0x8000000000000000 := by
  unfold Tally.left
  split
  · omega
  · exact h.value

/-- A counter that is not noted has not moved. -/
theorem Tally.Fits.left_of_not_noted {t : Tally} (h : t.Fits) (hnoted : ¬t.noted) {map : Bag}
    {old : Int} (hold : map.findD .int t.key 0 = .ok old)
    (hvalue : t.value = Remember.addWithin old t.increment) : t.left = old := by
  obtain ⟨hstill, hreached⟩ : t.increment = 0 ∧ t.reached = false := by
    simpa [Tally.noted] using hnoted
  have hreset : t.reset = false := by
    refine Bool.eq_false_iff.mpr fun hreset => ?_
    rw [(h.reset.mp hreset).1] at hreached
    cases hreached
  have hbounds := Bag.findD_yields ParamType.int_ensures (by decide) old hold
  rw [Tally.left, hreset, if_neg Bool.false_ne_true, hvalue, hstill]
  exact Remember.addWithin_zero hbounds

/-- What a counter does once it has decided what to remember and which flag to raise. -/
private theorem Tally.Fits.ends {t : Tally} (hfits : t.Fits) {s : RoundState} {map : Bag}
    {old : Int} (hmap : t.channel.read s t.visit.bag = .ok map) (hold : map.findD .int t.key 0 = .ok old)
    (hvalue : t.value = Remember.addWithin old t.increment) {left : Bag}
    (hleft : left = t.stash map ∨ ∃ flag, left = (t.stash map).insert flag (.bool true)) :
    Yields (fun result => ∃ t' : Tally, t'.visit = t.visit ∧ t'.Fits ∧
        t'.Moves s result.1 result.2)
      (if t.increment = 0 ∧ (!t.reached) = true then pure (none, left)
        else pure (some ⟨s.outcome, Payload.count t.key t.value t.reached⟩, left) :
          Except FeatureError (Option Change × Bag)) := by
  have hmoves (change : Option Change) (hchange : change =
      if t.noted then some ⟨s.outcome, Payload.count t.key t.value t.reached⟩ else none) :
      t.Moves s change left := ⟨hchange, map, old, hmap, hold, hvalue, hleft⟩
  split
  · next hquiet =>
    refine .pure ⟨t, rfl, hfits, hmoves _ ?_⟩
    rw [if_neg (by simpa [Tally.noted] using hquiet)]
  · next hmoved =>
    refine .pure ⟨t, rfl, hfits, hmoves _ ?_⟩
    rw [if_pos]
    rcases hreached : t.reached with _ | _
    · simpa [Tally.noted, hreached] using hmoved
    · simp [Tally.noted, hreached]

/-- What a counter does is a tally. -/
theorem counter_tally (s : RoundState) (v : Visit) :
    Yields (fun result => ∃ t : Tally, t.visit = v ∧ t.Fits ∧ t.Moves s result.1 result.2)
      (Remember.counter s v.bag) := by
  refine .bind (yields_eq _) fun channel hchannel => ?_
  refine .bind (.lift_param (yields_eq _)) fun key hkey => ?_
  refine .after fun symbol => ?_
  rcases symbol with _ | symbol <;> refine .after fun increment => ?_
  all_goals
    refine .bind (yields_eq _) fun map hmap => ?_
    refine .bind (.lift_param (yields_eq _)) fun old hold => ?_
    refine .bind (.lift_param (yields_eq _)) fun target htarget => ?_
    dsimp only
    rcases hreached : target.any (· ≤ Remember.addWithin old increment)
    · simp only [Bool.false_eq_true, ↓reduceIte]
      refine .bind (.pure (P := (· = false)) rfl) fun reset hreset => ?_
      refine .bind (.pure (P := (· = none)) rfl) fun flag hflag => ?_
      subst hreset hflag
      have hfits : Tally.Fits ⟨v, channel, key, increment, Remember.addWithin old increment, false,
          false⟩ :=
        ⟨hchannel, hkey, Remember.addWithin_bounds old increment, ⟨target, htarget, hreached.symm⟩,
          by simp⟩
      exact hfits.ends hmap hold rfl (.inl rfl)
    · simp only [↓reduceIte]
      refine .bind (.lift_param (yields_eq _)) fun reset hreset => ?_
      refine .after fun flag => ?_
      have hfits : Tally.Fits ⟨v, channel, key, increment, Remember.addWithin old increment, true,
          reset⟩ :=
        ⟨hchannel, hkey, Remember.addWithin_bounds old increment, ⟨target, htarget, hreached.symm⟩,
          by simp [hreset]⟩
      refine hfits.ends hmap hold rfl ?_
      rcases flag with _ | flag
      · exact .inl rfl
      · exact .inr ⟨flag, rfl⟩

/-! ### What is pending -/

/-- Below these definitions bags are written back all the way up, since none of them is a trigger
that gives each cell a bag of its own. -/
def writesBack (above : List Definition) : Bool := above.all (·.tag != "SymbolTrigger")

/-- A noted counter for the memory of the stakes whose bag is written back. -/
def Tally.isKept (t : Tally) : Bool :=
  t.noted && writesBack t.visit.above && t.channel == .stateful

/-- The last of some counters that was noted under a key and whose bag is written back. -/
def lastCount (tallies : List Tally) (key : String) : Option Tally :=
  (tallies.filter fun t => t.isKept && t.key == key).getLast?

theorem lastCount_append (tallies : List Tally) (t : Tally) (key : String) :
    lastCount (tallies ++ [t]) key =
      if t.isKept ∧ t.key = key then some t else lastCount tallies key := by
  rw [lastCount, lastCount, List.filter_append, List.getLast?_append]
  by_cases h : t.isKept ∧ t.key = key
  · simp [h]
  · have hother : (t.isKept && t.key == key) = false := by simpa using h
    rw [if_neg h, List.filter_singleton, hother]
    rfl

theorem lastCount_append_of_closed {tallies more : List Tally}
    (h : ∀ t ∈ more, writesBack t.visit.above = false) (key : String) :
    lastCount (tallies ++ more) key = lastCount tallies key := by
  have hnone : more.filter (fun t => t.isKept && t.key == key) = [] := by
    refine List.filter_eq_nil_iff.mpr fun t ht => ?_
    simp [Tally.isKept, h t ht]
  rw [lastCount, lastCount, List.filter_append, hnone, List.append_nil]

/-- The pending memory of a bag holds a count under a key. What is pending may also have been
replaced by a flag, and then no feature can read it any more. -/
def Bag.HoldsCount (bag : Bag) (key : String) (count : Int) : Prop :=
  ∃ value, bag.get? Key.statefulStash = some value ∧
    ∀ map : Bag, value = .obj map → map.find .int key = .ok (some count)

/-- A bag that collates and holds what counters have left. -/
structure Bag.Holds (bag : Bag) (tallies : List Tally) : Prop where
  collates : bag.Collates
  counts : ∀ key t, lastCount tallies key = some t → bag.HoldsCount key t.left

namespace Bag.Holds

variable {bag bag' : Bag} {tallies : List Tally}

theorem of_get?_eq (h : bag.Holds tallies) (hcollate : bag'.Collates)
    (hstash : ∀ value, bag.get? Key.statefulStash = some value →
      bag'.get? Key.statefulStash = some value) : bag'.Holds tallies := by
  refine ⟨hcollate, fun key t ht => ?_⟩
  obtain ⟨value, hvalue, hcount⟩ := h.counts key t ht
  exact ⟨value, hstash value hvalue, hcount⟩

theorem overlay (h : bag.Holds tallies) (defaults : Bag) :
    (defaults.overlay bag).Holds tallies := by
  refine h.of_get?_eq (h.collates.overlay defaults) fun value hvalue => ?_
  rw [Bag.get?_overlay, hvalue]
  rfl

theorem insert (h : bag.Holds tallies) {key : String} (hcollate : key ≠ Key.collate)
    (hstash : key ≠ Key.statefulStash) (value : Json) :
    Bag.Holds (Members.insert bag key value) tallies := by
  refine h.of_get?_eq ?_ fun value' hvalue => ?_
  · unfold Bag.Collates
    rw [Members.get?_insert, if_neg hcollate.symm]
    exact h.collates
  · rw [Members.get?_insert, if_neg hstash.symm, hvalue]

/-- A flag is raised: it may be the key of collating, which is raised already, and it may replace
what is pending. -/
theorem raise (h : bag.Holds tallies) (flag : String) :
    Bag.Holds (Members.insert bag flag (.bool true)) tallies := by
  by_cases hcollate : flag = Key.collate
  · refine h.of_get?_eq ?_ fun value hvalue => ?_
    · unfold Bag.Collates
      rw [Members.get?_insert, if_pos hcollate.symm]
    · rw [Members.get?_insert, if_neg (by rw [hcollate]; decide), hvalue]
  by_cases hstash : flag = Key.statefulStash
  · refine ⟨?_, fun key t ht => ⟨.bool true, ?_, fun map => nofun⟩⟩
    · unfold Bag.Collates
      rw [Members.get?_insert, if_neg (Ne.symm hcollate)]
      exact h.collates
    · rw [Members.get?_insert, if_pos hstash.symm]
  · exact h.insert hcollate hstash _

/-- A counter that is not kept does not count. -/
theorem append (h : bag.Holds tallies) {t : Tally} (ht : ¬t.isKept) :
    bag.Holds (tallies ++ [t]) := by
  refine ⟨h.collates, fun key t' ht' => h.counts key t' ?_⟩
  rwa [lastCount_append, if_neg fun hkept => ht hkept.1] at ht'

/-- A counter for the memory of the stakes that is kept leaves there what it has come to. One that
is not noted has not moved, so that the last one that was noted still counts. -/
theorem store (h : bag.Holds tallies) {t : Tally} (hfits : t.Fits) {s : RoundState} {map : Bag}
    {old : Int} (hmap : statefulMap s bag = .ok map) (hold : map.findD .int t.key 0 = .ok old)
    (hvalue : t.value = Remember.addWithin old t.increment) (hkept : t.noted → t.isKept) :
    Bag.Holds (Channel.stateful.stash bag (map.insert t.key (.ofInt t.left))) (tallies ++ [t]) := by
  have hpending (key : String) (t' : Tally) (ht' : lastCount tallies key = some t') :
      map.find .int key = .ok (some t'.left) := by
    obtain ⟨value, hstash, hcount⟩ := h.counts key t' ht'
    exact hcount map (eq_obj_of_statefulMap hmap hstash)
  have hlast (t' : Tally) (ht' : lastCount (tallies ++ [t]) t.key = some t') :
      t'.left = t.left := by
    rw [lastCount_append] at ht'
    by_cases hnoted : t.noted
    · rw [if_pos ⟨hkept hnoted, rfl⟩] at ht'
      cases ht'
      rfl
    · rw [if_neg (by simp [Tally.isKept, hnoted])] at ht'
      rw [hfits.left_of_not_noted hnoted hold hvalue]
      rw [Bag.findD, hpending t.key t' ht'] at hold
      cases hold
      rfl
  refine ⟨?_, fun key t' ht' => ⟨.obj (map.insert t.key (.ofInt t.left)), ?_, fun map' hmap' => ?_⟩⟩
  · unfold Bag.Collates
    rw [Channel.stash, Members.get?_insert, if_neg (by decide)]
    exact h.collates
  · exact (Members.get?_insert bag Key.statefulStash _ Key.statefulStash).trans (if_pos rfl)
  · cases hmap'
    by_cases hkey : key = t.key
    · subst hkey
      rw [hlast t' ht']
      refine Bag.find_of_present ?_ (ParamType.int_read_ofInt hfits.left_bounds)
      rw [Members.get?_insert, if_pos rfl]
    · rw [lastCount_append, if_neg fun hcounts => hkey hcounts.2.symm] at ht'
      rw [← hpending key t' ht', Bag.find, Bag.find, Members.get?_insert, if_neg hkey]

/-- A counter whose bag is written back leaves there what it has come to. -/
theorem count {t : Tally} (h : t.visit.bag.Holds tallies) (hfits : t.Fits) {s : RoundState}
    {change : Option Change} {left : Bag} (hmoves : t.Moves s change left)
    (hwritten : writesBack t.visit.above = true) : left.Holds (tallies ++ [t]) := by
  obtain ⟨map, old, hmap, hold, hvalue, hleft⟩ := hmoves.memory
  suffices hstash : (t.stash map).Holds (tallies ++ [t]) by
    rcases hleft with rfl | ⟨flag, rfl⟩
    · exact hstash
    · exact hstash.raise flag
  unfold Tally.stash
  rcases hchannel : t.channel with _ | _ <;> rw [hchannel] at hmap
  · exact h.store hfits hmap hold hvalue fun hnoted => by
      simp [Tally.isKept, hnoted, hwritten, hchannel]
  · exact (h.insert (by decide) (by decide) _).append (by simp [Tally.isKept, hchannel])

end Bag.Holds

/-! ### Counters in passes -/

/-- A visit of a counter. -/
def Visit.isCounter (v : Visit) : Bool := v.node.tag == "Counter"

/-- A feature that holds symbols in place and remembers them in the memory of the stakes. -/
def Visit.SticksToStake (v : Visit) : Prop :=
  v.node.tag = "StickySymbols" ∧
    Remember.channel v.bag "StickyMemory" .stateless = .ok .stateful

variable {σ : Type}

/-- What was triggered from one point of a pass to another, and the counters among that. -/
structure Tallied (p q : Pass σ) (new : List Visit) (tallies : List Tally) : Prop where
  visits : q.visits = new ++ p.visits
  counters : tallies.map Tally.visit = (new.filter Visit.isCounter).reverse
  fits : ∀ t ∈ tallies, t.Fits
  ledger : q.state.featuresOf "Counter" =
    p.state.featuresOf "Counter" ++ tallies.flatMap Tally.entries

namespace Tallied

variable {p q r : Pass σ} {new new' : List Visit} {tallies tallies' : List Tally}

theorem of_same (hvisits : q.visits = p.visits)
    (hledger : q.state.featuresOf "Counter" = p.state.featuresOf "Counter") : Tallied p q [] [] :=
  ⟨hvisits, rfl, fun _ ht => absurd ht List.not_mem_nil, hledger.trans (List.append_nil _).symm⟩

theorem trans (h : Tallied p q new tallies) (h' : Tallied q r new' tallies') :
    Tallied p r (new' ++ new) (tallies ++ tallies') := by
  refine ⟨?_, ?_, ?_, ?_⟩
  · rw [h'.visits, h.visits, List.append_assoc]
  · rw [List.map_append, h.counters, h'.counters, List.filter_append, List.reverse_append]
  · exact List.forall_mem_append.mpr ⟨h.fits, h'.fits⟩
  · rw [h'.ledger, h.ledger, List.flatMap_append, List.append_assoc]

/-- The counters are among what was triggered. -/
theorem visit_mem (h : Tallied p q new tallies) {t : Tally} (ht : t ∈ tallies) : t.visit ∈ new := by
  have hmem : t.visit ∈ (new.filter Visit.isCounter).reverse :=
    h.counters ▸ List.mem_map_of_mem ht
  exact List.mem_of_mem_filter (List.mem_reverse.mp hmem)

/-- The bag does not matter. -/
theorem withBag (h : Tallied p q new tallies) (bag bag' : Bag) :
    Tallied { p with bag := bag } { q with bag := bag' } new tallies :=
  ⟨h.visits, h.counters, h.fits, h.ledger⟩

/-- A feature that is no counter is triggered. -/
theorem of_other {above : List Definition} {d : Definition} {bag : Bag} (hd : d.tag ≠ "Counter")
    (hvisits : q.visits = ⟨above, d, bag⟩ :: p.visits)
    (hledger : q.state.featuresOf "Counter" = p.state.featuresOf "Counter") :
    Tallied p q [⟨above, d, bag⟩] [] := by
  have hother : Visit.isCounter ⟨above, d, bag⟩ = false := by simpa [Visit.isCounter] using hd
  refine ⟨hvisits, ?_, fun _ ht => absurd ht List.not_mem_nil, ?_⟩
  · rw [List.filter_singleton, hother]
    rfl
  · exact hledger.trans (List.append_nil _).symm

end Tallied

/-- From one point of a pass to another the counters are tallied. If bags are written back, the
pending memory holds their values as long as nothing else is remembered for the stake. -/
def Counted (written : Bool) (p q : Pass σ) : Prop :=
  ∃ new tallies, Tallied p q new tallies ∧
    (written = true → (∀ v ∈ new, ¬v.SticksToStake) →
      ∀ earlier, p.bag.Holds earlier → q.bag.Holds (earlier ++ tallies)) ∧
    (written = false → ∀ v ∈ new, writesBack v.above = false)

namespace Counted

variable {written : Bool} {p q r : Pass σ}

/-- Nothing is triggered, and what is pending stays. -/
theorem of_same (htallied : Tallied p q [] [])
    (hholds : ∀ earlier, p.bag.Holds earlier → q.bag.Holds earlier) : Counted written p q := by
  refine ⟨[], [], htallied, fun _ _ earlier hp => ?_, fun _ v hv => absurd hv List.not_mem_nil⟩
  rw [List.append_nil]
  exact hholds earlier hp

/-- One feature is triggered. -/
theorem of_visit {v : Visit} {tallies : List Tally} (htallied : Tallied p q [v] tallies)
    (hholds : writesBack v.above = true → ¬v.SticksToStake →
      ∀ earlier, p.bag.Holds earlier → q.bag.Holds (earlier ++ tallies)) :
    Counted (writesBack v.above) p q :=
  ⟨[v], tallies, htallied, fun hwritten hsticks => hholds hwritten (hsticks v List.mem_cons_self),
    fun hclosed => List.forall_mem_singleton.mpr hclosed⟩

theorem refl (p : Pass σ) : Counted written p p := .of_same (.of_same rfl rfl) fun _ => id

theorem trans (h : Counted written p q) (h' : Counted written q r) : Counted written p r := by
  obtain ⟨new, tallies, htallied, hopen, hclosed⟩ := h
  obtain ⟨new', tallies', htallied', hopen', hclosed'⟩ := h'
  refine ⟨new' ++ new, tallies ++ tallies', htallied.trans htallied', ?_, ?_⟩
  · intro hwritten hsticks earlier hp
    obtain ⟨hlater, hbefore⟩ := List.forall_mem_append.mp hsticks
    rw [← List.append_assoc]
    exact hopen' hwritten hlater _ (hopen hwritten hbefore earlier hp)
  · exact fun hwritten => List.forall_mem_append.mpr ⟨hclosed' hwritten, hclosed hwritten⟩

/-- What is counted with bags that are thrown away leaves what is pending. -/
theorem withBag (h : Counted false p q) (bag : Bag) :
    Counted written { p with bag := bag } { q with bag := bag } := by
  obtain ⟨new, tallies, htallied, -, hclosed⟩ := h
  refine ⟨new, tallies, htallied.withBag bag bag, fun _ _ earlier hp => ⟨hp.collates, ?_⟩,
    fun _ => hclosed rfl⟩
  intro key t ht
  rw [lastCount_append_of_closed fun t ht => hclosed rfl _ (htallied.visit_mem ht)] at ht
  exact hp.counts key t ht

end Counted

/-- A part of a pass keeps count. -/
def KeepsCount (written : Bool) {α : Type} (m : PassM σ α) : Prop :=
  ∀ p a q, m p = (.ok a, q) → Counted written p q

/-- Keeping count, as a relation of a part of a pass with any other. -/
def counting (σ : Type) (written : Bool) : Lockstep σ σ where
  Rel m _ := KeepsCount written m
  pure _ p b q hrun := by
    cases hrun
    exact .refl p
  throw _ p b q hrun := by cases hrun
  bind h hf p b q hrun := by
    obtain ⟨a, p', hm, hrun⟩ := bind_run_eq_ok.mp hrun
    exact (h p a p' hm).trans (hf a p' b q hrun)
  view h p a q hrun := h p p rfl rfl p a q hrun

section Features

variable {written : Bool} {above : List Definition} {d : Definition} {children : List (Child σ)}

theorem withBag_keepsCount {m : PassM σ Unit} (h : KeepsCount false m) (bag : Bag) :
    KeepsCount written (withBag bag m) := by
  intro p a q hrun
  rcases hm : m { p with bag := bag } with ⟨r, q'⟩
  rw [withBag, hm] at hrun
  rcases r with e | ⟨⟩ <;> cases hrun
  exact (h _ () q' hm).withBag p.bag

theorem atCell_keepsCount (h : (counting σ false).Children children children) (position : Nat) :
    KeepsCount written (Trigger.atCell children position) := by
  let L := counting σ written
  change L.Rel (Trigger.atCell children position) (Trigger.atCell children position)
  refine L.view fun p p' hstate hbag => ?_
  rw [hstate, hbag]
  refine L.bind (L.lift (.data _)) fun cell => L.bind (L.lift (.data _)) fun positions => ?_
  have hcell (bag : Bag) :
      L.Rel (withBag bag (fireAll children)) (withBag bag (fireAll children)) :=
    withBag_keepsCount ((counting σ false).fireAll h) bag
  exact L.bind (hcell _) fun _ => L.pure _

variable [RandomSource σ]

/-- Only counters note counts, and of the other features only one may change the pending memory. -/
theorem atomic_keepsCount {e : Effect} (hd : d.tag ≠ "Counter")
    (he : e ∉ [Effect.counter, .stickySymbols, .setParams, .replay]) {α : Type}
    {act act' : RoundState → Bag → PlanM σ (α × RoundState × Bag)} (hatom : Atom d e act act') :
    KeepsCount written (atomic act) := by
  intro p a q hrun
  rw [atomic] at hrun
  rcases hact : act p.state p.bag p.source with ⟨error | ⟨b, s, bag⟩, source⟩ <;>
    rw [hact] at hrun <;> cases hrun
  simp only [List.mem_cons, List.not_mem_nil, or_false, not_or] at he
  obtain ⟨hcounter, hsticky, hset, hreplay⟩ := he
  obtain ⟨-, -, hledger⟩ := hatom.other_entries hreplay hd hact
  refine .of_same (.of_same rfl hledger) fun earlier hp => ?_
  have hleaves : e.Leaves p.bag bag := hatom.leaves p.state p.bag hset _ ⟨p.source, source, hact⟩
  refine hp.of_get?_eq (hatom.collates hset hp.collates p.state _ ⟨p.source, source, hact⟩) ?_
  intro value hvalue
  rw [hleaves.get?_eq hcounter, hvalue]
  cases e <;> first | decide | contradiction

/-! ### Nodes -/

omit [RandomSource σ] in
theorem entered_counted (hd : d.tag ≠ "Counter") (p : Pass σ) :
    Counted (writesBack above) p (d.entered above p) := by
  have htallied : Tallied p (d.entered above p) [⟨above, d, d.params.overlay p.bag⟩] [] :=
    .of_other hd rfl rfl
  refine .of_visit htallied fun _ _ earlier hp => ?_
  rw [List.append_nil]
  exact hp.overlay d.params

/-- A counter is tallied. -/
theorem counter_counted (hd : d.tag = "Counter") {p q : Pass σ}
    (hrun : Effect.counter.run d children (d.entered above p) = (.ok (), q)) :
    Counted (writesBack above) p q := by
  let v : Visit := ⟨above, d, d.params.overlay p.bag⟩
  obtain ⟨change, left, hplan, rfl⟩ := remember_run_ok.mp hrun
  obtain ⟨t, hv, hfits, hmoves⟩ := counter_tally p.state v _ hplan
  have hchange : change =
      if t.noted then some ⟨p.state.outcome, Payload.count t.key t.value t.reached⟩ else none :=
    hmoves.change_eq
  have hkeeps : KeepsLedger p.state change := by
    intro c hc
    rw [hchange] at hc
    split at hc <;> cases hc
    rfl
  have hentries : d.entriesOf (.ok change) = t.entries := by
    rw [hchange, Tally.entries, hv]
    split <;> rfl
  refine .of_visit (show Tallied p _ [v] [t] from ?_) fun hwritten _ earlier hp => ?_
  · refine ⟨rfl, ?_, fun t' ht => ?_, ?_⟩
    · rw [List.filter_singleton, show v.isCounter = true by simpa [Visit.isCounter]]
      exact congrArg (· :: []) hv
    · rwa [List.mem_singleton.mp ht]
    · change (p.state.perform d change).featuresOf "Counter" = _
      rw [featuresOf_perform hkeeps, if_pos (beq_iff_eq.mpr hd), hentries, List.flatMap_singleton]
  · have hbag : t.visit.bag.Holds earlier := by
      rw [hv]
      exact hp.overlay d.params
    exact hbag.count hfits hmoves (by rw [hv]; exact hwritten)

/-- What a feature that holds symbols in place leaves pending is for its channel. -/
theorem sticky_stashes (s : RoundState) (bag : Bag) :
    Yields (fun result => ∃ channel map,
      Remember.channel bag "StickyMemory" .stateless = .ok channel ∧
        result.2 = channel.stash bag map) (Remember.sticky s bag) := by
  refine .after fun id => .bind (yields_eq _) fun channel hchannel => ?_
  refine .after fun key => .after fun map => .after fun applied => .after fun grid => ?_
  exact .ite (.pure ⟨channel, _, hchannel, rfl⟩) (.pure ⟨channel, _, hchannel, rfl⟩)

/-- Holding symbols in place leaves the memory of the stakes alone, unless they are remembered
there. -/
theorem sticky_counted (hd : d.tag = "StickySymbols") {p q : Pass σ}
    (hrun : Effect.stickySymbols.run d children (d.entered above p) = (.ok (), q)) :
    Counted (writesBack above) p q := by
  let v : Visit := ⟨above, d, d.params.overlay p.bag⟩
  obtain ⟨change, left, hplan, rfl⟩ := remember_run_ok.mp hrun
  have hkeeps : KeepsLedger p.state change := (sticky_makes p.state v.bag _ hplan).keepsLedger
  refine .of_visit (v := v) (.of_other (by rw [hd]; decide) rfl ?_) fun _ hsticks earlier hp => ?_
  · change (p.state.perform d change).featuresOf "Counter" = _
    rw [featuresOf_perform hkeeps, hd, if_neg (by decide), List.append_nil]
  · rw [List.append_nil]
    have hentered : v.bag.Holds earlier := hp.overlay d.params
    obtain ⟨channel, map, hchannel, hleft⟩ := sticky_stashes p.state v.bag _ hplan
    obtain rfl : left = channel.stash v.bag map := hleft
    rcases channel with _ | _
    · exact absurd ⟨hd, hchannel⟩ hsticks
    · exact hentered.insert (by decide) (by decide) (.obj map)

theorem writesBack_append (above : List Definition) (d : Definition) :
    writesBack (above ++ [d]) = (writesBack above && d.tag != "SymbolTrigger") := by
  simp [writesBack]

/-- A feature that is neither a counter nor holds symbols in place keeps count if its children do,
those of a trigger with bags of their own. -/
theorem run_keepsCount {e : Effect} (hcreate : Registry.builtin.create d.tag = .ok e)
    (hd : d.tag ∉ ["Counter", "StickySymbols", "SetParams", "Replay", "Play"])
    (h : (counting σ (writesBack (above ++ [d]))).Children children children) :
    KeepsCount (writesBack above) (e.run d children) := by
  have htag : e.tag = d.tag := Registry.tag_of_create_builtin hcreate
  have he : e ∉ [Effect.counter, .stickySymbols, .setParams, .replay, .play] := by
    intro hmem
    exact hd (htag ▸ List.mem_map_of_mem hmem)
  have hatoms : (counting σ (writesBack above)).Atoms d e := fun hatom => by
    refine atomic_keepsCount (fun h => hd ?_) (fun hmem => he ?_) hatom
    · exact h ▸ List.mem_cons_self
    · exact List.mem_append_left [Effect.play] hmem
  rw [writesBack_append] at h
  by_cases hcell : e = .symbolTrigger
  · subst hcell
    rw [← htag, show (Effect.symbolTrigger.tag != "SymbolTrigger") = false from rfl,
      Bool.and_false] at h
    change (counting σ (writesBack above)).Rel (Trigger.byCell d children)
      (Trigger.byCell d children)
    rw [byCell_eq]
    exact (counting σ _).bind (hatoms .seeking) fun positions =>
      (counting σ _).forM (atCell_keepsCount h) positions
  · have hother : (d.tag != "SymbolTrigger") = true := by
      rw [bne_iff_ne]
      exact fun h => hcell (Registry.eq_of_create_builtin hcreate h)
    rw [hother, Bool.and_true] at h
    refine (counting σ _).run h hatoms (fun h => absurd h hcell) fun h => absurd ?_ he
    rw [h]
    decide

/-- A node keeps count if its children do. -/
theorem enter_keepsCount (hd : d.tag ∉ ["SetParams", "Replay", "Play"])
    (h : (counting σ (writesBack (above ++ [d]))).Children children children) :
    KeepsCount (writesBack above) (d.enter .builtin above fun e => e.run d children) := by
  intro p a q hrun
  obtain ⟨e, collate, q', hcreate, hcollate, hwork, rfl⟩ := Definition.enter_run_ok hrun
  have htag : e.tag = d.tag := Registry.tag_of_create_builtin hcreate
  have hfeature : Counted (writesBack above) p q' := by
    by_cases hcounter : e = .counter
    · subst hcounter
      exact counter_counted htag.symm hwork
    by_cases hsticky : e = .stickySymbols
    · subst hsticky
      exact sticky_counted htag.symm hwork
    have hother : d.tag ∉ ["Counter", "StickySymbols"] := by
      simp only [List.mem_cons, List.not_mem_nil, or_false, not_or]
      exact ⟨fun h => hcounter (Registry.eq_of_create_builtin hcreate h),
        fun h => hsticky (Registry.eq_of_create_builtin hcreate h)⟩
    refine (entered_counted (fun h => hother (h ▸ List.mem_cons_self)) p).trans ?_
    refine run_keepsCount hcreate (fun hmem => ?_) h _ () q' hwork
    rcases List.mem_append.mp (show d.tag ∈ ["Counter", "StickySymbols"] ++
      ["SetParams", "Replay", "Play"] from hmem) with hmem | hmem
    · exact hother hmem
    · exact hd hmem
  obtain ⟨new, tallies, htallied, hopen, hclosed⟩ := hfeature
  refine ⟨new, tallies, htallied.withBag p.bag _, fun hwritten hsticks earlier hp => ?_, hclosed⟩
  cases hcollate.symm.trans (Bag.isCollate_eq_true hp.collates)
  exact hopen hwritten hsticks earlier hp

/-- A tree keeps count. -/
theorem trigger_keepsCount (d : Definition)
    (hd : ∀ n ∈ d.nodes, n.tag ∉ ["SetParams", "Replay", "Play"]) (above : List Definition) :
    KeepsCount (writesBack above) (d.trigger .builtin above : PassM σ Unit) := by
  induction d using Definition.induction generalizing above with
  | node d ih =>
    rw [Definition.trigger_eq]
    refine enter_keepsCount (hd d d.mem_nodes_self) (List.forall₂_same.mpr fun child hchild => ?_)
    obtain ⟨c, hc, rfl⟩ := List.mem_map.mp hchild
    exact ⟨rfl, ih c hc (fun n hn => hd n (Definition.mem_nodes_of_mem_features hc hn)) _⟩

/-! ### Into the next round -/

omit [RandomSource σ] in
theorem fireAll_concat (children : List (Child σ)) (child : Child σ) :
    fireAll (children ++ [child]) = fireAll children >>= fun _ => child.trigger := by
  change forM (children ++ [child]) Child.trigger = _
  rw [List.forM_append, List.forM_cons, List.forM_nil]
  change (fireAll children >>= fun _ => child.trigger >>= fun _ => pure ()) = _
  rw [bind_pure_unit]

theorem latestMemory_append {entries more : List Entry} (h : more ≠ []) :
    latestMemory (entries ++ more) = latestMemory more := by
  rw [latestMemory, latestMemory, List.getLast?_append_of_ne_nil _ h]

/-- A feature that writes the memory of the stakes counts nothing, and hands the memory that it
finds on to the next round, if that is not empty. -/
theorem memory_handed_on (hd : d.tag = memoryTag) {p q : Pass σ}
    (hrun : d.enter .builtin above (fun e => e.run d children) p = (.ok (), q)) :
    Tallied p q [⟨above, d, d.params.overlay p.bag⟩] [] ∧
      ∃ current, statefulMap p.state (d.params.overlay p.bag) = .ok current ∧
        (current.isEmpty = false → statefulMap q.state.nextRound .empty = .ok current) := by
  obtain ⟨e, collate, q', hcreate, -, hwork, rfl⟩ := Definition.enter_run_ok hrun
  obtain rfl : e = .statefulMap := Registry.eq_of_create_builtin hcreate hd
  change Channel.stateful.writer.run d children _ = _ at hwork
  rw [Channel.writer_run] at hwork
  rcases hplan : Channel.stateful.plan p.state (d.params.overlay p.bag) with error | change
  · simp only [Definition.entered, hplan] at hwork
    cases hwork
  simp only [Definition.entered, hplan] at hwork
  cases hwork
  have hkeeps : KeepsLedger p.state change := Channel.keepsLedger_plan hplan
  have hstake : (p.state.perform d change).stakeKey = p.state.stakeKey := by
    rcases change with _ | change <;> rfl
  rw [Channel.plan, rememberMap_eq] at hplan
  obtain ⟨namespaces, hnamespaces, hplan⟩ := bind_eq_ok.mp hplan
  obtain ⟨current, hcurrent, hplan⟩ := bind_eq_ok.mp hplan
  obtain rfl : storing p.state namespaces current = change := Except.ok.inj hplan
  refine ⟨.of_other (by rw [hd]; decide) rfl ?_, current, hcurrent, fun hempty => ?_⟩
  · change (p.state.perform d _).featuresOf "Counter" = _
    rw [featuresOf_perform hkeeps, hd, if_neg (by decide), List.append_nil]
  · obtain ⟨left, hleft, hat⟩ := memoryAt_storing p.state namespaces current d
    have hnoted : d.entriesOf (.ok (storing p.state namespaces current)) ≠ [] := by
      rw [storing, if_neg fun h => by rw [hempty] at h; cases h.1]
      exact List.cons_ne_nil _ _
    have hnamespaces : statefulNamespaces
        (p.state.perform d (storing p.state namespaces current)).nextRound = .ok left := by
      rw [statefulNamespaces_nextRound, featuresOf_perform hkeeps, if_pos (beq_iff_eq.mpr hd),
        latestMemory_append hnoted, hleft]
    exact statefulMap_of_no_stash rfl hnamespaces ((hat _).trans (if_pos hstake))

end Features

/-- A tree whose root calls all its children, and the memory of the stakes is written by the last of
them. It sets no parameters and deals with no sequences of steps. -/
structure Definition.WritesMemoryLast (d : Definition) : Prop where
  root : d.tag = "Activator"
  last : ∃ init m, d.features = init ++ [m] ∧ m.tag = memoryTag
  nodes : ∀ n ∈ d.nodes, n.tag ∉ ["SetParams", "Replay", "Play"]

/-- When it is the turn of the last child, all counters have been tallied. -/
theorem Definition.WritesMemoryLast.counted [RandomSource σ] {d : Definition}
    (hd : d.WritesMemoryLast) {p q : Pass σ} (hrun : d.trigger .builtin [] p = (.ok (), q)) :
    ∃ (m : Definition) (p' q' : Pass σ), m.tag = memoryTag ∧ Counted true p p' ∧
      m.trigger .builtin [d] p' = (.ok (), q') ∧ q'.visits = q.visits ∧ q'.state = q.state := by
  obtain ⟨init, m, hfeatures, hm⟩ := hd.last
  rw [Definition.trigger_eq] at hrun
  obtain ⟨e, collate, q', hcreate, -, hwork, rfl⟩ := Definition.enter_run_ok hrun
  obtain rfl : e = .activator := by
    rw [hd.root] at hcreate
    exact (Except.ok.inj hcreate).symm
  change fireAll _ _ = _ at hwork
  rw [hfeatures, List.map_append, List.map_singleton, fireAll_concat] at hwork
  obtain ⟨_, p', hinit, hlast⟩ := bind_run_eq_ok.mp hwork
  have hroot : writesBack ([] ++ [d]) = true := by
    rw [writesBack_append, hd.root]
    decide
  have hchildren : (counting σ true).Children
      (init.map fun c => ⟨c, c.trigger .builtin ([] ++ [d])⟩)
      (init.map fun c => ⟨c, c.trigger .builtin ([] ++ [d])⟩) := by
    refine List.forall₂_same.mpr fun child hchild => ⟨rfl, ?_⟩
    obtain ⟨c, hc, rfl⟩ := List.mem_map.mp hchild
    have hfeature : c ∈ d.features := hfeatures ▸ List.mem_append_left [m] hc
    exact hroot ▸ trigger_keepsCount c
      (fun n hn => hd.nodes n (Definition.mem_nodes_of_mem_features hfeature hn)) ([] ++ [d])
  have hentered : Counted (writesBack []) p (d.entered [] p) :=
    entered_counted (by rw [hd.root]; decide) p
  exact ⟨m, p', q', hm, hentered.trans ((counting σ true).fireAll hchildren _ _ p' hinit), hlast,
    rfl, rfl⟩

/-- The memory of the next round agrees with the ledger. In a tree that writes the memory of the
stakes last, whose caller collates, every counter that was triggered has worked as its bag says, and
together they noted the counts that are new in the ledger. If no feature held symbols in place
through the same memory, then the next round at the stake finds under each key what the last counter
left there that was noted and that is not below a trigger that gives out bags of its own: its value,
or zero if it has started over. -/
theorem trigger_counts [RandomSource σ] {d : Definition} (hd : d.WritesMemoryLast) (source : σ)
    (s : RoundState) {bag : Bag} (hbag : bag.Collates) {p : Pass σ}
    (hrun : trigger .builtin d source s bag = (.ok (), p))
    (hsticks : ∀ v ∈ p.visits, ¬v.SticksToStake) :
    ∃ tallies : List Tally,
      tallies.map Tally.visit = (p.visits.filter Visit.isCounter).reverse ∧
      (∀ t ∈ tallies, t.Fits) ∧
      p.state.featuresOf "Counter" = s.featuresOf "Counter" ++ tallies.flatMap Tally.entries ∧
      ∀ key t, lastCount tallies key = some t →
        ∃ memory, statefulMap p.state.nextRound .empty = .ok memory ∧
          memory.find .int key = .ok (some t.left) := by
  obtain ⟨m, p', q, hm, ⟨new, tallies, htallied, hopen, -⟩, hlast, hvisits, hstate⟩ :=
    hd.counted hrun
  rw [Definition.trigger_eq] at hlast
  obtain ⟨hmemory, current, hcurrent, hnext⟩ := memory_handed_on hm hlast
  have hall := htallied.trans hmemory
  rw [List.append_nil] at hall
  have hnew : p.visits = _ := hvisits.symm.trans (hall.visits.trans (List.append_nil _))
  rw [← hstate]
  refine ⟨tallies, hnew ▸ hall.counters, hall.fits, hall.ledger, fun key t ht => ?_⟩
  have hstart : bag.Holds [] := ⟨hbag, fun key t ht => nomatch ht⟩
  have hholds : p'.bag.Holds tallies :=
    hopen rfl (fun v hv => hsticks v (hnew ▸ List.mem_cons_of_mem _ hv)) [] hstart
  obtain ⟨value, hvalue, hcount⟩ := (hholds.overlay m.params).counts key t ht
  have hfound := hcount current (eq_obj_of_statefulMap hcurrent hvalue)
  refine ⟨current, hnext (Bool.eq_false_iff.mpr fun hempty => ?_), hfound⟩
  obtain rfl := (Members.isEmpty_iff current).mp hempty
  cases hfound

/-- Counts rounds. -/
def roundCounter : Definition := ⟨1, "Activator", .empty, [
  ⟨2, "Counter", Bag.empty.insert "CounterKey" (.str "Rounds"), []⟩,
  ⟨3, memoryTag, .empty, []⟩]⟩

/-- A request for bags to be written back. -/
def collating : Bag := Bag.empty.insert Key.collate (.bool true)

/-- A counter of rounds is remembered: its value in the ledger is that in the next round. -/
theorem trigger_counts_rounds :
    roundCounter.WritesMemoryLast ∧ collating.Collates ∧
    ∃ p memory, trigger .builtin roundCounter (Script.ofDraws []) (RoundState.fresh 1 1).nextRound
        collating = (.ok (), p) ∧
      (∀ v ∈ p.visits, ¬v.SticksToStake) ∧
      (p.state.featuresOf "Counter").map Entry.count? = [some ("Rounds", 1)] ∧
      statefulMap p.state.nextRound .empty = .ok memory ∧
      memory.find .int "Rounds" = .ok (some 1) := by
  rcases hrun : trigger .builtin roundCounter (Script.ofDraws []) (RoundState.fresh 1 1).nextRound
    collating with ⟨r, p⟩
  have hr : (trigger .builtin roundCounter (Script.ofDraws []) (RoundState.fresh 1 1).nextRound
    collating).1 = .ok () := by decide +kernel
  have hsticks : ∀ v ∈ (trigger .builtin roundCounter (Script.ofDraws [])
      (RoundState.fresh 1 1).nextRound collating).2.visits, v.node.tag ≠ "StickySymbols" := by
    decide +kernel
  have hcounters : ∀ v ∈ (trigger .builtin roundCounter (Script.ofDraws [])
      (RoundState.fresh 1 1).nextRound collating).2.visits.filter Visit.isCounter,
        writesBack v.above = true ∧
          Remember.channel v.bag "CounterMemory" .stateful = .ok .stateful ∧
          v.bag.find .int "Target" = .ok none := by decide +kernel
  have hcount : ((trigger .builtin roundCounter (Script.ofDraws [])
      (RoundState.fresh 1 1).nextRound collating).2.state.featuresOf "Counter").map Entry.count? =
        [some ("Rounds", 1)] := by decide +kernel
  have hlength : ((trigger .builtin roundCounter (Script.ofDraws [])
      (RoundState.fresh 1 1).nextRound collating).2.visits.filter Visit.isCounter).length = 1 := by
    decide +kernel
  rw [hrun] at hr hsticks hcounters hcount hlength
  obtain rfl : r = .ok () := hr
  have hsticks' : ∀ v ∈ p.visits, ¬v.SticksToStake := fun v hv hstick => hsticks v hv hstick.1
  have hd : roundCounter.WritesMemoryLast := ⟨rfl, ⟨[_], _, rfl, rfl⟩, by decide⟩
  obtain ⟨tallies, hvisits, hfits, hledger, hmemory⟩ :=
    trigger_counts hd _ _ (show collating.Collates from rfl) hrun hsticks'
  obtain ⟨t, rfl⟩ : ∃ t, tallies = [t] := by
    refine List.length_eq_one_iff.mp ?_
    rw [← List.length_map (f := Tally.visit), hvisits, List.length_reverse, hlength]
  have ht : t.Fits := hfits t List.mem_cons_self
  obtain ⟨hwritten, hchannel, htarget⟩ := hcounters t.visit (List.mem_reverse.mp
    (hvisits ▸ List.mem_map_of_mem List.mem_cons_self))
  have hcounted := hcount
  rw [hledger, List.flatMap_singleton] at hcounted
  obtain ⟨e, he, htold⟩ := List.mem_map.mp (hcounted ▸ List.mem_cons_self)
  obtain ⟨hkey, hvalue⟩ := Prod.mk.inj (Option.some.inj ((ht.count?_of_mem he).symm.trans htold))
  have hreached : t.reached = false := by
    obtain ⟨target, hfound, hreached⟩ := ht.reached
    cases htarget.symm.trans hfound
    exact hreached
  have hreset : t.reset = false := by
    refine Bool.eq_false_iff.mpr fun hreset => ?_
    cases hreached.symm.trans (ht.reset.mp hreset).1
  have hkept : t.isKept = true := by
    have hnoted : t.noted = true := by
      by_contra hquiet
      rw [Tally.entries, if_neg hquiet] at he
      cases he
    have hstateful : t.channel = .stateful := Except.ok.inj (ht.channel.symm.trans hchannel)
    simp [Tally.isKept, hnoted, hwritten, hstateful]
  obtain ⟨memory, hnext, hfound⟩ := hmemory "Rounds" t
    ((lastCount_append [] t "Rounds").trans (if_pos ⟨hkept, hkey⟩))
  rw [Tally.left, hreset, if_neg Bool.false_ne_true, hvalue] at hfound
  exact ⟨hd, rfl, p, memory, rfl, hsticks', hcount, hnext, hfound⟩

/-- Counts blank cells one by one. -/
def cellCounter : Definition := ⟨1, "Activator", .empty, [
  ⟨2, "SymbolTrigger", Bag.empty.insert "TriggerId" (.ofInt (-1)), [
    ⟨3, "Counter", Bag.empty.insert "CounterKey" (.str "Cells"), []⟩]⟩,
  ⟨4, memoryTag, .empty, []⟩]⟩

/-- The count of cells is noted, but the trigger drops what its children leave pending, so there is
no memory in the next round. -/
theorem count_forgotten_cells :
    cellCounter.WritesMemoryLast ∧ collating.Collates ∧
    (RoundState.fresh 1 1).nextRound.stateful.isSome = true ∧
    ∃ p, trigger .builtin cellCounter (Script.ofDraws []) (RoundState.fresh 1 1).nextRound
        collating = (.ok (), p) ∧
      (∀ v ∈ p.visits, ¬v.SticksToStake) ∧
      (∃ v ∈ p.visits, v.isCounter = true ∧
        Remember.channel v.bag "CounterMemory" .stateful = .ok .stateful) ∧
      (p.state.featuresOf "Counter").map Entry.count? = [some ("Cells", 1)] ∧
      statefulMap p.state.nextRound .empty = .ok .empty := by
  rcases hrun : trigger .builtin cellCounter (Script.ofDraws []) (RoundState.fresh 1 1).nextRound
    collating with ⟨r, p⟩
  have hr : (trigger .builtin cellCounter (Script.ofDraws []) (RoundState.fresh 1 1).nextRound
    collating).1 = .ok () := by decide +kernel
  have hsticks : ∀ v ∈ (trigger .builtin cellCounter (Script.ofDraws [])
      (RoundState.fresh 1 1).nextRound collating).2.visits, v.node.tag ≠ "StickySymbols" := by
    decide +kernel
  have hcounter : ∃ v ∈ (trigger .builtin cellCounter (Script.ofDraws [])
      (RoundState.fresh 1 1).nextRound collating).2.visits, v.isCounter = true ∧
        Remember.channel v.bag "CounterMemory" .stateful = .ok .stateful := by decide +kernel
  have hcount : ((trigger .builtin cellCounter (Script.ofDraws [])
      (RoundState.fresh 1 1).nextRound collating).2.state.featuresOf "Counter").map Entry.count? =
        [some ("Cells", 1)] := by decide +kernel
  have hmemory : ((trigger .builtin cellCounter (Script.ofDraws [])
      (RoundState.fresh 1 1).nextRound collating).2.state.featuresOf memoryTag).length = 0 := by
    decide +kernel
  rw [hrun] at hr hsticks hcounter hcount hmemory
  obtain rfl : r = .ok () := hr
  have hnamespaces : statefulNamespaces p.state.nextRound = .ok .empty := by
    rw [statefulNamespaces_nextRound, List.length_eq_zero_iff.mp hmemory]
    rfl
  exact ⟨⟨rfl, ⟨[_], _, rfl, rfl⟩, by decide⟩, rfl, rfl, p, rfl,
    fun v hv hstick => hsticks v hv hstick.1, hcounter, hcount, statefulMap_of_no_stash rfl hnamespaces rfl⟩

end SlotOutcome
