import Mathlib.Data.List.Induction
import SlotOutcome.Proofs.RememberingTrees

/-!
# When counters reach their targets

A counter that starts over when it reaches its target keeps one number for each stake, which rounds
at other stakes leave alone. A round adds its increment to the number that the last round at its
stake has stored, and stores the sum, or zero if the sum reaches the target. So a counter of rounds
reaches its target in every so many rounds at each stake, however the stakes are mixed.

```text
  target 3
  stake     a   b   a   a   b   a   b
  value     1   1   2   3   2   1   3
  reached               *           *
  stored    1   1   2   0   2   1   0
```

## Main definitions

* `Definition.Counts`: a counter with a target that starts over.
* `Remember.increment`: by how much a counter moves.
* `storedCount`: the number that is stored at a stake after some rounds.
* `CountRun`: rounds that play such counters, with the stake and the increment of each.
* `CountsRound`: what one round does.

## Main results

* `counter_eq`: what a counter does.
* `StoresCounts.round`, `CountRun.storesCounts`: what one more round finds, and what it finds after
  every run.
* `storedCount_eq_emod`: what is stored when rounds are counted.
* `counter_schedule`: the rounds in which a counter reaches its target.
-/

namespace SlotOutcome

/-! ### The feature -/

/-- By how much a counter moves. -/
def Remember.increment (s : RoundState) (bag : Bag) : Except ParamError Int := do
  match ← bag.find .symbol "CountId" with
  | some symbol => return s.outcome.grid.count symbol
  | none => bag.findD .int "Increment" 1

/-- What a counter stores: the value, or zero where it reaches the target. -/
def storedValue (target value : Int) : Int := if target ≤ value then 0 else value

/-- What a counter has done that came to a value. Without a move and short of the target it notes
nothing. -/
def countChange (o : Outcome) (key : String) (target increment value : Int) : Option Change :=
  if increment = 0 ∧ ¬target ≤ value then none
  else some ⟨o, Payload.count key value (decide (target ≤ value))⟩

/-- A counter with a target that starts over, where its memory can be read. -/
theorem counter_eq {s : RoundState} {bag map : Bag} {channel : Channel} {key : String}
    {target increment old : Int}
    (hchannel : Remember.channel bag "CounterMemory" .stateful = .ok channel)
    (hkey : bag.require .text "CounterKey" = .ok key)
    (hincrement : Remember.increment s bag = .ok increment)
    (hmap : channel.read s bag = .ok map) (hold : map.findD .int key 0 = .ok old)
    (htarget : bag.find .int "Target" = .ok (some target))
    (hreset : bag.findD .bool "Reset" false = .ok true)
    (hflag : bag.find .text "ReachedFlag" = .ok none) :
    Remember.counter s bag =
      .ok (countChange s.outcome key target increment (Remember.addWithin old increment),
        channel.stash bag (map.insert key
          (.ofInt (storedValue target (Remember.addWithin old increment))))) := by
  refine bind_eq_ok.mpr ⟨channel, hchannel, bind_eq_ok.mpr ⟨key, congrArg liftM hkey, ?_⟩⟩
  obtain ⟨found, hfound, hincrement⟩ := bind_eq_ok.mp hincrement
  refine bind_eq_ok.mpr ⟨found, congrArg liftM hfound, ?_⟩
  rcases found with _ | symbol
  all_goals
    have hmove := congrArg (Except.mapError fun e => FeatureError.config (.param e)) hincrement
    refine bind_eq_ok.mpr ⟨increment, hmove, bind_eq_ok.mpr ⟨map, hmap, ?_⟩⟩
    refine bind_eq_ok.mpr ⟨old, congrArg liftM hold, ?_⟩
    refine bind_eq_ok.mpr ⟨some target, congrArg liftM htarget, ?_⟩
    rw [countChange, storedValue]
    by_cases hreached : target ≤ Remember.addWithin old increment
    · simp only [Option.any_some, hreached, decide_true, ↓reduceIte]
      refine bind_eq_ok.mpr ⟨true, congrArg liftM hreset, ?_⟩
      refine bind_eq_ok.mpr ⟨none, congrArg liftM ((channel.find_flag_stash _ _).trans hflag), ?_⟩
      simp only [Bool.not_true, Bool.false_eq_true, not_true_eq_false, and_false, ↓reduceIte]
      rfl
    · -- Short of the target neither `Reset` nor the flag is read.
      simp only [Option.any_some, hreached, decide_false, ↓reduceIte]
      refine bind_eq_ok.mpr ⟨false, rfl, bind_eq_ok.mpr ⟨none, rfl, ?_⟩⟩
      by_cases hstill : increment = 0 <;>
        simp only [hstill, Bool.not_false, not_false_eq_true, and_self, false_and, ↓reduceIte] <;>
        rfl

/-- A counter with a target that starts over, for the memory of the stakes. -/
structure Definition.Counts (c : Definition) (key : String) (target : Int) : Prop where
  tag : c.tag = "Counter"
  channel : Remember.channel c.params "CounterMemory" .stateful = .ok .stateful
  key : c.params.require .text "CounterKey" = .ok key
  target : c.params.find .int "Target" = .ok (some target)
  reset : c.params.findD .bool "Reset" false = .ok true
  flag : c.params.find .text "ReachedFlag" = .ok none
  pending : Channel.stateful.pending c.params = .ok none

/-- The settings of a counter: its key, its target, that it starts over, and how it moves. -/
def counterParams (key : String) (target : Int) (move : Bag) : Bag :=
  ((move.insert "CounterKey" (.str key)).insert "Target" (.ofInt target)).insert "Reset"
    (.bool true)

/-- A counter that is told nothing else. -/
theorem Definition.counts_of_params (id : UInt32) (key : String) {target : Int}
    (htarget : -0x8000000000000000 ≤ target ∧ target < 0x8000000000000000) {move : Bag}
    (hmove : ∀ name, name ∉ ["CountId", "Increment"] → move.get? name = none)
    (features : List Definition) :
    Definition.Counts ⟨id, "Counter", counterParams key target move, features⟩ key target := by
  have hget (name : String) : (counterParams key target move).get? name =
      if name = "Reset" then some (.bool true) else if name = "Target" then some (.ofInt target)
      else if name = "CounterKey" then some (.str key) else move.get? name := by
    simp only [counterParams, Members.get?_insert]
  have hnone {α : Type} (type : ParamType α) {name : String}
      (hname : name ∉ ["Reset", "Target", "CounterKey", "CountId", "Increment"]) :
      (counterParams key target move).find type name = .ok none := by
    simp only [List.mem_cons, List.not_mem_nil, or_false, not_or] at hname
    rw [Bag.find, hget, if_neg hname.1, if_neg hname.2.1, if_neg hname.2.2.1,
      hmove name (by simp [hname])]
  constructor
  case tag => rfl
  case channel => rw [Remember.channel, hnone .text (by decide)]; rfl
  case key => exact Bag.require_of_present (hget _) rfl
  case target => exact Bag.find_of_present (hget _) (ParamType.int_read_ofInt htarget)
  case reset => exact Bag.findD_of_present (hget _) rfl false
  case flag => exact hnone .text (by decide)
  case pending => exact hnone .bag (by decide)

/-! ### What is stored -/

/-- The number that is stored at a stake after some rounds, each given by its stake and its
increment: it starts from zero, and only rounds at the stake change it. -/
def storedCount (target : Int) (rounds : List (String × Int)) (stake : String) : Int :=
  rounds.foldl (fun old round =>
    if round.1 = stake then storedValue target (Remember.addWithin old round.2) else old) 0

theorem storedCount_append (target : Int) (rounds : List (String × Int)) (round : String × Int)
    (stake : String) : storedCount target (rounds ++ [round]) stake =
      if round.1 = stake then
        storedValue target (Remember.addWithin (storedCount target rounds stake) round.2)
      else storedCount target rounds stake :=
  List.foldl_concat ..

/-- What is stored fits 64 bits with a sign. -/
theorem storedCount_bounds (target : Int) (rounds : List (String × Int)) (stake : String) :
    -0x8000000000000000 ≤ storedCount target rounds stake ∧
      storedCount target rounds stake < 0x8000000000000000 := by
  induction rounds using List.reverseRecOn with
  | nil =>
    change -0x8000000000000000 ≤ (0 : Int) ∧ (0 : Int) < 0x8000000000000000
    decide
  | append_singleton rounds round ih =>
    rw [storedCount_append]
    split
    · rw [storedValue]
      split
      · decide
      · exact Remember.addWithin_bounds _ _
    · exact ih

section Remainders

variable {target : Int} (htarget : 1 ≤ target ∧ target < 0x8000000000000000)
include htarget

/-- A counter that has come to a remainder by its target moves on to the next number. -/
theorem addWithin_emod (n : Int) : Remember.addWithin (n % target) 1 = n % target + 1 := by
  have hlow : 0 ≤ n % target := Int.emod_nonneg n (by omega)
  have hhigh : n % target < target := Int.emod_lt_of_pos n (by omega)
  rw [Remember.addWithin]
  omega

/-- It stores the next remainder. -/
theorem storedValue_emod (n : Int) : storedValue target (n % target + 1) = (n + 1) % target := by
  have hlow : 0 ≤ n % target := Int.emod_nonneg n (by omega)
  have hhigh : n % target < target := Int.emod_lt_of_pos n (by omega)
  rw [storedValue, ← Int.emod_add_emod]
  split
  · next hreached =>
    have hlast : n % target + 1 = target := by omega
    rw [hlast, Int.emod_self]
  · next hshort => exact (Int.emod_eq_of_lt (by omega) (by omega)).symm

variable {rounds : List (String × Int)} (hones : ∀ round ∈ rounds, round.2 = 1) (stake : String)
include hones

/-- A counter of rounds stores the remainder of their number at the stake by the target. -/
theorem storedCount_eq_emod :
    storedCount target rounds stake = (rounds.countP (·.1 = stake) : Int) % target := by
  induction rounds using List.reverseRecOn with
  | nil => exact (Int.zero_emod target).symm
  | append_singleton rounds round ih =>
    have hrounds := ih fun r hr => hones r (List.mem_append_left _ hr)
    have hone : round.2 = 1 := hones round (List.mem_append_right _ (List.mem_singleton_self _))
    rw [storedCount_append, hrounds, hone, List.countP_append, List.countP_singleton]
    by_cases hstake : round.1 = stake
    · rw [if_pos hstake, addWithin_emod htarget, storedValue_emod htarget, decide_eq_true hstake]
      rfl
    · rw [if_neg hstake, decide_eq_false hstake]
      rfl

/-- It reaches the target in the rounds whose number at the stake the target divides. -/
theorem reached_iff_dvd : target ≤ Remember.addWithin (storedCount target rounds stake) 1 ↔
    target ∣ rounds.countP (·.1 = stake) + 1 := by
  have hlow : 0 ≤ (rounds.countP (·.1 = stake) : Int) % target := Int.emod_nonneg _ (by omega)
  rw [storedCount_eq_emod htarget hones, addWithin_emod htarget, Int.dvd_iff_emod_eq_zero,
    ← storedValue_emod htarget, storedValue]
  split
  · next hreached => exact iff_of_true hreached rfl
  · next hshort => exact iff_of_false hshort (by omega)

end Remainders

/-! ### Rounds -/

/-- What one round does at its stake, where it finds the memory of all stakes and in that of its own
an old number: it adds the increment, notes the value, and stores it or starts over. -/
structure CountsRound (c m : Definition) (key : String) (target increment old : Int)
    (namespaces map : Bag) (s s' : RoundState) : Prop where
  ledger_eq : s'.outcome.ledger = s.outcome.ledger ++
    (if increment = 0 ∧ ¬target ≤ Remember.addWithin old increment then [] else
      [⟨c.id, c.tag, Payload.count key (Remember.addWithin old increment)
        (decide (target ≤ Remember.addWithin old increment))⟩]) ++
    [⟨m.id, m.tag, .obj (namespaces.insert s.stakeKey (.obj (map.insert key
      (.ofInt (storedValue target (Remember.addWithin old increment))))))⟩]
  frame : s' = s.withOutcome { s.outcome with ledger := s'.outcome.ledger }

section Rounds

variable {σ : Type} [RandomSource σ] {c m : Definition} {key : String} {target : Int}

/-- A round succeeds if it finds a number in the memory of its stake, or none. -/
theorem countsRound_run (hc : c.Counts key target) (hm : m.tag = memoryTag) {s : RoundState}
    {namespaces map : Bag} {increment old : Int}
    (hincrement : Remember.increment s c.params = .ok increment)
    (hnamespaces : statefulNamespaces s = .ok namespaces)
    (hmap : memoryAt namespaces s.stakeKey = .ok map) (hold : map.findD .int key 0 = .ok old)
    (id : UInt32) (x : σ) :
    ∃ p, trigger .builtin (remembering id c m) x s .empty = (.ok (), p) ∧
      CountsRound c m key target increment old namespaces map s p.state := by
  have hagree : (c.params.overlay collating).Agree ["CounterMemory", "CounterKey", "CountId",
      "Increment", "Target", "Reset", "ReachedFlag", Key.statefulStash] c.params :=
    agree_overlay_collating c.params (by decide)
  have hchannel : Remember.channel (c.params.overlay collating) "CounterMemory" .stateful =
      .ok .stateful := by
    rw [Remember.channel, hagree.find .text (by decide)]
    exact hc.channel
  have hmove : Remember.increment s (c.params.overlay collating) = .ok increment := by
    rw [Remember.increment, hagree.find .symbol (by decide), hagree.findD .int (by decide)]
    exact hincrement
  have hpending : Channel.stateful.pending (c.params.overlay collating) = .ok none :=
    (hagree.find .bag (by decide)).trans hc.pending
  have hplan := counter_eq hchannel ((hagree.require .text (by decide)).trans hc.key) hmove
    (statefulMap_of_no_stash hpending hnamespaces hmap) hold
    ((hagree.find .int (by decide)).trans hc.target)
    ((hagree.findD .bool (by decide) false).trans hc.reset)
    ((hagree.find .text (by decide)).trans hc.flag)
  obtain ⟨p, hrun, hstate⟩ := remembering_stateful .counter rfl hc.tag hm hplan hnamespaces id x
  refine ⟨p, hrun, ?_⟩
  rw [hstate, storing, if_neg fun hempty => by
    rw [Members.isEmpty_insert] at hempty
    exact absurd hempty.1 Bool.false_ne_true]
  by_cases hquiet : increment = 0 ∧ ¬target ≤ Remember.addWithin old increment
  · rw [countChange, if_pos hquiet]
    constructor
    case ledger_eq =>
      rw [if_pos hquiet, List.append_nil]
      rfl
    case frame => rfl
  · rw [countChange, if_neg hquiet]
    constructor
    case ledger_eq =>
      rw [if_neg hquiet]
      rfl
    case frame => rfl

/-- A state that finds in the memory of every stake what some rounds have stored there. -/
def StoresCounts (key : String) (target : Int) (rounds : List (String × Int)) (s : RoundState) :
    Prop :=
  ∃ namespaces, statefulNamespaces s = .ok namespaces ∧ ∀ stake, ∃ map,
    memoryAt namespaces stake = .ok map ∧
      map.findD .int key 0 = .ok (storedCount target rounds stake)

/-- A state that is linked to a round without memory. -/
theorem storesCounts_nil {s previous : RoundState} (hlink : s.stateful = some previous)
    (hprevious : previous.featuresOf memoryTag = []) : StoresCounts key target [] s :=
  ⟨.empty, statefulNamespaces_of_noMemory hlink hprevious, fun _ => ⟨.empty, rfl, rfl⟩⟩

/-- What one more round does: it counts on from what the last round at its stake has stored, and
leaves the memory of the other stakes alone. -/
theorem StoresCounts.round {rounds : List (String × Int)} {s t : RoundState}
    (h : StoresCounts key target rounds s) (hlink : t.stateful = s.stateful)
    (hc : c.Counts key target) (hm : m.tag = memoryTag) {increment : Int}
    (hincrement : Remember.increment t c.params = .ok increment) (id : UInt32) (x : σ) :
    ∃ p, trigger .builtin (remembering id c m) x t .empty = (.ok (), p) ∧
      (∃ namespaces map, statefulNamespaces t = .ok namespaces ∧
        memoryAt namespaces t.stakeKey = .ok map ∧
        CountsRound c m key target increment (storedCount target rounds t.stakeKey) namespaces map
          t p.state) ∧
      StoresCounts key target (rounds ++ [(t.stakeKey, increment)]) p.state.nextRound := by
  obtain ⟨namespaces, hnamespaces, hstored⟩ := h
  have hnamespaces : statefulNamespaces t = .ok namespaces := by
    rw [← hnamespaces, statefulNamespaces, statefulNamespaces, hlink]
  obtain ⟨map, hmap, hold⟩ := hstored t.stakeKey
  obtain ⟨p, hrun, hround⟩ := countsRound_run hc hm hincrement hnamespaces hmap hold id x
  refine ⟨p, hrun, ⟨namespaces, map, hnamespaces, hmap, hround⟩,
    namespaces.insert t.stakeKey (.obj (map.insert key (.ofInt (storedValue target
      (Remember.addWithin (storedCount target rounds t.stakeKey) increment))))), ?_, ?_⟩
  · rw [statefulNamespaces_nextRound, RoundState.featuresOf, hround.ledger_eq, List.filter_append,
      List.filter_singleton, beq_iff_eq.mpr hm, cond_true, latestMemory, List.getLast?_concat]
    rfl
  · intro stake
    by_cases hstake : stake = t.stakeKey
    · subst hstake
      have hbounds := storedCount_bounds target (rounds ++ [(t.stakeKey, increment)]) t.stakeKey
      rw [storedCount_append, if_pos rfl] at hbounds ⊢
      refine ⟨_, (memoryAt_insert ..).trans (if_pos rfl), ?_⟩
      refine Bag.findD_of_present ?_ (ParamType.int_read_ofInt hbounds) 0
      exact (Members.get?_insert _ _ _ _).trans (if_pos rfl)
    · obtain ⟨map', hmap', hfound⟩ := hstored stake
      refine ⟨map', ((memoryAt_insert ..).trans (if_neg hstake)).trans hmap', ?_⟩
      rw [storedCount_append, if_neg (Ne.symm hstake)]
      exact hfound

/-- Rounds one after another, each linked to the one before, and at any stake: the stake and the
increment of each, and the state of the next one. -/
inductive CountRun (σ : Type) [RandomSource σ] (key : String) (target : Int) (s₀ : RoundState) :
    List (String × Int) → RoundState → Prop
  | start : CountRun σ key target s₀ [] s₀
  | round {rounds : List (String × Int)} {s t : RoundState} {id : UInt32} {c m : Definition}
      {increment : Int} {x : σ} {r : Except FeatureError Unit} {p : Pass σ}
      (before : CountRun σ key target s₀ rounds s) (hlink : t.stateful = s.stateful)
      (hc : c.Counts key target) (hm : m.tag = memoryTag)
      (hincrement : Remember.increment t c.params = .ok increment)
      (hrun : trigger .builtin (remembering id c m) x t .empty = (r, p)) :
      CountRun σ key target s₀ (rounds ++ [(t.stakeKey, increment)]) p.state.nextRound

theorem CountRun.storesCounts {s₀ s : RoundState} {rounds : List (String × Int)}
    (h : CountRun σ key target s₀ rounds s) (h₀ : StoresCounts key target [] s₀) :
    StoresCounts key target rounds s := by
  induction h with
  | start => exact h₀
  | @round rounds s t id c m increment x r p before hlink hc hm hincrement hrun ih =>
    obtain ⟨p', hrun', -, hstores⟩ := ih.round hlink hc hm hincrement id x
    obtain ⟨-, rfl⟩ : Except.ok () = r ∧ p' = p := Prod.mk.inj (hrun'.symm.trans hrun)
    exact hstores

/-- Counters fire on schedule, for each stake. In a run of rounds at any stakes that each play a
counter with a target that starts over, beginning with a state that is linked to a round without
memory, every round succeeds. Its value is the sum of its increment and of what the last round at
its stake has stored, or zero, held within 64 bits. The value is noted, unless the counter has not
moved and is short of the target, and then it is stored, or zero where it has reached the target;
the memory of other stakes stays. So where rounds are counted the target is reached in every so
many rounds at each stake. -/
theorem counter_schedule {s₀ s t previous : RoundState} (hprevious : s₀.stateful = some previous)
    (hnothing : previous.featuresOf memoryTag = []) {rounds : List (String × Int)}
    (hrun : CountRun σ key target s₀ rounds s) (hlink : t.stateful = s.stateful)
    (hc : c.Counts key target) (hm : m.tag = memoryTag) {increment : Int}
    (hincrement : Remember.increment t c.params = .ok increment) {id : UInt32} {x : σ}
    {r : Except FeatureError Unit} {p : Pass σ}
    (hround : trigger .builtin (remembering id c m) x t .empty = (r, p)) :
    r = .ok () ∧
    (∃ namespaces map, statefulNamespaces t = .ok namespaces ∧
      memoryAt namespaces t.stakeKey = .ok map ∧
      CountsRound c m key target increment (storedCount target rounds t.stakeKey) namespaces map
        t p.state) ∧
    (∀ stake, ∃ map,
      statefulMap (p.state.nextRound.withStake stake) .empty = .ok map ∧
      map.findD .int key 0 = .ok (storedCount target (rounds ++ [(t.stakeKey, increment)])
        (p.state.nextRound.withStake stake).stakeKey)) ∧
    (1 ≤ target → increment = 1 → (∀ round ∈ rounds, round.2 = 1) →
      (target ≤ Remember.addWithin (storedCount target rounds t.stakeKey) increment ↔
        target ∣ rounds.countP (·.1 = t.stakeKey) + 1)) := by
  have hstores := hrun.storesCounts (storesCounts_nil hprevious hnothing)
  obtain ⟨p', hround', hdone, namespaces, hnamespaces, hstored⟩ :=
    hstores.round hlink hc hm hincrement id x
  obtain ⟨rfl, rfl⟩ : Except.ok () = r ∧ p' = p := Prod.mk.inj (hround'.symm.trans hround)
  refine ⟨rfl, hdone, fun stake => ?_, fun htarget hone hones => ?_⟩
  · obtain ⟨map, hmap, hfound⟩ := hstored (p'.state.nextRound.withStake stake).stakeKey
    exact ⟨map, statefulMap_of_no_stash rfl hnamespaces hmap, hfound⟩
  · have hbounds := Bag.find_yields ParamType.int_ensures _ hc.target target rfl
    rw [hone]
    exact reached_iff_dvd ⟨htarget, hbounds.2⟩ hones t.stakeKey

end Rounds

/-- Counts rounds, and reaches its target in every second one. -/
def pairCounter : Definition := ⟨2, "Counter", counterParams "Rounds" 2 .empty, []⟩

/-- The second round at a stake reaches the target. -/
theorem counter_schedule_pairs :
    let game := remembering 1 pairCounter memoryWriter
    pairCounter.Counts "Rounds" 2 ∧ ∃ p q : Pass Script,
      trigger .builtin game (.ofDraws []) (RoundState.fresh 1 1).nextRound .empty = (.ok (), p) ∧
      trigger .builtin game (.ofDraws []) p.state.nextRound .empty = (.ok (), q) ∧
      q.state.featuresOf "Counter" = [⟨2, "Counter", Payload.count "Rounds" 2 true⟩] := by
  intro game
  have hcounts : pairCounter.Counts "Rounds" 2 :=
    Definition.counts_of_params 2 "Rounds" (by decide) (fun _ _ => rfl) []
  let s := (RoundState.fresh 1 1).nextRound
  have hprevious : s.stateful = some (RoundState.fresh 1 1).snapshot := rfl
  have hone (t : RoundState) : Remember.increment t pairCounter.params = .ok 1 := rfl
  obtain ⟨⟨r, p⟩, hp⟩ : ∃ x, trigger .builtin game (Script.ofDraws []) s .empty = x := ⟨_, rfl⟩
  obtain ⟨rfl, ⟨_, _, -, -, hfirst⟩, -, -⟩ :=
    counter_schedule hprevious rfl .start rfl hcounts rfl (hone s) hp
  have hrun : CountRun Script "Rounds" 2 s ([] ++ [(s.stakeKey, 1)]) p.state.nextRound :=
    .round .start rfl hcounts rfl (hone s) hp
  have hstake : p.state.nextRound.stakeKey = s.stakeKey := by
    change p.state.stakeKey = _
    rw [hfirst.frame]
    rfl
  obtain ⟨⟨r, q⟩, hq⟩ :
    ∃ x, trigger .builtin game (Script.ofDraws []) p.state.nextRound .empty = x := ⟨_, rfl⟩
  obtain ⟨rfl, ⟨_, _, -, -, hsecond⟩, -, -⟩ :=
    counter_schedule hprevious rfl hrun rfl hcounts rfl (hone _) hq
  have hstored : storedCount 2 ([] ++ [(s.stakeKey, 1)]) p.state.nextRound.stakeKey = 1 := by
    rw [storedCount_append, if_pos hstake.symm]
    rfl
  refine ⟨hcounts, p, q, hp, hq, ?_⟩
  rw [RoundState.featuresOf, hsecond.ledger_eq, hstored]
  rfl

end SlotOutcome
