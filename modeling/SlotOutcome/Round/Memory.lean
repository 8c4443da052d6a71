import SlotOutcome.Round.Plan

/-!
# Memory between rounds and steps

Features remember bags of values on two channels, and the ledger carries them. The stateful
channel links rounds: each ledger holds one bag for each stake key, and a round sees the bag of
its own stake. The stateless channel links the steps of one round.

A feature that changes what is remembered stashes the new bag among its parameters. A pending
stash counts before anything that a ledger holds, and a map feature writes it to the ledger of
the current state, where the next round or step finds it.

## Main definitions

* `Channel`, `Channel.read`, `Channel.stash`.
* `statefulMap`, `statelessMap`, `statefulNamespaces`.
-/

namespace SlotOutcome

/-- A channel of memory. -/
inductive Channel where
  /-- From round to round, for each stake. -/
  | stateful
  /-- From step to step of one round. -/
  | stateless
deriving DecidableEq, Repr

/-- The memory of an entry of a map feature. -/
def Entry.memory (e : Entry) : Except FeatureError Bag :=
  match e.data.toBag? with
  | some bag => .ok bag
  | none => .error (.serialization (e.tag ++ " #" ++ toString e.id ++ ": not a bag"))

namespace Channel

/-- The name of a channel. -/
def name : Channel → String
  | stateful => "Stateful"
  | stateless => "Stateless"

/-- The channel of a name in which the case of ASCII letters does not matter. -/
def parse? (text : String) : Option Channel :=
  [stateful, stateless].find? fun c => c.name.map Char.toLower == text.map Char.toLower

/-- The tag of the map feature that writes a channel to the ledger. -/
def tag : Channel → String
  | stateful => "StatefulMap"
  | stateless => "StatelessMap"

/-- The key of the pending memory of a channel. -/
def stashKey : Channel → String
  | stateful => Key.statefulStash
  | stateless => Key.statelessStash

/-- The bag with the memory of a channel pending. -/
def stash (c : Channel) (bag map : Bag) : Bag := bag.insert c.stashKey (.obj map)

/-- The pending memory of a channel. -/
def pending (c : Channel) (bag : Bag) : Except ParamError (Option Bag) := bag.find .bag c.stashKey

/-- What the ledger of a state holds for a channel, or nothing. -/
def recorded (c : Channel) (s : RoundState) : Except FeatureError Bag :=
  match s.lastFeature? c.tag with
  | some entry => entry.memory
  | none => .ok .empty

end Channel

variable (s : RoundState) (bag : Bag)

/-- The memory of every stake that the previous round left. -/
def statefulNamespaces : Except FeatureError Bag :=
  match s.stateful with
  | some previous => Channel.stateful.recorded previous
  | none => .error (.logic "stateful memory used on a state without a stateful link")

/-- The memory of a stake among that of all stakes. -/
def atStake (namespaces : Bag) : Except FeatureError Bag := do
  return (← namespaces.find .bag s.stakeKey).getD .empty

/-- The memory of the current stake. -/
def statefulMap : Except FeatureError Bag := do
  match ← Channel.stateful.pending bag with
  | some map => pure map
  | none => atStake s (← statefulNamespaces s)

/-- The memory of the current round. Before its second step there is none. -/
def statelessMap : Except FeatureError Bag := do
  match ← Channel.stateless.pending bag with
  | some map => pure map
  | none =>
    match s.stateless with
    | some previous => Channel.stateless.recorded previous
    | none => pure .empty

/-- The memory of a channel. -/
def Channel.read : Channel → Except FeatureError Bag
  | stateful => statefulMap s bag
  | stateless => statelessMap s bag

end SlotOutcome
