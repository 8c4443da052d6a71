import SlotOutcome.Random.Seeded
import SlotOutcome.Round.Run
import SlotOutcome.Settings

/-!
# The engine

An engine plays rounds: it triggers the tree of a game on a state and answers the state that comes
out of it. A round that fails leaves nothing but its error.

Parameters that override outcomes count in developer mode only. In production they are taken out
of the request before the round begins.

## Main definitions

* `prepare`: the parameters that a round may use.
* `playWith`: a round with a given source.
* `Engine`, `Engine.play`: a round with a generator of the pool, or with a forced seed.
-/

namespace SlotOutcome

/-- The parameters that a round may use: outside developer mode, those that force nothing. -/
def prepare (developerMode : Bool) (bag : Bag) : Bag :=
  if developerMode then bag else bag.filter fun key => !key.startsWith Key.forceStem

/-- A round on a tree with parameters that were prepared. -/
def playPrepared {σ : Type} [RandomSource σ] (registry : Registry) (d : Definition)
    (state : RoundState) (bag : Bag) (source : σ) : Except FeatureError RoundState × σ :=
  let (result, pass) := trigger registry d source state bag
  (result.map fun _ => pass.state, pass.source)

/-- A round with a given random source. -/
def playWith {σ : Type} [RandomSource σ] (registry : Registry) (developerMode : Bool)
    (d : Definition) (state : RoundState) (bag : Bag) (source : σ) :
    Except FeatureError RoundState × σ :=
  playPrepared registry d state (prepare developerMode bag) source

/-- An engine with its own pool of generators. -/
structure Engine where
  registry : Registry
  developerMode : Bool
  pool : Pool Seeded

namespace Engine

/-- The seed that an integer forces: its 64 low bits. -/
def forcedSeed (seed : Int) : UInt64 := UInt64.ofNat (seed % UInt64.size).toNat

/-- The seed that a request forces, which it can in developer mode only. -/
def seed? (e : Engine) (bag : Bag) : Except ParamError (Option UInt64) :=
  if e.developerMode then do return (← bag.find .int Key.forceSeed).map forcedSeed
  else .ok none

/-- A round with a generator of the pool, which is returned afterwards, or with a forced seed. -/
def play (e : Engine) (d : Definition) (state : RoundState) (bag : Bag) :
    Except FeatureError RoundState × Engine :=
  let bag := prepare e.developerMode bag
  match e.seed? bag with
  | .error error => (.error (.config error), e)
  | .ok (some seed) => ((playPrepared e.registry d state bag (Seeded.ofSeed seed)).1, e)
  | .ok none =>
    let (loan, pool) := e.pool.get
    let (result, generator) := playPrepared e.registry d state bag loan.generator
    (result, { e with pool := pool.put { loan with generator := generator } })

end Engine

end SlotOutcome
