import SlotOutcome.Effect.Basic
import SlotOutcome.Effect.Branch
import SlotOutcome.Effect.Cascade
import SlotOutcome.Effect.Paint
import SlotOutcome.Effect.Pay
import SlotOutcome.Effect.Remember
import SlotOutcome.Effect.Reveal
import SlotOutcome.Effect.Spin
import SlotOutcome.Effect.Trigger

/-!
# What features do

The behaviour of every type of feature. A feature either makes a plan, which is carried out and
noted as a whole, or it decides about its children.
-/

namespace SlotOutcome

variable {σ : Type}

/-- Carries out a plan that changes the bag too. -/
def remember (d : Definition)
    (plan : RoundState → Bag → Except FeatureError (Option Change × Bag)) : PassM σ Unit := do
  let p ← get
  let (change, bag) ← plan p.state p.bag
  modifyState (·.perform d change)
  modifyBag fun _ => bag

/-- Carries out a plan without draws. -/
def settle (d : Definition) (plan : RoundState → Bag → Except FeatureError (Option Change)) :
    PassM σ Unit :=
  carryOut d fun s bag => plan s bag

/-- The behaviour of a type of feature, for a definition and its children. -/
def Effect.run [RandomSource σ] (d : Definition) (children : List (Child σ)) :
    Effect → PassM σ Unit
  | activator => fireAll children
  | filterActivator => Branch.filtered children
  | orderedActivator => Branch.ordered children
  | weightedActivator => Branch.weighted d children
  | conditionalActivator => Branch.conditional children
  | probabilityActivator => Branch.byChance children
  | phaseActivator => Branch.inPhases children
  | repeatActivator => Branch.repeated d children
  | setParams => remember d fun _ bag => return (none, ← Remember.setParams bag)
  | reelStops => carryOut d Spin.reels
  | weightedReelset => Spin.reelset d children
  | tileExpansion => settle d Paint.tile
  | expandingWild => settle d Paint.expandAround
  | expandingSymbols => settle d Paint.expandReels
  | replaceTile => settle d Paint.replace
  | randomWilds => carryOut d Paint.randomWilds
  | mysterySymbol => carryOut d Paint.mystery
  | applyPattern => carryOut d Paint.pattern
  | cascade => settle d fun s _ => Cascade.run s
  | countTrigger => Trigger.byCount d children
  | symbolTrigger => Trigger.byCell d children
  | awardFreespins => carryOut d Pay.freespins
  | evaluateWins => settle d Pay.evaluate
  | multiplier => carryOut d Pay.multiply
  | applyMultiplier => settle d Pay.applyMultiplier
  | instantPrize => carryOut d Pay.prize
  | scatterPay => settle d Pay.scatter
  | counter => remember d Remember.counter
  | stickySymbols => remember d Remember.sticky
  | statefulMap => settle d Remember.statefulMap
  | statelessMap => settle d Remember.statelessMap
  | play => Reveal.play children
  | replay => Reveal.replay children
  | replayContinue => Reveal.goOn children
  | replayAbort => Reveal.abort children

end SlotOutcome
