import SlotOutcome.Bag
import SlotOutcome.Decimal.Layout
import SlotOutcome.Decimal.Rounding
import SlotOutcome.Decimal.Shortest
import SlotOutcome.Definition
import SlotOutcome.Definition.Yaml
import SlotOutcome.Effect.Basic
import SlotOutcome.Effect.Branch
import SlotOutcome.Effect.Cascade
import SlotOutcome.Effect.Paint
import SlotOutcome.Effect.Pay
import SlotOutcome.Effect.Remember
import SlotOutcome.Effect.Reveal
import SlotOutcome.Effect.Run
import SlotOutcome.Effect.Spin
import SlotOutcome.Effect.Trigger
import SlotOutcome.Engine
import SlotOutcome.Error
import SlotOutcome.Grid
import SlotOutcome.Json.Basic
import SlotOutcome.Json.Record
import SlotOutcome.Json.Token
import SlotOutcome.Json.Tree
import SlotOutcome.Ledger.Payload
import SlotOutcome.Proofs.Atoms
import SlotOutcome.Proofs.BagLaws
import SlotOutcome.Proofs.BagWrites
import SlotOutcome.Proofs.CascadeMoves
import SlotOutcome.Proofs.Cascades
import SlotOutcome.Proofs.Causes
import SlotOutcome.Proofs.Changes
import SlotOutcome.Proofs.CheckedCascades
import SlotOutcome.Proofs.CheckedEffects
import SlotOutcome.Proofs.CheckedSteps
import SlotOutcome.Proofs.ChildCalls
import SlotOutcome.Proofs.CleanFailures
import SlotOutcome.Proofs.CounterMemory
import SlotOutcome.Proofs.CounterSchedules
import SlotOutcome.Proofs.DefinitionTexts
import SlotOutcome.Proofs.DroppedWilds
import SlotOutcome.Proofs.Earnings
import SlotOutcome.Proofs.EditsInPlace
import SlotOutcome.Proofs.Executions
import SlotOutcome.Proofs.ExpandedReels
import SlotOutcome.Proofs.Faultless
import SlotOutcome.Proofs.ForcedBranches
import SlotOutcome.Proofs.GridAudit
import SlotOutcome.Proofs.GridShapes
import SlotOutcome.Proofs.GridViews
import SlotOutcome.Proofs.GridWrites
import SlotOutcome.Proofs.HeldSymbols
import SlotOutcome.Proofs.JsonTexts
import SlotOutcome.Proofs.Kept
import SlotOutcome.Proofs.KnownTypes
import SlotOutcome.Proofs.LedgerTexts
import SlotOutcome.Proofs.Lockstep
import SlotOutcome.Proofs.LoopsInPlace
import SlotOutcome.Proofs.NamedFailures
import SlotOutcome.Proofs.NearestDoubles
import SlotOutcome.Proofs.Numerals
import SlotOutcome.Proofs.OutcomeLaws
import SlotOutcome.Proofs.OwnedEntries
import SlotOutcome.Proofs.PaintedCells
import SlotOutcome.Proofs.PayloadForms
import SlotOutcome.Proofs.PlanLockstep
import SlotOutcome.Proofs.PoolAccounts
import SlotOutcome.Proofs.PoolOwners
import SlotOutcome.Proofs.PoolSteps
import SlotOutcome.Proofs.Quotations
import SlotOutcome.Proofs.ReadKeys
import SlotOutcome.Proofs.RecordedDraws
import SlotOutcome.Proofs.RememberingTrees
import SlotOutcome.Proofs.ReplayFlags
import SlotOutcome.Proofs.ResolvedSettings
import SlotOutcome.Proofs.Results
import SlotOutcome.Proofs.RevealedSteps
import SlotOutcome.Proofs.RoundMemory
import SlotOutcome.Proofs.Samples
import SlotOutcome.Proofs.SharedBag
import SlotOutcome.Proofs.SiblingSettings
import SlotOutcome.Proofs.SilentPasses
import SlotOutcome.Proofs.SingleHops
import SlotOutcome.Proofs.SpunReels
import SlotOutcome.Proofs.StakeMemory
import SlotOutcome.Proofs.StakeOfSteps
import SlotOutcome.Proofs.StakeRounds
import SlotOutcome.Proofs.StoredRounds
import SlotOutcome.Proofs.TileBlocks
import SlotOutcome.Proofs.WeightedChoices
import SlotOutcome.Proofs.WrittenMemory
import SlotOutcome.Random.Choice
import SlotOutcome.Random.Pool
import SlotOutcome.Random.Seeded
import SlotOutcome.Random.Source
import SlotOutcome.Registry
import SlotOutcome.Round.Evaluator
import SlotOutcome.Round.Memory
import SlotOutcome.Round.Outcome
import SlotOutcome.Round.Pass
import SlotOutcome.Round.Plan
import SlotOutcome.Round.Run
import SlotOutcome.Round.State
import SlotOutcome.Settings
import SlotOutcome.Settings.Yaml
import SlotOutcome.Strip
import SlotOutcome.Text.Blank
import SlotOutcome.Text.Quoted
import SlotOutcome.Text.Unprintable
import SlotOutcome.Yaml.Document
import SlotOutcome.Yaml.Glyph
import SlotOutcome.Yaml.Node
import SlotOutcome.Yaml.Reading
import SlotOutcome.Yaml.Scalar
import SlotOutcome.Yaml.Schema
import SlotOutcome.Yaml.Token
