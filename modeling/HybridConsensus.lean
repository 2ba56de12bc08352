import HybridConsensus.Block
import HybridConsensus.Bytes
import HybridConsensus.Chain.Command
import HybridConsensus.Chain.Lineage
import HybridConsensus.Chain.Store
import HybridConsensus.Chain.Window
import HybridConsensus.CommandLine.Benchmark
import HybridConsensus.CommandLine.Files
import HybridConsensus.CommandLine.Help
import HybridConsensus.CommandLine.Invocation
import HybridConsensus.CommandLine.Options
import HybridConsensus.CommandLine.Run
import HybridConsensus.Config.Basic
import HybridConsensus.Config.Format
import HybridConsensus.Digest.Aes
import HybridConsensus.Digest.Blake3
import HybridConsensus.Digest.Fnv
import HybridConsensus.Digest.Sha256
import HybridConsensus.Digest.Universal
import HybridConsensus.Digest.Words
import HybridConsensus.Engine.Basic
import HybridConsensus.Engine.Calls
import HybridConsensus.Engine.Journaled
import HybridConsensus.Engine.Library
import HybridConsensus.Engine.Recording
import HybridConsensus.Engine.SeedLaw
import HybridConsensus.Engine.Universal
import HybridConsensus.Fixture.Basic
import HybridConsensus.Fixture.Format
import HybridConsensus.Hex
import HybridConsensus.Json.Decoding
import HybridConsensus.Json.Printer
import HybridConsensus.Json.Reader
import HybridConsensus.Json.Value
import HybridConsensus.LogFilter
import HybridConsensus.Main
import HybridConsensus.Node
import HybridConsensus.Params.Basic
import HybridConsensus.Params.Format
import HybridConsensus.Params.Schedule
import HybridConsensus.Pattern.Basic
import HybridConsensus.Pattern.Bracket
import HybridConsensus.Pattern.Escape
import HybridConsensus.Pattern.Reader
import HybridConsensus.PowChecker
import HybridConsensus.ProofCheck
import HybridConsensus.Proofs.ArrivalOrder
import HybridConsensus.Proofs.BitsGrammar
import HybridConsensus.Proofs.BranchDependence
import HybridConsensus.Proofs.BranchSwitch
import HybridConsensus.Proofs.CallEvents
import HybridConsensus.Proofs.CanonicalBits
import HybridConsensus.Proofs.CheckHistory
import HybridConsensus.Proofs.ClampedBits
import HybridConsensus.Proofs.CompactFloor
import HybridConsensus.Proofs.CompactRounding
import HybridConsensus.Proofs.Descent
import HybridConsensus.Proofs.EffectiveParams
import HybridConsensus.Proofs.EngineBalance
import HybridConsensus.Proofs.EngineSteps
import HybridConsensus.Proofs.ExactReading
import HybridConsensus.Proofs.ExponentialMove
import HybridConsensus.Proofs.FirstFailure
import HybridConsensus.Proofs.FixtureBuild
import HybridConsensus.Proofs.FixtureEntries
import HybridConsensus.Proofs.FixtureHeights
import HybridConsensus.Proofs.Forks
import HybridConsensus.Proofs.GrowingSeeds
import HybridConsensus.Proofs.HeightLookup
import HybridConsensus.Proofs.HexDigits
import HybridConsensus.Proofs.HexReaders
import HybridConsensus.Proofs.InheritedBits
import HybridConsensus.Proofs.IntervalSchedule
import HybridConsensus.Proofs.JournaledRun
import HybridConsensus.Proofs.JsonForms
import HybridConsensus.Proofs.JsonLayout
import HybridConsensus.Proofs.JsonRecords
import HybridConsensus.Proofs.JsonTokens
import HybridConsensus.Proofs.KindHistory
import HybridConsensus.Proofs.KindIndependence
import HybridConsensus.Proofs.LinearMove
import HybridConsensus.Proofs.LiveResources
import HybridConsensus.Proofs.MinimumDifficulty
import HybridConsensus.Proofs.ModerateParams
import HybridConsensus.Proofs.MoveLength
import HybridConsensus.Proofs.NecessaryWork
import HybridConsensus.Proofs.ProductRange
import HybridConsensus.Proofs.RequiredBounds
import HybridConsensus.Proofs.ScheduledLimit
import HybridConsensus.Proofs.SeedSelection
import HybridConsensus.Proofs.SeedWindows
import HybridConsensus.Proofs.SeededOutput
import HybridConsensus.Proofs.SeriesBounds
import HybridConsensus.Proofs.SeriesError
import HybridConsensus.Proofs.ShallowReorg
import HybridConsensus.Proofs.StepOrder
import HybridConsensus.Proofs.StoreChanges
import HybridConsensus.Proofs.StoreInvariant
import HybridConsensus.Proofs.TakingIn
import HybridConsensus.Proofs.WindowExchange
import HybridConsensus.Proofs.WindowFormula
import HybridConsensus.Proofs.WindowMargins
import HybridConsensus.Proofs.WindowOrder
import HybridConsensus.Proofs.WindowSamples
import HybridConsensus.Proofs.WindowTally
import HybridConsensus.Proofs.YoungStake
import HybridConsensus.Retarget.Exponential
import HybridConsensus.Retarget.Required
import HybridConsensus.Retarget.Weighted
import HybridConsensus.Seed
import HybridConsensus.SeededChain
import HybridConsensus.Signed64
import HybridConsensus.Target.Basic
import HybridConsensus.Target.Compact
import HybridConsensus.Target.Series
import HybridConsensus.Text
import HybridConsensus.Text.Alphabetic
import HybridConsensus.Text.Numeric
import HybridConsensus.Text.WhiteSpace
