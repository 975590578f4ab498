import IntervalStats.Aggregate
import IntervalStats.Binary
import IntervalStats.Characteristic
import IntervalStats.Checked
import IntervalStats.CommandLine.Arguments
import IntervalStats.CommandLine.Tool
import IntervalStats.Config.Basic
import IntervalStats.Config.GroupText
import IntervalStats.Config.Raw
import IntervalStats.Decimal.Layout
import IntervalStats.Decimal.Numeral
import IntervalStats.Decimal.Shortest
import IntervalStats.Event
import IntervalStats.Failure
import IntervalStats.Files
import IntervalStats.Json.Number
import IntervalStats.Json.Token
import IntervalStats.Json.Tree
import IntervalStats.Json.Value
import IntervalStats.LoadError
import IntervalStats.Logged
import IntervalStats.Main
import IntervalStats.Metric.Basic
import IntervalStats.Metric.Delta
import IntervalStats.ModeSet
import IntervalStats.Quantity
import IntervalStats.Rate
import IntervalStats.SniperReport
import IntervalStats.StatDirectory
import IntervalStats.Table
import IntervalStats.Text.Blank
import IntervalStats.Text.DecimalDigit
import IntervalStats.Text.Hidden
import IntervalStats.Text.Pieces
import IntervalStats.Text.Quoted
import IntervalStats.Trace.Basic
import IntervalStats.Trace.Counter
import IntervalStats.Trace.Raw
import IntervalStats.Proofs.Outcome
import IntervalStats.Proofs.ExactQuantity
import IntervalStats.Proofs.TakenCounters
import IntervalStats.Proofs.LoadedTrace
import IntervalStats.Proofs.Gauge
import IntervalStats.Proofs.ExactSum
import IntervalStats.Proofs.Telescoping
import IntervalStats.Proofs.TableEntries
import IntervalStats.Proofs.ReportEntries
import IntervalStats.Proofs.CountedMetric
import IntervalStats.Proofs.AggregatorCounts
import IntervalStats.Proofs.ElementwiseSum
import IntervalStats.Proofs.QuantityArithmetic
import IntervalStats.Proofs.UopRemainder
import IntervalStats.Proofs.Decomposition
import IntervalStats.Proofs.IntervalChange
import IntervalStats.Proofs.IntervalSplit
import IntervalStats.Proofs.ModePartition
import IntervalStats.Proofs.TracePieces
import IntervalStats.Proofs.ModeCompleteness
import IntervalStats.Proofs.ReportCounts
import IntervalStats.Proofs.Conservation
import IntervalStats.Proofs.ReportAgreement
import IntervalStats.Proofs.RejectedIntervals
import IntervalStats.Proofs.ShapeSafety
import IntervalStats.Proofs.FaithfulLoading
import IntervalStats.Proofs.FileContents
import IntervalStats.Proofs.BinaryForm
import IntervalStats.Proofs.BinaryTrace
import IntervalStats.Proofs.JsonToken
import IntervalStats.Proofs.JsonText
import IntervalStats.Proofs.JsonValue
import IntervalStats.Proofs.JsonTrace
import IntervalStats.Proofs.JsonReading
import IntervalStats.Proofs.JsonSize
import IntervalStats.Proofs.GroupLayout
import IntervalStats.Proofs.StorageFormats
import IntervalStats.Proofs.GroupPasses
import IntervalStats.Proofs.GroupStages
import IntervalStats.Proofs.MemberOrder
import IntervalStats.Proofs.SettledValue
import IntervalStats.Proofs.GroupTranslation
import IntervalStats.Proofs.LoadedConfig
import IntervalStats.Proofs.ReportFailures
import IntervalStats.Proofs.ReportLayout
import IntervalStats.Proofs.CacheCharacteristics
import IntervalStats.Proofs.MemoryEntries
import IntervalStats.Proofs.FallingCounters
import IntervalStats.Proofs.TextOrder
import IntervalStats.Proofs.FewerModes
import IntervalStats.Proofs.CounterFindings
import IntervalStats.Proofs.IdleCycles
import IntervalStats.Proofs.LoadFindings
import IntervalStats.Proofs.CharacteristicCodes
import IntervalStats.Proofs.SignedWord
import IntervalStats.Proofs.TrimmedPieces
import IntervalStats.Proofs.ModeText
import IntervalStats.Proofs.ByteOrder
import IntervalStats.Proofs.ConfigChecks
import IntervalStats.Proofs.ErrorWords
import IntervalStats.Proofs.RewrittenConfig
