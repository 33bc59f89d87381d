import MessagePress.CommandLine.Arguments
import MessagePress.CommandLine.Help
import MessagePress.CommandLine.Program
import MessagePress.Config.Basic
import MessagePress.Config.Defaults
import MessagePress.Config.Document
import MessagePress.Config.Duration
import MessagePress.Config.Load
import MessagePress.Config.Validation
import MessagePress.Delivery.Client
import MessagePress.Delivery.Push
import MessagePress.Delivery.Sink
import MessagePress.Delivery.Stream
import MessagePress.Files.Path
import MessagePress.Files.Tree
import MessagePress.Json.Basic
import MessagePress.Json.Fault
import MessagePress.Json.Printer
import MessagePress.Json.Reader
import MessagePress.Json.Skip
import MessagePress.Log.Level
import MessagePress.Log.Line
import MessagePress.Main
import MessagePress.Number.Binary64
import MessagePress.Number.Shortest
import MessagePress.Number.Text
import MessagePress.Proofs.AcceptedBodies
import MessagePress.Proofs.AcceptedSettings
import MessagePress.Proofs.AlikeDocuments
import MessagePress.Proofs.BatchOffsets
import MessagePress.Proofs.BatchOutcomes
import MessagePress.Proofs.BracePairs
import MessagePress.Proofs.ByteOrder
import MessagePress.Proofs.ByteScans
import MessagePress.Proofs.ByteSlices
import MessagePress.Proofs.CalendarDays
import MessagePress.Proofs.CalendarTexts
import MessagePress.Proofs.CallDiagnostics
import MessagePress.Proofs.CallGrammar
import MessagePress.Proofs.DecodedValues
import MessagePress.Proofs.DecodedViews
import MessagePress.Proofs.DigitCounts
import MessagePress.Proofs.DigitDraws
import MessagePress.Proofs.Draws
import MessagePress.Proofs.DurationTexts
import MessagePress.Proofs.EpochCounts
import MessagePress.Proofs.ExactScaling
import MessagePress.Proofs.FairDraws
import MessagePress.Proofs.FlowDocuments
import MessagePress.Proofs.FlowNodes
import MessagePress.Proofs.FlowRuns
import MessagePress.Proofs.FlowTokens
import MessagePress.Proofs.FormatDetection
import MessagePress.Proofs.FoundNumerals
import MessagePress.Proofs.FreshSessions
import MessagePress.Proofs.GenerationFaults
import MessagePress.Proofs.GregorianDays
import MessagePress.Proofs.Identifiers
import MessagePress.Proofs.Interpolation
import MessagePress.Proofs.JournalOrder
import MessagePress.Proofs.JsonCollections
import MessagePress.Proofs.JsonForms
import MessagePress.Proofs.JsonLayout
import MessagePress.Proofs.JsonStrings
import MessagePress.Proofs.JsonSyntax
import MessagePress.Proofs.KeyDraws
import MessagePress.Proofs.KeyOrder
import MessagePress.Proofs.Lifecycle
import MessagePress.Proofs.LineFraming
import MessagePress.Proofs.ListedPayloads
import MessagePress.Proofs.MemberLists
import MessagePress.Proofs.MessageReading
import MessagePress.Proofs.NumberRange
import MessagePress.Proofs.NumberReading
import MessagePress.Proofs.NumberTexts
import MessagePress.Proofs.NumeralAgreement
import MessagePress.Proofs.NumeralSpans
import MessagePress.Proofs.OpenDocuments
import MessagePress.Proofs.OpenStreams
import MessagePress.Proofs.PartialRuns
import MessagePress.Proofs.PlaceholderCuts
import MessagePress.Proofs.PlainNumerals
import MessagePress.Proofs.PlainScans
import MessagePress.Proofs.PoolBounds
import MessagePress.Proofs.PunctualRuns
import MessagePress.Proofs.PushDelivery
import MessagePress.Proofs.QuotedScans
import MessagePress.Proofs.ReadValues
import MessagePress.Proofs.ReaderSteps
import MessagePress.Proofs.RenderOutcomes
import MessagePress.Proofs.Rounding
import MessagePress.Proofs.RunStatistics
import MessagePress.Proofs.ScanProgress
import MessagePress.Proofs.ScannerSteps
import MessagePress.Proofs.ScheduledRuns
import MessagePress.Proofs.SchedulerRuns
import MessagePress.Proofs.SegmentPrinting
import MessagePress.Proofs.SessionCourse
import MessagePress.Proofs.SessionRecords
import MessagePress.Proofs.SessionReplay
import MessagePress.Proofs.SettingDefaults
import MessagePress.Proofs.ShortestDigits
import MessagePress.Proofs.SignedDecimals
import MessagePress.Proofs.SingleRuns
import MessagePress.Proofs.SingleSessions
import MessagePress.Proofs.SourceTexts
import MessagePress.Proofs.Startup
import MessagePress.Proofs.StringEscapes
import MessagePress.Proofs.TemplateForms
import MessagePress.Proofs.TickAccounts
import MessagePress.Proofs.TickTimes
import MessagePress.Proofs.TimeReading
import MessagePress.Proofs.Timestamps
import MessagePress.Proofs.Trimming
import MessagePress.Proofs.Utf8Coding
import MessagePress.Proofs.ValueReading
import MessagePress.Proofs.WaitBounds
import MessagePress.Proofs.WatchedRuns
import MessagePress.Proofs.WrittenEntries
import MessagePress.Proofs.WrittenSettings
import MessagePress.Random.Digits
import MessagePress.Random.Identifier
import MessagePress.Random.Source
import MessagePress.Schedule.Basic
import MessagePress.Schedule.Scheduler
import MessagePress.Schedule.Session
import MessagePress.Schedule.Task
import MessagePress.Schedule.Watch
import MessagePress.Template.Call
import MessagePress.Template.Document
import MessagePress.Template.Evaluation
import MessagePress.Template.Generation
import MessagePress.Template.JsonDocument
import MessagePress.Template.Load
import MessagePress.Template.Placeholder
import MessagePress.Template.Render
import MessagePress.Text.Blank
import MessagePress.Text.Integer
import MessagePress.Text.Printable
import MessagePress.Text.Quoted
import MessagePress.Text.Similarity
import MessagePress.Text.Utf8
import MessagePress.Time.Calendar
import MessagePress.Time.Format
import MessagePress.Time.Pattern
import MessagePress.Yaml.Cursor
import MessagePress.Yaml.Decode
import MessagePress.Yaml.Event
import MessagePress.Yaml.Fault
import MessagePress.Yaml.Node
import MessagePress.Yaml.Scalar
import MessagePress.Yaml.Source
import MessagePress.Yaml.Token
import MessagePress.Yaml.Token.Directive
import MessagePress.Yaml.Token.Scalar
import MessagePress.Yaml.Token.Stream
