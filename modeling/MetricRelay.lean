import MetricRelay.Binary64
import MetricRelay.Collector.Basic
import MetricRelay.Collector.Config
import MetricRelay.Collector.Probe
import MetricRelay.Collector.Registry
import MetricRelay.Collector.Script
import MetricRelay.CommandLine.Args
import MetricRelay.CommandLine.LogFilter
import MetricRelay.CommandLine.Service
import MetricRelay.Config.Basic
import MetricRelay.Config.Decoder
import MetricRelay.Config.Encoder
import MetricRelay.Decimal.Layout
import MetricRelay.Decimal.Shortest
import MetricRelay.Destination
import MetricRelay.Duration.Basic
import MetricRelay.Duration.Parser
import MetricRelay.Error
import MetricRelay.Http.Credentials
import MetricRelay.Http.Headers
import MetricRelay.Json.Decoder
import MetricRelay.Json.Document
import MetricRelay.Json.Fault
import MetricRelay.Json.Literal
import MetricRelay.Json.Number
import MetricRelay.Json.Value
import MetricRelay.Main
import MetricRelay.Network
import MetricRelay.Normalizer
import MetricRelay.Proofs.Relay.Course
import MetricRelay.Proofs.Relay.Forwarding
import MetricRelay.Proofs.Relay.Lane
import MetricRelay.Proofs.Relay.Round
import MetricRelay.Proofs.Schedule.Composition
import MetricRelay.Proofs.Schedule.Departures
import MetricRelay.Proofs.Schedule.Finality
import MetricRelay.Proofs.Schedule.Independence
import MetricRelay.Proofs.Schedule.Lane
import MetricRelay.Proofs.Schedule.Names
import MetricRelay.Proofs.Schedule.Replacement
import MetricRelay.Proofs.Schedule.Session
import MetricRelay.Proofs.Schedule.Waiting
import MetricRelay.Proofs.Series.Grouping
import MetricRelay.Proofs.Series.Labels
import MetricRelay.Proofs.Series.Order
import MetricRelay.Proofs.Series.Precedence
import MetricRelay.Proofs.Writer.Accounting
import MetricRelay.Proofs.Writer.Closing
import MetricRelay.Proofs.Writer.Fifo
import MetricRelay.Proofs.Writer.Isolation
import MetricRelay.Proofs.Writer.Session
import MetricRelay.Queue
import MetricRelay.Relay.Basic
import MetricRelay.Relay.Round
import MetricRelay.Relay.Run
import MetricRelay.Sample
import MetricRelay.Schedule.Lane
import MetricRelay.Schedule.Rehearsal
import MetricRelay.Schedule.Scheduler
import MetricRelay.Schedule.Tick
import MetricRelay.Schedule.Timeline
import MetricRelay.SelfMetrics
import MetricRelay.Series
import MetricRelay.Table
import MetricRelay.Text.Blank
import MetricRelay.Text.Digits
import MetricRelay.Text.Hidden
import MetricRelay.Text.Quoted
import MetricRelay.Text.Ranges
import MetricRelay.Text.Utf8
import MetricRelay.Url.Address
import MetricRelay.Url.Basic
import MetricRelay.Url.Domain
import MetricRelay.Url.DomainTable
import MetricRelay.Url.Parser
import MetricRelay.Url.Punycode
import MetricRelay.Value
import MetricRelay.Wire.Field
import MetricRelay.Wire.Snappy
import MetricRelay.Wire.Varint
import MetricRelay.Wire.WriteRequest
import MetricRelay.WireName
import MetricRelay.Writer.Basic
import MetricRelay.Writer.Drain
import MetricRelay.Writer.FanOut
import MetricRelay.Proofs.Schedule.Overlap
import MetricRelay.Proofs.Schedule.Ticks
import MetricRelay.Proofs.Relay.Moves
import MetricRelay.Proofs.Relay.Refusal
import MetricRelay.Proofs.Relay.Tidy
import MetricRelay.Proofs.Relay.Shutdown
import MetricRelay.Proofs.Relay.Silence
import MetricRelay.Proofs.Series.Naming
import MetricRelay.Proofs.Wire.Message
import MetricRelay.Proofs.Wire.RoundTrip
import MetricRelay.Proofs.Collector.Ledger
import MetricRelay.Proofs.Relay.Touch
import MetricRelay.Proofs.Relay.Line
import MetricRelay.Proofs.Relay.Monitoring
import MetricRelay.Proofs.Relay.Pairing
import MetricRelay.Proofs.Relay.Removal
import MetricRelay.Proofs.Writer.Loss
import MetricRelay.Proofs.Writer.Registration
import MetricRelay.Proofs.Text.ByteOrder
import MetricRelay.Proofs.Series.LabelSet
import MetricRelay.Proofs.Series.Layers
import MetricRelay.Proofs.Queue.Fifo
import MetricRelay.Proofs.Schedule.Overrun
import MetricRelay.Proofs.Writer.Admission
import MetricRelay.Proofs.Destination.RequestLines
import MetricRelay.Proofs.Destination.Credentials
import MetricRelay.Proofs.Schedule.History
import MetricRelay.Proofs.Schedule.Lifecycle
import MetricRelay.Proofs.Series.Stages
import MetricRelay.Proofs.Series.ReadBack
import MetricRelay.Proofs.Collector.Probe
import MetricRelay.Proofs.Binary64.Order
import MetricRelay.Proofs.Writer.SelfReport
import MetricRelay.Proofs.Writer.Statuses
import MetricRelay.Proofs.Collector.Entries
import MetricRelay.Proofs.Relay.Timing
import MetricRelay.Proofs.Relay.Deeds
import MetricRelay.Proofs.Relay.Emitter
import MetricRelay.Proofs.Json.Literal
import MetricRelay.Proofs.Json.Number
import MetricRelay.Proofs.Json.Written
import MetricRelay.Proofs.Json.Reading
import MetricRelay.Proofs.Duration.Spans
import MetricRelay.Proofs.Config.RoundTrip
import MetricRelay.Proofs.Series.Sanitizing
import MetricRelay.Proofs.Destination.ErrorBodies
import MetricRelay.Proofs.Collector.Pending
