import MetricRelay.Queue
import MetricRelay.Writer.FanOut

/-!
# The writer

A `Writer` takes samples, turns them into series and queues these for the destinations. It keeps
the table of destinations and the counters. How the queue is drained is in `Writer.Drain`.
-/

namespace MetricRelay

structure WriterSettings where
  queueCapacity : Nat := 1000000
  /-- Series popped at a time. -/
  batchSize : Nat := 1000
  /-- Sleep between looks at an empty queue. -/
  idleInterval : Duration := .ofMillis 400
  /-- Time for the whole final flush. -/
  flushTimeout : Duration := .ofSeconds 10
  deriving DecidableEq, Repr

def WriterSettings.text (s : WriterSettings) : String :=
  s!"WriterSettings \x7b queue_capacity: {s.queueCapacity}, batch_size: {s.batchSize}, " ++
    "idle_interval: " ++ s.idleInterval.text ++ ", flush_timeout: " ++ s.flushTimeout.text ++ " \x7d"

/-- The delivery counters. -/
structure Counters where
  /-- Series offered to the queue. -/
  totalCount : Nat := 0
  /-- Rejected offers. -/
  failCount : Nat := 0
  /-- Series in rejected offers. -/
  failTotal : Nat := 0
  /-- Length of the queue after the last offer. -/
  queueSize : Nat := 0
  /-- Series handed to destinations, once per destination. -/
  writeTotal : Nat := 0
  /-- Series that a destination did not get. -/
  writeFailTotal : Nat := 0
  deriving DecidableEq, Repr

/-- Counts an offer of `count` series, after which the queue has `length`. -/
def Counters.offered (c : Counters) (count : Nat) (admitted : Bool) (length : Nat) : Counters :=
  let c := { c with totalCount := c.totalCount + count, queueSize := length }
  if admitted then c else { c with failCount := c.failCount + 1, failTotal := c.failTotal + count }

/-- What the drain loop is about. Times are in milliseconds. -/
inductive DrainPhase where
  /-- About to look at the queue. -/
  | looking
  | idle (wake : Nat)
  | delivering (f : FanOut) (done : Nat)
  /-- In the final flush, about to look at the queue. -/
  | flushing (deadline : Nat)
  | flushingBatch (deadline : Nat) (f : FanOut) (done : Nat)
  | stopped

structure Writer where
  settings : WriterSettings
  destinations : Table Destination := .empty
  queue : BoundedQueue Series := .empty settings.queueCapacity
  counters : Counters := {}
  /-- How many fan-outs have begun. -/
  fanOuts : Nat := 0
  closing : Bool := false
  drain : DrainPhase := .looking

namespace Writer

/-! ## Destinations -/

/-- Adds or replaces a destination; a bad one leaves the table as it is. -/
def register (w : Writer) (name : String) (options : DestinationOptions)
    (readUrl : Url.Reader := Url.parse) : Except Error Unit × Writer :=
  match Destination.of name options readUrl with
  | .ok d => (.ok (), { w with destinations := w.destinations.insert name d })
  | .error e => (.error e, w)

def deregister (w : Writer) (name : String) : Except Error Unit × Writer :=
  if w.destinations.contains name then
    (.ok (), { w with destinations := w.destinations.erase name })
  else (.error (.notRegistered .destination name), w)

/-! ## Samples -/

/-- Queues the series of the samples, all or none; says whether they were admitted. -/
def writeSamples (w : Writer) (now : Timestamp) (samples : List Sample) : Bool × Writer :=
  if samples = [] then (true, w)
  else
    let series := Series.ofSamples now samples
    let (admitted, queue) := w.queue.pushMany series
    (admitted,
      { w with queue, counters := w.counters.offered series.length admitted queue.size })

/-! ## Fan-outs -/

def beginFanOut (w : Writer) (net : Network) (series : List Series) : FanOut × Writer :=
  (.begin net w.fanOuts w.destinations series, { w with fanOuts := w.fanOuts + 1 })

/-- Counts a completed fan-out. -/
def record (w : Writer) (f : FanOut) : Writer :=
  let c := w.counters
  { w with counters :=
    { c with
      writeTotal := c.writeTotal + f.series.length * f.deliveries.length
      writeFailTotal := c.writeFailTotal + f.series.length * f.report.failed.length } }

/-- Delivers a batch past the queue. -/
def writeSeries (w : Writer) (net : Network) (series : List Series) : DeliveryReport × Writer :=
  let (f, w) := w.beginFanOut net series
  (f.report, w.record f)

def text (w : Writer) : String :=
  "WriterManager \x7b destinations: " ++ Text.quoteList w.destinations.keys ++
    s!", queue_len: {w.queue.size}, settings: " ++ w.settings.text ++ " \x7d"

end Writer

end MetricRelay
