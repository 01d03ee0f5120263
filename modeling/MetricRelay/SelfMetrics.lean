import MetricRelay.Normalizer
import MetricRelay.Writer.Basic

/-!
# Self metrics

The relay reports its own counters and the health of its process through its own normalizer and
queue. `emit` makes one report from the counters as they stand before it.
-/

namespace MetricRelay

/-- The health of the process. -/
structure ProcessStats where
  residentBytes : UInt64
  cpuPercent : Binary64
  uptimeSeconds : UInt64
  deriving DecidableEq, Repr

structure SelfMetrics where
  normalizer : Normalizer
  region : String

namespace SelfMetrics

/-- The source of the samples. -/
def source : String := "monitor_relay"

def sample (metric : String) (value : Value) : Sample := { source, metric, value }

def counterSamples (c : Counters) : List Sample :=
  [("metrics_enqueue_sum", c.totalCount), ("metrics_enqueue_failed_sum", c.failTotal),
    ("metrics_enqueue_failed_count", c.failCount), ("current_queue_size", c.queueSize),
    ("write_total", c.writeTotal), ("write_fail_total", c.writeFailTotal)].map
    fun (metric, n) => sample metric (.uint (UInt64.ofNat n))

def processSamples (p : ProcessStats) : List Sample :=
  [sample "process_resident_memory_bytes" (.uint p.residentBytes),
    sample "process_cpu_usage_percent" (.float p.cpuPercent),
    sample "process_uptime_seconds" (.uint p.uptimeSeconds)]

/-- All samples of one report, before normalization; the health of the process may be unknown. -/
def samples (c : Counters) (process : Option ProcessStats) : List Sample :=
  counterSamples c ++ [sample "up" (.int 1)] ++ process.toList.flatMap processSamples

def labels (m : SelfMetrics) : Labels := Table.empty.insert "region" m.region

/-- One report: how many samples it has, and the writer after it. -/
def emit (m : SelfMetrics) (now : Timestamp) (process : Option ProcessStats) (w : Writer) :
    Nat × Writer :=
  let pending := SampleList.empty.pushMany (samples w.counters process)
  let out := (m.normalizer.process now m.labels pending).1.drain.1
  (out.length, (w.writeSamples now out).2)

end SelfMetrics

end MetricRelay
