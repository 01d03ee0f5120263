import MetricRelay.CommandLine.Args
import MetricRelay.CommandLine.LogFilter
import MetricRelay.Collector.Probe
import MetricRelay.Config.Decoder
import MetricRelay.Relay.Run

/-!
# The service

`Service.start` sets a relay up from arguments and a configuration: the built-in collectors, then
the destinations, then the monitors, then the self metrics. A destination or monitor that is
rejected is logged, and the rest still starts.
-/

namespace MetricRelay.Service

def name : String := "monitor-relay"

def version : String := "0.1.0"

/-- The target of the log lines. -/
def logTarget : String := "monitor_relay"

def greeting (a : Args) : LogLine :=
  ⟨.info, s!"starting {name} {version} (region={a.region}, leader_elect={a.leaderElect}, " ++
    s!"metrics={a.metricsBindAddress}, health={a.healthProbeBindAddress})"⟩

def farewell : LogLine := ⟨.info, "interrupt received"⟩

def rejected (kind name : String) (e : Error) : LogLine :=
  ⟨.error, s!"{kind} `{name}` rejected: " ++ e.message⟩

/-- A relay with what it has logged. -/
structure Started where
  relay : Relay Probe
  log : List LogLine

/-- Keeps the line of a result that is an error. -/
def Started.after (s : Started) (kind name : String) :
    Except Error Unit × Relay Probe → Started
  | (.ok _, relay) => { s with relay }
  | (.error e, relay) => ⟨relay, s.log ++ [rejected kind name e]⟩

def addDestination (w : Surroundings) (s : Started) (d : DestinationConfig) : Started :=
  s.after "destination" d.name (s.relay.applyDestination d.name d.options w.network.readUrl)

def addMonitor (w : Surroundings) (s : Started) (m : MonitorSpec) : Started :=
  s.after "monitor" m.name (s.relay.perform w (.applyMonitor m))

def start (w : Surroundings) (a : Args) (c : Config) : Started :=
  let relay : Relay Probe := Relay.new a.writerSettings c.effectiveGlobals
  let s : Started := ⟨relay.registerCollector {}, [greeting a]⟩
  let s := c.monitors.foldl (addMonitor w) (c.destinations.foldl (addDestination w) s)
  { s with relay := s.relay.startSelfMetrics a.region c.effectiveInterval }

end MetricRelay.Service
