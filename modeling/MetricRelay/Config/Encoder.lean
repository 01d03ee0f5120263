import MetricRelay.Config.Basic
import MetricRelay.Json.Value

/-!
# Writing configurations

`Config.json` is the JSON form of a configuration: records are maps of their fields, the options of
a destination stand beside its name, what is not set is left out.
-/

namespace MetricRelay

open Json

/-- Whole seconds, and the nanoseconds beside them. -/
def Duration.json (d : Duration) : Json.Value :=
  .text s!"{d.nanos / nanosPerSecond}s {d.nanos % nanosPerSecond}ns"

def Table.json (t : Table String) : Json.Value := .map (t.entries.map fun (k, v) => (k, .text v))

def DestinationOptions.members (o : DestinationOptions) : List (String × Json.Value) :=
  [("url", .text o.url), ("basic_auth_user", .text o.basicUser),
    ("basic_auth_pass", .text o.basicPassword), ("headers", .list (o.headers.map .text)),
    ("timeout", .number (.natural o.timeout.toNat)),
    ("dial_timeout", .number (.natural o.dialTimeout.toNat)),
    ("max_idle_conns_per_host", .number (.natural o.maxIdlePerHost.toNat))]

def DestinationConfig.json (d : DestinationConfig) : Json.Value :=
  .map (("name", .text d.name) :: d.options.members)

def ModelSpec.json (m : ModelSpec) : Json.Value :=
  .map [("name", .text m.name), ("config", m.config.json)]

def MonitorSpec.json (m : MonitorSpec) : Json.Value :=
  .map [("name", .text m.name), ("model", m.model.json), ("period", m.period.json),
    ("labels", m.labels.json)]

/-- A member that is there only if its value is set. -/
def optionalMember {α : Type} (name : String) (f : α → Json.Value) : Option α → List (String × Json.Value)
  | some a => [(name, f a)]
  | none => []

def Config.json (c : Config) : Json.Value :=
  .map ([("destinations", .list (c.destinations.map DestinationConfig.json)),
      ("monitors", .list (c.monitors.map MonitorSpec.json))] ++
    optionalMember "global_labels" Table.json c.globalLabels ++
    optionalMember "self_metrics_interval" Duration.json c.selfMetricsInterval)

end MetricRelay
