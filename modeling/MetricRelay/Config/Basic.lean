import MetricRelay.Collector.Config
import MetricRelay.Destination
import MetricRelay.Normalizer

/-!
# The configuration

A `Config` lists the destinations to send to and the monitors to run, with the labels that all
samples get and the interval of the self metrics.
-/

namespace MetricRelay

/-- A collector to use, and what it is configured with. -/
structure ModelSpec where
  name : String
  config : Table String := .empty
  deriving DecidableEq

/-- A collection that is wanted: which model, how often, with which extra labels. -/
structure MonitorSpec where
  /-- Shown in messages only. -/
  name : String := ""
  model : ModelSpec
  period : Duration
  labels : Labels := .empty
  deriving DecidableEq

structure DestinationConfig where
  name : String
  options : DestinationOptions
  deriving DecidableEq

structure Config where
  destinations : List DestinationConfig := []
  monitors : List MonitorSpec := []
  /-- Replaces the default global labels. -/
  globalLabels : Option Labels := none
  selfMetricsInterval : Option Duration := none
  deriving DecidableEq

namespace Config

def defaultInterval : Duration := .ofSeconds 15

/-- The default replaces an interval that is absent or zero. -/
def effectiveInterval (c : Config) : Duration :=
  match c.selfMetricsInterval with
  | some d => if d.isZero then defaultInterval else d
  | none => defaultInterval

def effectiveGlobals (c : Config) : Labels := c.globalLabels.getD Normalizer.defaultGlobals

end Config

end MetricRelay
