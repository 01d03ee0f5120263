import MetricRelay.Collector.Basic

/-!
# Scripted collectors

A collector that follows a script: checks on its configuration, and for each observation a list of
moves, the last list for all observations to come. It stands in for a data source in rehearsals.
-/

namespace MetricRelay

/-- A reading of the configuration that may fail. -/
inductive Check where
  | require (key : String)
  | flag (key : String)
  | integer (key : String)
  | duration (key : String)
  | fail (e : CollectorError)
  deriving DecidableEq

def Check.run (c : ConfigMap) : Check → Except CollectorError Unit
  | .require key => do let _ ← c.require key
  | .flag key => do let _ ← c.flag key
  | .integer key => do let _ ← c.integer? key
  | .duration key => do let _ ← c.duration? key
  | .fail e => .error e

inductive Move where
  /-- A source that is not given is the collector's name. -/
  | push (source : Option String) (metric : String) (value : Value) (labels : Labels)
  | sleep (millis : Nat)
  | stop (outcome : Outcome)
  deriving DecidableEq

structure Script where
  name : String
  checks : List Check := []
  /-- Configuration keys that become labels. -/
  labelKeys : List String := []
  rounds : List (List Move) := []
  deriving DecidableEq

/-- A script and how far it has come. -/
structure ScriptedCollector where
  script : Script
  labels : Labels := .empty
  gathered : Nat := 0
  deriving DecidableEq

namespace ScriptedCollector

/-- The labels that a configuration gives. -/
def configuredLabels (c : ConfigMap) (keys : List String) : Labels :=
  Table.ofList (keys.filterMap fun k => (c.get? k).map fun v => (k, v))

/-- The checks run in order; the first that fails leaves the labels as they were. -/
def init (c : ConfigMap) (s : ScriptedCollector) : Except CollectorError Unit × ScriptedCollector :=
  match s.script.checks.forM (Check.run c) with
  | .ok _ => (.ok (), { s with labels := configuredLabels c s.script.labelKeys })
  | .error e => (.error e, s)

/-- The moves of an observation, up to the first that ends it. -/
def follow (s : ScriptedCollector) : List Move → Gathering
  | [] => ⟨[], .done⟩
  | .stop outcome :: _ => ⟨[], outcome⟩
  | .sleep n :: r =>
    let g := follow s r
    ⟨.sleep n :: g.actions, g.outcome⟩
  | .push source metric value labels :: r =>
    let g := follow s r
    ⟨.push { source := source.getD s.script.name, metric, value, labels := labels.fill s.labels } ::
      g.actions, g.outcome⟩

/-- The moves of the next observation. -/
def current (s : ScriptedCollector) : List Move :=
  (s.script.rounds[s.gathered]?.or s.script.rounds.getLast?).getD []

instance : Collector ScriptedCollector where
  name s := s.script.name
  init := init
  gather _ s := (s.follow s.current, { s with gathered := s.gathered + 1 })

end ScriptedCollector

end MetricRelay
