import MetricRelay.Collector.Config
import MetricRelay.Network
import MetricRelay.Sample

/-!
# Collectors

A collector observes one model. Its states are any type of the class `Collector`: `init` takes a
configuration, `gather` says what one observation does, step by step, and how it ends. A collector
that breaks down ends in `broken`, which is reported as a failure like any other.
-/

namespace MetricRelay

/-- One step of an observation. -/
inductive Action where
  | push (s : Sample)
  /-- Waits for a number of milliseconds. -/
  | sleep (millis : Nat)
  deriving DecidableEq

inductive Outcome where
  | done
  | failed (e : CollectorError)
  /-- Broken down, with a text if there is one. -/
  | broken (text : Option String)
  deriving DecidableEq

def Outcome.result : Outcome → Except CollectorError Unit
  | .done => .ok ()
  | .failed e => .error e
  | .broken text => .error (.other ("collector panicked: " ++ text.getD "unknown panic"))

/-- What one observation does; samples pushed before a failure count. -/
structure Gathering where
  actions : List Action
  outcome : Outcome
  deriving DecidableEq

/-- The samples that an observation pushes, in order. -/
def Gathering.samples (g : Gathering) : List Sample :=
  g.actions.filterMap fun
    | .push s => some s
    | .sleep _ => none

/-- How attempts to connect end at some instant. -/
abbrev Connect := String → Eventually (Except String Unit)

class Collector (σ : Type) where
  /-- The model's name, which never changes. -/
  name : σ → String
  init : ConfigMap → σ → Except CollectorError Unit × σ
  gather : Connect → σ → Gathering × σ

end MetricRelay
