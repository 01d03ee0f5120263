import MetricRelay.Collector.Basic
import MetricRelay.Text.Quoted

/-!
# The registry

The `Registry` holds every registered collector with the list of samples it has pending. Each
registration has a number of its own, so that an observation under way knows whether its model is
still the one it began with.
-/

namespace MetricRelay

structure Model (σ : Type) where
  registration : Nat
  collector : σ
  pending : SampleList := .empty

structure Registry (σ : Type) where
  models : Table (Model σ) := .empty
  /-- How many registrations there have been. -/
  registrations : Nat := 0

namespace Registry

variable {σ : Type} [Collector σ]

/-- Registers a collector under its name; one that was there goes, with its pending samples. -/
def register (r : Registry σ) (collector : σ) : Registry σ where
  models := r.models.insert (Collector.name collector) { registration := r.registrations, collector }
  registrations := r.registrations + 1

/-- Does something with a model, if it is registered. -/
def withModel {α : Type} (r : Registry σ) (model : String) (f : Model σ → α × Model σ) :
    Except Error α × Registry σ :=
  match r.models.get? model with
  | none => (.error (.notRegistered .model model), r)
  | some m =>
    let (a, m) := f m
    (.ok a, { r with models := r.models.insert model m })

/-- Hands a configuration to a model. -/
def initConfig (r : Registry σ) (model : String) (c : ConfigMap) : Except Error Unit × Registry σ :=
  match r.withModel model fun m =>
    let (result, collector) := Collector.init c m.collector
    (result, { m with collector }) with
  | (.ok (.ok _), r) => (.ok (), r)
  | (.ok (.error e), r) => (.error (.configInit model e), r)
  | (.error e, r) => (.error e, r)

/-- Begins an observation: the registration it belongs to, and what it will do. -/
def beginGather (r : Registry σ) (connect : Connect) (model : String) :
    Except Error (Nat × Gathering) × Registry σ :=
  r.withModel model fun m =>
    let (g, collector) := Collector.gather connect m.collector
    ((m.registration, g), { m with collector })

/-- Adds samples to the list of a model, if it is still of that registration. -/
def push (r : Registry σ) (model : String) (registration : Nat) (samples : List Sample) :
    Registry σ :=
  { r with models := r.models.modify model fun m =>
      if m.registration = registration then { m with pending := m.pending.pushMany samples } else m }

/-- How an observation of a model is reported. -/
def gatherResult (model : String) (outcome : Outcome) : Except Error Unit :=
  match outcome.result with
  | .ok _ => .ok ()
  | .error e => .error (.gather model e)

/-- A whole observation. -/
def gather (r : Registry σ) (connect : Connect) (model : String) : Except Error Unit × Registry σ :=
  match r.beginGather connect model with
  | (.error e, r) => (.error e, r)
  | (.ok (registration, g), r) =>
    (gatherResult model g.outcome, r.push model registration g.samples)

/-- An observation only if the configuration is accepted. -/
def initConfigWithGather (r : Registry σ) (connect : Connect) (model : String) (c : ConfigMap) :
    Except Error Unit × Registry σ :=
  match r.initConfig model c with
  | (.ok _, r) => r.gather connect model
  | failed => failed

/-- The pending samples of a model, oldest first. -/
def pending (r : Registry σ) (model : String) : Except Error SampleList :=
  match r.models.get? model with
  | some m => .ok m.pending
  | none => .error (.notRegistered .model model)

/-- Takes all pending samples of a model, oldest first. -/
def drain (r : Registry σ) (model : String) : Except Error (List Sample) × Registry σ :=
  r.withModel model fun m =>
    let (samples, pending) := m.pending.drain
    (samples, { m with pending })

/-- Drops all pending samples of a model and says how many they were. -/
def evict (r : Registry σ) (model : String) : Except Error Nat × Registry σ :=
  r.withModel model fun m =>
    let (count, pending) := m.pending.discard
    (count, { m with pending })

/-- Adds one sample to the list of a model. -/
def pushSample (r : Registry σ) (model : String) (s : Sample) : Except Error Unit × Registry σ :=
  r.withModel model fun m => ((), { m with pending := m.pending.push s })

def text (r : Registry σ) : String :=
  "CollectorRegistry \x7b models: " ++ Text.quoteList r.models.keys ++ " \x7d"

end Registry

end MetricRelay
