import MetricRelay.Destination

/-!
# Fan-outs

A `FanOut` is one batch on its way to every destination that was registered when it began. All are
sent to at once, so it takes as long as the slowest. `report` lists who got the batch and who did
not.
-/

namespace MetricRelay

/-- The outcome of one fan-out. -/
structure DeliveryReport where
  delivered : List String := []
  failed : List Error := []
  deriving DecidableEq

namespace DeliveryReport

def isComplete (r : DeliveryReport) : Bool := r.failed.isEmpty

/-- The destinations of the delivery errors. -/
def failedDestinations (r : DeliveryReport) : List String :=
  r.failed.filterMap fun
    | .delivery destination _ => some destination
    | _ => none

end DeliveryReport

/-- What one destination made of the batch. -/
structure Delivery where
  destination : String
  elapsed : Duration
  result : Except DeliveryError Unit

def Delivery.error? (d : Delivery) : Option Error :=
  match d.result with
  | .ok _ => none
  | .error e => some (.delivery d.destination e)

structure FanOut where
  series : List Series
  deliveries : List Delivery

namespace FanOut

/-- An empty batch is not sent. -/
def begin (net : Network) (number : Nat) (destinations : Table Destination) (series : List Series) :
    FanOut :=
  if series = [] then ⟨[], []⟩
  else
    ⟨series, destinations.entries.map fun (name, d) =>
      let (elapsed, result) := d.write net number series
      ⟨name, elapsed, result⟩⟩

/-- The time of the slowest delivery. -/
def elapsed (f : FanOut) : Duration := ⟨(f.deliveries.map fun d => d.elapsed.nanos).foldl max 0⟩

def report (f : FanOut) : DeliveryReport where
  delivered := (f.deliveries.filter fun d => d.result matches .ok _).map Delivery.destination
  failed := f.deliveries.filterMap Delivery.error?

end FanOut

end MetricRelay
