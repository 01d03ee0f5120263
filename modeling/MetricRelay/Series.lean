import MetricRelay.Sample
import MetricRelay.WireName

/-!
# Time series

A `Series` is the wire form of all samples that share a label set. `wireLabels` is the label set of
a sample: names sanitized, empty values dropped, sorted by name, one label a name.
`Series.ofSamples` groups samples by it, in order of first appearance, and orders the points of
each series by time.
-/

namespace MetricRelay

structure Label where
  name : String
  value : String
  deriving DecidableEq, Repr, Inhabited

/-- A value and its time in milliseconds since the epoch. -/
structure Point where
  value : Binary64
  time : Int64
  deriving DecidableEq, Repr, Inhabited

structure Series where
  labels : List Label
  points : List Point
  deriving DecidableEq, Repr, Inhabited

/-- The label that carries the name of the metric. -/
def metricNameLabel : String := "__name__"

/-! ## The label set of a sample -/

def nameLabels (s : Sample) : List Label :=
  let name := WireName.metric s.source s.metric
  if name = "" then [] else [⟨metricNameLabel, name⟩]

/-- A label under its sanitized key, unless key or value is empty or the key is the name's. -/
def ownLabel? (k v : String) : Option Label :=
  let key := WireName.sanitize k
  if key = "" ∨ v = "" ∨ key = metricNameLabel then none else some ⟨key, v⟩

def ownLabels (s : Sample) : List Label := s.labels.entries.filterMap fun e => ownLabel? e.1 e.2

/-- Keeps the first of neighbouring labels of one name. -/
def firstOfName : List Label → List Label
  | a :: b :: r => if a.name = b.name then firstOfName (a :: r) else a :: firstOfName (b :: r)
  | short => short
termination_by l => l.length

/-- Empty if the sample cannot be put on the wire. -/
def wireLabels (s : Sample) : List Label :=
  firstOfName ((nameLabels s ++ ownLabels s).mergeSort fun a b => decide (a.name ≤ b.name))

/-! ## Grouping -/

namespace Series

/-- The value of the first label of that name. -/
def label? (s : Series) (name : String) : Option String :=
  (s.labels.find? fun l => l.name = name).map Label.value

/-- Adds a point to the series of its label set, or begins one. -/
def addPoint (series : List Series) (labels : List Label) (p : Point) : List Series :=
  match series with
  | [] => [⟨labels, [p]⟩]
  | s :: r =>
    if s.labels = labels then { s with points := s.points ++ [p] } :: r
    else s :: addPoint r labels p

def addSample (now : Timestamp) (series : List Series) (s : Sample) : List Series :=
  let labels := wireLabels s
  if labels = [] then series
  else addPoint series labels ⟨s.value.toBinary64, (s.timestamp.getD now).millis⟩

/-- Points in order of time; points of one time keep their order. -/
def sortPoints (s : Series) : Series :=
  { s with points := s.points.mergeSort fun p q => decide (p.time ≤ q.time) }

def ofSamples (now : Timestamp) (samples : List Sample) : List Series :=
  (samples.foldl (addSample now) []).map sortPoints

end Series

end MetricRelay
