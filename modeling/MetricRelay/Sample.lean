import MetricRelay.Table
import MetricRelay.Value

/-!
# Samples and pending samples

A `Sample` is one observed point of a metric. A `SampleList` collects the pending samples of one
collector: `push` adds one, `drain` takes all of them, oldest first, and `discard` drops them.
`toList` is the content, oldest first.
-/

namespace MetricRelay

abbrev Labels := Table String

/-- A point in time since the epoch; a leap second has more than a second of nanoseconds. -/
structure Timestamp where
  seconds : Int
  nanos : Nat
  deriving DecidableEq, Repr, Inhabited

/-- Whole milliseconds since the epoch. -/
def Timestamp.millis (t : Timestamp) : Int64 := Int64.ofInt (t.seconds * 1000 + t.nanos / 1000000)

structure Sample where
  /-- The model that observed it. -/
  source : String
  metric : String
  value : Value
  labels : Labels := Table.empty
  /-- Unset until the sample is normalized. -/
  timestamp : Option Timestamp := none
  deriving DecidableEq, Inhabited

def Sample.withLabel (s : Sample) (k v : String) : Sample := { s with labels := s.labels.insert k v }

/-! ## Pending samples -/

/-- Samples in the order newest first. -/
structure SampleList where
  newestFirst : List Sample
  deriving DecidableEq, Inhabited

namespace SampleList

def empty : SampleList := ⟨[]⟩

/-- The content, oldest first. -/
def toList (l : SampleList) : List Sample := l.newestFirst.reverse

def size (l : SampleList) : Nat := l.newestFirst.length

def isEmpty (l : SampleList) : Bool := l.newestFirst.isEmpty

def push (l : SampleList) (s : Sample) : SampleList := ⟨s :: l.newestFirst⟩

/-- Pushes a reading whose time is still to be set. -/
def pushReading (l : SampleList) (source metric : String) (value : Value) (labels : Labels) :
    SampleList :=
  l.push { source, metric, value, labels }

def pushMany (l : SampleList) (samples : List Sample) : SampleList := samples.foldl push l

/-- Takes everything, oldest first. -/
def drain (l : SampleList) : List Sample × SampleList := (l.toList, empty)

/-- Drops everything and says how much that was. -/
def discard (l : SampleList) : Nat × SampleList := (l.size, empty)

@[simp] theorem toList_empty : empty.toList = [] := rfl

@[simp] theorem toList_push (l : SampleList) (s : Sample) : (l.push s).toList = l.toList ++ [s] := by
  simp [toList, push]

@[simp] theorem toList_pushMany (l : SampleList) (samples : List Sample) :
    (l.pushMany samples).toList = l.toList ++ samples := by
  induction samples generalizing l with
  | nil => simp [pushMany]
  | cons s r ih => rw [show l.pushMany (s :: r) = (l.push s).pushMany r from rfl, ih]; simp

@[simp] theorem length_toList (l : SampleList) : l.toList.length = l.size := by simp [toList, size]

end SampleList

end MetricRelay
