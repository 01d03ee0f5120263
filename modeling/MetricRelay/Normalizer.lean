import MetricRelay.Sample

/-!
# Normalization

Before samples are handed to the writer, each gets a timestamp and the labels it lacks. Labels are
merged by layers, the first to set a key wins: the collector's own, the global ones, the extra ones
of the monitor. Last, `instance` takes the value of `address` if there is one.
-/

namespace MetricRelay

structure Normalizer where
  globals : Labels
  deriving DecidableEq, Inhabited

namespace Normalizer

def addressLabel : String := "address"

def instanceLabel : String := "instance"

/-- The global labels when none are configured. -/
def defaultGlobals : Labels := Table.ofList [("source", "monitor-relay")]

def standard : Normalizer := ⟨defaultGlobals⟩

/-- `instance` takes the value of `address`. -/
def followAddress (labels : Labels) : Labels :=
  match labels.get? addressLabel with
  | some a => labels.insert instanceLabel a
  | none => labels

def label (n : Normalizer) (extra own : Labels) : Labels :=
  followAddress ((own.fill n.globals).fill extra)

def stamp (n : Normalizer) (now : Timestamp) (extra : Labels) (s : Sample) : Sample :=
  { s with timestamp := some (s.timestamp.getD now), labels := n.label extra s.labels }

/-- Drains the pending samples into a list of normalized ones; the second part is what stays
pending. -/
def process (n : Normalizer) (now : Timestamp) (extra : Labels) (pending : SampleList) :
    SampleList × SampleList :=
  if pending.isEmpty then (.empty, pending)
  else
    let (samples, rest) := pending.drain
    (SampleList.empty.pushMany (samples.map (n.stamp now extra)), rest)

theorem toList_process (n : Normalizer) (now : Timestamp) (extra : Labels) (pending : SampleList) :
    (n.process now extra pending).1.toList = pending.toList.map (n.stamp now extra) := by
  unfold process
  split
  · next h =>
    rw [SampleList.isEmpty, List.isEmpty_iff] at h
    simp [SampleList.toList, h, SampleList.empty]
  · simp [SampleList.drain]

/-- Nothing stays pending. -/
theorem process_rest (n : Normalizer) (now : Timestamp) (extra : Labels)
    (pending : SampleList) : (n.process now extra pending).2 = .empty := by
  unfold process
  split
  · next h =>
    rw [SampleList.isEmpty, List.isEmpty_iff] at h
    exact congrArg SampleList.mk h
  · rfl

end Normalizer

end MetricRelay
