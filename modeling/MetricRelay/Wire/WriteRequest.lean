import MetricRelay.Series
import MetricRelay.Wire.Field

/-!
# Write requests

The message form of a list of series: labels and points are messages inside a series, series are
messages inside the request. A scalar equal to its default is left out: the empty text, zero time,
zero value of either sign. `decode?` reads a request back.
-/

namespace MetricRelay.Wire

/-! ## Writing -/

def textField (number : Nat) (s : String) : List Field :=
  if s = "" then [] else [⟨number, .bytes (Text.encode s)⟩]

def labelFields (l : Label) : List Field := textField 1 l.name ++ textField 2 l.value

def pointFields (p : Point) : List Field :=
  (if p.value.isZero then [] else [⟨1, .fixed64 p.value.bits.toNat⟩]) ++
    (if p.time = 0 then [] else [⟨2, .varint p.time.toUInt64.toNat⟩])

def seriesFields (s : Series) : List Field :=
  s.labels.map (fun l => ⟨1, .bytes (message (labelFields l))⟩) ++
    s.points.map fun p => ⟨2, .bytes (message (pointFields p))⟩

def requestFields (series : List Series) : List Field :=
  series.map fun s => ⟨1, .bytes (message (seriesFields s))⟩

def encode (series : List Series) : Bytes := message (requestFields series)

/-! ## Reading -/

/-- A known number with another wire type is an error, an unknown number is skipped. -/
def addLabelField (l : Label) : Field → Option Label
  | ⟨1, .bytes b⟩ => do return { l with name := ← Text.decode? b }
  | ⟨2, .bytes b⟩ => do return { l with value := ← Text.decode? b }
  | ⟨n, _⟩ => if n = 1 ∨ n = 2 then none else some l

def decodeLabel? (b : Bytes) : Option Label := do (← fields? b).foldlM addLabelField ⟨"", ""⟩

def addPointField (p : Point) : Field → Option Point
  | ⟨1, .fixed64 n⟩ => some { p with value := ⟨UInt64.ofNat n⟩ }
  | ⟨2, .varint n⟩ => some { p with time := (UInt64.ofNat n).toInt64 }
  | ⟨n, _⟩ => if n = 1 ∨ n = 2 then none else some p

def decodePoint? (b : Bytes) : Option Point := do (← fields? b).foldlM addPointField ⟨⟨0⟩, 0⟩

def addSeriesField (s : Series) : Field → Option Series
  | ⟨1, .bytes b⟩ => do return { s with labels := s.labels ++ [← decodeLabel? b] }
  | ⟨2, .bytes b⟩ => do return { s with points := s.points ++ [← decodePoint? b] }
  | ⟨n, _⟩ => if n = 1 ∨ n = 2 then none else some s

def decodeSeries? (b : Bytes) : Option Series := do (← fields? b).foldlM addSeriesField ⟨[], []⟩

def addRequestField (series : List Series) : Field → Option (List Series)
  | ⟨1, .bytes b⟩ => do return series ++ [← decodeSeries? b]
  | ⟨n, _⟩ => if n = 1 then none else some series

def decode? (b : Bytes) : Option (List Series) := do (← fields? b).foldlM addRequestField []

end MetricRelay.Wire
