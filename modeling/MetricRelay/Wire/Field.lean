import MetricRelay.Wire.Varint

/-!
# Tagged fields

A message is a sequence of fields, each with a number and a payload of one of four wire types.
`message` writes a sequence of fields, `fields?` reads one.
-/

namespace MetricRelay.Wire

inductive Payload where
  | varint (n : Nat)
  | fixed64 (n : Nat)
  | bytes (b : Bytes)
  | fixed32 (n : Nat)
  deriving DecidableEq, Repr

structure Field where
  number : Nat
  payload : Payload
  deriving DecidableEq, Repr

def Payload.wireType : Payload → Nat
  | .varint _ => 0
  | .fixed64 _ => 1
  | .bytes _ => 2
  | .fixed32 _ => 5

def Payload.encode : Payload → Bytes
  | .varint n => Wire.varint n
  | .fixed64 n => littleEndian 8 n
  | .bytes b => Wire.varint b.length ++ b
  | .fixed32 n => littleEndian 4 n

def Field.encode (f : Field) : Bytes :=
  varint (f.number * 8 + f.payload.wireType) ++ f.payload.encode

def message (fields : List Field) : Bytes := fields.flatMap Field.encode

/-! ## Reading -/

/-- A varint of 64 bits. -/
def readWord? (b : Bytes) : Option (Nat × Bytes) := do
  let (n, r) ← readVarint? 10 b
  if n < UInt64.size then return (n, r) else none

def readPayload? (wireType : Nat) (b : Bytes) : Option (Payload × Bytes) :=
  match wireType with
  | 0 => do
    let (n, r) ← readWord? b
    return (.varint n, r)
  | 1 => do
    let (n, r) ← readLittleEndian? 8 b
    return (.fixed64 n, r)
  | 2 => do
    let (n, r) ← readWord? b
    if n ≤ r.length then return (.bytes (r.take n), r.drop n) else none
  | 5 => do
    let (n, r) ← readLittleEndian? 4 b
    return (.fixed32 n, r)
  | _ => none

def readField? (b : Bytes) : Option (Field × Bytes) := do
  let (tag, r) ← readWord? b
  let (payload, r) ← readPayload? (tag % 8) r
  if tag / 8 = 0 then none else return (⟨tag / 8, payload⟩, r)

/-- At most `limit` fields up to the end. -/
def readFields? : Nat → Bytes → Option (List Field)
  | _, [] => some []
  | 0, _ => none
  | limit + 1, b => do
    let (f, r) ← readField? b
    return f :: (← readFields? limit r)

/-- A field takes a byte at least, so the length bounds their number. -/
def fields? (b : Bytes) : Option (List Field) := readFields? b.length b

end MetricRelay.Wire
