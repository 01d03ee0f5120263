import MetricRelay.Error
import MetricRelay.Wire.Varint

/-!
# Snappy blocks

A block is the length of the content as a varint, followed by elements: literal bytes, or copies of
content seen before. Contents may be packed in more than one way: `compress` takes any, `literalBlock` is
the plainest. `decompress?` reads every element.
-/

namespace MetricRelay.Wire.Snappy

/-- The longest literal that is written. -/
def literalLimit : Nat := 65536

/-- Literal bytes; the length is one more than its tag says. -/
def literal (b : Bytes) : Bytes :=
  let n := b.length - 1
  if n < 60 then UInt8.ofNat (n * 4) :: b
  else UInt8.ofNat (61 * 4) :: (littleEndian 2 n ++ b)

def literals (b : Bytes) : Bytes :=
  if b = [] then [] else literal (b.take literalLimit) ++ literals (b.drop literalLimit)
termination_by b.length
decreasing_by
  have := List.length_pos_iff.2 (by assumption)
  simp only [List.length_drop, literalLimit]
  omega

/-- The largest content whose block is sure to fit 32 bits of length. -/
def fits (size : Nat) : Bool := 32 + size + size / 6 < UInt32.size

/-- A block of literals only. -/
def literalBlock (b : Bytes) : Bytes := varint b.length ++ literals b

/-- The block that `pack` makes of a content, unless that is too large. -/
def compress (pack : Bytes → Bytes) (b : Bytes) : Except DeliveryError Bytes :=
  if fits b.length then .ok (pack b) else .error (.tooLarge b.length (UInt32.size - 1))

/-! ## Reading -/

inductive Element where
  | literal (b : Bytes)
  | copy (offset length : Nat)
  deriving Repr

def readLiteral? (length : Nat) (r : Bytes) : Option (Element × Bytes) :=
  if length ≤ r.length then some (.literal (r.take length), r.drop length) else none

/-- One element after its tag byte. -/
def readElement? (tag : Nat) (r : Bytes) : Option (Element × Bytes) :=
  let upper := tag / 4
  match tag % 4 with
  | 0 =>
    if upper < 60 then readLiteral? (upper + 1) r
    else do
      let (n, r) ← readLittleEndian? (upper - 59) r
      readLiteral? (n + 1) r
  | 1 => do
    let (low, r) ← readLittleEndian? 1 r
    return (.copy (upper / 8 * 256 + low) (upper % 8 + 4), r)
  | 2 => do
    let (offset, r) ← readLittleEndian? 2 r
    return (.copy offset (upper + 1), r)
  | _ => do
    let (offset, r) ← readLittleEndian? 4 r
    return (.copy offset (upper + 1), r)

/-- Repeats the byte `offset` places back, `length` times; the content is held newest first. -/
def copyBack? (offset : Nat) : Nat → Bytes → Option Bytes
  | 0, out => some out
  | length + 1, out =>
    if offset = 0 then none
    else do copyBack? offset length ((← out[offset - 1]?) :: out)

def emit? (out : Bytes) : Element → Option Bytes
  | .literal b => some (b.reverse ++ out)
  | .copy offset length => copyBack? offset length out

/-- The content newest first, after at most `limit` more elements. -/
def readElements? : Nat → Bytes → Bytes → Option Bytes
  | _, out, [] => some out
  | 0, _, _ => none
  | limit + 1, out, tag :: r => do
    let (e, r) ← readElement? tag.toNat r
    readElements? limit (← emit? out e) r

def decompress? (b : Bytes) : Option Bytes := do
  let (size, r) ← readVarint? 5 b
  let out ← readElements? r.length [] r
  if out.length = size then return out.reverse else none

end MetricRelay.Wire.Snappy
