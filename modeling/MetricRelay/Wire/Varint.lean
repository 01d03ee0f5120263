import MetricRelay.Text.Utf8

/-!
# Numbers as bytes

A varint holds a number in groups of seven bits, lowest first, with the top bit set on all bytes
but the last. `littleEndian` holds a number in a given count of bytes, lowest first.
-/

namespace MetricRelay.Wire

def varint (n : Nat) : Bytes :=
  if n < 128 then [UInt8.ofNat n] else UInt8.ofNat (n % 128 + 128) :: varint (n / 128)

/-- The number of at most `limit` bytes, and what follows. -/
def readVarint? : Nat → Bytes → Option (Nat × Bytes)
  | 0, _ => none
  | _, [] => none
  | limit + 1, b :: r =>
    if b < 128 then some (b.toNat, r)
    else do
      let (n, r) ← readVarint? limit r
      return (b.toNat - 128 + 128 * n, r)

def littleEndian : Nat → Nat → Bytes
  | 0, _ => []
  | count + 1, n => UInt8.ofNat (n % 256) :: littleEndian count (n / 256)

/-- The number of the first `count` bytes, and what follows. -/
def readLittleEndian? : Nat → Bytes → Option (Nat × Bytes)
  | 0, r => some (0, r)
  | _ + 1, [] => none
  | count + 1, b :: r => do
    let (n, r) ← readLittleEndian? count r
    return (b.toNat + 256 * n, r)

end MetricRelay.Wire
