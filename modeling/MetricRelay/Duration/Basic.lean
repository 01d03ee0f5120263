/-!
# Durations

A `Duration` counts nanoseconds. `text` shows it in its largest unit with a nonzero integer part,
the fraction without trailing zeros.
-/

namespace MetricRelay

structure Duration where
  nanos : Nat
  deriving DecidableEq, Repr, Inhabited

namespace Duration

def nanosPerSecond : Nat := 1000000000

def nanosPerMilli : Nat := 1000000

def ofSeconds (n : Nat) : Duration := ⟨n * nanosPerSecond⟩

def ofMillis (n : Nat) : Duration := ⟨n * nanosPerMilli⟩

def isZero (d : Duration) : Bool := d.nanos = 0

/-- Whole milliseconds, rounded up. -/
def millisUp (d : Duration) : Nat := (d.nanos + (nanosPerMilli - 1)) / nanosPerMilli

/-! ## Display -/

/-- The digits of `n / 10 ^ places` after the point, without trailing zeros. -/
def fractionText (n : Nat) : Nat → List Char
  | 0 => []
  | places + 1 =>
    if n = 0 then []
    else
      let unit := Nat.pow 10 places
      Nat.digitChar (n / unit) :: fractionText (n % unit) places

/-- `n / 10 ^ places`, followed by a unit. -/
def decimalText (n places : Nat) (unit : String) : String :=
  let fraction := fractionText (n % Nat.pow 10 places) places
  toString (n / Nat.pow 10 places) ++ (if fraction = [] then "" else "." ++ String.ofList fraction) ++ unit

def text (d : Duration) : String :=
  if nanosPerSecond ≤ d.nanos then decimalText d.nanos 9 "s"
  else if nanosPerMilli ≤ d.nanos then decimalText d.nanos 6 "ms"
  else if 1000 ≤ d.nanos then decimalText d.nanos 3 "µs"
  else decimalText d.nanos 0 "ns"

end Duration

end MetricRelay
