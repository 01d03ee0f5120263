import MetricRelay.Binary64

/-!
# The shortest decimal that reads back

`shortest x` is the decimal with the fewest significant digits among those that round to the
finite non-zero double `x`, and of several such the one nearest to it; of two equally near ones
the larger. `Grid.candidate?` looks at the two neighbours of `x` on one decimal grid, `shortest`
tries the grids of one, two, and so on up to seventeen digits.
-/

namespace MetricRelay

/-- The number `digits * 10 ^ exponent`. -/
structure Decimal where
  digits : Nat
  exponent : Int
  deriving DecidableEq, Repr, Inhabited

namespace Decimal

/-- How many decimal digits `n` has; zero has one. -/
def digitCount (n : Nat) : Nat := (Nat.toDigits 10 n).length

/-- The exponent `p` with `10 ^ p ≤ num / den < 10 ^ (p + 1)`. -/
def leadingExponent (num den : Nat) : Int :=
  if den ≤ num then (digitCount (num / den) : Int) - 1
  else
    let p := digitCount (den / num)
    if num * Nat.pow 10 (p - 1) < den then -(p : Int) else -(p : Int) + 1

/-! ## The numbers that round to a double -/

/-- A double and the interval of numbers that round to it, all over one denominator. -/
structure Neighbourhood where
  low : Nat
  value : Nat
  high : Nat
  den : Nat
  /-- Whether the ends of the interval belong to it. -/
  closed : Bool
  deriving Repr

/-- The interval reaches half-way to the neighbours; below a power of two that is half as far. -/
def neighbourhood (x : Binary64) : Neighbourhood :=
  let m := x.significand
  let up := 1 <<< (x.scale - 1074)
  { low := (if m = 1 <<< 52 ∧ 0 < x.scale then 4 * m - 1 else 4 * m - 2) * up
    value := 4 * m * up
    high := (4 * m + 2) * up
    den := 4 <<< (1074 - x.scale)
    closed := m % 2 = 0 }

/-- Whether `n / d` lies in the interval. -/
def Neighbourhood.contains (b : Neighbourhood) (n d : Nat) : Bool :=
  if b.closed then b.low * d ≤ n * b.den ∧ n * b.den ≤ b.high * d
  else b.low * d < n * b.den ∧ n * b.den < b.high * d

/-! ## One decimal grid -/

/-- `10 ^ exponent` as a quotient. -/
def power (exponent : Int) : Nat × Nat := (Nat.pow 10 exponent.toNat, Nat.pow 10 (-exponent).toNat)

/-- The better of the two multiples of `10 ^ exponent` around the value, if one of them reads
back. -/
def candidate? (b : Neighbourhood) (exponent : Int) : Option Nat :=
  let (pn, pd) := power exponent
  let below := b.value * pd / (b.den * pn)
  let above := below + 1
  let inside (n : Nat) : Bool := b.contains (n * pn) pd
  let gap := b.value * pd - below * (b.den * pn)
  if inside below then
    if inside above ∧ b.den * pn ≤ 2 * gap then some above else some below
  else if inside above then some above
  else none

/-- The first grid, from `digits` significant digits on, with a number that reads back. -/
def search (b : Neighbourhood) (leading : Int) : Nat → Nat → Decimal
  | 0, digits => ⟨b.value, leading - digits⟩
  | more + 1, digits =>
    let exponent := leading - digits + 1
    match candidate? b exponent with
    | some n => ⟨n, exponent⟩
    | none => search b leading more (digits + 1)

/-- Moves trailing zeros of the digits into the exponent. -/
def strip (d : Decimal) : Nat → Decimal
  | 0 => d
  | n + 1 => if d.digits ≠ 0 ∧ d.digits % 10 = 0 then strip ⟨d.digits / 10, d.exponent + 1⟩ n else d

def shortest (x : Binary64) : Decimal :=
  let b := neighbourhood x
  strip (search b (leadingExponent b.value b.den) 17 1) 17

end Decimal

end MetricRelay
