/-!
# Double-precision numbers

`Binary64` is an IEEE 754 double held as its 64 bits, so that every operation here is exact
arithmetic on `Nat`. `ofRatio` rounds a quotient to the nearest double, a tie to the even
neighbour; `ofNat`, `ofInt`, `widen` and `mul` are instances of it. `magnitude` is the exact
value of a finite number, as a quotient.
-/

namespace MetricRelay

/-- A double, by its bits. -/
structure Binary64 where
  bits : UInt64
  deriving DecidableEq, Repr, Inhabited

/-- The quotient `num / den`, rounded to the nearest natural number, a tie to the even one. -/
def roundToEven (num den : Nat) : Nat :=
  let q := num / den
  let r := num % den
  if 2 * r < den then q
  else if den < 2 * r then q + 1
  else if q % 2 = 0 then q else q + 1

namespace Binary64

/-! ## Parts -/

def isNegative (x : Binary64) : Bool := x.bits.toNat ≥ 1 <<< 63

def exponentField (x : Binary64) : Nat := x.bits.toNat >>> 52 % 1 <<< 11

def fraction (x : Binary64) : Nat := x.bits.toNat % 1 <<< 52

def isNaN (x : Binary64) : Bool := x.exponentField = 2047 ∧ x.fraction ≠ 0

def isInfinite (x : Binary64) : Bool := x.exponentField = 2047 ∧ x.fraction = 0

/-- Both zeros. -/
def isZero (x : Binary64) : Bool := x.exponentField = 0 ∧ x.fraction = 0

/-- A finite number is `significand * 2 ^ (scale - 1074)`, up to its sign. -/
def significand (x : Binary64) : Nat :=
  if x.exponentField = 0 then x.fraction else 1 <<< 52 + x.fraction

def scale (x : Binary64) : Nat := x.exponentField - 1

/-- The absolute value of a finite number, as numerator and denominator. -/
def magnitude (x : Binary64) : Nat × Nat :=
  (x.significand <<< (x.scale - 1074), 1 <<< (1074 - x.scale))

/-! ## Rounding into the format -/

def ofParts (negative : Bool) (rest : Nat) : Binary64 :=
  ⟨UInt64.ofNat ((if negative then 1 <<< 63 else 0) + rest)⟩

def infinity (negative : Bool) : Binary64 := ofParts negative (2047 <<< 52)

/-- The double `significand * 2 ^ (scale - 1074)`; a significand of `2 ^ 53` carries into the
exponent. -/
def assemble (negative : Bool) (significand scale : Nat) : Binary64 :=
  if significand < 1 <<< 52 then ofParts negative significand
  else
    let rest := (scale + 1) <<< 52 + (significand - 1 <<< 52)
    if rest < 2047 <<< 52 then ofParts negative rest else infinity negative

/-- The scale at which `num / den` has 53 significant bits, at least zero. -/
def scaleFor (num den : Nat) : Nat :=
  let guess := num.log2 + 1021 - den.log2
  if num <<< (1074 - (guess + 1)) < den <<< 52 <<< (guess + 1 - 1074) then guess
  else guess + 1

/-- The double nearest to `num / den`. -/
def ofRatio (negative : Bool) (num den : Nat) : Binary64 :=
  if num = 0 then ofParts negative 0
  else
    let s := scaleFor num den
    assemble negative (roundToEven (num <<< (1074 - s)) (den <<< (s - 1074))) s

def ofNat (n : Nat) : Binary64 := ofRatio false n 1

def ofInt (i : Int) : Binary64 := ofRatio (i < 0) i.natAbs 1

def neg (x : Binary64) : Binary64 := ⟨x.bits ^^^ 0x8000000000000000⟩

/-- The product of two finite numbers. -/
def mul (x y : Binary64) : Binary64 :=
  ofRatio (x.isNegative != y.isNegative) (x.magnitude.1 * y.magnitude.1)
    (x.magnitude.2 * y.magnitude.2)

/-- The quotient of two finite numbers; the second is not zero. -/
def div (x y : Binary64) : Binary64 :=
  ofRatio (x.isNegative != y.isNegative) (x.magnitude.1 * y.magnitude.2)
    (x.magnitude.2 * y.magnitude.1)

/-- A single-precision number, given by its bits, as a double. -/
def widen (single : UInt32) : Binary64 :=
  let n := single.toNat
  let negative := decide (n ≥ 1 <<< 31)
  let exponent := n >>> 23 % 1 <<< 8
  let fraction := n % 1 <<< 23
  if exponent = 255 then ofParts negative (2047 <<< 52 + fraction <<< 29)
  else
    let m := if exponent = 0 then fraction else 1 <<< 23 + fraction
    ofRatio negative (m <<< (exponent - 1)) (1 <<< 149)

end Binary64

end MetricRelay
