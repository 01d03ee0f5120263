import MetricRelay.Decimal.Shortest

/-!
# Decimal notation of doubles

`render` writes the shortest decimal of a double in a `Layout`: positionally as long as the
exponent of the leading digit lies in its range, in scientific form beyond. `plain` is the form
of sample values, `tagged` the one that keeps a number recognisable as a fraction.
-/

namespace MetricRelay.Decimal

/-- How a double is written. -/
structure Layout where
  /-- The exponents of the leading digit that are written positionally; `none` is all. -/
  positional : Option (Int × Int)
  /-- Whether a whole number keeps `.0`. -/
  pointZero : Bool
  deriving Repr

/-- Never an exponent, no fraction on whole numbers. -/
def plain : Layout := ⟨none, false⟩

/-- Positional from `1e-5` up to sixteen integer digits; whole numbers keep `.0`. -/
def tagged : Layout := ⟨some (-5, 15), true⟩

def digitsText (n : Nat) : List Char := Nat.toDigits 10 n

/-- `digits * 10 ^ exponent` without an exponent. -/
def positionalText (d : Decimal) (pointZero : Bool) : List Char :=
  let ds := digitsText d.digits
  match d.exponent with
  | .ofNat e => ds ++ List.replicate e '0' ++ (if pointZero then ['.', '0'] else [])
  | .negSucc e =>
    let places := e + 1
    if places < ds.length then
      ds.take (ds.length - places) ++ '.' :: ds.drop (ds.length - places)
    else '0' :: '.' :: (List.replicate (places - ds.length) '0' ++ ds)

/-- The exponent of scientific form: a sign and at least two digits. -/
def exponentText (e : Int) : List Char :=
  let ds := digitsText e.natAbs
  (if e < 0 then '-' else '+') :: (if ds.length < 2 then '0' :: ds else ds)

def scientificText (d : Decimal) : List Char :=
  let ds := digitsText d.digits
  let mantissa := match ds with
    | c :: r@(_ :: _) => c :: '.' :: r
    | short => short
  mantissa ++ 'e' :: exponentText (d.exponent + (ds.length - 1 : Nat))

/-- The text of a finite magnitude. -/
def Layout.magnitude (f : Layout) (d : Decimal) : List Char :=
  match f.positional with
  | none => positionalText d f.pointZero
  | some (lo, hi) =>
    let leading := d.exponent + ((digitsText d.digits).length - 1 : Nat)
    if lo ≤ leading ∧ leading ≤ hi then positionalText d f.pointZero else scientificText d

def Layout.render (f : Layout) (x : Binary64) : String :=
  if x.isNaN then "NaN"
  else
    let sign := if x.isNegative then ['-'] else []
    let body :=
      if x.isInfinite then ['i', 'n', 'f']
      else if x.isZero then positionalText ⟨0, 0⟩ f.pointZero
      else f.magnitude (shortest x)
    String.ofList (sign ++ body)

end MetricRelay.Decimal
