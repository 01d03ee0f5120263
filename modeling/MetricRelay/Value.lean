import MetricRelay.Decimal.Layout

/-!
# Sample values

A `Value` keeps the numeric form a collector reported; `toBinary64` is what remains of it on the
wire, `text` how it is shown.
-/

namespace MetricRelay

inductive Value where
  | int (v : Int64)
  | uint (v : UInt64)
  | float (v : Binary64)
  deriving DecidableEq, Repr, Inhabited

namespace Value

def ofBool (b : Bool) : Value := .int (if b then 1 else 0)

/-- The nearest double. -/
def toBinary64 : Value → Binary64
  | .int v => Binary64.ofInt v.toInt
  | .uint v => Binary64.ofNat v.toNat
  | .float v => v

def text : Value → String
  | .int v => toString v.toInt
  | .uint v => toString v.toNat
  | .float v => Decimal.plain.render v

end Value

end MetricRelay
