/-!
# Metric and label names on the wire

`sanitize` brings any text into the alphabet `[a-zA-Z0-9_:]` with no leading digit, `metric`
joins a source and a metric. `IsValid` is the shape of a name: `[a-zA-Z_:][a-zA-Z0-9_:]*`.
-/

namespace MetricRelay.WireName

/-- ASCII letters, digits, `_` and `:`. -/
def isNameChar (c : Char) : Bool := c.isAlphanum || c = '_' || c = ':'

/-- One character of a raw name; what is not allowed becomes `_`. -/
def replace (c : Char) : Char := if isNameChar c then c else '_'

/-- A digit may not come first, so it is put behind a `_`. -/
def sanitizeChars : List Char → List Char
  | [] => []
  | c :: r => if c.isDigit then '_' :: (c :: r).map replace else (c :: r).map replace

/-- The empty text stays empty. -/
def sanitize (raw : String) : String := String.ofList (sanitizeChars raw.toList)

/-- The name of a metric of a source; a nameless metric of a source has none. -/
def metric (source metric : String) : String :=
  if source = "" then sanitize metric
  else if metric = "" then ""
  else sanitize (source ++ "_" ++ metric)

/-- The shape of a name on the wire. -/
def IsValid (name : String) : Prop :=
  ∃ c r, name.toList = c :: r ∧ isNameChar c ∧ ¬c.isDigit ∧ r.all isNameChar

end MetricRelay.WireName
