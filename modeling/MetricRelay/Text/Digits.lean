/-!
# Digits

The values of decimal and hexadecimal digits.
-/

namespace MetricRelay.Text

/-- The value of a decimal digit. -/
def digitValue (c : Char) : Nat := c.toNat - '0'.toNat

def hexValue? (c : Char) : Option Nat :=
  if c.isDigit then some (digitValue c)
  else if 'a' ≤ c ∧ c ≤ 'f' then some (c.toNat - 'a'.toNat + 10)
  else if 'A' ≤ c ∧ c ≤ 'F' then some (c.toNat - 'A'.toNat + 10)
  else none

/-- The number of a sequence of decimal digits. -/
def decimalValue (s : List Char) : Nat := s.foldl (fun n c => n * 10 + digitValue c) 0

end MetricRelay.Text
