import MetricRelay.Duration.Parser
import MetricRelay.Error
import MetricRelay.Table
import MetricRelay.Text.Digits

/-!
# Collector configuration

A `ConfigMap` is what a monitor hands to its collector: texts by key, where an empty text counts as
absent. The typed readings `list`, `flag`, `integer?` and `duration?` report an unreadable text
against its key.
-/

namespace MetricRelay

structure ConfigMap where
  texts : Table String
  deriving DecidableEq, Inhabited

namespace ConfigMap

def empty : ConfigMap := ⟨.empty⟩

/-- The text of a key, unless it is empty. -/
def get? (c : ConfigMap) (key : String) : Option String := (c.texts.get? key).filter (· ≠ "")

def require (c : ConfigMap) (key : String) : Except CollectorError String :=
  match c.get? key with
  | some v => .ok v
  | none => .error (.missingField key)

def invalid (key value reason : String) : CollectorError :=
  .invalidField key (Text.quote value ++ ": " ++ reason)

/-! ## Lists -/

/-- The entries between commas, without blanks around them; blank entries do not count. -/
def splitEntries (v : String) : List String :=
  (((Text.splitOn ',' v.toList).map Text.trim).filter (· ≠ [])).map String.ofList

/-- An absent list is empty. -/
def list (c : ConfigMap) (key : String) : List String :=
  match c.get? key with
  | some v => splitEntries v
  | none => []

/-! ## Scalars -/

/-- An absent flag is off. -/
def flag (c : ConfigMap) (key : String) : Except CollectorError Bool :=
  match c.get? key with
  | none => .ok false
  | some v =>
    if v = "true" then .ok true
    else if v = "false" then .ok false
    else .error (invalid key v "expected true or false")

/-- A number in decimal digits, at least one. -/
def naturalOfChars? (s : List Char) : Option Nat :=
  if s ≠ [] ∧ s.all Char.isDigit then some (Text.decimalValue s) else none

/-- A number with an optional sign. -/
def integerOfChars? : List Char → Option Int
  | '-' :: r => (naturalOfChars? r).map fun n => -(n : Int)
  | '+' :: r => (naturalOfChars? r).map Int.ofNat
  | r => (naturalOfChars? r).map Int.ofNat

/-- A signed number of 64 bits. -/
def integerOfText? (v : String) : Option Int64 :=
  match integerOfChars? v.toList with
  | some i => if Int64.minValue.toInt ≤ i ∧ i ≤ Int64.maxValue.toInt then some (Int64.ofInt i) else none
  | none => none

def integer? (c : ConfigMap) (key : String) : Except CollectorError (Option Int64) :=
  match c.get? key with
  | none => .ok none
  | some v =>
    match integerOfText? v with
    | some i => .ok (some i)
    | none => .error (invalid key v "expected an integer")

def duration? (c : ConfigMap) (key : String) : Except CollectorError (Option Duration) :=
  match c.get? key with
  | none => .ok none
  | some v =>
    match Duration.parse v with
    | .ok d => .ok (some d)
    | .error e => .error (invalid key v e.message)

end ConfigMap

end MetricRelay
