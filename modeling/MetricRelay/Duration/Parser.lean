import MetricRelay.Duration.Basic
import MetricRelay.Text.Blank
import MetricRelay.Text.Digits
import MetricRelay.Text.Quoted

/-!
# Reading durations

A duration is a sequence of spans, each a number and a unit: `1h 30m`, `250ms`, `1.5s`. Blanks may
stand around a number, inside its digits and before the unit; a digit right after a unit starts the
next span. A fraction must come out exactly, in nanoseconds up to minutes and in seconds from hours
on. Numbers and sums are bounded by 64 bits. `Fault` lists what can be wrong; positions are byte
offsets.
-/

namespace MetricRelay.Duration

open Text

/-- Why a text is not a duration. -/
inductive Fault where
  | empty
  | expectedNumber (offset : Nat)
  | invalidCharacter (offset : Nat)
  | unitNeeded (value : Nat)
  | unknownUnit (unit : String)
  | notRepresentable
  deriving DecidableEq, Repr

def Fault.message : Fault → String
  | .empty => "value was empty"
  | .expectedNumber o => s!"expected number at {o}"
  | .invalidCharacter o => s!"invalid character at {o}"
  | .unitNeeded n => s!"time unit needed, for example {n}sec or {n}ms"
  | .unknownUnit u =>
    s!"unknown time unit {quote u}, supported units: ns, us/µs, ms, sec, min, hours, days, weeks, " ++
      "months, years (and few variations)"
  | .notRepresentable =>
    "number is too large or cannot be represented without a lack of precision " ++
      "(values below 1ns are not supported)"

/-! ## Units -/

/-- A unit of time: shorter units are counted in nanoseconds, longer ones in seconds. -/
inductive TimeUnit where
  | ofNanos (n : Nat)
  | ofSeconds (n : Nat)
  deriving DecidableEq, Repr

def TimeUnit.spellings : List (TimeUnit × List String) :=
  [(.ofNanos 1, ["nanos", "nsec", "ns"]),
   (.ofNanos 1000, ["usec", "us", "µs"]),
   (.ofNanos 1000000, ["millis", "msec", "ms"]),
   (.ofSeconds 1, ["seconds", "second", "secs", "sec", "s"]),
   (.ofSeconds 60, ["minutes", "minute", "min", "mins", "m"]),
   (.ofSeconds 3600, ["hours", "hour", "hr", "hrs", "h"]),
   (.ofSeconds 86400, ["days", "day", "d"]),
   (.ofSeconds 604800, ["weeks", "week", "wk", "wks", "w"]),
   (.ofSeconds 2630016, ["months", "month", "M"]),
   (.ofSeconds 31557600, ["years", "year", "yr", "yrs", "y"])]

def TimeUnit.ofText? (s : String) : Option TimeUnit :=
  (spellings.find? fun u => u.2.contains s).map Prod.fst

/-! ## Amounts -/

/-- A number that fits 64 bits. -/
def word (n : Nat) : Except Fault Nat := if n < UInt64.size then .ok n else .error .notRepresentable

/-- An exact quotient. -/
def exactly (num den : Nat) : Except Fault Nat :=
  if num % den = 0 then .ok (num / den) else .error .notRepresentable

/-- Adds seconds and nanoseconds to a total, each sum within 64 bits. -/
def add (total seconds nanos : Nat) : Except Fault Nat := do
  let nanos ← word (total % nanosPerSecond + nanos)
  let seconds ← word (seconds + nanos / nanosPerSecond)
  let seconds ← word (total / nanosPerSecond + seconds)
  return seconds * nanosPerSecond + nanos % nanosPerSecond

/-- The digits behind the point: `numerator / denominator`. -/
structure Fraction where
  numerator : Nat
  denominator : Nat
  deriving DecidableEq, Repr

def addWhole (total n : Nat) : TimeUnit → Except Fault Nat
  | .ofNanos u => do add total 0 (← word (n * u))
  | .ofSeconds u => do add total (← word (n * u)) 0

def addFraction (total : Nat) (f : Fraction) : TimeUnit → Except Fault Nat
  | .ofNanos u =>
    if u = 1 then .error .notRepresentable
    else do add total 0 (← exactly (← word (f.numerator * u)) f.denominator)
  | .ofSeconds u =>
    if u < 3600 then do
      add total 0 (← exactly (← word (f.numerator * (u * nanosPerSecond))) f.denominator)
    else do add total (← exactly (← word (f.numerator * u)) f.denominator) 0

def addSpan (total n : Nat) (fraction : Option Fraction) (unit : String) : Except Fault Nat :=
  match TimeUnit.ofText? unit with
  | none => .error (if unit = "" then .unitNeeded n else .unknownUnit unit)
  | some u => do
    let total ← addWhole total n u
    match fraction with
    | none => return total
    | some f => addFraction total f u

/-! ## Scanning -/

def isUnitChar (c : Char) : Bool := c.isAlpha || c = 'µ'

/-- A place in the text: what is left and the byte offset of its first character. -/
structure Place where
  offset : Nat
  rest : List Char
  deriving Repr

def Place.next (p : Place) (c : Char) (r : List Char) : Place := ⟨p.offset + c.utf8Size, r⟩

/-- The digits after the point, up to a unit or the end. -/
def scanFraction (num den : Nat) (digits : Bool) (offset : Nat) :
    List Char → Except Fault (Fraction × Place)
  | [] => if digits then .ok (⟨num, den⟩, ⟨offset, []⟩) else .error (.invalidCharacter offset)
  | c :: r =>
    if c.isDigit then do
      let den ← word (den * 10)
      let num ← word (num * 10 + digitValue c)
      scanFraction num den true (offset + 1) r
    else if isBlank c then scanFraction num den digits (offset + c.utf8Size) r
    else if isUnitChar c ∧ digits then .ok (⟨num, den⟩, ⟨offset, c :: r⟩)
    else .error (.invalidCharacter offset)

/-- The rest of a number whose digits so far are `n`, up to a unit or the end. -/
def scanNumber (n offset : Nat) : List Char → Except Fault (Nat × Option Fraction × Place)
  | [] => .ok (n, none, ⟨offset, []⟩)
  | c :: r =>
    if c.isDigit then do scanNumber (← word (n * 10 + digitValue c)) (offset + 1) r
    else if isBlank c then scanNumber n (offset + c.utf8Size) r
    else if isUnitChar c then .ok (n, none, ⟨offset, c :: r⟩)
    else if c = '.' then
      match scanFraction 0 1 false (offset + 1) r with
      | .ok (f, p) => .ok (n, some f, p)
      | .error (.invalidCharacter o) =>
        .error (.invalidCharacter (if o = offset + 1 then offset else o))
      | .error e => .error e
    else .error (.invalidCharacter offset)

/-- A unit, and what follows it; a blank after the unit is taken with it. -/
def scanUnit (offset : Nat) : List Char → Except Fault (List Char × Place)
  | [] => .ok ([], ⟨offset, []⟩)
  | c :: r =>
    if c.isDigit then .ok ([], ⟨offset, c :: r⟩)
    else if isBlank c then .ok ([], ⟨offset + c.utf8Size, r⟩)
    else if isUnitChar c then do
      let (u, p) ← scanUnit (offset + c.utf8Size) r
      return (c :: u, p)
    else .error (.invalidCharacter offset)

/-- Spans up to the end, added to `total`; `fuel` bounds their number. -/
def parseSpans (total : Nat) (p : Place) : Nat → Except Fault (Option Nat)
  | 0 => .ok (some total)
  | fuel + 1 =>
    match p.rest.dropWhile isBlank with
    | [] => .ok none
    | c :: r =>
      if c.isDigit then do
        let before := p.rest.takeWhile isBlank
        let offset := p.offset + (String.ofList before).utf8ByteSize
        let (n, fraction, q) ← scanNumber (digitValue c) (offset + 1) r
        let (unit, q) ← scanUnit q.offset q.rest
        let total ← addSpan total n fraction (String.ofList unit)
        return some ((← parseSpans total q fuel).getD total)
      else .error (.expectedNumber p.offset)

def parse (s : String) : Except Fault Duration := do
  match ← parseSpans 0 ⟨0, s.toList⟩ (s.length + 1) with
  | some n => return ⟨n⟩
  | none => .error .empty

end MetricRelay.Duration
