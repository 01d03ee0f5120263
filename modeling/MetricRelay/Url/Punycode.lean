/-!
# Punycode

A label with characters beyond ASCII is written as its ASCII characters, a hyphen, and a sequence
of numbers in base 36, each saying how far the next insertion is from the last. `encode` writes
this form, `decode?` reads it.
-/

namespace MetricRelay.Url.Punycode

/-- The first code point that is inserted. -/
def initialCode : Nat := 128

def initialBias : Nat := 72

/-- Halves, or divides by 700 the first time, then adds a share for the longer text. -/
def firstDelta (delta count : Nat) (first : Bool) : Nat :=
  let d := if first then delta / 700 else delta / 2
  d + d / count

/-- Counts the digits that the next number is expected to have. -/
def adaptFrom (k delta : Nat) : Nat :=
  if 455 < delta then adaptFrom (k + 36) (delta / 35) else k + 36 * delta / (delta + 38)
termination_by delta

def adapt (delta count : Nat) (first : Bool) : Nat := adaptFrom 0 (firstDelta delta count first)

/-- The threshold of the digit at place `k`, between 1 and 26. -/
def threshold (k bias : Nat) : Nat := if k ≤ bias then 1 else if bias + 26 ≤ k then 26 else k - bias

/-! ## Writing -/

def digit (n : Nat) : Char := if n < 26 then Char.ofNat ('a'.toNat + n) else Char.ofNat ('0'.toNat + (n - 26))

/-- A number in digits from place `k` on; `limit` bounds their number. -/
def writeNumber (bias : Nat) : Nat → Nat → Nat → List Char
  | 0, _, _ => []
  | limit + 1, k, n =>
    let t := threshold k bias
    if n < t then [digit n]
    else digit (t + (n - t) % (36 - t)) :: writeNumber bias limit (k + 36) ((n - t) / (36 - t))

/-- Where the writing stands: how far the next insertion is, the bias, how much is written. -/
structure Writer where
  delta : Nat
  bias : Nat
  written : Nat
  first : Bool
  digits : List Char

/-- Passes over one character of the label while the characters `code` are inserted. -/
def Writer.pass (code : Nat) (w : Writer) (c : Char) : Writer :=
  if c.toNat < code then { w with delta := w.delta + 1 }
  else if c.toNat = code then
    { delta := 0
      bias := adapt w.delta (w.written + 1) w.first
      written := w.written + 1
      first := false
      digits := w.digits ++ writeNumber w.bias (w.delta + 1) 36 w.delta }
  else w

/-- Inserts the characters of each code in turn; `before` is the code of the round before. -/
def writeCodes (label : List Char) (before : Nat) (w : Writer) : List Nat → Writer
  | [] => w
  | code :: more =>
    let w := { w with delta := w.delta + (code - before) * (w.written + 1) }
    let w := label.foldl (Writer.pass code) w
    writeCodes label (code + 1) { w with delta := w.delta + 1 } more

/-- The codes beyond ASCII, ascending. -/
def codes (label : List Char) : List Nat :=
  ((label.map Char.toNat).filter (initialCode ≤ ·)).mergeSort.eraseReps

def encode (label : List Char) : List Char :=
  let basic := label.filter fun c => c.toNat < initialCode
  let w := writeCodes label initialCode ⟨0, initialBias, basic.length, true, []⟩ (codes label)
  basic ++ (if basic = [] then [] else ['-']) ++ w.digits

/-! ## Reading -/

def digitValue? (c : Char) : Option Nat :=
  if c.isDigit then some (c.toNat - '0'.toNat + 26)
  else if c.isLower then some (c.toNat - 'a'.toNat)
  else if c.isUpper then some (c.toNat - 'A'.toNat)
  else none

/-- The number whose digits from place `k` on count `weight` each. -/
def readNumber? (bias k weight : Nat) : List Char → Option (Nat × List Char)
  | [] => none
  | c :: r => do
    let d ← digitValue? c
    let t := threshold k bias
    if d < t then return (d * weight, r)
    let (n, r) ← readNumber? bias (k + 36) (weight * (36 - t)) r
    return (d * weight + n, r)

/-- Inserts characters up to the end; `limit` bounds their number. -/
def insertAll? : Nat → Nat → Nat → Nat → List Char → List Char → Option (List Char)
  | _, _, _, _, label, [] => some label
  | 0, _, _, _, _, _ => none
  | limit + 1, code, place, bias, label, r => do
    let (delta, r) ← readNumber? bias 36 1 r
    let count := label.length + 1
    let code := code + (place + delta) / count
    let i := (place + delta) % count
    if code < initialCode ∨ ¬code.isValidChar then none
    else
      let label := label.take i ++ Char.ofNat code :: label.drop i
      insertAll? limit code (i + 1) (adapt delta count (place = 0)) label r

/-- The part before the last hyphen, and the part after it. -/
def splitLast (s : List Char) : List Char × List Char :=
  let after := (s.reverse.takeWhile (· ≠ '-')).reverse
  ((s.take (s.length - after.length)).dropLast, after)

def decode? (s : List Char) : Option (List Char) :=
  let (basic, digits) := splitLast s
  insertAll? digits.length initialCode 0 initialBias basic digits

end MetricRelay.Url.Punycode
