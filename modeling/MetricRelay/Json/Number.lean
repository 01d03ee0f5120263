import MetricRelay.Json.Fault
import MetricRelay.Text.Digits

/-!
# Numbers in JSON

A whole number keeps its value if it fits 64 bits; any other number becomes a double. `readNumber`
gives the value, `skipNumber` checks the form alone and gives what follows. A double is made from
the digits that fit 64 bits by one multiplication or division with a power of ten, so its last bit
need not be the nearest one.
-/

namespace MetricRelay.Json

open Text

/-! ## The form alone -/

def skipExponent (s : List Char) : Except Fault (List Char) :=
  let s := match s with
    | '+' :: r => r
    | '-' :: r => r
    | r => r
  match s with
  | c :: r => if c.isDigit then .ok (r.dropWhile Char.isDigit) else .error .invalidNumber
  | [] => .error .invalidNumber

def skipAfterDigits : List Char → Except Fault (List Char)
  | 'e' :: r => skipExponent r
  | 'E' :: r => skipExponent r
  | r => .ok r

/-- What follows a number, its sign taken off before. -/
def skipNumber : List Char → Except Fault (List Char)
  | [] => .error .invalidNumber
  | c :: r =>
    if ¬c.isDigit ∨ (c = '0' ∧ r.head?.any Char.isDigit) then .error .invalidNumber
    else
      match r.dropWhile Char.isDigit with
      | '.' :: r =>
        if r.head?.any Char.isDigit then skipAfterDigits (r.dropWhile Char.isDigit)
        else .error .invalidNumber
      | r => skipAfterDigits r

/-! ## The value -/

/-- Digits read so far, as `significand * 10 ^ exponent`, and what follows. -/
structure Digits where
  significand : Nat
  exponent : Int
  rest : List Char

/-- Whole digits; those that do not fit 64 bits only count. -/
def wholeDigits (n : Nat) : List Char → Digits
  | [] => ⟨n, 0, []⟩
  | c :: r =>
    if c.isDigit then
      let m := n * 10 + digitValue c
      if m < UInt64.size then wholeDigits m r
      else ⟨n, (r.takeWhile Char.isDigit).length + 1, r.dropWhile Char.isDigit⟩
    else ⟨n, 0, c :: r⟩

/-- Digits after the point; those that do not fit 64 bits are dropped. -/
def fractionDigits (n : Nat) (exponent : Int) : List Char → Digits
  | [] => ⟨n, exponent, []⟩
  | c :: r =>
    if c.isDigit then
      let m := n * 10 + digitValue c
      if m < UInt64.size then fractionDigits m (exponent - 1) r
      else ⟨n, exponent, r.dropWhile Char.isDigit⟩
    else ⟨n, exponent, c :: r⟩

def powerOfTen (n : Nat) : Binary64 := Binary64.ofNat (Nat.pow 10 n)

/-- Divides by `10 ^ n`, by `10 ^ 308` at a time. -/
def scaleDown (x : Binary64) (n : Nat) : Binary64 :=
  if n ≤ 308 then x.div (powerOfTen n)
  else if x.isZero then x
  else scaleDown (x.div (powerOfTen 308)) (n - 308)
termination_by n

def scale (x : Binary64) : Int → Except Fault Binary64
  | .ofNat n =>
    if 308 < n then if x.isZero then .ok x else .error .numberRange
    else
      let y := x.mul (powerOfTen n)
      if y.isInfinite then .error .numberRange else .ok y
  | .negSucc n => .ok (scaleDown x (n + 1))

def ofDigits (negative : Bool) (significand : Nat) (exponent : Int) : Except Fault Number := do
  let x ← scale (Binary64.ofNat significand) exponent
  return .float (if negative then x.neg else x)

def readExponent (negative : Bool) (d : Digits) : List Char → Except Fault Number
  | [] => .error .endOfText
  | c :: r =>
    let (down, s) := if c = '-' then (true, r) else if c = '+' then (false, r) else (false, c :: r)
    match s with
    | [] => .error .endOfText
    | c :: r =>
      if c.isDigit then
        let n := decimalValue (c :: r.takeWhile Char.isDigit)
        ofDigits negative d.significand (d.exponent + if down then -(n : Int) else n)
      else .error .invalidNumber

/-- A number with a fraction or an exponent, from its first digits on. -/
def readFloat (negative : Bool) (d : Digits) : Except Fault Number :=
  match d.rest with
  | 'e' :: r => readExponent negative d r
  | 'E' :: r => readExponent negative d r
  | _ => ofDigits negative d.significand d.exponent

def readFraction (negative : Bool) (d : Digits) : List Char → Except Fault Number
  | [] => .error .endOfText
  | c :: r =>
    if c.isDigit then readFloat negative (fractionDigits d.significand d.exponent (c :: r))
    else .error .invalidNumber

/-- A whole number; minus zero and what does not fit 64 bits are doubles. -/
def ofWhole (negative : Bool) (n : Nat) : Number :=
  if ¬negative then .natural n
  else if 0 < n ∧ n ≤ 1 <<< 63 then .negative n
  else .float (Binary64.ofNat n).neg

/-- The value of a number, its sign taken off before. -/
def readNumber (negative : Bool) : List Char → Except Fault Number
  | [] => .error .endOfText
  | c :: r =>
    if ¬c.isDigit ∨ (c = '0' ∧ r.head?.any Char.isDigit) then .error .invalidNumber
    else
      let d := wholeDigits (digitValue c) r
      match d.rest with
      | '.' :: r => readFraction negative d r
      | 'e' :: r => readExponent negative d r
      | 'E' :: r => readExponent negative d r
      | _ =>
        if d.exponent = 0 then .ok (ofWhole negative d.significand)
        else ofDigits negative d.significand d.exponent

end MetricRelay.Json
