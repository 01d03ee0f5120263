import MetricRelay.Json.Fault
import MetricRelay.Text.Digits

/-!
# Texts in JSON

A literal is read in two ways. `readText` gives its text; `skipText` checks the form alone, and
lets a surrogate stand that has no partner. Both begin after the opening quote and take at most
`limit` characters and escapes; as many as there are characters are enough.
-/

namespace MetricRelay.Json

/-- Four hexadecimal digits; fewer than four bytes are the end of the text. -/
def hexEscape (s : List Char) : Except Fault (Nat × List Char) :=
  if (String.ofList (s.take 4)).utf8ByteSize < 4 then .error .endInText
  else
    match (s.take 4).mapM Text.hexValue? with
    | some [a, b, c, d] => .ok (((a * 16 + b) * 16 + c) * 16 + d, s.drop 4)
    | _ => .error .invalidEscape

/-- The characters that stand for themselves or a control after a backslash. -/
def shortEscape? (c : Char) : Option Char :=
  if c = '"' ∨ c = '\\' ∨ c = '/' then some c
  else if c = 'b' then some '\x08'
  else if c = 'f' then some '\x0c'
  else if c = 'n' then some '\n'
  else if c = 'r' then some '\r'
  else if c = 't' then some '\t'
  else none

/-! ## The form alone -/

/-- What follows the closing quote. -/
def skipText : Nat → List Char → Except Fault (List Char)
  | 0, _ => .error .endInText
  | _, [] => .error .endInText
  | limit + 1, c :: r =>
    if c = '"' then .ok r
    else if c = '\\' then
      match r with
      | [] => .error .endInText
      | 'u' :: r => do skipText limit (← hexEscape r).2
      | c :: r => if (shortEscape? c).isSome then skipText limit r else .error .invalidEscape
    else if c.toNat < 0x20 then .error .controlCharacter
    else skipText limit r

/-! ## The text -/

/-- The second half of a surrogate pair. -/
def readPartner (high : Nat) : List Char → Except Fault (Char × List Char)
  | [] => .error .endInText
  | '\\' :: [] => .error .endInText
  | '\\' :: 'u' :: r => do
    let (low, r) ← hexEscape r
    if 0xdc00 ≤ low ∧ low ≤ 0xdfff then
      return (Char.ofNat (0x10000 + (high - 0xd800) * 0x400 + (low - 0xdc00)), r)
    else throw .loneSurrogate
  | _ => .error .endOfHexEscape

def readUnicodeEscape (s : List Char) : Except Fault (Char × List Char) := do
  let (n, r) ← hexEscape s
  if 0xdc00 ≤ n ∧ n ≤ 0xdfff then throw .loneSurrogate
  else if 0xd800 ≤ n ∧ n ≤ 0xdbff then readPartner n r
  else return (Char.ofNat n, r)

/-- The characters up to the closing quote. -/
def readChars : Nat → List Char → Except Fault (List Char)
  | 0, _ => .error .endInText
  | _, [] => .error .endInText
  | limit + 1, c :: r =>
    if c = '"' then .ok []
    else if c = '\\' then
      match r with
      | [] => .error .endInText
      | 'u' :: r => do
        let (c, r) ← readUnicodeEscape r
        return c :: (← readChars limit r)
      | c :: r =>
        match shortEscape? c with
        | some c => do return c :: (← readChars limit r)
        | none => .error .invalidEscape
    else if c.toNat < 0x20 then .error .controlCharacter
    else do return c :: (← readChars limit r)

def readText (limit : Nat) (s : List Char) : Except Fault String := do
  return String.ofList (← readChars limit s)

/-! ## Writing -/

def hexDigits4 (n : Nat) : List Char :=
  [Nat.digitChar (n / 4096), Nat.digitChar (n / 256 % 16), Nat.digitChar (n / 16 % 16),
    Nat.digitChar (n % 16)]

def escapeChar (c : Char) : List Char :=
  if c = '"' then ['\\', '"']
  else if c = '\\' then ['\\', '\\']
  else if c = '\n' then ['\\', 'n']
  else if c = '\r' then ['\\', 'r']
  else if c = '\t' then ['\\', 't']
  else if c.toNat < 0x20 then '\\' :: 'u' :: hexDigits4 c.toNat
  else [c]

/-- A text between quotes. -/
def textLiteral (s : String) : List Char := '"' :: s.toList.flatMap escapeChar ++ ['"']

end MetricRelay.Json
