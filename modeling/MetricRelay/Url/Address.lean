import MetricRelay.Text.Blank
import MetricRelay.Text.Digits

/-!
# Numeric addresses

`readV4?` reads an IPv4 address of one to four numbers in decimal, octal or hexadecimal, the last
of which fills the rest of the address. `readV6?` reads the eight pieces of an IPv6 address.
-/

namespace MetricRelay.Url.Address

open Text

/-! ## IPv4 -/

/-- A base and the digits behind its mark. -/
def splitBase : List Char → Nat × List Char
  | '0' :: 'x' :: r => (16, r)
  | '0' :: 'X' :: r => (16, r)
  | '0' :: c :: r => (8, c :: r)
  | r => (10, r)

def digitsValue? (base : Nat) (s : List Char) : Option Nat :=
  s.foldlM (fun n c => do
    let d ← hexValue? c
    if d < base then return n * base + d else none) 0

/-- A number of any base; a mark without digits is zero. -/
def number? (s : List Char) : Option Nat :=
  if s = [] then none
  else
    let (base, digits) := splitBase s
    digitsValue? base digits

/-- The pieces between points, without an empty last one. -/
def pieces (s : List Char) : List (List Char) :=
  let ps := splitOn '.' s
  if 1 < ps.length ∧ ps.getLast? = some [] then ps.dropLast else ps

/-- Whether a host must be read as an IPv4 address. -/
def endsInNumber (s : List Char) : Bool :=
  match (pieces s).getLast? with
  | none => false
  | some last => (last ≠ [] ∧ last.all Char.isDigit) || (number? last).isSome

/-- Joins the numbers of an address; the last one fills what the others leave. -/
def joinV4? : Nat → List Nat → Option Nat
  | _, [] => none
  | places, [n] => if n < Nat.pow 256 places then some n else none
  | places, n :: r => do
    let rest ← joinV4? (places - 1) r
    if n < 256 then return n * Nat.pow 256 (places - 1) + rest else none

def readV4? (s : List Char) : Option Nat := do
  let numbers ← (pieces s).mapM number?
  if 4 < numbers.length then none else joinV4? 4 numbers

def v4Text (n : Nat) : String :=
  String.intercalate "." ((List.range 4).map fun i => toString (n / Nat.pow 256 (3 - i) % 256))

/-! ## IPv6 -/

/-- A decimal byte without leading zeros. -/
def byte? (s : List Char) : Option Nat := do
  if s = [] ∨ (s.head? = some '0' ∧ s ≠ ['0']) ∨ ¬s.all Char.isDigit then none
  else
    let n ← digitsValue? 10 s
    if n < 256 then return n else none

/-- An IPv4 address as the last two pieces. -/
def trailingV4? (s : List Char) : Option (List Nat) := do
  match ← (splitOn '.' s).mapM byte? with
  | [a, b, c, d] => return [a * 256 + b, c * 256 + d]
  | _ => none

def piece? (s : List Char) : Option Nat :=
  if 1 ≤ s.length ∧ s.length ≤ 4 then digitsValue? 16 s else none

/-- Pieces between single colons; only the last may be an IPv4 address. -/
def pieceList? : List (List Char) → Option (List Nat)
  | [] => some []
  | [p] => if p.contains '.' then trailingV4? p else do return [← piece? p]
  | p :: r => do return (← piece? p) :: (← pieceList? r)

/-- No text is no pieces. -/
def side? (s : List Char) : Option (List Nat) := if s = [] then some [] else pieceList? (splitOn ':' s)

/-- What stands before and after the first `::`. -/
def splitDouble : List Char → Option (List Char × List Char)
  | ':' :: ':' :: r => some ([], r)
  | c :: r => (splitDouble r).map fun (a, b) => (c :: a, b)
  | [] => none

/-- The double colon stands for at least one piece of zero. -/
def readV6? (s : List Char) : Option (List Nat) := do
  match splitDouble s with
  | none =>
    let ps ← side? s
    if ps.length = 8 then return ps else none
  | some (a, b) =>
    if a.contains '.' then none
    else
      let left ← side? a
      let right ← side? b
      let count := left.length + right.length
      if count < 8 then return left ++ List.replicate (8 - count) 0 ++ right else none

/-- Where the longest run of at least two zeros begins, and how long it is. -/
def longestZeros (ps : List Nat) : Nat × Nat :=
  (List.range ps.length).foldl (fun best i =>
    let n := ((ps.drop i).takeWhile (· = 0)).length
    if 2 ≤ n ∧ best.2 < n then (i, n) else best) (0, 0)

def hexText (n : Nat) : String := String.ofList (Nat.toDigits 16 n)

def v6Text (ps : List Nat) : String :=
  let join (l : List Nat) := String.intercalate ":" (l.map hexText)
  let (i, n) := longestZeros ps
  if n = 0 then join ps else join (ps.take i) ++ "::" ++ join (ps.drop (i + n))

end MetricRelay.Url.Address
