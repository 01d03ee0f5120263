import MetricRelay.Text.Blank

/-!
# Log filters

A filter is a list of directives between commas: a level, a target, or both with an equals sign.
The directive with the longest target that begins the target of a line decides; without any
directive only errors pass. A text after a slash must occur in the line.
-/

namespace MetricRelay

inductive LogLevel where
  | error
  | warn
  | info
  | debug
  | trace
  deriving DecidableEq, Repr

namespace LogLevel

def rank : LogLevel → Nat
  | .error => 1
  | .warn => 2
  | .info => 3
  | .debug => 4
  | .trace => 5

def text : LogLevel → String
  | .error => "ERROR"
  | .warn => "WARN"
  | .info => "INFO"
  | .debug => "DEBUG"
  | .trace => "TRACE"

/-- The rank up to which lines pass; letter case does not count. -/
def limit? (s : String) : Option Nat :=
  ["OFF", "ERROR", "WARN", "INFO", "DEBUG", "TRACE"].idxOf? s.toUpper

end LogLevel

structure LogLine where
  level : LogLevel
  text : String
  deriving DecidableEq, Repr

/-- Lines of targets that begin with `target` pass up to a rank. -/
structure Directive where
  target : Option String
  limit : Nat
  deriving DecidableEq, Repr

structure LogFilter where
  directives : List Directive
  pattern : Option String
  deriving DecidableEq, Repr

namespace LogFilter

open Text

def everything : Nat := 5

def directive? (s : List Char) : Option Directive :=
  match (splitOn '=' s).map String.ofList with
  | [a] =>
    match LogLevel.limit? a with
    | some n => some ⟨none, n⟩
    | none => some ⟨some a, everything⟩
  | [a, b] =>
    let b := String.ofList (trim b.toList)
    if b = "" then some ⟨some a, everything⟩
    else (LogLevel.limit? b).map fun n => ⟨some a, n⟩
  | _ => none

/-- A later directive replaces one of the same target. -/
def addDirective (l : List Directive) (d : Directive) : List Directive :=
  if l.any fun e => e.target = d.target then l.map fun e => if e.target = d.target then d else e
  else l ++ [d]

def readDirectives (s : List Char) : List Directive :=
  let parts := ((splitOn ',' s).map trim).filter (· ≠ [])
  (parts.filterMap directive?).foldl addDirective []

/-- A text with more than one slash is no filter. -/
def parse (s : String) : LogFilter :=
  match splitOn '/' s.toList with
  | [d] => ⟨readDirectives d, none⟩
  | [d, p] => ⟨readDirectives d, some (String.ofList p)⟩
  | _ => ⟨[], none⟩

def targetLength (d : Directive) : Nat := (d.target.map String.utf8ByteSize).getD 0

/-- The rank up to which lines of a target pass. -/
def limit (f : LogFilter) (target : String) : Nat :=
  if f.directives = [] then LogLevel.error.rank
  else
    let longestFirst :=
      (f.directives.mergeSort fun a b => decide (targetLength a ≤ targetLength b)).reverse
    ((longestFirst.find? fun d => d.target.all fun t => t.toList.isPrefixOf target.toList).map
      Directive.limit).getD 0

def occursIn (p : List Char) : List Char → Bool
  | [] => p.isEmpty
  | c :: r => p.isPrefixOf (c :: r) || occursIn p r

def passes (f : LogFilter) (target : String) (l : LogLine) : Bool :=
  l.level.rank ≤ f.limit target && f.pattern.all fun p => occursIn p.toList l.text.toList

end LogFilter

end MetricRelay
