import MetricRelay.Decimal.Layout
import MetricRelay.Text.Quoted

/-!
# Faults in JSON

`Fault` is what can be wrong with a JSON text, or with what it says for the one who reads it.
-/

namespace MetricRelay.Json

inductive Number where
  | natural (n : Nat)
  /-- The number `-n`. -/
  | negative (n : Nat)
  | float (x : Binary64)
  deriving DecidableEq, Repr

/-- What stands where something else was expected. -/
inductive Found where
  | null
  | bool (b : Bool)
  | number (n : Number)
  | text (s : String)
  | list
  | map
  deriving DecidableEq, Repr

def Found.shown : Found → String
  | .null => "null"
  | .bool b => s!"boolean `{b}`"
  | .number (.natural n) => s!"integer `{n}`"
  | .number (.negative n) => s!"integer `-{n}`"
  | .number (.float x) => "floating point `" ++ Decimal.tagged.render x ++ "`"
  | .text s => "string " ++ Text.quote s
  | .list => "sequence"
  | .map => "map"

inductive Fault where
  | endOfText
  | endInList
  | endInMap
  | endInText
  | expectedValue
  | expectedWord
  | expectedColon
  | expectedListSeparator
  | expectedMapSeparator
  | keyNotText
  | trailingComma
  | trailingCharacters
  | invalidNumber
  | numberRange
  | invalidEscape
  | loneSurrogate
  | endOfHexEscape
  | controlCharacter
  | tooDeep
  | wrongType (found : Found) (expected : String)
  | wrongValue (found : Found) (expected : String)
  | wrongLength (length : Nat) (expected : String)
  | missingField (name : String)
  | duplicateField (name : String)
  deriving DecidableEq, Repr

def Fault.message : Fault → String
  | .endOfText => "EOF while parsing a value"
  | .endInList => "EOF while parsing a list"
  | .endInMap => "EOF while parsing an object"
  | .endInText => "EOF while parsing a string"
  | .expectedValue => "expected value"
  | .expectedWord => "expected ident"
  | .expectedColon => "expected `:`"
  | .expectedListSeparator => "expected `,` or `]`"
  | .expectedMapSeparator => "expected `,` or `\x7d`"
  | .keyNotText => "key must be a string"
  | .trailingComma => "trailing comma"
  | .trailingCharacters => "trailing characters"
  | .invalidNumber => "invalid number"
  | .numberRange => "number out of range"
  | .invalidEscape => "invalid escape"
  | .loneSurrogate => "lone leading surrogate in hex escape"
  | .endOfHexEscape => "unexpected end of hex escape"
  | .controlCharacter => "control character (\\u0000-\\u001F) found while parsing a string"
  | .tooDeep => "recursion limit exceeded"
  | .wrongType found expected => "invalid type: " ++ found.shown ++ ", expected " ++ expected
  | .wrongValue found expected => "invalid value: " ++ found.shown ++ ", expected " ++ expected
  | .wrongLength length expected => s!"invalid length {length}, expected {expected}"
  | .missingField name => s!"missing field `{name}`"
  | .duplicateField name => s!"duplicate field `{name}`"

end MetricRelay.Json
