import MetricRelay.Text.Hidden

/-!
# Quoted text

`quote` writes a text between double quotes so that every character shows: quote and backslash
are escaped, `\n \r \t \0` have short forms, and hidden characters appear as their code point in
braces.
-/

namespace MetricRelay.Text

/-- A code point in lower-case hexadecimal. -/
def codePointText (c : Char) : List Char :=
  ['\\', 'u', '\x7b'] ++ Nat.toDigits 16 c.toNat ++ ['\x7d']

def escapeChar (c : Char) : List Char :=
  if c = '"' then ['\\', '"']
  else if c = '\\' then ['\\', '\\']
  else if c = '\n' then ['\\', 'n']
  else if c = '\r' then ['\\', 'r']
  else if c = '\t' then ['\\', 't']
  else if c = '\x00' then ['\\', '0']
  else if isHidden c then codePointText c
  else [c]

def quote (s : String) : String :=
  String.ofList ('"' :: s.toList.flatMap escapeChar ++ ['"'])

/-- Quoted texts in brackets, separated by commas. -/
def quoteList (names : List String) : String :=
  "[" ++ String.intercalate ", " (names.map quote) ++ "]"

end MetricRelay.Text
