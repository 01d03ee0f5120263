import MetricRelay.Text.Blank
import MetricRelay.Text.Hidden
import MetricRelay.Text.Utf8
import MetricRelay.Url.DomainTable
import MetricRelay.Url.Punycode

/-!
# Domain names

`Domain.ofBytes?` brings the bytes of a domain name into its ASCII form: lower case, full-width
forms made plain, labels beyond ASCII in Punycode. It fails on a character that no domain name has.
-/

namespace MetricRelay.Url.Domain

open Text

/-- ASCII characters that delimit the parts of a URL, or leave no mark. -/
def isDelimiter (c : Char) : Bool :=
  c.toNat ≤ 0x20 || c.toNat = 0x7f || "%#/:<>?@[\\]^|".toList.contains c

/-- What stands for a character: nothing, its lower-case form, or itself. -/
def mapChar (c : Char) : List Char :=
  let n := c.toNat
  if isIgnored c then []
  else if 0xff01 ≤ n ∧ n ≤ 0xff5e then [(Char.ofNat (n - 0xfee0)).toLower]
  else if n = 0x3002 ∨ n = 0xff61 then ['.']
  else [c.toLower]

def isAscii (c : Char) : Bool := c.toNat < 0x80

/-- A mark that extends the character before it. -/
def isMark (c : Char) : Bool := isHidden c && !isDisallowed c && !isAscii c

def isJoiner (c : Char) : Bool := c = '\u200c' || c = '\u200d'

/-- A joiner stands only after a virama. -/
def joinersFit : List Char → Bool
  | a :: b :: r => (!isJoiner b || isVirama a) && joinersFit (b :: r)
  | _ => true

/-- Whether a label beyond ASCII may stand in a domain name. -/
def isLabel (label : List Char) : Bool :=
  label.all (fun c => !isDelimiter c && !isDisallowed c) && !(label.head?.any isMark) &&
    joinersFit label

/-- The beginning of a label in Punycode. -/
def marker : List Char := ['x', 'n', '-', '-']

def asciiLabel? (label : List Char) : Option (List Char) :=
  if label.take 4 = marker then do
    let decoded ← Punycode.decode? (label.drop 4)
    if isLabel decoded ∧ ¬decoded.all isAscii ∧ decoded.all (fun c => mapChar c = [c]) then
      return label
    else none
  else if label.all isAscii then if label.all (!isDelimiter ·) then some label else none
  else if isLabel label then some (marker ++ Punycode.encode label)
  else none

def ofBytes? (b : Bytes) : Option String := do
  let s ← decode? b
  let labels ← (splitOn '.' (s.toList.flatMap mapChar)).mapM asciiLabel?
  return String.ofList (['.'].intercalate labels)

end MetricRelay.Url.Domain
