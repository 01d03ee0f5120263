import MetricRelay.Text.Digits
import MetricRelay.Text.Utf8
import MetricRelay.Url.Address

/-!
# URLs

A `Url` holds the parts of a URL that a request needs, each in normal form. `target` is the path
and query as they go on the wire, `authority` the host and port.
-/

namespace MetricRelay

namespace Url

inductive Host where
  /-- A domain name; it may be empty where the scheme allows. -/
  | domain (name : String)
  | v4 (address : Nat)
  | v6 (pieces : List Nat)
  deriving DecidableEq, Repr

def Host.text : Host → String
  | .domain name => name
  | .v4 address => Address.v4Text address
  | .v6 pieces => "[" ++ Address.v6Text pieces ++ "]"

/-- Why a text is not a URL. -/
inductive Fault where
  | noScheme
  | emptyHost
  | port
  | v4Address
  | v6Address
  | domainName
  | hostCharacter
  deriving DecidableEq, Repr

def Fault.message : Fault → String
  | .noScheme => "relative URL without a base"
  | .emptyHost => "empty host"
  | .port => "invalid port number"
  | .v4Address => "invalid IPv4 address"
  | .v6Address => "invalid IPv6 address"
  | .domainName => "invalid international domain name"
  | .hostCharacter => "invalid domain character"

/-! ## Percent encoding -/

def hexDigit (n : Nat) : Char := (Nat.digitChar n).toUpper

def percentByte (b : UInt8) : List Char := ['%', hexDigit (b.toNat / 16), hexDigit (b.toNat % 16)]

/-- Encodes controls, characters beyond ASCII, and those of `reserved`. -/
def percentEncode (reserved : String) (s : List Char) : List Char :=
  s.flatMap fun c =>
    if c.toNat < 0x20 ∨ 0x7f ≤ c.toNat ∨ reserved.toList.contains c then
      (Text.encode (String.singleton c)).flatMap percentByte
    else [c]

/-- A percent sign without two hexadecimal digits stands for itself. -/
def percentDecode (s : List Char) : Bytes :=
  match s with
  | '%' :: a :: b :: r =>
    match Text.hexValue? a, Text.hexValue? b with
    | some x, some y => UInt8.ofNat (x * 16 + y) :: percentDecode r
    | _, _ => Text.encode "%" ++ percentDecode (a :: b :: r)
  | c :: r => Text.encode (String.singleton c) ++ percentDecode r
  | [] => []
termination_by s.length

end Url

structure Url where
  scheme : String
  /-- Percent-encoded, as is the password. -/
  user : String := ""
  password : Option String := none
  host : Option Url.Host := none
  /-- Unset if it is the scheme's own. -/
  port : Option Nat := none
  path : String
  query : Option String := none
  deriving DecidableEq, Repr

namespace Url

/-- A way to read URLs. -/
abbrev Reader := String → Except Fault Url

def target (u : Url) : String :=
  u.path ++ match u.query with
    | some q => "?" ++ q
    | none => ""

def authority (u : Url) : String :=
  (u.host.map Host.text).getD "" ++ match u.port with
    | some p => ":" ++ toString p
    | none => ""

/-- The user and password before the host, decoded, if there are any. -/
def credentials (u : Url) : Option (String × String) := do
  let user ← Text.decode? (percentDecode u.user.toList)
  let password := u.password.bind fun p => Text.decode? (percentDecode p.toList)
  if user ≠ "" ∨ password.isSome then return (user, password.getD "") else none

end Url

end MetricRelay
