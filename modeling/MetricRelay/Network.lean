import MetricRelay.Duration.Basic
import MetricRelay.Http.Headers
import MetricRelay.Url.Parser
import MetricRelay.Wire.Snappy

/-!
# The network around the relay

A `Network` says what the relay meets outside itself. The peers: how an attempt to connect ends, and how
a request is answered. The client that it reaches them through: which URLs there are, how payloads are
packed, and what text there is in the body of a response. All that the relay does is a function of it.
In an `unreachable` network every attempt fails at once.
-/

namespace MetricRelay

/-- A request to a destination. -/
structure Request where
  url : Url
  headers : Http.Headers
  body : Bytes
  deriving DecidableEq

/-- The body of a response: the text that the client reads in it, by its charset, or why it could not be
read. -/
inductive Content where
  | complete (text : String)
  | broken (detail : String)
  deriving DecidableEq

/-- How a request ends. -/
inductive Reply where
  | answered (status : Nat) (content : Content)
  | failed (detail : String)
  deriving DecidableEq

/-- A result that comes after some time, or never. -/
inductive Eventually (α : Type) where
  | after (elapsed : Duration) (result : α)
  | never
  deriving DecidableEq

namespace Eventually

variable {α : Type}

/-- The result, unless it takes longer than `limit`, and the time spent on it. -/
def within (limit : Duration) (otherwise : α) : Eventually α → Duration × α
  | .after elapsed result =>
    if elapsed.nanos ≤ limit.nanos then (elapsed, result) else (limit, otherwise)
  | .never => (limit, otherwise)

end Eventually

structure Network where
  /-- An attempt, begun at a time in milliseconds, to connect to an address: nothing, or the
  failure. -/
  connect : Nat → String → Eventually (Except String Unit)
  /-- A request that belongs to the fan-out of that number, to a destination by name. -/
  exchange : Nat → String → Request → Eventually Reply
  readUrl : Url.Reader := Url.parse
  /-- The block of a payload that is not too large. -/
  pack : Bytes → Bytes := Wire.Snappy.literalBlock

namespace Network

def unreachableText : String := "Network is unreachable (os error 101)"

def unreachable : Network where
  connect _ _ := .after ⟨0⟩ (.error unreachableText)
  exchange _ _ _ := .after ⟨0⟩ (.failed unreachableText)

end Network

end MetricRelay
