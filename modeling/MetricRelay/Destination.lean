import MetricRelay.Error
import MetricRelay.Http.Credentials
import MetricRelay.Network
import MetricRelay.Text.Quoted
import MetricRelay.Wire.WriteRequest

/-!
# Destinations

A `Destination` is one remote-write endpoint, checked when it is made by `Destination.of`. `request`
composes what is sent to it, `accept` says which replies count as delivered.
-/

namespace MetricRelay

/-- What a host configures for a destination. A zero stands for the default. -/
structure DestinationOptions where
  url : String := ""
  basicUser : String := ""
  basicPassword : String := ""
  /-- Header names and values in turn. -/
  headers : List String := []
  /-- Seconds for a whole request. -/
  timeout : UInt64 := 0
  /-- Seconds for connecting. -/
  dialTimeout : UInt64 := 0
  maxIdlePerHost : UInt64 := 0
  deriving DecidableEq, Repr, Inhabited

namespace DestinationOptions

def orDefault (n default : UInt64) : UInt64 := if n = 0 then default else n

def effectiveTimeout (o : DestinationOptions) : Duration :=
  .ofSeconds (orDefault o.timeout 5).toNat

def effectiveDialTimeout (o : DestinationOptions) : Duration :=
  .ofSeconds (orDefault o.dialTimeout 3).toNat

def effectiveMaxIdle (o : DestinationOptions) : Nat := (orDefault o.maxIdlePerHost 2).toNat

/-- Reads pairs of a name and a value; the first bad one is reported. -/
def readHeaders (h : Http.Headers) : List String → Except Error Http.Headers
  | name :: value :: r =>
    match Http.headerName? name with
    | none => .error (.config ("header name " ++ Text.quote name ++ ": invalid HTTP header name"))
    | some n =>
      if Http.isHeaderValue value then readHeaders (h.append n value) r
      else .error (.config ("header " ++ Text.quote name ++ " value: failed to parse header value"))
  | _ => .ok h

def headerLines (o : DestinationOptions) : Except Error Http.Headers :=
  let n := o.headers.length
  if n % 2 = 1 then .error (.config s!"headers must be key/value pairs, got {n} entries")
  else readHeaders .empty o.headers

end DestinationOptions

structure Destination where
  name : String
  options : DestinationOptions
  url : Url
  headers : Http.Headers
  deriving DecidableEq

namespace Destination

/-- The URL is checked first, then the headers. -/
def of (name : String) (options : DestinationOptions) (readUrl : Url.Reader := Url.parse) :
    Except Error Destination :=
  match readUrl options.url with
  | .error e =>
    .error (.config (s!"destination `{name}` url " ++ Text.quote options.url ++ ": " ++ e.message))
  | .ok url => do return { name, options, url, headers := ← options.headerLines }

/-! ## Requests -/

def agent : String := "monitor-relay"

/-- The lines that every request has. -/
def ownHeaders : Http.Headers :=
  ⟨[("content-encoding", "snappy"), ("content-type", "application/x-protobuf"),
    ("user-agent", agent), ("x-prometheus-remote-write-version", "0.1.0")]⟩

def authorization : String := "authorization"

/-- The credentials of the URL come first and may be displaced by the header list; the configured
user is added to what is there. -/
def requestHeaders (d : Destination) : Http.Headers :=
  let h := match d.url.credentials with
    | some (user, password) => Http.Headers.empty.append authorization (Http.basic user password)
    | none => .empty
  let h := (⟨h.lines ++ ownHeaders.lines⟩ : Http.Headers).replace d.headers
  let h := if d.options.basicUser = "" then h
    else h.append authorization (Http.basic d.options.basicUser d.options.basicPassword)
  (h.offer "accept" "*/*").offer "host" d.url.authority

def request (d : Destination) (payload : Bytes) : Request :=
  { url := { d.url with user := "", password := none }, headers := d.requestHeaders, body := payload }

/-! ## Replies -/

/-- The most bytes of a response that an error keeps. -/
def errorBodyLimit : Nat := 512

def errorBody : Content → String
  | .complete text => text
  | .broken detail => s!"<unreadable body: {detail}>"

/-- Client and server errors fail, all other statuses count as delivered. -/
def accept : Reply → Except DeliveryError Unit
  | .failed detail => .error (.transport detail)
  | .answered status content =>
    if 400 ≤ status ∧ status < 600 then
      .error (.status status (Text.truncate (errorBody content) errorBodyLimit))
    else .ok ()

def timedOut : Reply := .failed "operation timed out"

/-- Only these schemes can be sent to. -/
def isHttp (u : Url) : Bool := (u.scheme = "http" || u.scheme = "https") && u.host.isSome

/-- Sends a payload as part of a fan-out: the time it takes, and the result. -/
def post (d : Destination) (net : Network) (fanOut : Nat) (payload : Bytes) :
    Duration × Except DeliveryError Unit :=
  let r := d.request payload
  if isHttp r.url then
    let (elapsed, reply) := (net.exchange fanOut d.name r).within d.options.effectiveTimeout timedOut
    (elapsed, accept reply)
  else (⟨0⟩, accept (.failed "URL scheme is not allowed"))

/-- Encodes and sends a batch; an empty one is not sent. -/
def write (d : Destination) (net : Network) (fanOut : Nat) (series : List Series) :
    Duration × Except DeliveryError Unit :=
  if series = [] then (⟨0⟩, .ok ())
  else
    match Wire.Snappy.compress net.pack (Wire.encode series) with
    | .error e => (⟨0⟩, .error e)
    | .ok payload => d.post net fanOut payload

end Destination

end MetricRelay
