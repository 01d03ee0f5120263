import MetricRelay.Collector.Basic

/-!
# The TCP probe

The probe connects to one address and reports how long that took and whether it worked. It is
configured by `address` (`host:port`) and `timeout`, which is three seconds unless given.
-/

namespace MetricRelay

structure Target where
  address : String
  timeout : Duration
  deriving DecidableEq, Repr

structure Probe where
  target : Option Target := none
  deriving DecidableEq, Repr

namespace Probe

def name : String := "tcp_probe"

def defaultTimeout : Duration := .ofSeconds 3

/-- A port is a number of 16 bits, with an optional plus sign. -/
def isPort (s : List Char) : Bool :=
  let digits := match s with
    | '+' :: r => r
    | r => r
  match ConfigMap.naturalOfChars? digits with
  | some n => n < UInt16.size
  | none => false

/-- What follows the last colon. -/
def portText (address : String) : List Char :=
  (address.toList.reverse.takeWhile (· ≠ ':')).reverse

def readTarget (c : ConfigMap) : Except CollectorError Target := do
  let address ← c.require "address"
  if ¬address.toList.contains ':' then
    throw (.invalidField "address" (Text.quote address ++ ": expected host:port"))
  let timeout ← c.duration? "timeout"
  return { address, timeout := timeout.getD defaultTimeout }

/-- A bad configuration leaves the target as it was. -/
def init (c : ConfigMap) (p : Probe) : Except CollectorError Unit × Probe :=
  match readTarget c with
  | .ok t => (.ok (), { target := some t })
  | .error e => (.error e, p)

/-- How long the attempt takes, and how it ends. -/
def attempt (connect : Connect) (t : Target) : Duration × Outcome :=
  if isPort (portText t.address) then
    let ended : Eventually Outcome := match connect t.address with
      | .after elapsed (.ok _) => .after elapsed .done
      | .after elapsed (.error detail) => .after elapsed (.failed (.io detail))
      | .never => .never
    ended.within t.timeout (.failed (.timeout t.timeout))
  else (⟨0⟩, .failed (.io "invalid port value"))

/-- A duration in seconds. -/
def seconds (d : Duration) : Binary64 := Binary64.ofRatio false d.nanos Duration.nanosPerSecond

def sample (t : Target) (metric : String) (value : Value) : Sample :=
  { source := name, metric, value, labels := Table.empty.insert "address" t.address }

def gather (connect : Connect) (p : Probe) : Gathering :=
  match p.target with
  | none => ⟨[], .failed (.other "probe used before init")⟩
  | some t =>
    let (elapsed, outcome) := attempt connect t
    ⟨[.sleep elapsed.millisUp, .push (sample t "connect_seconds" (.float (seconds elapsed))),
      .push (sample t "up" (.ofBool (outcome = .done)))], outcome⟩

instance : Collector Probe where
  name _ := name
  init := init
  gather connect p := (p.gather connect, p)

end Probe

end MetricRelay
