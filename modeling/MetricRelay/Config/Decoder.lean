import MetricRelay.Config.Basic
import MetricRelay.Json.Decoder

/-!
# Reading configurations

The configuration is one JSON value. Members that are not known are skipped. A record may also be
given as a list of its fields, but for a destination, which holds its name among its options.
`Config.parse` reads a text, `Config.parseFile` the content of a file.
-/

namespace MetricRelay

open Json

def durationDecoder : Decoder Duration := fun _ n =>
  match n with
  | .text l => do
    let s ← l.reading
    match Duration.parse s with
    | .ok d => return d
    | .error _ => throw (.wrongValue (.text s) "a duration")
  | n => mismatch "a duration" n

/-! ## Destinations -/

namespace DestinationOptions

/-- The fields read so far. -/
structure Draft where
  url : Option String := none
  basicUser : Option String := none
  basicPassword : Option String := none
  headers : Option (List String) := none
  timeout : Option UInt64 := none
  dialTimeout : Option UInt64 := none
  maxIdlePerHost : Option UInt64 := none

/-- What is not given has its default. -/
def Draft.options (d : Draft) : DestinationOptions where
  url := d.url.getD ""
  basicUser := d.basicUser.getD ""
  basicPassword := d.basicPassword.getD ""
  headers := d.headers.getD []
  timeout := d.timeout.getD 0
  dialTimeout := d.dialTimeout.getD 0
  maxIdlePerHost := d.maxIdlePerHost.getD 0

def headersDecoder : Decoder (List String) := Decoder.list Decoder.text

def Draft.member (room : Nat) (d : Draft) (key : String) (n : Node) : Except Fault Draft := do
  match key with
  | "url" => return { d with url := ← once key d.url (Decoder.text room) n }
  | "basic_auth_user" => return { d with basicUser := ← once key d.basicUser (Decoder.text room) n }
  | "basic_auth_pass" =>
    return { d with basicPassword := ← once key d.basicPassword (Decoder.text room) n }
  | "headers" => return { d with headers := ← once key d.headers (headersDecoder room) n }
  | "timeout" => return { d with timeout := ← once key d.timeout (Decoder.word "u64" room) n }
  | "dial_timeout" =>
    return { d with dialTimeout := ← once key d.dialTimeout (Decoder.word "u64" room) n }
  | "max_idle_conns_per_host" =>
    return { d with maxIdlePerHost := ← once key d.maxIdlePerHost (Decoder.word "usize" room) n }
  | _ =>
    n.skip
    return d

def ofItems (room : Nat) (items : Items) : Except Fault DestinationOptions := do
  let (url, items) ← items.field (Decoder.text room) (.ok "")
  let (basicUser, items) ← items.field (Decoder.text room) (.ok "")
  let (basicPassword, items) ← items.field (Decoder.text room) (.ok "")
  let (headers, items) ← items.field (headersDecoder room) (.ok [])
  let (timeout, items) ← items.field (Decoder.word "u64" room) (.ok 0)
  let (dialTimeout, items) ← items.field (Decoder.word "u64" room) (.ok 0)
  let (maxIdlePerHost, items) ← items.field (Decoder.word "usize" room) (.ok 0)
  items.finish 7
  return { url, basicUser, basicPassword, headers, timeout, dialTimeout, maxIdlePerHost }

def decoder : Decoder DestinationOptions :=
  record "struct DestinationOptions" ofItems fun room members => do
    return (← members.fold (Draft.member room) {}).options

end DestinationOptions

namespace DestinationConfig

/-- The name, and the other members in order. -/
structure Draft where
  name : Option String := none
  others : List (String × Json.Value) := []

def Draft.member (room : Nat) (d : Draft) (key : String) (n : Node) : Except Fault Draft := do
  if key = "name" then return { d with name := ← once key d.name (Decoder.text room) n }
  else
    let v ← n.value room
    return { d with others := d.others ++ [(key, v)] }

/-- All members are read before the options are made of them. -/
def decoder : Decoder DestinationConfig := fun room n =>
  match n with
  | .map members => descend room fun room => do
    let d ← members.fold (Draft.member room) {}
    let name ← needed "name" d.name
    return { name, options := ← DestinationOptions.decoder depthLimit (Json.Value.map d.others).node }
  | n => mismatch "struct DestinationConfig" n

end DestinationConfig

/-! ## Monitors -/

namespace ModelSpec

def expected : String := "struct ModelSpec with 2 elements"

structure Draft where
  name : Option String := none
  config : Option (Table String) := none

def Draft.member (room : Nat) (d : Draft) (key : String) (n : Node) : Except Fault Draft := do
  match key with
  | "name" => return { d with name := ← once key d.name (Decoder.text room) n }
  | "config" => return { d with config := ← once key d.config (Decoder.table room) n }
  | _ =>
    n.skip
    return d

def ofItems (room : Nat) (items : Items) : Except Fault ModelSpec := do
  let (name, items) ← items.field (Decoder.text room) (.error (.wrongLength 0 expected))
  let (config, items) ← items.field (Decoder.table room) (.ok .empty)
  items.finish 2
  return { name, config }

def decoder : Decoder ModelSpec :=
  record "struct ModelSpec" ofItems fun room members => do
    let d ← members.fold (Draft.member room) {}
    return { name := ← needed "name" d.name, config := d.config.getD .empty }

end ModelSpec

namespace MonitorSpec

def expected : String := "struct MonitorSpec with 4 elements"

structure Draft where
  name : Option String := none
  model : Option ModelSpec := none
  period : Option Duration := none
  labels : Option Labels := none

def Draft.member (room : Nat) (d : Draft) (key : String) (n : Node) : Except Fault Draft := do
  match key with
  | "name" => return { d with name := ← once key d.name (Decoder.text room) n }
  | "model" => return { d with model := ← once key d.model (ModelSpec.decoder room) n }
  | "period" => return { d with period := ← once key d.period (durationDecoder room) n }
  | "labels" => return { d with labels := ← once key d.labels (Decoder.table room) n }
  | _ =>
    n.skip
    return d

def ofItems (room : Nat) (items : Items) : Except Fault MonitorSpec := do
  let (name, items) ← items.field (Decoder.text room) (.ok "")
  let (model, items) ← items.field (ModelSpec.decoder room) (.error (.wrongLength 1 expected))
  let (period, items) ← items.field (durationDecoder room) (.error (.wrongLength 2 expected))
  let (labels, items) ← items.field (Decoder.table room) (.ok .empty)
  items.finish 4
  return { name, model, period, labels }

def decoder : Decoder MonitorSpec :=
  record "struct MonitorSpec" ofItems fun room members => do
    let d ← members.fold (Draft.member room) {}
    return { name := d.name.getD "", model := ← needed "model" d.model,
             period := ← needed "period" d.period, labels := d.labels.getD .empty }

end MonitorSpec

/-! ## The whole configuration -/

namespace Config

def expected : String := "struct Config with 4 elements"

structure Draft where
  destinations : Option (List DestinationConfig) := none
  monitors : Option (List MonitorSpec) := none
  globalLabels : Option (Option Labels) := none
  selfMetricsInterval : Option (Option Duration) := none

def destinationsDecoder : Decoder (List DestinationConfig) := Decoder.list DestinationConfig.decoder

def monitorsDecoder : Decoder (List MonitorSpec) := Decoder.list MonitorSpec.decoder

def labelsDecoder : Decoder (Option Labels) := Decoder.optional Decoder.table

def intervalDecoder : Decoder (Option Duration) := Decoder.optional durationDecoder

def Draft.member (room : Nat) (d : Draft) (key : String) (n : Node) : Except Fault Draft := do
  match key with
  | "destinations" =>
    return { d with destinations := ← once key d.destinations (destinationsDecoder room) n }
  | "monitors" => return { d with monitors := ← once key d.monitors (monitorsDecoder room) n }
  | "global_labels" =>
    return { d with globalLabels := ← once key d.globalLabels (labelsDecoder room) n }
  | "self_metrics_interval" =>
    return { d with selfMetricsInterval := ← once key d.selfMetricsInterval (intervalDecoder room) n }
  | _ =>
    n.skip
    return d

/-- In list form the global labels cannot be left out. -/
def ofItems (room : Nat) (items : Items) : Except Fault Config := do
  let (destinations, items) ← items.field (destinationsDecoder room) (.ok [])
  let (monitors, items) ← items.field (monitorsDecoder room) (.ok [])
  let (globalLabels, items) ← items.field (labelsDecoder room) (.error (.wrongLength 2 expected))
  let (selfMetricsInterval, items) ← items.field (intervalDecoder room) (.ok none)
  items.finish 4
  return { destinations, monitors, globalLabels, selfMetricsInterval }

def decoder : Decoder Config :=
  record "struct Config" ofItems fun room members => do
    let d ← members.fold (Draft.member room) {}
    return { destinations := d.destinations.getD [], monitors := d.monitors.getD [],
             globalLabels := d.globalLabels.getD none,
             selfMetricsInterval := d.selfMetricsInterval.getD none }

/-- The first monitor without a model. -/
def nameless? (c : Config) : Option MonitorSpec := c.monitors.find? fun m => m.model.name = ""

/-- What is wrong with the text of a configuration, or the configuration. -/
def read (text : String) : Except String Config :=
  match decode decoder text with
  | .error e => .error e.message
  | .ok c =>
    match c.nameless? with
    | some m => .error s!"monitor `{m.name}`: empty model name"
    | none => .ok c

def parse (text : String) : Except Error Config := (read text).mapError Error.config

/-- The content of a file, or why there is none. -/
abbrev FileContent := Except String Bytes

/-- The configuration in the file at `path`. -/
def parseFile (path : String) (content : FileContent) : Except Error Config :=
  match content with
  | .error detail => .error (.config s!"read {path}: {detail}")
  | .ok b =>
    match Text.decode? b with
    | none => .error (.config s!"read {path}: stream did not contain valid UTF-8")
    | some text => (read text).mapError fun e => .config s!"{path}: {e}"

end Config

end MetricRelay
