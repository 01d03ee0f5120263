import MetricRelay.Collector.Config
import MetricRelay.Writer.Basic

/-!
# Arguments

`Args.parse` reads the arguments of the command. Every option has a long name and takes a value,
beside it or behind an equals sign, but for the flag; none may be given twice. A value beside its
option is looked at only when the next option or the end is reached, so an unknown argument after it
is reported first.
-/

namespace MetricRelay

structure Args where
  metricsBindAddress : String := ":8080"
  healthProbeBindAddress : String := ":8081"
  leaderElect : Bool := false
  logLevel : String := "info"
  maxWriterQueueSize : UInt64 := 1000000
  writerBatch : UInt64 := 1000
  region : String := "local"
  config : String := "config.json"
  deriving DecidableEq, Repr

namespace Args

def writerSettings (a : Args) : WriterSettings :=
  { queueCapacity := a.maxWriterQueueSize.toNat, batchSize := a.writerBatch.toNat }

inductive OptionName where
  | metricsBindAddress
  | healthProbeBindAddress
  | logLevel
  | maxWriterQueueSize
  | writerBatch
  | region
  | config
  deriving DecidableEq, Repr

/-- What a long name stands for. -/
inductive LongName where
  | option (o : OptionName)
  | leaderElect
  | help
  | version
  deriving DecidableEq, Repr

def longNames : List (String × LongName) :=
  [("metrics-bind-address", .option .metricsBindAddress),
    ("health-probe-bind-address", .option .healthProbeBindAddress),
    ("leader-elect", .leaderElect), ("log-level", .option .logLevel),
    ("max-writer-queue-size", .option .maxWriterQueueSize),
    ("writer-batch", .option .writerBatch), ("region", .option .region),
    ("config", .option .config), ("help", .help), ("version", .version)]

/-- Why no arguments come out. -/
inductive Stop where
  | help
  | version
  | unknownArgument
  /-- An option without its value. -/
  | missingValue
  /-- A value that is not a number of 64 bits. -/
  | badValue
  | repeated
  /-- A value for a flag. -/
  | unneededValue
  deriving DecidableEq, Repr

/-- The state of the process after it. -/
def Stop.exitCode : Stop → Nat
  | .help => 0
  | .version => 0
  | _ => 2

/-- The arguments so far, and the option whose value has not been looked at. -/
structure Reader where
  args : Args := {}
  given : List OptionName := []
  flagGiven : Bool := false
  pending : Option (OptionName × Option String) := none

/-- A number of 64 bits, with an optional plus sign. -/
def word? (s : String) : Option UInt64 :=
  match ConfigMap.naturalOfChars? (match s.toList with
    | '+' :: r => r
    | r => r) with
  | some n => if n < UInt64.size then some (UInt64.ofNat n) else none
  | none => none

def needWord (s : String) : Except Stop UInt64 :=
  match word? s with
  | some n => .ok n
  | none => .error .badValue

def setValue (a : Args) (v : String) : OptionName → Except Stop Args
  | .metricsBindAddress => .ok { a with metricsBindAddress := v }
  | .healthProbeBindAddress => .ok { a with healthProbeBindAddress := v }
  | .logLevel => .ok { a with logLevel := v }
  | .maxWriterQueueSize => do return { a with maxWriterQueueSize := ← needWord v }
  | .writerBatch => do return { a with writerBatch := ← needWord v }
  | .region => .ok { a with region := v }
  | .config => .ok { a with config := v }

namespace Reader

/-- Takes the value of an option that is given for the first time. -/
def take (r : Reader) (o : OptionName) (v : String) : Except Stop Reader :=
  if r.given.contains o then .error .repeated
  else do return { r with args := ← r.args.setValue v o, given := o :: r.given }

/-- Looks at the value that is pending. -/
def resolve (r : Reader) : Except Stop Reader :=
  match r.pending with
  | none => .ok r
  | some (_, none) => .error .missingValue
  | some (o, some v) => { r with pending := none }.take o v

def long (r : Reader) (name : String) (value : Option String) : Except Stop Reader :=
  match longNames.lookup name with
  | none => .error .unknownArgument
  | some (.option o) => do
    let r ← r.resolve
    match value with
    | some v => r.take o v
    | none => return { r with pending := some (o, none) }
  | some flag =>
    if value.isSome then .error .unneededValue
    else do
      let r ← r.resolve
      match flag with
      | .help => throw .help
      | .version => throw .version
      | _ =>
        if r.flagGiven then throw .repeated
        return { r with args := { r.args with leaderElect := true }, flagGiven := true }

/-- The first letter after a single hyphen decides. -/
def short (r : Reader) (c : Char) : Except Stop Reader := do
  if c = 'h' then
    let _ ← r.resolve
    throw .help
  else if c = 'V' then
    let _ ← r.resolve
    throw .version
  else throw .unknownArgument

/-- An argument that is no option: the value that is waited for, or unknown. -/
def plain (r : Reader) (s : String) : Except Stop Reader :=
  match r.pending with
  | some (o, none) => .ok { r with pending := some (o, some s) }
  | _ => .error .unknownArgument

/-- A name, and what stands behind its first equals sign. -/
def splitEquals (s : List Char) : String × Option String :=
  match s.span (· ≠ '=') with
  | (name, _ :: value) => (String.ofList name, some (String.ofList value))
  | (name, []) => (String.ofList name, none)

/-- Reads up to the end, or to a double hyphen, after which nothing may come. -/
def all (r : Reader) : List String → Except Stop Reader
  | [] => r.resolve
  | s :: more =>
    match s.toList with
    | ['-', '-'] => if more = [] then r.resolve else .error .unknownArgument
    | '-' :: '-' :: rest => do
      let (name, value) := splitEquals rest
      (← r.long name value).all more
    | '-' :: c :: _ => do (← r.short c).all more
    | _ => do (← r.plain s).all more

end Reader

/-- The environment's log level stands in for an option that is not given. -/
def parse (argv : List String) (environment : Option String) : Except Stop Args := do
  let r ← Reader.all {} argv
  match environment with
  | some v => return if r.given.contains .logLevel then r.args else { r.args with logLevel := v }
  | none => return r.args

end Args

end MetricRelay
