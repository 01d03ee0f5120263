import MetricRelay.CommandLine.Service

/-!
# The command

Reads arguments, environment and configuration file, starts the relay and keeps it in step with the
clock until standard input ends; then it shuts the relay down. This build has no transport: every
destination counts as unreachable.
-/

namespace MetricRelay.Command

def help : String :=
  String.intercalate "\n" [
    "Schedules pluggable metric collectors and forwards their samples to remote-write endpoints",
    "",
    "Usage: monitor-relay [OPTIONS]",
    "",
    "Options:",
    "      --metrics-bind-address <METRICS_BIND_ADDRESS>            [default: :8080]",
    "      --health-probe-bind-address <HEALTH_PROBE_BIND_ADDRESS>  [default: :8081]",
    "      --leader-elect",
    "      --log-level <LOG_LEVEL>                                  [env: LOG_LEVEL=] [default: info]",
    "      --max-writer-queue-size <MAX_WRITER_QUEUE_SIZE>          [default: 1000000]",
    "      --writer-batch <WRITER_BATCH>                            [default: 1000]",
    "      --region <REGION>                                        [default: local]",
    "      --config <CONFIG>                                        [default: config.json]",
    "  -h, --help",
    "  -V, --version"]

def usageText : Args.Stop → String
  | .unknownArgument => "error: unexpected argument"
  | .missingValue => "error: a value is required"
  | .badValue => "error: invalid value"
  | .repeated => "error: an argument cannot be used multiple times"
  | .unneededValue => "error: unexpected value"
  | _ => ""

/-- The reason why a file cannot be read. -/
def fileFault (e : IO.Error) : String :=
  match e with
  | .noFileOrDirectory .. => "No such file or directory (os error 2)"
  | .permissionDenied .. => "Permission denied (os error 13)"
  | .inappropriateType _ 20 _ => "Not a directory (os error 20)"
  | .inappropriateType .. => "Is a directory (os error 21)"
  | e => toString e

def readFile (path : String) : IO Config.FileContent := do
  try
    return .ok (← IO.FS.readBinFile path).data.toList
  catch e => return .error (fileFault e)

/-! ## Clock and process -/

/-- The numbers in a text, in order. -/
def numbers (s : String) : List Nat :=
  (Text.splitOn ' ' (s.toList.map fun c => if c.isDigit then c else ' ')).filterMap
    ConfigMap.naturalOfChars?

/-- The first line that begins with a word. -/
def lineOf (word s : String) : String :=
  String.ofList (((Text.splitOn '\n' s.toList).find? fun l => word.toList.isPrefixOf l).getD [])

def readText (path : String) : IO String := do
  try IO.FS.readFile path
  catch _ => return ""

/-- Hundredths of a second since the system was started. -/
def uptime : IO Nat := do
  match numbers (← readText "/proc/uptime") with
  | s :: h :: _ => return s * 100 + h
  | _ => return 0

/-- When the system was started, in seconds since the epoch. -/
def bootTime : IO Nat := do
  return ((numbers (lineOf "btime" (← readText "/proc/stat"))).head?).getD 0

def processStats : IO (Option ProcessStats) := do
  let fields := numbers ((← readText "/proc/self/stat").dropWhile (· ≠ ')') |>.toString)
  if fields = [] then return none
  let field (i : Nat) : Nat := fields[i]?.getD 0
  let pages := (numbers (← readText "/proc/self/statm"))[1]?.getD 0
  let age := (← uptime) - field 18
  return some {
    residentBytes := UInt64.ofNat (pages * 4096)
    cpuPercent := Binary64.ofRatio false ((field 10 + field 11) * 100) (max age 1)
    uptimeSeconds := UInt64.ofNat (age / 100) }

/-- The surroundings as they are now; `start` is the instant that the relay began at. -/
def surroundings (boot start : Nat) : IO Surroundings := do
  let process ← processStats
  return {
    network := .unreachable
    date := fun t =>
      let millis := start * 10 + t
      ⟨boot + millis / 1000, millis % 1000 * 1000000⟩
    process := fun _ => process }

/-! ## Running -/

def log (filter : LogFilter) (l : LogLine) : IO Unit := do
  if filter.passes Service.logTarget l then
    IO.eprintln ("[" ++ l.level.text ++ " " ++ Service.logTarget ++ "] " ++ l.text)

/-- Lets the relay act at every instant at which something is due, until the input ends. -/
partial def keepUp (boot start : Nat) (input : Task (Except IO.Error String)) (r : Relay Probe) :
    IO (Relay Probe) := do
  let s ← surroundings boot start
  let now := ((← uptime) - start) * 10
  let r := r.advance s (now - r.clock)
  if ← IO.hasFinished input then return r
  let next := (r.nextTime?.getD (now + 1000)) - now
  IO.sleep (UInt32.ofNat (max 10 (min next 1000)))
  keepUp boot start input r

def serve (args : Args) (config : Config) : IO UInt32 := do
  let filter := LogFilter.parse args.logLevel
  let boot ← bootTime
  let start ← uptime
  let s ← surroundings boot start
  let started := Service.start s args config
  for l in started.log do log filter l
  let input ← IO.asTask (do (← IO.getStdin).getLine)
  let r ← keepUp boot start input started.relay
  log filter Service.farewell
  let _ := r.perform (← surroundings boot start) .shutDown
  return 0

end MetricRelay.Command

open MetricRelay in
def main (argv : List String) : IO UInt32 := do
  match Args.parse argv (← IO.getEnv "LOG_LEVEL") with
  | .error .help =>
    IO.println Command.help
    return 0
  | .error .version =>
    IO.println (Service.name ++ " " ++ Service.version)
    return 0
  | .error stop =>
    IO.eprintln (Command.usageText stop)
    return UInt32.ofNat stop.exitCode
  | .ok args =>
    match Config.parseFile args.config (← Command.readFile args.config) with
    | .error e =>
      IO.eprintln ("Error: " ++ e.message)
      return 1
    | .ok config => Command.serve args config
