import MetricRelay.Error
import MetricRelay.Schedule.Lane
import MetricRelay.Table
import MetricRelay.Text.Quoted

/-!
# The scheduler

The `Scheduler` is a table of named tasks, each with a lane of loops. Stopping a task takes it out
of the table at once; its lane, cancelled, is kept among those that leave until its last loop has
ended.
-/

namespace MetricRelay.Schedule

structure Task (ω β : Type) where
  /-- Of the last loop that was asked for. -/
  period : Option Duration := none
  lane : Lane ω β := .empty

/-- A lane whose task has been stopped. -/
structure Departure (ω β : Type) where
  id : Nat
  name : String
  lane : Lane ω β

end Schedule

open Schedule

structure Scheduler (ω β : Type) where
  tasks : Table (Task ω β) := .empty
  /-- Oldest first. -/
  leaving : List (Departure ω β) := []
  /-- How many tasks have been stopped. -/
  stops : Nat := 0

namespace Scheduler

variable {ω β : Type}

/-- Registers a name; one that is there keeps its loops. -/
def add (s : Scheduler ω β) (name : String) : Scheduler ω β :=
  { s with tasks := s.tasks.insertNew name {} }

def exists? (s : Scheduler ω β) (name : String) : Bool := s.tasks.contains name

/-- Whether a task has a loop that has not ended. -/
def isRunning (s : Scheduler ω β) (name : String) : Bool :=
  (s.tasks.get? name).any fun t => !t.lane.isEmpty

def period (s : Scheduler ω β) (name : String) : Option Duration :=
  (s.tasks.get? name).bind Task.period

/-- Asks for a loop of a task, in place of the one it has. -/
def run (s : Scheduler ω β) (name : String) (period : Duration) (work : ω) :
    Except Error Unit × Scheduler ω β :=
  if h : 0 < period.nanos then
    match s.tasks.get? name with
    | none => (.error (.notRegistered .task name), s)
    | some t =>
      let lane := t.lane.replace { work, period := period.nanos, period_pos := h }
      (.ok (), { s with tasks := s.tasks.insert name { period := some period, lane } })
  else (.error (.config s!"task `{name}`: period must be > 0"), s)

/-- Takes a task out of the table and cancels its loops; the number of its departure. -/
def beginStop (s : Scheduler ω β) (name : String) : Option Nat × Scheduler ω β :=
  match s.tasks.get? name with
  | none => (none, s)
  | some t =>
    (some s.stops,
      { tasks := s.tasks.erase name
        leaving := s.leaving ++ [⟨s.stops, name, t.lane.cancel⟩]
        stops := s.stops + 1 })

/-- Whether the lane of a departure has ended. -/
def hasLeft (s : Scheduler ω β) (id : Nat) : Bool :=
  s.leaving.all fun d => d.id ≠ id || d.lane.isEmpty

/-- The lane of a task, or the one that leaves under its name. -/
def lane? (s : Scheduler ω β) (name : String) : Option (Lane ω β) :=
  ((s.tasks.get? name).map Task.lane).or
    ((s.leaving.find? fun d => d.name = name).map Departure.lane)

def setLane (s : Scheduler ω β) (name : String) (lane : Lane ω β) : Scheduler ω β :=
  if s.exists? name then { s with tasks := s.tasks.modify name fun t => { t with lane } }
  else { s with leaving := s.leaving.map fun d => if d.name = name then { d with lane } else d }

/-- Forgets the lanes that have ended. -/
def forgetEnded (s : Scheduler ω β) : Scheduler ω β :=
  { s with leaving := s.leaving.filter fun d => !d.lane.isEmpty }

def text (s : Scheduler ω β) : String :=
  "Scheduler \x7b tasks: " ++ Text.quoteList s.tasks.keys ++ " \x7d"

end Scheduler

end MetricRelay
